import BenchConsole.Board.Analog
import BenchConsole.Board.ConfigStore
import BenchConsole.Board.FrontPanel
import BenchConsole.Board.Gpio
import BenchConsole.Board.Nets
import BenchConsole.Board.Target

/-!
# The board

A board is its limits and its peripherals. A request is addressed to one peripheral, which alone
answers it and alone changes; a request that gets no reply changes nothing. `Hardware` is all that
the rest of the library knows of a board: something that answers requests. `Board.simulated` is the
hardware whose states are boards held in memory. It has an answer to requests that end the program,
too, but no program goes on to hear it.
-/

namespace BenchConsole

/-- One operation of the hardware, addressed to a peripheral. -/
inductive Board.Request where
  | gpio (request : Gpio.Request)
  | nets (request : Nets.Request)
  | analog (request : Analog.Request)
  | config (request : ConfigStore.Request)
  | target (request : Target.Request)
  | probe (request : Probe.Request)
  | wheel (request : Wheel.Request)
  | oled (request : Oled.Request)
  | displayMode (request : DisplayMode.Request)
  | panel (request : Panel.Request)
  deriving DecidableEq

open Board

/-- Anything with states `σ` that answers requests, each one with a new state. -/
structure Hardware (σ : Type) where
  handle : Request → σ → Except Fault Reply × σ

structure Board where
  limits : Limits
  gpio : Gpio
  nets : Nets
  analog : Analog
  config : ConfigStore
  target : Target
  probe : Probe
  wheel : Wheel
  oled : Oled
  displayMode : DisplayMode
  panel : Panel
  deriving DecidableEq

namespace Board

def new (limits : Limits) : Board where
  limits
  gpio := Gpio.new limits.gpioPins
  nets := Nets.new limits
  analog := Analog.new limits
  config := ConfigStore.default
  target := { uartBaud := limits.uartBaud }
  probe := {}
  wheel := {}
  oled := {}
  displayMode := .nets
  panel := {}

/-- Pins a reading to an input channel. -/
def withReading (board : Board) (channel : UInt8) (volts : Float) : Board :=
  { board with analog := board.analog.pinReading channel volts }

/-- Sets the current through a sensor. -/
def withCurrent (board : Board) (sensor : UInt8) (milliamps : Float) : Board :=
  { board with analog := board.analog.setCurrent sensor milliamps }

def isConnected (board : Board) (a b : UInt16) : Bool :=
  board.nets.live.contains (.between a b)

/-- Puts the new state of a peripheral back into its board. -/
def replied {α : Type} (put : α → Board) (outcome : Except Stop (Reply × α)) :
    Except Stop (Reply × Board) :=
  outcome.map fun (reply, part) => (reply, put part)

def handle (board : Board) : Request → Except Stop (Reply × Board)
  | .gpio r => replied ({ board with gpio := · }) (refusing (board.gpio.handle r))
  | .nets r => replied ({ board with nets := · }) (refusing (board.nets.handle board.limits r))
  | .analog r =>
    replied ({ board with analog := · }) (refusing (board.analog.handle board.limits r))
  | .config r => replied ({ board with config := · }) (refusing (board.config.handle r))
  | .target r => replied ({ board with target := · }) (board.target.handle r)
  | .probe r => replied ({ board with probe := · }) (refusing (board.probe.handle board.limits r))
  | .wheel r => replied ({ board with wheel := · }) (refusing (board.wheel.handle r))
  | .oled r => replied ({ board with oled := · }) (refusing (board.oled.handle r))
  | .displayMode r =>
    replied ({ board with displayMode := · }) (refusing (board.displayMode.handle r))
  | .panel r => replied ({ board with panel := · }) (refusing (board.panel.handle r))

/-- Simulated boards as hardware: what a board gives no reply to leaves it as it was. -/
def simulated : Hardware Board where
  handle request board :=
    match board.handle request with
    | .ok (reply, board) => (.ok reply, board)
    | .error stop => (.error stop.fault, board)

end Board

end BenchConsole
