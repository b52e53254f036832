import BenchConsole.Board.Fault
import BenchConsole.Board.Reply

/-!
# Pins

Each pin has a direction, a pull and the level that it drives as an output. Setting a level makes
the pin an output. An output reads as the level it drives, an input as its pull.
-/

namespace BenchConsole.Board

/-- Whether a pin is read or driven. -/
inductive Direction where
  | input
  | output
  deriving DecidableEq

/-- The resistor on a pin. -/
inductive Pull where
  | none
  | up
  | down
  deriving DecidableEq

structure Pin where
  high : Bool := false
  direction : Direction := .input
  pull : Pull := .none
  deriving DecidableEq

/-- The level that a pin reads as. -/
def Pin.level (pin : Pin) : Bool :=
  match pin.direction with
  | .output => pin.high
  | .input => pin.pull == .up

inductive Gpio.Request where
  | set (pin : UInt8) (high : Bool)
  | get (pin : UInt8)
  | direction (pin : UInt8) (direction : Direction)
  | pulls (pin : UInt8) (pull : Pull)
  deriving DecidableEq

structure Gpio where
  pins : Array Pin
  deriving DecidableEq

namespace Gpio

def new (count : UInt8) : Gpio :=
  ⟨Array.replicate count.toNat {}⟩

/-- The state of a pin, if the board has it. -/
def pin (gpio : Gpio) (index : UInt8) : Except Fault Pin :=
  match gpio.pins[index.toNat]? with
  | some pin => .ok pin
  | none => .error (.outOfRange "gpio pin" index.toNat gpio.pins.size)

/-- Changes a pin, if the board has it. -/
def modify (gpio : Gpio) (index : UInt8) (change : Pin → Pin) : Except Fault (Reply × Gpio) := do
  let pin ← gpio.pin index
  return (.done, ⟨gpio.pins.setIfInBounds index.toNat (change pin)⟩)

def handle (gpio : Gpio) : Request → Except Fault (Reply × Gpio)
  | .set index high => gpio.modify index fun pin => { pin with direction := .output, high }
  | .get index => do return (.level (← gpio.pin index).level, gpio)
  | .direction index direction => gpio.modify index fun pin => { pin with direction }
  | .pulls index pull => gpio.modify index fun pin => { pin with pull }

end Gpio

end BenchConsole.Board
