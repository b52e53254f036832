import BenchConsole.Board.Limits
import BenchConsole.Board.Reply

/-!
# Probe, wheel, small display, display mode and brightness

The small peripherals of a board, each with a state of its own.
-/

namespace BenchConsole.Board

/-! ## Probe -/

inductive Probe.Request where
  | read
  | simulate (node : UInt16)
  deriving DecidableEq

/-- The probe, with the node that it touches. -/
structure Probe where
  node : Option UInt16 := none
  deriving DecidableEq

/-- Answers a request; a probe that touches nothing reads as minus one. -/
def Probe.handle (limits : Limits) (probe : Probe) : Probe.Request → Except Fault (Reply × Probe)
  | .read =>
    match probe.node with
    | some node => .ok (.int (Int64.ofNat node.toNat), probe)
    | none => .ok (.int (-1), probe)
  | .simulate node => do
    requireNode limits node
    return (.done, ⟨some node⟩)

/-! ## Wheel -/

inductive Wheel.Request where
  | get
  | simulate (delta : Int64)
  deriving DecidableEq

structure Wheel where
  position : Int64 := 0
  deriving DecidableEq

/-- Answers a request; the position stays at the ends of its range. -/
def Wheel.handle (wheel : Wheel) : Wheel.Request → Except Fault (Reply × Wheel)
  | .get => .ok (.int wheel.position, wheel)
  | .simulate delta =>
    .ok (.done, ⟨Int64.ofIntClamp (wheel.position.toInt + delta.toInt)⟩)

/-! ## Small display -/

inductive Oled.Request where
  | print (text : String)
  | clear
  | connect
  | disconnect
  deriving DecidableEq

structure Oled where
  connected : Bool := false
  text : String := ""
  deriving DecidableEq

/-- Answers a request; only a connected display prints. -/
def Oled.handle (oled : Oled) : Oled.Request → Except Fault (Reply × Oled)
  | .print text =>
    if oled.connected then .ok (.done, { oled with text }) else .error (.notConnected "oled")
  | .clear => .ok (.done, { oled with text := "" })
  | .connect => .ok (.done, { oled with connected := true })
  | .disconnect => .ok (.done, { oled with connected := false })

/-! ## Display mode -/

inductive DisplayMode where
  | nets
  | rails
  | off
  deriving DecidableEq

namespace DisplayMode

def name : DisplayMode → String
  | nets => "nets"
  | rails => "rails"
  | off => "off"

def ofName? (name : String) : Option DisplayMode :=
  [nets, rails, off].find? fun mode => mode.name == name

inductive Request where
  | set (name : String)
  | get
  deriving DecidableEq

def handle (mode : DisplayMode) : Request → Except Fault (Reply × DisplayMode)
  | .set name =>
    match ofName? name with
    | some mode => .ok (.done, mode)
    | none => .error (.failed ("unknown display mode '" ++ name ++ "'"))
  | .get => .ok (.text mode.name, mode)

end DisplayMode

/-! ## Brightness -/

inductive Panel.Request where
  | setBrightness (level : UInt8)
  | getBrightness
  deriving DecidableEq

structure Panel where
  brightness : UInt8 := 32
  deriving DecidableEq

def Panel.handle (panel : Panel) : Panel.Request → Except Fault (Reply × Panel)
  | .setBrightness level => .ok (.done, ⟨level⟩)
  | .getBrightness => .ok (.int (Int64.ofNat panel.brightness.toNat), panel)

end BenchConsole.Board
