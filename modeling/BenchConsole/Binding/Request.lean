import BenchConsole.Binding
import BenchConsole.Board

/-!
# Requests of bound commands

A bound command stands for exactly one request to the hardware. What can still go wrong is an
integer that does not fit the request's field, or a word that names no direction and no pull.
-/

namespace BenchConsole

open Board Text

/-- The direction that a word names, in any case of its letters. -/
def directionOfWord (word : String) : Except Failure Direction :=
  let lowered := String.ofList (lower word.toList)
  if lowered = "input" ∨ lowered = "in" then .ok .input
  else if lowered = "output" ∨ lowered = "out" then .ok .output
  else .error (.invalidParameterType ("unknown direction '" ++ lowered ++ "'"))

/-- The pull that a word names, in any case of its letters. -/
def pullOfWord (word : String) : Except Failure Pull :=
  let lowered := String.ofList (lower word.toList)
  if lowered = "none" ∨ lowered = "off" then .ok .none
  else if lowered = "up" then .ok .up
  else if lowered = "down" then .ok .down
  else .error (.invalidParameterType ("unknown pull '" ++ lowered ++ "'"))

namespace Binding

/-- The request that a bound command stands for. -/
def request (b : Binding) : Except Failure Request :=
  match b.category, b.action with
  | .gpio, .set => do return .gpio (.set (← b.uint8 "pin") (← b.level "value"))
  | .gpio, .get => do return .gpio (.get (← b.uint8 "pin"))
  | .gpio, .direction => do
    let direction ← directionOfWord (← b.text "direction")
    return .gpio (.direction (← b.uint8 "pin") direction)
  | .gpio, .pulls => do
    let pull ← pullOfWord (← b.text "pull")
    return .gpio (.pulls (← b.uint8 "pin") pull)
  | .nodes, .connect => do
    return .nets (.connect (← b.uint16 "a") (← b.uint16 "b") (b.flagOrTrue "save"))
  | .nodes, .disconnect => do
    return .nets (.disconnect (← b.uint16 "a") (← b.uint16 "b") (b.flagOrTrue "save"))
  | .nodes, .clear => .ok (.nets (.clear (b.flagOrTrue "save")))
  | .nodes, .check => do return .nets (.connected (← b.uint16 "a") (← b.uint16 "b"))
  | .dac, .set => do
    return .analog
      (.dacSet (← b.uint8 "channel") (← b.number "voltage") (b.flagOrTrue "save"))
  | .dac, .get => do return .analog (.dacGet (← b.uint8 "channel"))
  | .adc, .get => do return .analog (.adcGet (← b.uint8 "channel"))
  | .currentSense, .current => do
    return .analog (.sense (← b.uint8OrZero "sensor") .current)
  | .currentSense, .shuntVoltage => do
    return .analog (.sense (← b.uint8OrZero "sensor") .shuntVoltage)
  | .currentSense, .busVoltage => do
    return .analog (.sense (← b.uint8OrZero "sensor") .busVoltage)
  | .currentSense, .power => do
    return .analog (.sense (← b.uint8OrZero "sensor") .power)
  | .config, .get => do return .config (.get (← b.text "section") (← b.text "key"))
  | .config, .set => do
    return .config (.set (← b.text "section") (← b.text "key") (← b.text "value"))
  | .config, .reset => .ok (.config .reset)
  | .target, .reset => .ok (.target .reset)
  | .target, .flash => .ok (.target .flash)
  | .uart, .connect => .ok (.target .uartConnect)
  | .uart, .disconnect => .ok (.target .uartDisconnect)
  | .uart, .set => do return .target (.uartSetBaud (← b.uint32 "baud"))
  | .uart, .get => .ok (.target .uartGetBaud)
  | .probe, .simulate => do return .probe (.simulate (← b.uint16 "node"))
  | .probe, .get => .ok (.probe .read)
  | .wheel, .simulate => do return .wheel (.simulate (← b.int64 "delta"))
  | .wheel, .get => .ok (.wheel .get)
  | .oled, .print => do return .oled (.print (← b.text "text"))
  | .oled, .clear => .ok (.oled .clear)
  | .oled, .connect => .ok (.oled .connect)
  | .oled, .disconnect => .ok (.oled .disconnect)
  | .display, .print => .ok (.nets .list)
  | .display, .set => do
    return .displayMode (.set (String.ofList (lower (← b.text "mode").toList)))
  | .display, .get => .ok (.displayMode .get)
  | .slot, .load => do return .nets (.loadSlot (← b.uint8 "slot"))
  | .slot, .save => do return .nets (.saveSlot (← b.uint8 "slot"))
  | .slot, .clear => do return .nets (.clearSlot (← b.uint8 "slot"))
  | .slot, .get => .ok (.nets .currentSlot)
  | .panel, .set => do return .panel (.setBrightness (← b.uint8 "brightness"))
  | .panel, .get => .ok (.panel .getBrightness)
  | category, action => .error (.invalidSubaction category.name action.name)

end Binding

end BenchConsole
