import BenchConsole.Literal
import BenchConsole.Vocabulary

/-!
# Signatures

Each action of a category has a *signature*: the parameters it takes, with the values they accept.
-/

namespace BenchConsole

open Text

/-- The values that a parameter accepts. -/
inductive ParameterKind where
  | int
  /-- An integer or a float. -/
  | number
  /-- Any literal, taken as text. -/
  | text
  /-- A truth value, or the integer 0 or 1. -/
  | flag
  /-- A truth value, the integer 0 or 1, or one of the words `HIGH` and `LOW`. -/
  | level
  deriving DecidableEq

/-- The logic level that a word stands for. -/
def levelOfWord? (word : String) : Option Bool :=
  if sameName word "high" then some true
  else if sameName word "low" then some false
  else none

def levelWord (high : Bool) : String :=
  if high then "HIGH" else "LOW"

namespace ParameterKind

/-- How the values of a kind are described to the user. -/
def description : ParameterKind → String
  | int => "an integer"
  | number => "a number"
  | text => "a value"
  | flag => "true/false"
  | level => "HIGH/LOW"

/-- Whether a value is of a kind. -/
def accepts : ParameterKind → Literal → Bool
  | _, .absent => false
  | int, .int _ => true
  | number, .int _ => true
  | number, .float _ => true
  | text, _ => true
  | flag, .bool _ => true
  | level, .bool _ => true
  | flag, .int v => v == 0 || v == 1
  | level, .int v => v == 0 || v == 1
  | level, .string s => (levelOfWord? s).isSome
  | _, _ => false

end ParameterKind

structure Parameter where
  name : String
  kind : ParameterKind
  required : Bool := true
  deriving DecidableEq

/-- The parameters of an action on a category; `none` if the category lacks the action. -/
def signature : Category → Action → Option (List Parameter)
  | .gpio, .set => some [⟨"pin", .int, true⟩, ⟨"value", .level, true⟩]
  | .gpio, .get => some [⟨"pin", .int, true⟩]
  | .gpio, .direction => some [⟨"pin", .int, true⟩, ⟨"direction", .text, true⟩]
  | .gpio, .pulls => some [⟨"pin", .int, true⟩, ⟨"pull", .text, true⟩]
  | .nodes, .connect =>
    some [⟨"a", .int, true⟩, ⟨"b", .int, true⟩, ⟨"save", .flag, false⟩]
  | .nodes, .disconnect =>
    some [⟨"a", .int, true⟩, ⟨"b", .int, true⟩, ⟨"save", .flag, false⟩]
  | .nodes, .clear => some [⟨"save", .flag, false⟩]
  | .nodes, .check => some [⟨"a", .int, true⟩, ⟨"b", .int, true⟩]
  | .dac, .set =>
    some [⟨"channel", .int, true⟩, ⟨"voltage", .number, true⟩, ⟨"save", .flag, false⟩]
  | .dac, .get => some [⟨"channel", .int, true⟩]
  | .adc, .get => some [⟨"channel", .int, true⟩]
  | .currentSense, .current => some [⟨"sensor", .int, false⟩]
  | .currentSense, .shuntVoltage => some [⟨"sensor", .int, false⟩]
  | .currentSense, .busVoltage => some [⟨"sensor", .int, false⟩]
  | .currentSense, .power => some [⟨"sensor", .int, false⟩]
  | .config, .get => some [⟨"section", .text, true⟩, ⟨"key", .text, true⟩]
  | .config, .set =>
    some [⟨"section", .text, true⟩, ⟨"key", .text, true⟩, ⟨"value", .text, true⟩]
  | .config, .reset => some []
  | .target, .reset => some []
  | .target, .flash => some []
  | .uart, .connect => some []
  | .uart, .disconnect => some []
  | .uart, .get => some []
  | .uart, .set => some [⟨"baud", .int, true⟩]
  | .probe, .get => some []
  | .probe, .simulate => some [⟨"node", .int, true⟩]
  | .wheel, .get => some []
  | .wheel, .simulate => some [⟨"delta", .int, true⟩]
  | .oled, .print => some [⟨"text", .text, true⟩]
  | .oled, .clear => some []
  | .oled, .connect => some []
  | .oled, .disconnect => some []
  | .display, .print => some []
  | .display, .get => some []
  | .display, .set => some [⟨"mode", .text, true⟩]
  | .slot, .load => some [⟨"slot", .int, true⟩]
  | .slot, .save => some [⟨"slot", .int, true⟩]
  | .slot, .clear => some [⟨"slot", .int, true⟩]
  | .slot, .get => some []
  | .panel, .set => some [⟨"brightness", .int, true⟩]
  | .panel, .get => some []
  | _, _ => none

end BenchConsole
