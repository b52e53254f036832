import BenchConsole.Number.Shortest

/-!
# Faults of the board

The reasons for which hardware refuses a request, with their texts, and those for which a request
ends the program that makes it.
-/

namespace BenchConsole.Board

open Number

/-- Why hardware refused a request. -/
inductive Fault where
  /-- There is no `what` number `index`; the numbers are below `limit`. -/
  | outOfRange (what : String) (index limit : Int)
  | voltageOutOfRange (value min max : Float)
  | notConnected (what : String)
  | unknownConfigKey (sectionName key : String)
  | failed (reason : String)
  deriving DecidableEq

/-- A float with a fixed number of places. -/
def fixed (places : Nat) (x : Float) : String :=
  String.ofList (fixedText places x)

def Fault.message : Fault → String
  | outOfRange what index limit =>
    what ++ " " ++ toString index ++ " out of range (0.." ++ toString limit ++ ")"
  | voltageOutOfRange value min max =>
    fixed 3 value ++ " V outside range " ++ fixed 1 min ++ ".." ++ fixed 1 max ++ " V"
  | notConnected what => what ++ " is not connected"
  | unknownConfigKey sectionName key => "unknown config key " ++ sectionName ++ "." ++ key
  | failed reason => reason

/-- Why a request gets no reply. All but a refusal end the program. -/
inductive Stop where
  | refused (fault : Fault)
  /-- An array has no entry at an index. -/
  | outOfBounds
  /-- A counter is at the end of its range. -/
  | overflow
  deriving DecidableEq

/-- An outcome whose only failures are refusals. -/
def refusing {α : Type} (outcome : Except Fault α) : Except Stop α :=
  outcome.mapError .refused

@[simp] theorem refusing_ok {α : Type} (a : α) : refusing (.ok a) = .ok a :=
  rfl

@[simp] theorem refusing_error {α : Type} (fault : Fault) :
    refusing (.error fault : Except Fault α) = .error (.refused fault) :=
  rfl

/-- What stands for a stop where an answer is due. After all but a refusal nobody is left to whom
it could be told. -/
def Stop.fault : Stop → Fault
  | refused fault => fault
  | outOfBounds => .failed "index out of bounds"
  | overflow => .failed "attempt to add with overflow"

end BenchConsole.Board
