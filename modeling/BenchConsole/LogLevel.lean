import BenchConsole.Number.Decimal
import BenchConsole.Text.Word

/-!
# Log levels

The levels of the log that the program writes, in the spellings that this log reads. Settings are
checked with any test for a level; the program checks them with this one.
-/

namespace BenchConsole.LogLevel

open Number Text

def names : List String :=
  ["error", "warn", "info", "debug", "trace"]

/-- The number that a text names, with an optional plus sign. -/
def unsignedText? : List Char → Option Nat
  | '+' :: cs => readNat? cs
  | cs => readNat? cs

/-- Levels go by their names, in any case, or by their numbers from one. -/
def isLevel (text : String) : Bool :=
  names.any (sameName · text) ||
    (unsignedText? text.toList).any fun n => 1 ≤ n && n ≤ names.length

end BenchConsole.LogLevel
