/-!
# Blank characters and trimming

Texts are scanned as lists of characters. A character is *blank* when Unicode gives it the
property `White_Space`; `trim` takes the blanks off both ends of a text and leaves those
inside it alone.
-/

namespace BenchConsole.Text

/-- The characters with the Unicode property `White_Space`: 25 of them. -/
def isBlank (c : Char) : Bool :=
  let n := c.toNat
  (0x09 ≤ n && n ≤ 0x0D) || n == 0x20 || n == 0x85 || n == 0xA0 || n == 0x1680 ||
    (0x2000 ≤ n && n ≤ 0x200A) || n == 0x2028 || n == 0x2029 || n == 0x202F || n == 0x205F ||
    n == 0x3000

/-- Drops the longest run at the end of `cs` whose characters all satisfy `p`. -/
def dropEndWhile (p : Char → Bool) (cs : List Char) : List Char :=
  (cs.reverse.dropWhile p).reverse

/-- Takes the blanks off the end of a text. -/
def trimEnd (cs : List Char) : List Char :=
  dropEndWhile isBlank cs

/-- Takes the blanks off both ends of a text. -/
def trim (cs : List Char) : List Char :=
  trimEnd (cs.dropWhile isBlank)

/-- `trim` on strings. -/
def trimmed (s : String) : String :=
  String.ofList (trim s.toList)

end BenchConsole.Text
