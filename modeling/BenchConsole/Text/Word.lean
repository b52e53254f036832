/-!
# Words compared without regard to ASCII case

Keywords, function names and parameter names are looked up ignoring the case of the 26 ASCII
letters; every other character has to agree exactly. Names and string values are also
*bounded*: at most `maxTextLength` characters of them are kept.
-/

namespace BenchConsole.Text

/-- Lower case for ASCII letters, the character itself otherwise. -/
def lower (cs : List Char) : List Char :=
  cs.map Char.toLower

/-- Upper case for ASCII letters, the character itself otherwise. -/
def upper (cs : List Char) : List Char :=
  cs.map Char.toUpper

/-- Two words are the same up to the case of ASCII letters. -/
def sameWord (a b : List Char) : Bool :=
  lower a == lower b

/-- `sameWord` on strings. -/
def sameName (a b : String) : Bool :=
  sameWord a.toList b.toList

/-- The most characters kept of a function name, an argument name or a string value. -/
def maxTextLength : Nat := 31

/-- Keeps the first `maxTextLength` characters of a text. -/
def bounded (cs : List Char) : List Char :=
  cs.take maxTextLength

end BenchConsole.Text
