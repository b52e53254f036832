import BenchConsole.Text.Blank

/-!
# Lines and line endings

A line ends at a line feed, and a carriage return just before the line feed belongs to the
ending. The console wants every ending written as carriage return and line feed, which
`withCrlfEndings` arranges: there, a carriage return alone ends a line too.
-/

namespace BenchConsole.Text

/-- The lines of a text, without their endings. A text that ends in a line feed has no further
empty line after it. -/
def lines : List Char → List (List Char)
  | [] => []
  | '\n' :: cs => [] :: lines cs
  | '\r' :: '\n' :: cs => [] :: lines cs
  | c :: cs =>
    match lines cs with
    | [] => [[c]]
    | line :: rest => (c :: line) :: rest

/-- Writes each line ending as carriage return and line feed. -/
def crlfEndings : List Char → List Char
  | [] => []
  | '\r' :: '\n' :: cs => '\r' :: '\n' :: crlfEndings cs
  | '\r' :: cs => '\r' :: '\n' :: crlfEndings cs
  | '\n' :: cs => '\r' :: '\n' :: crlfEndings cs
  | c :: cs => c :: crlfEndings cs

/-- Writes each line ending that way and adds one at the end where it is missing. -/
def withCrlfEndings (cs : List Char) : List Char :=
  let out := crlfEndings cs
  if ['\r', '\n'].isSuffixOf out then out else out ++ ['\r', '\n']

/-- The characters that make up line endings. -/
def isLineEnd (c : Char) : Bool :=
  c == '\r' || c == '\n'

/-- Takes every line-ending character off the end of a text. -/
def dropLineEnds (cs : List Char) : List Char :=
  dropEndWhile isLineEnd cs

end BenchConsole.Text
