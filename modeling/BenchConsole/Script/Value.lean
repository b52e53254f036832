import BenchConsole.Answer

/-!
# Script values

The values of a script's global variables, and their source literals. A text is written between
double quotes with a backslash in front of a quote or backslash, and with `\n` and `\r` for line
ends, so that a literal never spans two lines.
-/

namespace BenchConsole.Script

open Number

inductive Value where
  | none
  | bool (value : Bool)
  | int (value : Int64)
  | float (value : Float)
  | str (value : String)
  deriving DecidableEq

namespace Value

def escapeChar (c : Char) : List Char :=
  if c = '"' then ['\\', '"']
  else if c = '\\' then ['\\', '\\']
  else if c = '\n' then ['\\', 'n']
  else if c = '\r' then ['\\', 'r']
  else [c]

/-- The source literal of a value. -/
def literalChars : Value → List Char
  | none => "None".toList
  | bool b => if b then "True".toList else "False".toList
  | int v => intText v.toInt
  | float x =>
    if x.isFinite then pointedText x
    else "float('".toList ++ floatText x ++ ['\'', ')']
  | str s => '"' :: s.toList.flatMap escapeChar ++ ['"']

def literal (v : Value) : String :=
  String.ofList v.literalChars

/-- A value as it is printed: a text as it is, any other value as its literal. -/
def display : Value → String
  | str s => s
  | v => v.literal

/-- The value of an argument literal. -/
def ofLiteral : Literal → Value
  | .absent => none
  | .bool b => bool b
  | .int v => int v
  | .float x => float x
  | .string s => str s

/-- The value of an answer; an error is the text of its message. -/
def ofAnswer (a : Answer) : Value :=
  match a.tag with
  | .bool => bool (!(a.numeric == 0.0))
  | .int => int (Binary64.truncate a.numeric)
  | .float => float a.numeric
  | .string => str a.text
  | .error => str a.text

end Value

end BenchConsole.Script
