import BenchConsole.Number.Shortest
import BenchConsole.Text.Blank
import BenchConsole.Text.Quote
import BenchConsole.Text.Word

/-!
# Literal values

A `Literal` is the value of one argument. Reading never fails: `Literal.ofChars` takes a text that
is not a boolean, a quoted text, a float or an integer for a bare word. `Literal.chars` writes a
literal so that it reads back as the same value; a text is written between quotation marks, the
double ones unless it contains one.
-/

namespace BenchConsole

open Text Number

/-- A value of an argument. `absent` is the value that is not there: it is never read. -/
inductive Literal where
  | absent
  | int (value : Int64)
  | float (value : Float)
  | string (value : String)
  | bool (value : Bool)
  deriving DecidableEq

namespace Literal

def typeName : Literal → String
  | absent => "none"
  | int _ => "int"
  | float _ => "float"
  | string _ => "string"
  | bool _ => "bool"

/-- An integer or a float as a float. -/
def number? : Literal → Option Float
  | int v => some (Binary64.ofInt v.toInt)
  | float v => some v
  | _ => none

/-- The mark that a text is quoted with. -/
def quoteMark (cs : List Char) : Char :=
  if '"' ∈ cs then '\'' else '"'

/-- A text between quotation marks. -/
def quoted (cs : List Char) : List Char :=
  quoteMark cs :: cs ++ [quoteMark cs]

/-- A truth value as a word. -/
def boolText (b : Bool) : List Char :=
  if b then "true".toList else "false".toList

def chars : Literal → List Char
  | absent => []
  | int v => intText v.toInt
  | float v => pointedText v
  | string s => quoted s.toList
  | bool b => boolText b

def render (v : Literal) : String :=
  String.ofList v.chars

/-- What stands between the first and the last character, when these are the same quotation mark
and not one and the same character. -/
def interior? : List Char → Option (List Char)
  | [] => none
  | mark :: cs => if isQuote mark && cs.getLast? == some mark then some cs.dropLast else none

/-- A bare word: quotation marks at the ends do not belong to it, nor do blanks before the marks at
its end. -/
def bareWord (cs : List Char) : List Char :=
  trimEnd (dropEndWhile isQuote (cs.dropWhile isQuote))

/-- The float of a text with a point, if it reads as a finite one. -/
def readFinite? (cs : List Char) : Option Float :=
  if '.' ∈ cs then (readFloat? cs).filter Float.isFinite else none

/-- Reads a literal whose text has no blanks around it. -/
def ofTrimmed (cs : List Char) : Literal :=
  if sameWord cs "true".toList then bool true
  else if sameWord cs "false".toList then bool false
  else
    match interior? cs with
    | some inner => string (String.ofList (bounded inner))
    | none =>
      match readFinite? cs with
      | some v => float v
      | none =>
        match readInt64? cs with
        | some v => int v
        | none => string (String.ofList (bounded (bareWord cs)))

def ofChars (cs : List Char) : Literal :=
  ofTrimmed (trim cs)

def parse (s : String) : Literal :=
  ofChars s.toList

end Literal

end BenchConsole
