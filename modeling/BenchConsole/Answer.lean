import BenchConsole.Literal
import BenchConsole.Response

/-!
# Answers

An answer is a response line read back into a typed value. Only the text of the line counts, so
that the same line gives the same answer wherever it comes from. The value of a success is what
follows the first ` = ` outside the quotations and parentheses of the echo; it is a boolean word, a
numeral with or without a unit, or a text. Without a value the echo itself is the answer.
-/

namespace BenchConsole

open Text Number

inductive AnswerTag where
  | bool
  | int
  | float
  | string
  | error
  deriving DecidableEq

def AnswerTag.name : AnswerTag → String
  | bool => "bool"
  | int => "int"
  | float => "float"
  | string => "string"
  | error => "error"

/-- The value of a response line, with its type. -/
structure Answer where
  text : String
  tag : AnswerTag
  /-- The value of a number, one or zero for a truth value, zero for anything else. -/
  numeric : Float
  deriving DecidableEq

namespace Answer

def isError (r : Answer) : Bool :=
  r.tag == .error

def bool? (r : Answer) : Option Bool :=
  if r.tag = .bool then some (!(r.numeric == 0.0)) else none

/-- The text after the first separator outside quotations and parentheses. `inside` is the open
quotation, `depth` the number of open parentheses; a closing one too many is ignored. -/
def afterSeparator? (inside : Option Char) (depth : Nat) : List Char → Option (List Char)
  | [] => none
  | c :: cs =>
    if inside.isSome || isQuote c then afterSeparator? (nextQuote inside c) depth cs
    else if c = '(' then afterSeparator? none (depth + 1) cs
    else if c = ')' then afterSeparator? none (depth - 1) cs
    else if depth = 0 ∧ c = ' ' ∧ ['=', ' '].isPrefixOf cs then some (cs.drop 2)
    else afterSeparator? none depth cs

def value? (body : List Char) : Option (List Char) :=
  (afterSeparator? none 0 body).map trim

/-- The ASCII characters that may stand between a numeral and its unit. -/
def isUnitSpace (c : Char) : Bool :=
  c == ' ' || c == '\t' || c == '\n' || c == '\x0c' || c == '\r'

/-- A sign at the start of a text, and the rest. -/
def spanSign : List Char → List Char × List Char
  | '-' :: cs => (['-'], cs)
  | '+' :: cs => (['+'], cs)
  | cs => ([], cs)

/-- A point with the digits after it at the start of a text, and the rest. -/
def spanFraction : List Char → List Char × List Char
  | '.' :: cs => ('.' :: cs.takeWhile Char.isDigit, cs.dropWhile Char.isDigit)
  | cs => ([], cs)

/-- The numeral at the start of a value: an optional sign, digits, and an optional point with
further digits. Nothing may follow it but a space and anything after that. -/
def numeralOf? (value : List Char) : Option (List Char) :=
  let (sign, rest) := spanSign value
  let whole := rest.takeWhile Char.isDigit
  let (fraction, rest) := spanFraction (rest.dropWhile Char.isDigit)
  if whole.isEmpty then none
  else
    match rest with
    | [] => some (sign ++ whole ++ fraction)
    | c :: _ => if isUnitSpace c then some (sign ++ whole ++ fraction) else none

def ofNumeral? (numeral : List Char) : Option Answer :=
  if '.' ∈ numeral then
    (readFloat? numeral).map fun x => ⟨String.ofList numeral, .float, x⟩
  else
    (readInt64? numeral).map fun v => ⟨String.ofList numeral, .int, Binary64.ofInt v.toInt⟩

/-- The truth value that a value is a word for. The words for levels have to be in upper case. -/
def boolOfWord? (value : List Char) : Option Bool :=
  if value = "HIGH".toList then some true
  else if value = "LOW".toList then some false
  else if sameWord value "true".toList then some true
  else if sameWord value "false".toList then some false
  else none

/-- The typed value of the value in a line. -/
def ofValue (value : List Char) : Answer :=
  match boolOfWord? value with
  | some b => ⟨String.ofList value, .bool, if b then 1.0 else 0.0⟩
  | none =>
    ((numeralOf? value).bind ofNumeral?).getD ⟨String.ofList value, .string, 0.0⟩

/-- Reads a response line. A line without a mark counts as a success. -/
def ofChars (cs : List Char) : Answer :=
  let line := trim cs
  match Response.errorMark.toList.isPrefixOf? line with
  | some message => ⟨String.ofList (trim message), .error, 0.0⟩
  | none =>
    let body := trim ((Response.successMark.toList.isPrefixOf? line).getD line)
    match value? body with
    | some value => ofValue value
    | none => ⟨String.ofList body, .string, 0.0⟩

def ofLine (line : String) : Answer :=
  ofChars line.toList

def ofResponse (r : Response) : Answer :=
  ofLine r.line

end Answer

end BenchConsole
