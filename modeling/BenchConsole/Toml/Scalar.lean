import BenchConsole.Number.Decimal
import BenchConsole.Toml.Value

/-!
# Scalars of a configuration document

Booleans, numbers, and dates and times are single words without blanks, except that a blank may
stand between a date and a time. `readScalar?` reads such a word. The form of a number is checked
there; `integerValue?` and `floatValue?` say what it is worth, which may be nothing.
-/

namespace BenchConsole.Toml

open Number

/-! ## Digits -/

/-- The value of a digit in bases up to sixteen. -/
def digitValue (c : Char) : Nat :=
  if c.isDigit then c.toNat - '0'.toNat else c.toLower.toNat - 'a'.toNat + 10

/-- The digits of a base up to sixteen. -/
def isDigitOf (base : Nat) (c : Char) : Bool :=
  (c.isDigit || ('a' ≤ c.toLower && c.toLower ≤ 'f')) && digitValue c < base

/-- A text without its underscores, each of which has to stand between two digits. -/
def joinDigits? (isDigit : Char → Bool) : List Char → Option (List Char)
  | [] => some []
  | '_' :: _ => none
  | [_, '_'] => none
  | c :: '_' :: d :: cs =>
    if isDigit c && isDigit d then (joinDigits? isDigit (d :: cs)).map (c :: ·) else none
  | c :: cs => (joinDigits? isDigit cs).map (c :: ·)

/-! ## The forms of numbers -/

/-- Whether digits are at least one, and not several with a zero in front. -/
def isWhole : List Char → Bool
  | [] => false
  | ['0'] => true
  | '0' :: _ => false
  | cs => cs.all Char.isDigit

/-- Whether a text is empty, or the exponent part of a float. -/
def isExponentPart : List Char → Bool
  | [] => true
  | c :: cs =>
    let digits := (splitSign cs).2
    (c == 'e' || c == 'E') && !digits.isEmpty && digits.all Char.isDigit

/-- Whether a text without sign and underscores has the form of a float. -/
def isFloatForm (cs : List Char) : Bool :=
  isWhole (cs.takeWhile Char.isDigit) &&
    match cs.dropWhile Char.isDigit with
    | '.' :: cs =>
      !(cs.takeWhile Char.isDigit).isEmpty && isExponentPart (cs.dropWhile Char.isDigit)
    | cs => isExponentPart cs

/-- An integer in a base other than ten. The digits may be missing, but then nothing can use it. -/
def radixForm? (base : Nat) (digits : List Char) : Option Value :=
  if digits.all fun c => isDigitOf base c || c == '_' then
    (joinDigits? (isDigitOf base) digits).map (.integer base)
  else none

/-- A decimal number, by its text `cs` and the same text without a sign. Where a point or an
exponent mark stands in it, it is a float. Digits with an underscore after them begin an integer,
whatever else follows. -/
def decimalForm? (cs body : List Char) : Option Value :=
  let rest := body.dropWhile Char.isDigit
  if rest.any fun c => c == '.' || c == 'e' || c == 'E' then do
    let numeral ← joinDigits? Char.isDigit cs
    if isFloatForm (splitSign numeral).2 then return .float numeral else none
  else if rest.isEmpty then
    if isWhole body then some (.integer 10 cs) else none
  else if rest.head? = some '_' ∧ body.head? ≠ some '0' then
    (joinDigits? (isDigitOf 16) cs).map (.integer 10)
  else none

/-- A number as it is written, by its text. Integers in other bases than ten have no sign. -/
def readNumber? (cs : List Char) : Option Value :=
  match cs with
  | '0' :: 'x' :: digits => radixForm? 16 digits
  | '0' :: 'o' :: digits => radixForm? 8 digits
  | '0' :: 'b' :: digits => radixForm? 2 digits
  | _ =>
    let body := (splitSign cs).2
    if body = "inf".toList ∨ body = "nan".toList then some (.float cs) else decimalForm? cs body

/-! ## The values of numbers -/

/-- The value of digits in some base. -/
def readBase? (base : Nat) (digits : List Char) : Option Int :=
  if digits.isEmpty || !digits.all (isDigitOf base) then none
  else some (digits.foldl (fun n c => n * base + digitValue c) 0 : Nat)

def integerValue? (base : Nat) (numeral : List Char) : Option Int :=
  (if base = 10 then readInt? numeral else readBase? base numeral).filter fun v =>
    -(Nat.pow 2 127 : Int) ≤ v ∧ v < Nat.pow 2 128

/-- The value of a float. A number too large for a float has none, other than `inf` itself. -/
def floatValue? (numeral : List Char) : Option Float :=
  let (negative, body) := splitSign numeral
  if body = "inf".toList then some (Binary64.ofPattern negative Binary64.infinity)
  else if body = "nan".toList then some (0.0 / 0.0)
  else (readFloat? numeral).filter Float.isFinite

mutual

/-- Whether every number in a value has a value of its own. -/
def Value.isReadable : Value → Bool
  | .integer base numeral => (integerValue? base numeral).isSome
  | .float numeral => (floatValue? numeral).isSome
  | .array items => areReadable items
  | .table _ entries => haveReadableValues entries
  | .tables earlier last => allHaveReadableValues earlier && haveReadableValues last
  | _ => true

/-- `Value.isReadable` on every item of an array. -/
def areReadable : List Value → Bool
  | [] => true
  | v :: rest => v.isReadable && areReadable rest

/-- `Value.isReadable` on every value of a table. -/
def haveReadableValues : List (String × Value) → Bool
  | [] => true
  | (_, v) :: rest => v.isReadable && haveReadableValues rest

/-- `Value.isReadable` on every value of every table. -/
def allHaveReadableValues : List (List (String × Value)) → Bool
  | [] => true
  | entries :: rest => haveReadableValues entries && allHaveReadableValues rest

end

/-! ## Dates and times -/

/-- A number of exactly `width` digits at the start of a text, and the rest. -/
def takeNumber? (width : Nat) (cs : List Char) : Option (Nat × List Char) :=
  let digits := cs.take width
  if digits.length = width ∧ digits.all Char.isDigit then
    some (Nat.ofDigitChars 10 digits 0, cs.drop width)
  else none

/-- A character at the start of a text; the rest. -/
def takeChar? (c : Char) : List Char → Option (List Char)
  | d :: cs => if c = d then some cs else none
  | [] => none

/-- The number of days of a month. -/
def daysInMonth (year month : Nat) : Nat :=
  if month = 2 then
    if year % 4 = 0 ∧ (year % 100 ≠ 0 ∨ year % 400 = 0) then 29 else 28
  else if month ∈ [4, 6, 9, 11] then 30
  else 31

/-- A date at the start of a text; the rest. -/
def takeDate? (cs : List Char) : Option (List Char) := do
  let (year, cs) ← takeNumber? 4 cs
  let (month, cs) ← takeNumber? 2 (← takeChar? '-' cs)
  let (day, cs) ← takeNumber? 2 (← takeChar? '-' cs)
  if 1 ≤ month ∧ month ≤ 12 ∧ 1 ≤ day ∧ day ≤ daysInMonth year month then some cs else none

/-- Seconds with an optional fraction at the start of a text; the rest. -/
def takeSeconds? (cs : List Char) : Option (List Char) := do
  let (second, cs) ← takeNumber? 2 cs
  if 60 < second then none
  else
    match cs with
    | '.' :: cs =>
      if (cs.takeWhile Char.isDigit).isEmpty then none else some (cs.dropWhile Char.isDigit)
    | cs => some cs

/-- A time at the start of a text; the rest. The seconds may be missing. -/
def takeTime? (cs : List Char) : Option (List Char) := do
  let (hour, cs) ← takeNumber? 2 cs
  let (minute, cs) ← takeNumber? 2 (← takeChar? ':' cs)
  if 23 < hour ∨ 59 < minute then none
  else
    match cs with
    | ':' :: cs => takeSeconds? cs
    | cs => some cs

/-- Whether a text is empty or the offset of a time zone. -/
def isOffset : List Char → Bool
  | [] => true
  | ['Z'] => true
  | ['z'] => true
  | '+' :: cs => (takeTime? cs) == some [] && cs.length == 5
  | '-' :: cs => (takeTime? cs) == some [] && cs.length == 5
  | _ => false

/-- Whether a text is a date, a time, or a date and a time with or without an offset. -/
def isDatetime (cs : List Char) : Bool :=
  match takeDate? cs with
  | some [] => true
  | some (mark :: rest) =>
    (mark == 'T' || mark == 't' || mark == ' ') && (takeTime? rest).any isOffset
  | none => takeTime? cs == some []

/-- Reads a boolean, a number, or a date or time. -/
def readScalar? (cs : List Char) : Option Value :=
  if cs = "true".toList then some (.boolean true)
  else if cs = "false".toList then some (.boolean false)
  else
    match readNumber? cs with
    | some v => some v
    | none => if isDatetime cs then some .datetime else none

end BenchConsole.Toml
