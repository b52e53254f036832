import BenchConsole.Number.Binary64

/-!
# Decimal numerals

A `Decimal` is a whole coefficient times a power of ten. It is written positionally, without an
exponent: `positional`. Digit texts are read with an optional point and exponent by `readFloat?`,
to the nearest float.
-/

namespace BenchConsole

/-- The number `coefficient · 10 ^ exponent`. -/
structure Decimal where
  coefficient : Nat
  exponent : Int
  deriving DecidableEq

namespace Decimal

/-- Sets a point before the last `places` digits, after filling up with zeros on the left so that
at least one digit stands before the point. -/
def withPoint (places : Nat) (digits : List Char) : List Char :=
  let padded := List.replicate (places + 1 - digits.length) '0' ++ digits
  padded.take (padded.length - places) ++ '.' :: padded.drop (padded.length - places)

/-- The numeral without an exponent: all digits, and a point only if the exponent is negative. -/
def positional (d : Decimal) : List Char :=
  match d.exponent with
  | .ofNat k => Nat.toDigits 10 (d.coefficient * Nat.pow 10 k)
  | .negSucc k => withPoint (k + 1) (Nat.toDigits 10 d.coefficient)

/-- The pattern of the float nearest to the numeral. -/
def pattern (d : Decimal) : Nat :=
  match d.exponent with
  | .ofNat k => Binary64.nearest (d.coefficient * Nat.pow 10 k) 1
  | .negSucc k => Binary64.nearest d.coefficient (Nat.pow 10 (k + 1))

end Decimal

namespace Number

/-- A sign in front of a numeral: whether it is a minus, and the text after it. -/
def splitSign : List Char → Bool × List Char
  | '-' :: cs => (true, cs)
  | '+' :: cs => (false, cs)
  | cs => (false, cs)

/-- The value of a non-empty digit text. -/
def readNat? (cs : List Char) : Option Nat :=
  if cs.isEmpty || !cs.all Char.isDigit then none else some (Nat.ofDigitChars 10 cs 0)

/-- The value of a digit text with an optional sign. -/
def readInt? (cs : List Char) : Option Int :=
  let (negative, digits) := splitSign cs
  (readNat? digits).map fun n => if negative then -(n : Int) else n

/-- The value of a signed digit text that fits 64 bits. -/
def readInt64? (cs : List Char) : Option Int64 :=
  (readInt? cs).bind fun v =>
    if -(Nat.pow 2 63 : Int) ≤ v ∧ v < Nat.pow 2 63 then some (Int64.ofInt v) else none

/-- An integer in decimal digits, with a minus sign if it is negative. -/
def intText (v : Int) : List Char :=
  if v < 0 then '-' :: Nat.toDigits 10 v.natAbs else Nat.toDigits 10 v.natAbs

/-- The exponent part at the end of a numeral: nothing, or a letter `e` and a signed integer. -/
def readExponent? : List Char → Option Int
  | [] => some 0
  | c :: cs => if c = 'e' ∨ c = 'E' then readInt? cs else none

/-- The pattern nearest to a digit text times a power of ten. Exponents that lead beyond every
float, or below every float for this number of digits, are settled without computing the
power. -/
def scaledPattern (digits : List Char) (exponent : Int) : Nat :=
  let coefficient := Nat.ofDigitChars 10 digits 0
  if 400 < exponent then
    if coefficient = 0 then 0 else Binary64.infinity
  else if exponent < -(400 + digits.length : Int) then 0
  else Decimal.pattern ⟨coefficient, exponent⟩

/-- Reads `[sign] digits [. digits] [e [sign] digits]`, where one of the two digit runs around the
point may be empty, to the nearest float. -/
def readFloat? (cs : List Char) : Option Float :=
  let (negative, body) := splitSign cs
  let (whole, rest) := body.span Char.isDigit
  let (fraction, rest) :=
    match rest with
    | '.' :: rest => rest.span Char.isDigit
    | _ => ([], rest)
  if whole.isEmpty && fraction.isEmpty then none
  else
    (readExponent? rest).map fun e =>
      Binary64.ofPattern negative (scaledPattern (whole ++ fraction) (e - fraction.length))

end Number

end BenchConsole
