import BenchConsole.Number.Decimal

/-!
# Texts of floats

`shortest` finds the decimal numeral with the fewest digits that reads back to a given pattern,
and of those the nearest to its exact value; where two are equally near, a `Tie` says which. It
tries 1, 2, … 17 digits; on the grid of each length only the two neighbours of the exact value can
read back, if any numeral of that length does.

The texts built on it: `floatText` without exponent and without a needless point, `pointedText`
with a point always, `fixedText` with a fixed number of places, and `jsonText` with an exponent
for very small and very large numbers.
-/

namespace BenchConsole.Number

/-- The exact value of a number of units. -/
def exactDecimal (units : Nat) : Decimal :=
  ⟨units * Nat.pow 5 1074, -1074⟩

/-- How many digits the whole part of a positive magnitude has; the negated number of zeros after
the point if there is no whole part. -/
def pointPosition (units : Nat) : Int :=
  (Nat.toDigits 10 (units * Nat.pow 10 400 / Binary64.unitsPerOne)).length - 400

/-- Which of two equally near numerals is preferred. -/
inductive Tie where
  /-- The larger one. -/
  | up
  /-- The one with an even coefficient. -/
  | even
  deriving DecidableEq

/-- Whether a quotient with remainder `r` of a division by `d` is preferred to its successor. -/
def Tie.prefersBelow (tie : Tie) (quotient r d : Nat) : Bool :=
  2 * r < d || (2 * r == d && tie == .even && quotient % 2 == 0)

/-- The two multiples of `10 ^ exponent` around a magnitude, the preferred one first. -/
def neighbours (tie : Tie) (units : Nat) (exponent : Int) : List Decimal :=
  let (n, d) :=
    match exponent with
    | .ofNat k => (units, Binary64.unitsPerOne * Nat.pow 10 k)
    | .negSucc k => (units * Nat.pow 10 (k + 1), Binary64.unitsPerOne)
  let below : Decimal := ⟨n / d, exponent⟩
  let above : Decimal := ⟨n / d + 1, exponent⟩
  if tie.prefersBelow (n / d) (n % d) d then [below, above] else [above, below]

/-- A numeral with up to `fuel` trailing zeros of its coefficient moved into the exponent. -/
def stripZeros : Nat → Decimal → Decimal
  | 0, d => d
  | fuel + 1, d =>
    if d.coefficient ≠ 0 ∧ d.coefficient % 10 = 0 then
      stripZeros fuel ⟨d.coefficient / 10, d.exponent + 1⟩
    else d

/-- The most digits that any float needs. -/
def maxDigits : Nat := 17

/-- The shortest numeral that reads back to a finite pattern. A neighbour that is a power of ten has
one digit more than the grid, all zeros but the first, so zeros at the end are taken off. -/
def shortest (tie : Tie) (pattern : Nat) : Decimal :=
  let units := Binary64.units pattern
  if units = 0 then ⟨0, 0⟩
  else
    let position := pointPosition units
    let attempt (digits : Nat) : Option Decimal :=
      ((neighbours tie units (position - digits)).map (stripZeros maxDigits)).find? fun d =>
        d.pattern = pattern
    ((List.range' 1 maxDigits).findSome? attempt).getD (exactDecimal units)

/-- Puts a minus sign in front of the text of a negative number. -/
def signed (negative : Bool) (cs : List Char) : List Char :=
  if negative then '-' :: cs else cs

/-- Writes a float: by `finite` if it is finite, else by its name. -/
def nameOr (finite : Nat → List Char) (x : Float) : List Char :=
  if x.isNaN then ['N', 'a', 'N']
  else
    signed (Binary64.isNegative x)
      (if x.isInf then ['i', 'n', 'f'] else finite (Binary64.pattern x))

/-- The shortest text that reads back, the larger one of two equally near, without an exponent,
with a point only where there is a fraction. -/
def floatText (x : Float) : List Char :=
  nameOr (fun pattern => (shortest .up pattern).positional) x

/-- `floatText` with a fraction `.0` where it has no point. -/
def pointedText (x : Float) : List Char :=
  let text := floatText x
  if '.' ∈ text then text else text ++ ['.', '0']

/-- A float rounded to `places` places, a half going to the even neighbour. -/
def fixedText (places : Nat) (x : Float) : List Char :=
  nameOr
    (fun pattern =>
      Decimal.positional
        ⟨Binary64.roundHalfEven (Binary64.units pattern * Nat.pow 10 places) Binary64.unitsPerOne,
          -(places : Int)⟩)
    x

/-- An exponent with its sign, a plus too. -/
def signedExponent (e : Int) : List Char :=
  if e < 0 then intText e else '+' :: intText e

/-- The JSON text of a float, the even one of two equally near numerals. A number whose point falls
at most four zeros before its digits and at most sixteen digits into them is written positionally,
with a fraction always; any other as one digit, the other digits as a fraction if there are any,
and an exponent with its sign. What is not finite has no JSON number. -/
def jsonText (x : Float) : List Char :=
  if !x.isFinite then ['n', 'u', 'l', 'l'] else
  let d := shortest .even (Binary64.pattern x)
  let digits := Nat.toDigits 10 d.coefficient
  let position : Int := d.exponent + digits.length
  signed (Binary64.isNegative x) <|
    if d.coefficient = 0 then ['0', '.', '0']
    else if -5 < position ∧ position ≤ 16 then
      let text := d.positional
      if '.' ∈ text then text else text ++ ['.', '0']
    else
      let mantissa :=
        match digits with
        | [] => []
        | [c] => [c]
        | c :: cs => c :: '.' :: cs
      mantissa ++ 'e' :: signedExponent (position - 1)

end BenchConsole.Number
