/-!
# Exact values of 64-bit floats

Every finite float is a whole number of *units* of 2⁻¹⁰⁷⁴, up to its sign. A *pattern* is the
encoding of a float without its sign bit, so patterns are ordered as the magnitudes they stand
for. `units` gives the magnitude of a finite pattern and `nearest` the pattern of the float
nearest to a fraction, a fraction half way between two going to the even pattern.
-/

namespace BenchConsole.Binary64

/-- How many units make one. -/
def unitsPerOne : Nat := Nat.pow 2 1074

/-- The pattern of infinity; smaller patterns are finite, larger ones are not numbers. -/
def infinity : Nat := 2047 * Nat.pow 2 52

def signBit : Nat := Nat.pow 2 63

/-- The fraction `n / d` rounded to a whole number, a half going to the even neighbour. -/
def roundHalfEven (n d : Nat) : Nat :=
  let q := n / d
  let r := n % d
  if d < 2 * r ∨ (2 * r = d ∧ q % 2 = 1) then q + 1 else q

/-- The magnitude of a finite pattern, in units. -/
def units (pattern : Nat) : Nat :=
  let e := pattern / Nat.pow 2 52 - 1
  (pattern - e * Nat.pow 2 52) * Nat.pow 2 e

/-- The pattern nearest to the fraction `n / d`. Rounding up to the next power of two carries
into the exponent field, where the carry is just what is wanted. -/
def nearest (n d : Nat) : Nat :=
  let scaled := n * unitsPerOne
  let e := (scaled / d).log2 - 52
  min (e * Nat.pow 2 52 + roundHalfEven scaled (d * Nat.pow 2 e)) infinity

def pattern (x : Float) : Nat :=
  x.toBits.toNat % signBit

/-- Whether the sign bit of a float is set. -/
def isNegative (x : Float) : Bool :=
  signBit ≤ x.toBits.toNat

/-- The float with a given sign and pattern. -/
def ofPattern (negative : Bool) (pattern : Nat) : Float :=
  Float.ofBits (UInt64.ofNat (if negative then pattern + signBit else pattern))

/-- The float nearest to an integer. -/
def ofInt (v : Int) : Float :=
  ofPattern (decide (v < 0)) (nearest v.natAbs 1)

/-- A float without its fraction part, brought into the range of 64-bit integers; something that
is not a number gives zero. -/
def truncate (x : Float) : Int64 :=
  if x.isNaN then 0
  else
    let whole : Int := (units (min (pattern x) (infinity - 1)) / unitsPerOne : Nat)
    Int64.ofIntClamp (if isNegative x then -whole else whole)

end BenchConsole.Binary64
