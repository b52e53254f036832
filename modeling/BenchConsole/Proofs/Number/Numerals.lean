import BenchConsole.Number.Shortest
import BenchConsole.Proofs.Number.Patterns
import BenchConsole.Proofs.Number.Rounding
import BenchConsole.Proofs.Text.Scanning
import Mathlib

/-!
# Numerals read back

Integers are written in digits and read back (`readInt64?_intText`). For floats the middle term is
`IsNumeral whole fraction p`: the digits `whole.fraction` stand for a number that is nearest to the
pattern `p`. Whatever numeral is chosen for a pattern by `shortest` is one of these
(`positional_isNumeral`, `pattern_shortest`), and reading one gives the float of its pattern
(`IsNumeral.readFloat?_pointed`), so a finite float comes back from its text
(`readFloat?_pointedText`).
-/

namespace BenchConsole.Number

open Text

variable {cs whole fraction : List Char} {p : Nat}

/-! ## Signs and digits -/

theorem isDigit_ne {c d : Char} (hc : c.isDigit) (hd : d.isDigit = false) : c ≠ d := by
  rintro rfl
  simp [hc] at hd

/-- The sign of a numeral is split off again. -/
theorem splitSign_signed {c : Char} (hc : c.isDigit) (negative : Bool) (cs : List Char) :
    splitSign (signed negative (c :: cs)) = (negative, c :: cs) := by
  have hminus : c ≠ '-' := isDigit_ne hc rfl
  have hplus : c ≠ '+' := isDigit_ne hc rfl
  cases negative <;> simp [splitSign, signed, hminus, hplus]

theorem isDigit_toDigits (n : Nat) : ∀ c ∈ Nat.toDigits 10 n, c.isDigit :=
  fun _ hc => Nat.isDigit_of_mem_toDigits (by decide) (by decide) hc

/-- The characters that numbers are written with. -/
def isNumeralChar (c : Char) : Bool :=
  c.isDigit || c == '-' || c == '.'

theorem isNumeralChar_iff {c : Char} :
    isNumeralChar c ↔ 48 ≤ c.toNat ∧ c.toNat ≤ 57 ∨ c.toNat = 45 ∨ c.toNat = 46 := by
  have h45 : c = '-' ↔ c.toNat = 45 := Char.toNat_inj.symm
  have h46 : c = '.' ↔ c.toNat = 46 := Char.toNat_inj.symm
  simp only [isNumeralChar, Char.isDigit, Bool.or_eq_true, Bool.and_eq_true, decide_eq_true_eq,
    beq_iff_eq, ge_iff_le, UInt32.le_iff_toNat_le, h45, h46, or_assoc]
  rfl

theorem isNumeralChar_of_isDigit {c : Char} (h : c.isDigit) : isNumeralChar c := by
  simp [isNumeralChar, h]

theorem mem_signed {c : Char} {negative : Bool} (h : c ∈ signed negative cs) :
    c = '-' ∨ c ∈ cs := by
  cases negative with
  | true => exact List.mem_cons.mp h
  | false => exact .inr h

theorem isNumeralChar_signed {negative : Bool} (h : ∀ c ∈ cs, isNumeralChar c) :
    ∀ c ∈ signed negative cs, isNumeralChar c := by
  intro c hc
  rcases mem_signed hc with rfl | hc
  · rfl
  · exact h c hc

/-! ## Integers -/

theorem intText_eq (v : Int) : intText v = signed (decide (v < 0)) (Nat.toDigits 10 v.natAbs) := by
  by_cases h : v < 0 <;> simp [intText, signed, h]

theorem readNat?_toDigits (n : Nat) : readNat? (Nat.toDigits 10 n) = some n := by
  have hall : (Nat.toDigits 10 n).all Char.isDigit := List.all_eq_true.mpr (isDigit_toDigits n)
  simp [readNat?, Nat.toDigits_ne_nil, hall]

theorem readInt?_intText (v : Int) : readInt? (intText v) = some v := by
  have hsplit : splitSign (intText v) = (decide (v < 0), Nat.toDigits 10 v.natAbs) := by
    obtain ⟨c, cs, hcs⟩ := List.exists_cons_of_ne_nil (@Nat.toDigits_ne_nil v.natAbs 10)
    rw [intText_eq, hcs]
    exact splitSign_signed (isDigit_toDigits _ c (hcs ▸ List.mem_cons_self)) _ _
  simp only [readInt?, hsplit, readNat?_toDigits, Option.bind_eq_bind, Option.bind_some,
    Option.pure_def, Option.map_some]
  congr 1
  by_cases h : v < 0
  · rw [if_pos (decide_eq_true h)]
    omega
  · rw [if_neg (by simpa using h)]
    omega

theorem isNumeralChar_intText (v : Int) : ∀ c ∈ intText v, isNumeralChar c := by
  rw [intText_eq]
  exact isNumeralChar_signed fun c hc => isNumeralChar_of_isDigit (isDigit_toDigits _ c hc)

theorem intText_ne_nil (v : Int) : intText v ≠ [] := by
  rw [intText_eq]
  cases decide (v < 0) with
  | true => exact List.cons_ne_nil _ _
  | false => exact Nat.toDigits_ne_nil

theorem not_mem_intText {v : Int} {c : Char} (hc : c.isDigit = false) (hm : c ≠ '-') :
    c ∉ intText v := by
  rw [intText_eq]
  intro h
  rcases mem_signed h with h | h
  · exact hm h
  · exact isDigit_ne (isDigit_toDigits _ _ h) hc rfl

theorem readInt64?_intText (v : Int64) : readInt64? (intText v.toInt) = some v := by
  have hlo := v.le_toInt
  have hhi := v.toInt_lt
  rw [readInt64?, readInt?_intText, Option.bind_some, if_pos ⟨hlo, hhi⟩, Int64.ofInt_toInt]

/-! ## Floats -/

/-- `whole.fraction` are the digits of a number that the pattern `p` is nearest to. -/
structure IsNumeral (whole fraction : List Char) (p : Nat) : Prop where
  whole_ne_nil : whole ≠ []
  whole_digits : ∀ c ∈ whole, c.isDigit
  fraction_digits : ∀ c ∈ fraction, c.isDigit
  nearest : Binary64.nearest (Nat.ofDigitChars 10 (whole ++ fraction) 0)
    (10 ^ fraction.length) = p

theorem pattern_neg (coefficient k : Nat) :
    Decimal.pattern ⟨coefficient, -(k : Int)⟩ = Binary64.nearest coefficient (10 ^ k) := by
  cases k with
  | zero => simp [Decimal.pattern]
  | succ k => rfl

/-- With as many digits as places, no exponent is out of reach. -/
theorem scaledPattern_neg {digits : List Char} {k : Nat} (h : k ≤ digits.length) :
    scaledPattern digits (-(k : Int)) =
      Binary64.nearest (Nat.ofDigitChars 10 digits 0) (10 ^ k) := by
  simp only [scaledPattern]
  rw [if_neg (by omega), if_neg (by omega), pattern_neg]

namespace IsNumeral

theorem readFloat?_pointed (h : IsNumeral whole fraction p) (negative : Bool) :
    readFloat? (signed negative (whole ++ '.' :: fraction)) =
      some (Binary64.ofPattern negative p) := by
  have hsign : splitSign (signed negative (whole ++ '.' :: fraction)) =
      (negative, whole ++ '.' :: fraction) := by
    obtain ⟨c, cs, rfl⟩ := List.exists_cons_of_ne_nil h.whole_ne_nil
    exact splitSign_signed (h.whole_digits c List.mem_cons_self) _ _
  have hwhole : (whole ++ '.' :: fraction).span Char.isDigit = (whole, '.' :: fraction) :=
    span_eq_iff.mpr ⟨rfl, h.whole_digits, by simp⟩
  have hfraction : fraction.span Char.isDigit = (fraction, []) :=
    span_eq_iff.mpr ⟨(List.append_nil _).symm, h.fraction_digits, by simp⟩
  have hne : (whole.isEmpty && fraction.isEmpty) = false := by
    simp [h.whole_ne_nil]
  have hlen : fraction.length ≤ (whole ++ fraction).length := by simp
  simp only [readFloat?, hsign, hwhole, hfraction, hne, readExponent?, Option.map_some,
    Int.zero_sub, scaledPattern_neg hlen, h.nearest]
  rfl

/-- A zero behind the point changes nothing. -/
theorem pad (h : IsNumeral whole [] p) : IsNumeral whole ['0'] p where
  whole_ne_nil := h.whole_ne_nil
  whole_digits := h.whole_digits
  fraction_digits := List.forall_mem_singleton.mpr rfl
  nearest := by
    have hn := h.nearest
    rw [List.append_nil, List.length_nil, Nat.pow_zero] at hn
    have hten : Nat.ofDigitChars 10 (whole ++ ['0']) 0 = 10 * Nat.ofDigitChars 10 whole 0 := by
      rw [Nat.ofDigitChars_append, Nat.ofDigitChars_cons, Nat.ofDigitChars_nil]
      rfl
    rw [hten]
    exact (Binary64.nearest_mul_left (by decide) _ 1).trans hn

end IsNumeral

/-- Filling up with zeros and setting the point leave the digits as they were. -/
theorem isNumeral_withPoint (coefficient k : Nat) :
    let digits := Nat.toDigits 10 coefficient
    let padded := List.replicate (k + 1 + 1 - digits.length) '0' ++ digits
    IsNumeral (padded.take (padded.length - (k + 1))) (padded.drop (padded.length - (k + 1)))
      (Binary64.nearest coefficient (10 ^ (k + 1))) := by
  intro digits padded
  have hlen : k + 2 ≤ padded.length := by
    simp only [padded, List.length_append, List.length_replicate]
    omega
  have hall : ∀ c ∈ padded, c.isDigit := by
    intro c hc
    rcases List.mem_append.mp hc with hc | hc
    · rw [(List.mem_replicate.mp hc).2]
      rfl
    · exact isDigit_toDigits _ c hc
  refine ⟨?_, fun c hc => hall c (List.mem_of_mem_take hc),
    fun c hc => hall c (List.mem_of_mem_drop hc), ?_⟩
  · intro he
    have := congrArg List.length he
    rw [List.length_take, List.length_nil] at this
    omega
  · rw [List.take_append_drop, List.length_drop, Nat.sub_sub_self (by omega),
      Nat.ofDigitChars_append, Nat.ofDigitChars_replicate_zero, Nat.mul_zero,
      Nat.ofDigitChars_ten_toDigits]

/-- The numeral of a decimal without its sign: a digit text, or one with a fraction. -/
theorem positional_isNumeral (d : Decimal) :
    IsNumeral d.positional [] d.pattern ∨
      ∃ whole fraction, d.positional = whole ++ '.' :: fraction ∧
        IsNumeral whole fraction d.pattern := by
  obtain ⟨coefficient, k | k⟩ := d
  · refine .inl ⟨Nat.toDigits_ne_nil, isDigit_toDigits _, by simp, ?_⟩
    simp only [Decimal.positional, Decimal.pattern, List.append_nil, List.length_nil]
    rw [Nat.ofDigitChars_ten_toDigits, Nat.pow_zero]
  · exact .inr ⟨_, _, rfl, isNumeral_withPoint coefficient k⟩

/-- The exact value of a pattern, in decimal digits, needs no rounding. -/
theorem pattern_exactDecimal (hp : p < Binary64.infinity) :
    (exactDecimal (Binary64.units p)).pattern = p := by
  -- The exponent is hidden behind a name, so that no power of it is computed.
  obtain ⟨k, hdecimal, hunits⟩ : ∃ k : Nat,
      (∀ n, exactDecimal n = ⟨n * Nat.pow 5 k, -k⟩) ∧ Binary64.unitsPerOne = Nat.pow 2 k :=
    ⟨_, fun _ => rfl, by delta Binary64.unitsPerOne; rfl⟩
  rw [hdecimal, pattern_neg, Nat.pow_eq]
  apply Binary64.nearest_of_eq_units hp (Nat.pow_pos (by decide))
  rw [hunits, Nat.pow_eq, Nat.mul_assoc, ← Nat.mul_pow]

/-- The chosen numeral reads back to the pattern it was chosen for. -/
theorem pattern_shortest (tie : Tie) (hp : p < Binary64.infinity) :
    (shortest tie p).pattern = p := by
  simp only [shortest]
  split
  · next h =>
    obtain rfl := Binary64.units_eq_zero_iff.mp h
    exact Binary64.nearest_of_eq_units hp (by decide) (by simp [h])
  · generalize hfound : List.findSome? _ (List.range' 1 maxDigits) = found
    cases found with
    | none => exact pattern_exactDecimal hp
    | some d =>
      obtain ⟨digits, -, hd⟩ := List.exists_of_findSome?_eq_some hfound
      simpa using List.find?_some hd

/-! ## Texts of floats -/

variable {x : Float}

theorem floatText_eq (hx : x.isFinite) :
    floatText x = signed (Binary64.isNegative x)
      (shortest .up (Binary64.pattern x)).positional := by
  simp only [floatText, nameOr, Binary64.isNaN_eq_false_of_isFinite hx,
    Binary64.isInf_eq_false_of_isFinite hx, Bool.false_eq_true, if_false]

theorem signed_append (negative : Bool) (as bs : List Char) :
    signed negative as ++ bs = signed negative (as ++ bs) := by
  cases negative <;> rfl

/-- A finite float is written as a numeral with a point. -/
theorem exists_pointedText (hx : x.isFinite) :
    ∃ whole fraction, pointedText x = signed (Binary64.isNegative x) (whole ++ '.' :: fraction) ∧
      IsNumeral whole fraction (Binary64.pattern x) := by
  have hpattern := pattern_shortest .up (Binary64.pattern_lt_infinity hx)
  simp only [pointedText, floatText_eq hx]
  rcases positional_isNumeral (shortest .up (Binary64.pattern x)) with h | ⟨whole, fraction, he, h⟩
  · have hpoint : '.' ∉ signed (Binary64.isNegative x)
        (shortest .up (Binary64.pattern x)).positional := by
      intro hm
      rcases mem_signed hm with hm | hm
      · cases hm
      · exact isDigit_ne (h.whole_digits _ hm) rfl rfl
    rw [if_neg hpoint, signed_append]
    rw [hpattern] at h
    exact ⟨_, ['0'], rfl, h.pad⟩
  · rw [hpattern] at h
    rw [he, if_pos]
    · exact ⟨whole, fraction, rfl, h⟩
    · rw [← signed_append]
      simp

/-- A finite float is written to a fixed number of places as a numeral with a point. -/
theorem exists_fixedText (hx : x.isFinite) (k : Nat) :
    ∃ whole fraction p, fixedText (k + 1) x =
      signed (Binary64.isNegative x) (whole ++ '.' :: fraction) ∧ IsNumeral whole fraction p := by
  obtain ⟨coefficient, hfixed⟩ : ∃ coefficient, fixedText (k + 1) x =
      signed (Binary64.isNegative x) (Decimal.withPoint (k + 1) (Nat.toDigits 10 coefficient)) := by
    simp only [fixedText, nameOr, Binary64.isNaN_eq_false_of_isFinite hx,
      Binary64.isInf_eq_false_of_isFinite hx, Bool.false_eq_true, if_false]
    exact ⟨_, rfl⟩
  exact ⟨_, _, _, hfixed, isNumeral_withPoint coefficient k⟩

theorem IsNumeral.isNumeralChar (h : IsNumeral whole fraction p) (negative : Bool) :
    ∀ c ∈ signed negative (whole ++ '.' :: fraction), isNumeralChar c := by
  refine isNumeralChar_signed fun c hc => ?_
  rcases List.mem_append.mp hc with hc | hc
  · exact isNumeralChar_of_isDigit (h.whole_digits c hc)
  rcases List.mem_cons.mp hc with rfl | hc
  · rfl
  · exact isNumeralChar_of_isDigit (h.fraction_digits c hc)

theorem isNumeralChar_pointedText (hx : x.isFinite) :
    ∀ c ∈ pointedText x, isNumeralChar c := by
  obtain ⟨whole, fraction, he, h⟩ := exists_pointedText hx
  exact he ▸ h.isNumeralChar _

theorem isNumeralChar_fixedText (hx : x.isFinite) (k : Nat) :
    (∀ c ∈ fixedText (k + 1) x, isNumeralChar c) ∧ fixedText (k + 1) x ≠ [] := by
  obtain ⟨whole, fraction, p, he, h⟩ := exists_fixedText hx k
  rw [he]
  refine ⟨h.isNumeralChar _, ?_⟩
  rw [← signed_append]
  simp

theorem point_mem_pointedText (hx : x.isFinite) : '.' ∈ pointedText x := by
  obtain ⟨whole, fraction, he, -⟩ := exists_pointedText hx
  rw [he, ← signed_append]
  simp

/-- A finite float comes back from its text. -/
theorem readFloat?_pointedText (hx : x.isFinite) : readFloat? (pointedText x) = some x := by
  obtain ⟨whole, fraction, he, h⟩ := exists_pointedText hx
  rw [he, h.readFloat?_pointed, Binary64.ofPattern_pattern]

end BenchConsole.Number
