import BenchConsole.Proofs.Number.Numerals

/-!
# The range of floats

A pattern below that of infinity belongs to a finite float (`isFinite_ofPattern`), and a fraction
is rounded to such a pattern if it is below the middle between the largest float and the power of
two that would come next (`nearest_lt_infinity`). Both integers of 64 bits (`isFinite_ofInt64`) and
numerals of few digits stay far below it.
-/

namespace BenchConsole

namespace Binary64

open Float.Model Float.Model.UnpackedFloat

variable {n d k e p : Nat}

/-! ## Finite patterns -/

theorem isFinite_ofBits {bits : UInt64}
    (h : @unpackExponent Format.binary64 bits.toBitVec ≠ -1#11) : (Float.ofBits bits).isFinite := by
  rw [isFinite_iff, toBits_ofBits h]
  exact h

/-- A pattern below that of infinity does not fill the exponent field, with either sign. -/
theorem unpackExponent_ne_of_lt (h : p < infinity) (negative : Bool) :
    @unpackExponent Format.binary64
      (UInt64.ofNat (if negative then p + signBit else p)).toBitVec ≠ -1#11 := by
  simp only [infinity, Nat.pow_eq] at h
  intro he
  have hexp : (if negative then p + signBit else p) % 2 ^ 64 / 2 ^ 52 % 2 ^ 11 = 2047 := by
    have hnat := congrArg BitVec.toNat he
    simpa [unpackExponent, BitVec.extractLsb, Nat.shiftRight_eq_div_pow] using hnat
  have hsign : signBit = 2 ^ 63 := rfl
  rw [hsign] at hexp
  cases negative
  all_goals
    simp only [Bool.false_eq_true, if_true, if_false] at hexp
    omega

theorem isFinite_ofPattern (h : p < infinity) (negative : Bool) :
    (ofPattern negative p).isFinite :=
  isFinite_ofBits (unpackExponent_ne_of_lt h negative)

/-! ## Rounding below infinity

Large exponents stand behind names, so that no power of them is computed.
-/

theorem roundHalfEven_le (hd : 0 < d) (h : n < k * d) : roundHalfEven n d ≤ k := by
  have hq : n / d < k := (Nat.div_lt_iff_lt_mul hd).mpr h
  simp only [roundHalfEven]
  split <;> omega

/-- What is less than half way from `k` to the number behind it is not rounded beyond `k`. -/
theorem roundHalfEven_le_of_lt (h : 2 * n < (2 * k + 1) * d) : roundHalfEven n d ≤ k := by
  have hn := Nat.div_add_mod n d
  have hscale : (2 * k + 1) * d = 2 * (d * k) + d := by ring
  have hq : n / d ≤ k := by
    have hlt : d * (2 * (n / d)) < d * (2 * k + 1) := by
      rw [Nat.mul_left_comm, Nat.mul_comm d (2 * k + 1)]
      omega
    have := Nat.lt_of_mul_lt_mul_left hlt
    omega
  simp only [roundHalfEven]
  split
  · next hround =>
    rcases Nat.lt_or_eq_of_le hq with hlt | heq
    · exact hlt
    · rw [heq] at hn
      omega
  · exact hq

theorem roundHalfEven_mul_le (n d : Nat) : roundHalfEven n d * d ≤ n + d := by
  have hle := Nat.div_mul_le_self n d
  have hround : roundHalfEven n d ≤ n / d + 1 := by
    simp only [roundHalfEven]
    split <;> omega
  calc
    roundHalfEven n d * d ≤ (n / d + 1) * d := Nat.mul_le_mul_right d hround
    _ = n / d * d + d := Nat.succ_mul _ _
    _ ≤ n + d := by omega

theorem log2_lt_of_lt (h : n < (2 ^ 54 - 1) * 2 ^ e) : n.log2 < 54 + e := by
  rcases Nat.eq_zero_or_pos n with rfl | hpos
  · rw [Nat.log2_zero]
    omega
  · rw [Nat.log2_lt (Nat.ne_of_gt hpos), Nat.pow_add]
    exact h.trans (Nat.mul_lt_mul_of_pos_right (by decide) (Nat.two_pow_pos e))

/-- The largest float is `2 ^ 54 - 2` times `2 ^ 2044` units. What is less than half way from it to
the next power of two is rounded to a finite pattern. -/
theorem nearest_lt_infinity (he : e ≤ 2044) (hd : 0 < d)
    (h : n * unitsPerOne < (2 ^ 54 - 1) * 2 ^ e * d) : nearest n d < infinity := by
  have hlog := log2_lt_of_lt ((Nat.div_lt_iff_lt_mul hd).mpr h)
  have hlt : n * unitsPerOne / d < 2 ^ ((n * unitsPerOne / d).log2 + 1) := Nat.lt_log2_self
  simp only [nearest]
  generalize (n * unitsPerOne / d).log2 = l at hlog hlt
  refine lt_of_le_of_lt (Nat.min_le_left _ _) ?_
  simp only [infinity, Nat.pow_eq]
  by_cases hl : l ≤ 2096
  · have hround : roundHalfEven (n * unitsPerOne) (d * 2 ^ (l - 52)) ≤ 2 ^ 53 := by
      apply roundHalfEven_le (Nat.mul_pos hd (Nat.two_pow_pos _))
      have hpow : 2 ^ (l + 1) ≤ 2 ^ 53 * 2 ^ (l - 52) := by
        rw [← Nat.pow_add]
        exact Nat.pow_le_pow_right two_pos (by omega)
      calc
        n * unitsPerOne < 2 ^ (l + 1) * d := (Nat.div_lt_iff_lt_mul hd).mp hlt
        _ ≤ 2 ^ 53 * 2 ^ (l - 52) * d := Nat.mul_le_mul_right d hpow
        _ = 2 ^ 53 * (d * 2 ^ (l - 52)) := by ring
    omega
  · have hexp : l - 52 = e + 1 := by omega
    have hround : roundHalfEven (n * unitsPerOne) (d * 2 ^ (l - 52)) ≤ 2 ^ 53 - 1 := by
      apply roundHalfEven_le_of_lt
      calc
        2 * (n * unitsPerOne) < 2 * ((2 ^ 54 - 1) * 2 ^ e * d) :=
          Nat.mul_lt_mul_of_pos_left h two_pos
        _ = (2 * (2 ^ 53 - 1) + 1) * (d * 2 ^ (l - 52)) := by
          rw [hexp, Nat.pow_succ]
          ring
    omega

theorem exists_unitsPerOne : ∃ e, e = 1074 ∧ unitsPerOne = Nat.pow 2 e :=
  ⟨_, rfl, by delta unitsPerOne; rfl⟩

/-- A fraction far below the largest float is rounded to a finite pattern. -/
theorem nearest_lt_infinity_of_lt (he : e ≤ 970) (hd : 0 < d) (h : n < 2 ^ e * d) :
    nearest n d < infinity := by
  obtain ⟨f, hf, hunits⟩ := exists_unitsPerOne
  have hsum : e + f ≤ 2044 := by omega
  apply nearest_lt_infinity hsum hd
  calc
    n * unitsPerOne < 2 ^ e * d * 2 ^ f := by
      rw [hunits, Nat.pow_eq]
      exact Nat.mul_lt_mul_of_pos_right h (Nat.two_pow_pos f)
    _ = 2 ^ (e + f) * d := by rw [Nat.mul_right_comm, Nat.pow_add]
    _ ≤ (2 ^ 54 - 1) * 2 ^ (e + f) * d :=
      Nat.mul_le_mul_right d (Nat.le_mul_of_pos_left _ (by decide))

theorem nearest_natAbs_lt_infinity (v : Int64) : nearest v.toInt.natAbs 1 < infinity := by
  have hlo := v.le_toInt
  have hhi := v.toInt_lt
  have hexp : 64 ≤ 970 := by decide
  refine nearest_lt_infinity_of_lt hexp Nat.one_pos ?_
  omega

theorem isFinite_ofInt64 (v : Int64) : (ofInt v.toInt).isFinite :=
  isFinite_ofPattern (nearest_natAbs_lt_infinity v) _

theorem units_le (hp : p < infinity) (he : 2044 ≤ e) : units p ≤ (2 ^ 54 - 2) * 2 ^ e := by
  obtain ⟨f, m, hpf, hu, hm, hf⟩ := units_eq p
  simp only [infinity, Nat.pow_eq] at hp
  have hle : f ≤ e + 1 := by omega
  calc
    units p = m * 2 ^ f := hu
    _ ≤ (2 ^ 53 - 1) * 2 ^ (e + 1) :=
      Nat.mul_le_mul (by omega) (Nat.pow_le_pow_right two_pos hle)
    _ = (2 ^ 54 - 2) * 2 ^ e := by
      rw [Nat.pow_succ]
      ring

/-- A finite number stays finite when it is rounded to some places. -/
theorem nearest_roundHalfEven_lt_infinity {places : Nat} (hp : p < infinity) :
    nearest (roundHalfEven (units p * 10 ^ places) unitsPerOne) (10 ^ places) < infinity := by
  obtain ⟨e, he⟩ : ∃ e, e = 2044 := ⟨_, rfl⟩
  obtain ⟨f, hf, hunits⟩ := exists_unitsPerOne
  have hten : 0 < 10 ^ places := Nat.pow_pos (by decide)
  have hone : unitsPerOne < 2 ^ e * 10 ^ places := by
    rw [hunits, Nat.pow_eq]
    exact (Nat.pow_lt_pow_right (by decide) (by omega)).trans_le (Nat.le_mul_of_pos_right _ hten)
  apply nearest_lt_infinity he.le hten
  calc
    roundHalfEven (units p * 10 ^ places) unitsPerOne * unitsPerOne ≤
        units p * 10 ^ places + unitsPerOne := roundHalfEven_mul_le _ _
    _ < (2 ^ 54 - 2) * 2 ^ e * 10 ^ places + 2 ^ e * 10 ^ places :=
      Nat.add_lt_add_of_le_of_lt (Nat.mul_le_mul_right _ (units_le hp he.ge)) hone
    _ = (2 ^ 54 - 1) * 2 ^ e * 10 ^ places := by ring

end Binary64

namespace Number

open Text

variable {cs whole fraction : List Char} {x y : Float}

/-! ## Numerals -/

theorem ofDigitChars_lt (h : ∀ c ∈ cs, c.isDigit) : Nat.ofDigitChars 10 cs 0 < 10 ^ cs.length := by
  have hstart (n : Nat) : Nat.ofDigitChars 10 cs n < (n + 1) * 10 ^ cs.length := by
    induction cs generalizing n with
    | nil => simp
    | cons c cs ih =>
      have hc := h c List.mem_cons_self
      have hdigit : c.toNat - '0'.toNat ≤ 9 := by
        simp only [Char.isDigit, Bool.and_eq_true, decide_eq_true_eq, ge_iff_le,
          UInt32.le_iff_toNat_le] at hc
        exact Nat.sub_le_sub_right hc.2 48
      have hrest :=
        ih (fun d hd => h d (List.mem_cons_of_mem _ hd)) (10 * n + (c.toNat - '0'.toNat))
      rw [Nat.ofDigitChars_cons]
      refine hrest.trans_le ?_
      rw [List.length_cons, Nat.pow_succ', ← Nat.mul_assoc]
      exact Nat.mul_le_mul_right _ (by omega)
  simpa using hstart 0

/-- Digits that are few enough stand for a finite float, wherever the point is set. -/
theorem nearest_ofDigitChars_lt_infinity (h : ∀ c ∈ cs, c.isDigit) (hlen : cs.length ≤ 240)
    (k : Nat) : Binary64.nearest (Nat.ofDigitChars 10 cs 0) (10 ^ k) < Binary64.infinity := by
  have hexp : 4 * cs.length ≤ 970 := by omega
  apply Binary64.nearest_lt_infinity_of_lt hexp (Nat.pow_pos (by decide))
  calc
    Nat.ofDigitChars 10 cs 0 < 10 ^ cs.length := ofDigitChars_lt h
    _ ≤ (2 ^ 4) ^ cs.length := Nat.pow_le_pow_left (by decide) _
    _ = 2 ^ (4 * cs.length) := (Nat.pow_mul 2 4 _).symm
    _ ≤ 2 ^ (4 * cs.length) * 10 ^ k := Nat.le_mul_of_pos_right _ (Nat.pow_pos (by decide))

/-- A numeral of few digits is read as a finite float. -/
theorem isFinite_of_readFloat?_pointed (hne : whole ≠ []) (hwhole : ∀ c ∈ whole, c.isDigit)
    (hfraction : ∀ c ∈ fraction, c.isDigit) (hlen : (whole ++ fraction).length ≤ 240)
    (negative : Bool)
    (hread : readFloat? (signed negative (whole ++ '.' :: fraction)) = some y) : y.isFinite := by
  have hall : ∀ c ∈ whole ++ fraction, c.isDigit := by
    intro c hc
    rcases List.mem_append.mp hc with hc | hc
    · exact hwhole c hc
    · exact hfraction c hc
  have hnumeral : IsNumeral whole fraction _ := ⟨hne, hwhole, hfraction, rfl⟩
  rw [hnumeral.readFloat?_pointed] at hread
  obtain rfl := Option.some.inj hread
  exact Binary64.isFinite_ofPattern (nearest_ofDigitChars_lt_infinity hall hlen _) negative

/-- A plus sign changes nothing. -/
theorem readFloat?_plus {c : Char} (hc : c.isDigit) :
    readFloat? ('+' :: c :: cs) = readFloat? (c :: cs) := by
  have hsign := @splitSign_signed c hc false cs
  have hplus : splitSign ('+' :: c :: cs) = (false, c :: cs) := rfl
  simp only [signed, Bool.false_eq_true, if_false] at hsign
  simp only [readFloat?, hsign, hplus]

/-- A finite float that is written to some places is read as a finite one. -/
theorem isFinite_of_readFloat?_fixedText (hx : x.isFinite) (k : Nat)
    (hread : readFloat? (fixedText (k + 1) x) = some y) : y.isFinite := by
  obtain ⟨coefficient, hcoefficient, hfixed⟩ : ∃ coefficient,
      coefficient = Binary64.roundHalfEven
        (Binary64.units (Binary64.pattern x) * Nat.pow 10 (k + 1)) Binary64.unitsPerOne ∧
      fixedText (k + 1) x =
        signed (Binary64.isNegative x)
          (Decimal.withPoint (k + 1) (Nat.toDigits 10 coefficient)) := by
    simp only [fixedText, nameOr, Binary64.isNaN_eq_false_of_isFinite hx,
      Binary64.isInf_eq_false_of_isFinite hx, Bool.false_eq_true, if_false]
    refine ⟨_, ?_, rfl⟩
    with_reducible rfl
  have hlt : Binary64.nearest coefficient (10 ^ (k + 1)) < Binary64.infinity := by
    rw [hcoefficient, Nat.pow_eq]
    exact Binary64.nearest_roundHalfEven_lt_infinity (Binary64.pattern_lt_infinity hx)
  rw [hfixed, Decimal.withPoint, (isNumeral_withPoint coefficient k).readFloat?_pointed] at hread
  obtain rfl := Option.some.inj hread
  exact Binary64.isFinite_ofPattern hlt _

end Number

end BenchConsole
