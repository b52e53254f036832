import BenchConsole.Proofs.Number.Range

/-!
# Integers as floats

An integer that is made a float and an integer again is what it was, if it is the value of a float
to begin with: if it has no more than 53 significant bits (`IsExact`). Any other integer is lost to
rounding, but for the largest one of 64 bits, which is rounded up and brought back into range
(`truncate_ofInt_eq_iff`).

Whatever comes back is exact, since the whole part of a float is (`isExact_units_div`). An exact
integer has a pattern of its own (`exists_units_eq`), to which it is rounded without a loss.
-/

namespace BenchConsole.Binary64

open Float.Model Float.Model.UnpackedFloat

/-- A number of at most 53 significant bits. -/
def IsExact (n : Nat) : Prop := ∃ m e, m < 2 ^ 53 ∧ n = m * 2 ^ e

variable {n p : Nat} {x : Float}

/-! ## Signs and patterns of floats -/

theorem toBits_ofPattern (h : p < infinity) (negative : Bool) :
    (ofPattern negative p).toBits.toNat = if negative then p + signBit else p := by
  rw [ofPattern, toBits_ofBits (unpackExponent_ne_of_lt h negative), UInt64.toNat_ofNat']
  simp only [infinity, signBit, Nat.pow_eq] at h ⊢
  split <;> omega

theorem pattern_ofPattern (h : p < infinity) (negative : Bool) :
    pattern (ofPattern negative p) = p := by
  rw [pattern, toBits_ofPattern h]
  simp only [infinity, signBit, Nat.pow_eq] at h ⊢
  split <;> omega

theorem isNegative_ofPattern (h : p < infinity) (negative : Bool) :
    isNegative (ofPattern negative p) = negative := by
  rw [isNegative, toBits_ofPattern h]
  simp only [infinity, signBit, Nat.pow_eq] at h ⊢
  cases negative
  · simp only [Bool.false_eq_true, if_false, decide_eq_false_iff_not]
    omega
  · simp

/-! ## Exact numbers -/

theorem isExact_of_lt (h : n < 2 ^ 53) : IsExact n :=
  ⟨n, 0, h, (Nat.mul_one n).symm⟩

theorem unitsPerOne_pos : 0 < unitsPerOne := by
  obtain ⟨k, -, hone⟩ := exists_unitsPerOne
  rw [hone]
  exact Nat.two_pow_pos k

/-- The whole part of a float is exact. -/
theorem isExact_units_div (p : Nat) : IsExact (units p / unitsPerOne) := by
  obtain ⟨k, -, hone⟩ := exists_unitsPerOne
  obtain ⟨e, m, -, hu, hm, -⟩ := units_eq p
  rw [hu, hone, Nat.pow_eq]
  rcases Nat.le_total k e with hle | hle
  · obtain ⟨d, rfl⟩ := Nat.exists_eq_add_of_le hle
    refine ⟨m, d, hm, ?_⟩
    rw [Nat.pow_add, Nat.mul_left_comm, Nat.mul_div_cancel_left _ (Nat.two_pow_pos k)]
  · obtain ⟨d, rfl⟩ := Nat.exists_eq_add_of_le hle
    apply isExact_of_lt
    rw [Nat.pow_add, Nat.mul_comm, Nat.mul_div_mul_left _ _ (Nat.two_pow_pos e)]
    exact (Nat.div_le_self _ _).trans_lt hm

/-- An exact number is the value of a finite pattern. -/
theorem exists_units_eq (h : IsExact n) (hn : n ≤ 2 ^ 63) :
    ∃ p < infinity, units p = n * unitsPerOne := by
  obtain ⟨k, hk, hone⟩ := exists_unitsPerOne
  obtain ⟨m, e, hm, rfl⟩ := h
  rcases Nat.eq_zero_or_pos m with rfl | hpos
  · exact ⟨0, by decide, by simp [units_eq_zero_iff.mpr]⟩
  -- The significand is shifted until it has 53 bits.
  obtain ⟨s, hs, hlo, hhi⟩ : ∃ s ≤ 52, 2 ^ 52 ≤ m * 2 ^ s ∧ m * 2 ^ s < 2 ^ 53 := by
    have hlog : m.log2 < 53 := (Nat.log2_lt (by omega)).mpr hm
    refine ⟨52 - m.log2, by omega, ?_, ?_⟩
    · calc
        2 ^ 52 = 2 ^ m.log2 * 2 ^ (52 - m.log2) := by
          rw [← Nat.pow_add, Nat.add_sub_of_le (by omega)]
        _ ≤ m * 2 ^ (52 - m.log2) := Nat.mul_le_mul_right _ (Nat.log2_self_le (by omega))
    · calc
        m * 2 ^ (52 - m.log2) < 2 ^ (m.log2 + 1) * 2 ^ (52 - m.log2) :=
          Nat.mul_lt_mul_of_pos_right Nat.lt_log2_self (Nat.two_pow_pos _)
        _ = 2 ^ 53 := by rw [← Nat.pow_add, show m.log2 + 1 + (52 - m.log2) = 53 by omega]
  have he : e ≤ 63 := by
    by_contra hlt
    have := Nat.pow_lt_pow_right (by decide : 1 < 2) (Nat.not_le.mp hlt)
    have := Nat.le_mul_of_pos_left (2 ^ e) hpos
    omega
  refine ⟨(e + k - s) * 2 ^ 52 + m * 2 ^ s, ?_, ?_⟩
  · simp only [infinity, Nat.pow_eq]
    omega
  · have hfield : ((e + k - s) * 2 ^ 52 + m * 2 ^ s) / 2 ^ 52 - 1 = e + k - s := by omega
    have hshift : s + (e + k - s) = e + k := by omega
    simp only [units, Nat.pow_eq, hfield, Nat.add_sub_cancel_left]
    rw [hone, Nat.pow_eq, Nat.mul_assoc, ← Nat.pow_add, hshift, Nat.mul_assoc, ← Nat.pow_add]

/-! ## There and back -/

theorem truncate_ofInt (v : Int64) : truncate (ofInt v.toInt) = Int64.ofIntClamp
    (if v.toInt < 0 then -((units (nearest v.toInt.natAbs 1) / unitsPerOne : Nat) : Int)
      else (units (nearest v.toInt.natAbs 1) / unitsPerOne : Nat)) := by
  have hp := nearest_natAbs_lt_infinity v
  rw [truncate, isNaN_eq_false_of_isFinite (isFinite_ofInt64 v), ofInt, pattern_ofPattern hp,
    isNegative_ofPattern hp]
  generalize nearest v.toInt.natAbs 1 = p at hp
  rw [Nat.min_eq_left (Nat.le_sub_one_of_lt hp)]
  simp only [Bool.false_eq_true, if_false, decide_eq_true_eq]

/-- An integer out of range becomes one of the two ends of the range. -/
theorem ofIntClamp_cases (i : Int) : (Int64.ofIntClamp i).toInt = i ∨
    Int64.ofIntClamp i = Int64.minValue ∨ Int64.ofIntClamp i = Int64.maxValue := by
  by_cases hlo : Int64.minValue.toInt ≤ i
  · by_cases hhi : i ≤ Int64.maxValue.toInt
    · exact .inl (Int64.toInt_ofIntClamp hlo hhi)
    · exact .inr (.inr (by rw [Int64.ofIntClamp, dif_pos hlo, dif_neg hhi]))
  · exact .inr (.inl (by rw [Int64.ofIntClamp, dif_neg hlo]))

/-- The largest integer of 64 bits is rounded up to the float behind it. -/
theorem truncate_ofInt_maxValue : truncate (ofInt Int64.maxValue.toInt) = Int64.maxValue := by
  decide +kernel

/-- An integer comes back from the float nearest to it if and only if it is exact or the largest
one. -/
theorem truncate_ofInt_eq_iff (v : Int64) :
    truncate (ofInt v.toInt) = v ↔ IsExact v.toInt.natAbs ∨ v = Int64.maxValue := by
  have hlo := v.le_toInt
  have hhi := v.toInt_lt
  rw [truncate_ofInt]
  constructor
  · intro h
    have hexact := isExact_units_div (nearest v.toInt.natAbs 1)
    generalize units (nearest v.toInt.natAbs 1) / unitsPerOne = whole at h hexact
    generalize hi : (if v.toInt < 0 then -(whole : Int) else whole) = i at h
    have habs : i.natAbs = whole := by
      rw [← hi]
      split <;> omega
    rcases ofIntClamp_cases i with hclamp | hclamp | hclamp
    · rw [h] at hclamp
      rw [hclamp, habs]
      exact .inl hexact
    · rw [← h, hclamp]
      exact .inl ⟨1, 63, by decide, by decide⟩
    · exact .inr (h.symm.trans hclamp)
  · rintro (h | rfl)
    · obtain ⟨p, hp, hu⟩ := exists_units_eq h (by omega)
      have hnearest : nearest v.toInt.natAbs 1 = p :=
        nearest_of_eq_units hp Nat.one_pos (by rw [hu, Nat.mul_one])
      have hsigned : (if v.toInt < 0 then -(v.toInt.natAbs : Int) else v.toInt.natAbs) =
          v.toInt := by
        split <;> omega
      rw [hnearest, hu, Nat.mul_div_cancel _ unitsPerOne_pos, hsigned, ← Int64.toInt_inj]
      exact Int64.toInt_ofIntClamp hlo (Int.le_of_lt_add_one hhi)
    · rw [← truncate_ofInt]
      exact truncate_ofInt_maxValue

end BenchConsole.Binary64
