import BenchConsole.Number.Binary64
import Mathlib

/-!
# Floats and their patterns

A float is its sign and its pattern (`ofPattern_pattern`), and a finite one has a pattern below
that of infinity (`pattern_lt_infinity`). Both come from the encoding: a word is kept unless its
exponent field is full (`toBits_ofBits`), and it is full for infinities and what is no number only
(`isFinite_iff`).
-/

namespace BenchConsole.Binary64

open Float.Model Float.Model.UnpackedFloat

variable {x : Float}

/-! ## Words -/

/-- A word whose exponent field is not full is the word of the float that it is read as. -/
theorem toBits_ofBits {bits : UInt64}
    (h : @unpackExponent Format.binary64 bits.toBitVec ≠ -1#11) :
    (Float.ofBits bits).toBits = bits := by
  have hvalid : Format.binary64.Valid bits.toBitVec := ⟨fun he => absurd he h⟩
  exact UInt64.toBitVec_inj.mp (pack_unpack_of_valid hvalid)

/-- A float is finite if and only if the exponent field of its word is not full. -/
theorem isFinite_iff :
    x.isFinite ↔ @unpackExponent Format.binary64 x.toBits.toBitVec ≠ -1#11 := by
  have hfinite : x.isFinite = (UnpackedFloat.unpack Format.binary64 x.toBits.toBitVec).isFinite :=
    rfl
  rw [hfinite]
  simp only [UnpackedFloat.unpack]
  by_cases he : @unpackExponent Format.binary64 x.toBits.toBitVec = -1#11
  · rw [if_pos he]
    refine iff_of_false ?_ fun hne => hne he
    split <;> exact Bool.false_ne_true
  · rw [if_neg he]
    refine iff_of_true ?_ he
    split
    · split <;> rfl
    · rfl

/-! ## Floats -/

theorem ofPattern_pattern (x : Float) : ofPattern (isNegative x) (pattern x) = x := by
  have hlt := x.toBits.toNat_lt
  have hbits : (if isNegative x then pattern x + signBit else pattern x) = x.toBits.toNat := by
    have hsign : signBit = 2 ^ 63 := rfl
    by_cases h : isNegative x
    · have hle : signBit ≤ x.toBits.toNat := of_decide_eq_true h
      rw [if_pos h, pattern, hsign]
      omega
    · have hle : ¬signBit ≤ x.toBits.toNat := fun hle => h (decide_eq_true hle)
      rw [if_neg h, pattern, hsign]
      omega
  rw [ofPattern, hbits, UInt64.ofNat_toNat, Float.ofBits_toBits]

theorem isNaN_eq_false_of_isFinite (h : x.isFinite) : x.isNaN = false := by
  revert h
  simp only [Float.isFinite, Float.isNaN, Float.Model.isFinite, Float.Model.isNaN]
  cases x.toModel.unpack <;> simp [UnpackedFloat.isFinite, UnpackedFloat.isNaN]

theorem isInf_eq_false_of_isFinite (h : x.isFinite) : x.isInf = false := by
  revert h
  simp only [Float.isFinite, Float.isInf, Float.Model.isFinite, Float.Model.isInf]
  cases x.toModel.unpack <;> simp [UnpackedFloat.isFinite, UnpackedFloat.isInf]

/-- The pattern of a finite float is that of a finite number. -/
theorem pattern_lt_infinity (h : x.isFinite) : pattern x < infinity := by
  have hlt := x.toBits.toNat_lt
  have hexp : x.toBits.toNat / 2 ^ 52 % 2 ^ 11 ≠ 2047 := by
    intro he
    apply isFinite_iff.mp h
    apply BitVec.eq_of_toNat_eq
    simpa [unpackExponent, BitVec.extractLsb, Nat.shiftRight_eq_div_pow] using he
  simp only [pattern, infinity, signBit, Nat.pow_eq]
  omega

end BenchConsole.Binary64
