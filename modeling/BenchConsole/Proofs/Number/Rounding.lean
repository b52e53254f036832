import BenchConsole.Number.Binary64
import Mathlib

/-!
# Rounding to the nearest pattern

`nearest` depends only on the value of a fraction (`nearest_mul_left`), and a fraction whose
value is that of a finite pattern is rounded to that pattern (`nearest_of_eq_units`): nothing is
lost where nothing has to be rounded.
-/

namespace BenchConsole.Binary64

variable {n d k p : Nat}

theorem roundHalfEven_mul_left (hk : 0 < k) (n d : Nat) :
    roundHalfEven (k * n) (k * d) = roundHalfEven n d := by
  have hlt : k * d < 2 * (k * (n % d)) ↔ d < 2 * (n % d) := by
    rw [Nat.mul_left_comm, Nat.mul_lt_mul_left hk]
  have heq : 2 * (k * (n % d)) = k * d ↔ 2 * (n % d) = d := by
    rw [Nat.mul_left_comm, Nat.mul_left_cancel_iff hk]
  simp only [roundHalfEven, Nat.mul_div_mul_left _ _ hk, Nat.mul_mod_mul_left, hlt, heq]

/-- Only the value of a fraction counts. -/
theorem nearest_mul_left (hk : 0 < k) (n d : Nat) : nearest (k * n) (k * d) = nearest n d := by
  simp only [nearest, Nat.mul_assoc, Nat.mul_div_mul_left _ _ hk, roundHalfEven_mul_left hk]

theorem roundHalfEven_mul_self (hd : 0 < d) (q : Nat) : roundHalfEven (q * d) d = q := by
  simp only [roundHalfEven, Nat.mul_div_cancel _ hd, Nat.mul_mod_left]
  exact if_neg (by omega)

/-- A finite pattern as an exponent and a significand. The significand of a number below the
normal ones is short, that of any other one has 53 bits. -/
theorem units_eq (p : Nat) : ∃ e m, p = e * 2 ^ 52 + m ∧ units p = m * 2 ^ e ∧ m < 2 ^ 53 ∧
    (e = 0 ∨ 2 ^ 52 ≤ m) :=
  ⟨p / 2 ^ 52 - 1, p - (p / 2 ^ 52 - 1) * 2 ^ 52, by omega, rfl, by omega, by omega⟩

theorem log2_units_sub (p : Nat) : ∃ e m, p = e * 2 ^ 52 + m ∧ units p = m * 2 ^ e ∧
    (units p).log2 - 52 = e := by
  obtain ⟨e, m, hp, hu, hm, he⟩ := units_eq p
  refine ⟨e, m, hp, hu, ?_⟩
  rcases Nat.eq_zero_or_pos m with rfl | hpos
  · have h0 : e = 0 := by omega
    simp [hu, h0]
  have hne : units p ≠ 0 := by
    rw [hu]
    exact Nat.ne_of_gt (Nat.mul_pos hpos (Nat.two_pow_pos e))
  have hlt : (units p).log2 < 53 + e := by
    rw [Nat.log2_lt hne, hu, Nat.pow_add]
    exact Nat.mul_lt_mul_of_pos_right hm (Nat.two_pow_pos e)
  rcases he with rfl | hm52
  · omega
  · have hle : 52 + e ≤ (units p).log2 := by
      rw [Nat.le_log2 hne, hu, Nat.pow_add]
      exact Nat.mul_le_mul_right _ hm52
    omega

theorem units_eq_zero_iff : units p = 0 ↔ p = 0 := by
  constructor
  · intro h
    obtain ⟨e, m, hp, hu, -, he⟩ := units_eq p
    rw [hu, Nat.mul_eq_zero] at h
    have := Nat.two_pow_pos e
    omega
  · rintro rfl
    rfl

/-- A fraction that is the value of a finite pattern is rounded to that pattern. -/
theorem nearest_of_eq_units (hp : p < infinity) (hd : 0 < d)
    (h : n * unitsPerOne = units p * d) : nearest n d = p := by
  obtain ⟨e, m, hpe, hu, he⟩ := log2_units_sub p
  have hpos : 0 < d * 2 ^ e := Nat.mul_pos hd (Nat.two_pow_pos e)
  have hscaled : units p * d = m * (d * 2 ^ e) := by
    rw [hu, Nat.mul_assoc, Nat.mul_comm (2 ^ e) d]
  simp only [nearest, h, Nat.pow_eq]
  rw [Nat.mul_div_cancel _ hd, he, hscaled, roundHalfEven_mul_self hpos, ← hpe]
  exact Nat.min_eq_left (Nat.le_of_lt hp)

end BenchConsole.Binary64
