import BenchConsole.Number.Binary64
import Mathlib

/-!
# Comparing floats

Two floats that are numbers can be compared, infinite or not: one of them is at most the other
(`le_or_le`). What is not a number is at most nothing, not even itself (`isNaN_eq_false_of_le`).
-/

namespace BenchConsole.Binary64

open Float.Model Float.Model.UnpackedFloat

variable {x y : Float} {a b : UnpackedFloat}

theorem isSome_compare_iff : (a.compare b).isSome ↔ a.isNaN = false ∧ b.isNaN = false := by
  rcases a with (_ | _) | _ | _ | ⟨_ | _, _, _, _⟩ <;>
    rcases b with (_ | _) | _ | _ | ⟨_ | _, _, _, _⟩ <;>
    simp [UnpackedFloat.compare, UnpackedFloat.isNaN]

theorem swap_compare_sign (s t : Sign) : (compare s t).swap = compare t s := by
  cases s <;> cases t <;> rfl

/-- Comparing the other way round gives the opposite. -/
theorem map_swap_compare (a b : UnpackedFloat) :
    (a.compare b).map Ordering.swap = b.compare a := by
  rcases a with (_ | _) | _ | _ | ⟨_ | _, _, _, _⟩ <;>
    rcases b with (_ | _) | _ | _ | ⟨_ | _, _, _, _⟩ <;>
    simp [UnpackedFloat.compare, swap_compare_sign, Ordering.swap_then, Int.compare_swap,
      Nat.compare_swap]

theorem le_iff_any_isLE :
    x ≤ y ↔ (x.toModel.unpack.compare y.toModel.unpack).any Ordering.isLE :=
  decide_eq_true_iff

theorem isNaN_eq_false_of_le (h : x ≤ y) : x.isNaN = false ∧ y.isNaN = false :=
  isSome_compare_iff.mp (Option.isSome_of_any (le_iff_any_isLE.mp h))

theorem le_or_le (hx : x.isNaN = false) (hy : y.isNaN = false) : x ≤ y ∨ y ≤ x := by
  obtain ⟨o, ho⟩ : ∃ o, x.toModel.unpack.compare y.toModel.unpack = some o :=
    Option.isSome_iff_exists.mp (isSome_compare_iff.mpr ⟨hx, hy⟩)
  rw [le_iff_any_isLE, le_iff_any_isLE, ← map_swap_compare x.toModel.unpack, ho]
  cases o with
  | lt | eq => exact .inl rfl
  | gt => exact .inr rfl

end BenchConsole.Binary64
