import Mathlib.Algebra.Order.Field.Basic
import Mathlib.Data.Rat.Cast.OfScientific
import Mathlib.Data.Rat.Sqrt
import Mathlib.Tactic.SplitIfs
import Stride.Proofs.Scalar.Order

namespace Stride

/-!
# Exact scalars

Over an ordered field with a choice of square roots the formulas of the library are read without
rounding.  Nothing is infinite there, and every value is a number.

* `HasSqrt` — a choice of square roots, about which nothing is assumed.
* `Scalar.ofField` — the scalars of an ordered field.
* `minNum_eq_min`, `maxNum_eq_max` — extrema are the usual ones.
* `le_clamp`, `clamp_le`, `clamp_mem` — a limited value.
-/

/-- A choice of square roots. -/
class HasSqrt (K : Type) where
  /-- The root. -/
  sqrt : K → K

/-- The root of a square is exact; other roots are rounded down in numerator and denominator. -/
instance : HasSqrt ℚ := ⟨Rat.sqrt⟩

variable {K : Type} [Field K] [LinearOrder K] [HasSqrt K]

/-- The scalars of an ordered field. -/
instance Scalar.ofField : Scalar K where
  sqrt := HasSqrt.sqrt
  isFinite _ := true
  decLt := inferInstance
  decLe := inferInstance

namespace Scalar

theorem minNum_eq_min (a b : K) : minNum a b = min a b := by
  by_cases h : a < b
  · rw [minNum_of_lt h, min_eq_left h.le]
  · rw [minNum_of_not_lt (le_refl b) h, min_eq_right (not_lt.1 h)]

theorem maxNum_eq_max (a b : K) : maxNum a b = max a b := by
  rw [maxNum]
  split_ifs with h hb
  · exact (max_eq_left h.le).symm
  · exact (max_eq_right (not_lt.1 h)).symm
  · exact absurd (le_refl b) hb

theorem le_clamp {lo hi a u : K} (h : u ≤ a) (hu : u ≤ hi) : u ≤ clamp lo hi a := by
  rw [clamp]
  split_ifs with hlo
  · exact h.trans hlo.le
  · exact hu
  · exact h

theorem clamp_le {lo hi a u : K} (h : a ≤ u) (hu : lo ≤ u) : clamp lo hi a ≤ u := by
  rw [clamp]
  split_ifs with _ hhi
  · exact hu
  · exact hhi.le.trans h
  · exact h

theorem clamp_mem {lo hi : K} (h : lo ≤ hi) (a : K) : lo ≤ clamp lo hi a ∧ clamp lo hi a ≤ hi := by
  rw [clamp]
  split_ifs with hlo hhi
  · exact ⟨le_refl lo, h⟩
  · exact ⟨h, le_refl hi⟩
  · exact ⟨not_lt.1 hlo, not_lt.1 hhi⟩

variable [IsStrictOrderedRing K]

instance : Lawful K where
  le_of_lt := le_of_lt
  not_lt_of_le := not_lt_of_ge
  le_trans := le_trans
  lt_or_le _ _ := lt_or_ge _ _
  number_left _ := le_refl _
  number_right _ := le_refl _
  neg_one_lt_zero := neg_one_lt_zero
  zero_lt_one := zero_lt_one

end Scalar

end Stride
