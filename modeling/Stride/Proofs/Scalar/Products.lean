import Mathlib
import Stride.Proofs.Scalar.Reals
import Stride.Proofs.Scalar.Vectors

namespace Stride.Vec3

/-!
# Products and lengths

The inner product is linear and the vector product is normal to both factors, over any field.  Over
the reals the length is the Euclidean norm.

* `dot_comm`, `sub_dot`, `scale_dot` — the inner product is symmetric and linear.
* `cross_dot_left`, `cross_dot_right` — the vector product is normal to its factors.
* `toEuclidean` — a vector as a point of Euclidean space, with the same length and inner product.
* `length_add_le`, `length_scale`, `abs_dot_le` — what follows for lengths.
* `normalizeOrZero_cases` — a normalized vector is a unit vector or zero.
-/

/-! ### Inner products -/

section

variable {K : Type} [Field K] [LinearOrder K] [HasSqrt K] (u v w : Vec3 K) (a : K)

theorem dot_comm : v.dot w = w.dot v := by
  simp only [dot]
  ring

theorem sub_dot : (u - v).dot w = u.dot w - v.dot w := by
  simp only [dot, sub_x, sub_y, sub_z]
  ring

theorem scale_dot : (v * a).dot w = v.dot w * a := by
  simp only [dot, scale_x, scale_y, scale_z]
  ring

theorem cross_dot_left : (v.cross w).dot v = 0 := by
  simp only [dot, cross]
  ring

theorem cross_dot_right : (v.cross w).dot w = 0 := by
  simp only [dot, cross]
  ring

/-- A normalized vector is a multiple of the vector. -/
theorem normalizeOrZero_eq_scale : ∃ c : K, v.normalizeOrZero = v * c := by
  simp only [normalizeOrZero]
  split_ifs
  · exact ⟨_, rfl⟩
  · refine ⟨0, ?_⟩
    ext <;> simp

end

/-! ### Lengths -/

/-- The vector as a point of Euclidean space. -/
noncomputable def toEuclidean (v : Vec3 ℝ) : EuclideanSpace ℝ (Fin 3) :=
  WithLp.toLp _ ![v.x, v.y, v.z]

variable (v w : Vec3 ℝ) (a : ℝ)

theorem toEuclidean_add : (v + w).toEuclidean = v.toEuclidean + w.toEuclidean := by
  ext i
  fin_cases i <;> rfl

theorem toEuclidean_scale : (v * a).toEuclidean = a • v.toEuclidean := by
  ext i
  fin_cases i <;> simp [toEuclidean, mul_comm]

theorem length_eq_norm : v.length = ‖v.toEuclidean‖ := by
  rw [EuclideanSpace.norm_eq, Fin.sum_univ_three]
  simp only [Real.norm_eq_abs, sq_abs]
  simp only [sq]
  rfl

theorem dot_eq_inner : v.dot w = inner ℝ v.toEuclidean w.toEuclidean := by
  simp [dot, toEuclidean, PiLp.inner_apply, Fin.sum_univ_three, mul_comm]

theorem length_nonneg : 0 ≤ v.length := Real.sqrt_nonneg _

theorem length_mul_length : v.length * v.length = v.dot v := by
  rw [length_eq_norm, dot_eq_inner, real_inner_self_eq_norm_mul_norm]

theorem length_add_le : (v + w).length ≤ v.length + w.length := by
  rw [length_eq_norm, length_eq_norm, length_eq_norm, toEuclidean_add]
  exact norm_add_le _ _

theorem length_scale : (v * a).length = v.length * |a| := by
  rw [length_eq_norm, length_eq_norm, toEuclidean_scale, norm_smul, Real.norm_eq_abs, mul_comm]

theorem abs_dot_le : |v.dot w| ≤ v.length * w.length := by
  rw [length_eq_norm, length_eq_norm, dot_eq_inner]
  exact abs_real_inner_le_norm _ _

variable {v w}

theorem length_le_of_dot_le (h : v.dot v ≤ w.dot w) : v.length ≤ w.length := Real.sqrt_le_sqrt h

theorem dot_self_of_length_eq_one (h : v.length = 1) : v.dot v = 1 := by
  rw [← length_mul_length, h, one_mul]

theorem length_zero : (0 : Vec3 ℝ).length = 0 := by
  rw [length_eq_norm, norm_eq_zero]
  ext i
  fin_cases i <;> rfl

/-- A normalized vector is a unit vector, or zero. -/
theorem normalizeOrZero_cases (v : Vec3 ℝ) :
    v.normalizeOrZero = 0 ∨ v.normalizeOrZero.length = 1 := by
  simp only [normalizeOrZero]
  split_ifs with h
  · -- a length with a positive reciprocal is positive
    have hpos : 0 < v.length := one_div_pos.1 h.2
    right
    rw [length_scale, abs_of_pos h.2, mul_one_div_cancel hpos.ne']
  · exact .inl rfl

/-- The part of a vector along another that is normalized is no longer than the vector. -/
theorem length_along_le (v w : Vec3 ℝ) :
    (w.normalizeOrZero * w.normalizeOrZero.dot v).length ≤ v.length := by
  rw [length_scale]
  rcases normalizeOrZero_cases w with h | h
  · rw [h, length_zero, zero_mul]
    exact length_nonneg v
  · have hle := abs_dot_le w.normalizeOrZero v
    rw [h, one_mul] at hle
    rwa [h, one_mul]

end Stride.Vec3
