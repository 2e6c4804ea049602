import Mathlib
import Stride.Plane
import Stride.Proofs.Single.Bounds

namespace Stride

/-!
# Bounds of vectors

The coordinates of a normalized vector are not greater than one by much, whatever the vector is: a
square that is hardly greater than half the least single may be rounded to the least single, and so
a length may be too small by the square root of one and a half, but not by more.  A normal that is
sound is bounded in the same way.

* `Vec3.Within` — all coordinates are bounded.
* `Vec3.Within.dot`, `Vec3.Within.lerp` — operations.
* `Vec3.normalizeOrZero_within` — normalized vectors.
* `Plane.IsSound.normal_within` — sound normals.
-/

open Single

namespace Vec3

/-- The size of every coordinate is at most `c · 2 ^ k`. -/
structure Within (v : Vec3 Float32) (c : ℕ) (k : ℤ) : Prop where
  /-- That of the first coordinate is. -/
  x : Single.Within v.x c k
  /-- That of the second coordinate is. -/
  y : Single.Within v.y c k
  /-- That of the height is. -/
  z : Single.Within v.z c k

variable {v w : Vec3 Float32} {t : Float32} {c d i : ℕ} {k l : ℤ}

theorem within_of_forall (h : ∀ a ∈ v.toList, Single.Within a c k) : v.Within c k := by
  obtain ⟨hx, hy, hz⟩ := forall_mem_toList.1 h
  exact ⟨hx, hy, hz⟩

theorem within_up {h : Float32} (hh : Single.Within h c k) : (up h).Within c k :=
  ⟨.zero c k, .zero c k, hh⟩

namespace Within

theorem zero (c : ℕ) (k : ℤ) : (0 : Vec3 Float32).Within c k := ⟨.zero c k, .zero c k, .zero c k⟩

theorem mono (h : v.Within c k) (hcd : c ≤ d) : v.Within d k :=
  ⟨h.x.mono hcd, h.y.mono hcd, h.z.mono hcd⟩

theorem coarser (h : v.Within c k) (hcd : c ≤ d * 2 ^ i) (hkl : l = k + i) : v.Within d l :=
  ⟨h.x.coarser hcd hkl, h.y.coarser hcd hkl, h.z.coarser hcd hkl⟩

theorem finer (h : v.Within c k) (hcd : c * 2 ^ i ≤ d) (hkl : k = l + i) : v.Within d l :=
  ⟨h.x.finer hcd hkl, h.y.finer hcd hkl, h.z.finer hcd hkl⟩

theorem exponent_le (h : v.Within 1 k) (hkl : k ≤ l) : v.Within 1 l :=
  ⟨h.x.exponent_le hkl, h.y.exponent_le hkl, h.z.exponent_le hkl⟩

theorem add (hv : v.Within c k) (hw : w.Within d k) (hcd : c + d < 2 ^ 24) (hk : -149 ≤ k)
    (hk' : k ≤ 104) : (v + w).Within (c + d) k :=
  ⟨hv.x.add hw.x hcd hk hk', hv.y.add hw.y hcd hk hk', hv.z.add hw.z hcd hk hk'⟩

theorem sub (hv : v.Within c k) (hw : w.Within d k) (hcd : c + d < 2 ^ 24) (hk : -149 ≤ k)
    (hk' : k ≤ 104) : (v - w).Within (c + d) k :=
  ⟨hv.x.sub hw.x hcd hk hk', hv.y.sub hw.y hcd hk hk', hv.z.sub hw.z hcd hk hk'⟩

theorem add_small (hv : v.Within 1 k) (hw : w.Within 1 l) (hl : l < k - 24) (hk : -125 ≤ k)
    (hk' : k ≤ 126) : (v + w).Within 1 k :=
  ⟨hv.x.add_small hw.x hl hk hk', hv.y.add_small hw.y hl hk hk', hv.z.add_small hw.z hl hk hk'⟩

theorem sub_small (hv : v.Within 1 k) (hw : w.Within 1 l) (hl : l < k - 24) (hk : -125 ≤ k)
    (hk' : k ≤ 126) : (v - w).Within 1 k :=
  ⟨hv.x.sub_small hw.x hl hk hk', hv.y.sub_small hw.y hl hk hk', hv.z.sub_small hw.z hl hk hk'⟩

theorem scale (hv : v.Within c k) (ht : Single.Within t d l) (hcd : c * d < 2 ^ 24)
    (hkl : -149 ≤ k + l) (hkl' : k + l ≤ 104) : (v * t).Within (c * d) (k + l) :=
  ⟨hv.x.mul ht hcd hkl hkl', hv.y.mul ht hcd hkl hkl', hv.z.mul ht hcd hkl hkl'⟩

theorem mul_share (hv : v.Within 1 k) (ht : IsShare t) (hk : 0 ≤ k) (hk' : k ≤ 126) :
    (v * t).Within 1 k :=
  ⟨hv.x.mul_share ht hk hk', hv.y.mul_share ht hk hk', hv.z.mul_share ht hk hk'⟩

theorem dot (hv : v.Within c k) (hw : w.Within d l) (hcd : 3 * (c * d) < 2 ^ 24)
    (hkl : -149 ≤ k + l) (hkl' : k + l ≤ 104) : Single.Within (v.dot w) (3 * (c * d)) (k + l) := by
  have hx := hv.x.mul hw.x (by omega) hkl hkl'
  have hy := hv.y.mul hw.y (by omega) hkl hkl'
  have hz := hv.z.mul hw.z (by omega) hkl hkl'
  exact ((hx.add hy (by omega) hkl hkl').add hz (by omega) hkl hkl').mono (by omega)

/-- **Interpolation** does not leave the bounds of the end points. -/
theorem lerp (hv : v.Within 1 k) (hw : w.Within 1 k) (ht : IsShare t) (hk : 0 ≤ k)
    (hk' : k ≤ 126) : (v.lerp w t).Within 1 k :=
  ⟨hv.x.mix hw.x ht hk hk', hv.y.mix hw.y ht hk hk', hv.z.mix hw.z ht hk hk'⟩

end Within

/-! ### Lengths -/

/-- The squares that add up to a finite number are at most one and a half times that number, unless
    it is zero. -/
theorem square_le_of_dot (h : (v.dot v).isFinite = true) :
    0 ≤ value (v.dot v) ∧ ∀ a ∈ v.toList, a.isFinite = true ∧
      ∀ w, value (v.dot v) ≤ w → 2 ^ (-149 : ℤ) ≤ w → value a * value a ≤ 3 / 2 * w := by
  -- a sum is finite only if its parts are
  have hxy : (v.x * v.x + v.y * v.y).isFinite = true := by
    by_contra hnot
    exact not_isFinite_add hnot _ h
  have hz : (v.z * v.z).isFinite = true := by
    by_contra hnot
    exact not_isFinite_add_right _ hnot h
  have hx : (v.x * v.x).isFinite = true := by
    by_contra hnot
    exact not_isFinite_add hnot _ hxy
  have hy : (v.y * v.y).isFinite = true := by
    by_contra hnot
    exact not_isFinite_add_right _ hnot hxy
  have hfinite {a : Float32} (ha : (a * a).isFinite = true) : a.isFinite = true := by
    by_contra hnot
    exact not_isFinite_mul hnot _ ha
  have hpos {a : Float32} (ha : (a * a).isFinite = true) : 0 ≤ value (a * a) :=
    (rounds_mul (hfinite ha) (hfinite ha)).nonneg (mul_self_nonneg _)
  obtain ⟨hxle, hyle⟩ := le_value_add hx hy hxy (hpos hx) (hpos hy)
  obtain ⟨hxyle, hzle⟩ := le_value_add hxy hz h ((hpos hx).trans hxle) (hpos hz)
  have hsquare {a : Float32} (ha : (a * a).isFinite = true)
      (hle : value (a * a) ≤ value (v.dot v)) : a.isFinite = true ∧
        ∀ w, value (v.dot v) ≤ w → 2 ^ (-149 : ℤ) ≤ w → value a * value a ≤ 3 / 2 * w :=
    ⟨hfinite ha, fun w hw hleast => le_of_rounds (rounds_mul (hfinite ha) (hfinite ha)) ha
      (mul_self_nonneg _) (hle.trans hw) hleast⟩
  exact ⟨(hpos hz).trans hzle, forall_mem_toList.2
    ⟨hsquare hx (hxle.trans hxyle), hsquare hy (hyle.trans hxyle), hsquare hz hzle⟩⟩

/-- A length that is not zero is close to the root of the sum of the squares, and no coordinate is
    much greater. -/
theorem abs_le_length (h : v.length.isFinite = true) (hpos : value v.length ≠ 0) :
    0 < value v.length ∧ value v.length < 2 ^ (65 : ℤ) ∧
      ∀ a ∈ v.toList, a.isFinite = true ∧ 400 * |value a| ≤ 491 * value v.length := by
  have hdot : (v.dot v).isFinite = true := by
    by_contra hnot
    exact not_isFinite_sqrt hnot h
  obtain ⟨hnonneg, hsquares⟩ := square_le_of_dot hdot
  have hroot : Rounds √(value (v.dot v)) v.length := rounds_sqrt hdot hnonneg
  have hdot' : 0 < value (v.dot v) := by
    refine hnonneg.lt_of_ne fun hzero => hpos ?_
    rw [← hzero, Real.sqrt_zero] at hroot
    exact abs_nonpos_iff.1 (hroot.abs_le representable_zero (by rw [abs_zero])).2
  obtain ⟨hleast, hgreatest⟩ := value_mem_of_pos hdot hdot'
  set root := √(value (v.dot v)) with hdef
  -- the root is far from both ends of the exponents, so that its error is small against it
  have hself : root * root = value (v.dot v) := Real.mul_self_sqrt hnonneg
  have hroot' : 0 < root := Real.sqrt_pos.2 hdot'
  have hlow : 2 ^ (-126 : ℤ) < root := by
    rw [hdef, Real.lt_sqrt (zpow_pos two_pos _).le, ← zpow_natCast, ← zpow_mul]
    exact (zpow_lt_zpow_right₀ one_lt_two (by norm_num)).trans_le hleast
  have hhigh : root < 2 ^ (64 : ℤ) := by
    rw [hdef, Real.sqrt_lt' (zpow_pos two_pos _), ← zpow_natCast, ← zpow_mul]
    exact hgreatest.trans_eq (by norm_num)
  obtain ⟨hlower, hupper⟩ := abs_le.1 (hroot.relative h hroot' hlow)
  have hsmall : root * 2 ^ (-24 : ℤ) * 4000 ≤ root := by
    rw [mul_assoc]
    exact mul_le_of_le_one_right hroot'.le (by norm_num)
  refine ⟨by linarith, ?_, fun a ha => ?_⟩
  · rw [show (65 : ℤ) = 64 + 1 by norm_num, zpow_add_one₀ two_ne_zero]
    linarith
  · obtain ⟨hfinite, hsquare⟩ := hsquares a ha
    have hle := hsquare _ le_rfl hleast
    refine ⟨hfinite, ?_⟩
    have hroot'' : |40 * value a| ≤ 49 * root := by
      refine abs_le_of_sq_le_sq ?_ (by linarith)
      nlinarith
    rw [abs_mul, abs_of_pos (by norm_num)] at hroot''
    linarith

/-- **A normalized vector** has no coordinate that is greater than one by more than a quarter,
    whatever the vector is. -/
theorem normalizeOrZero_within (v : Vec3 Float32) : v.normalizeOrZero.Within 5 (-2) := by
  rw [normalizeOrZero]
  split_ifs with hunit
  · obtain ⟨hfinite, hpos⟩ := hunit
    replace hfinite : (1 / v.length).isFinite = true := hfinite
    have hlength : v.length.isFinite = true := by
      by_contra hnot
      exact not_pos_one_div hnot hpos
    obtain ⟨hpos', hlarge, hcoordinates⟩ :=
      abs_le_length hlength (value_ne_zero_of_one_div hlength hfinite)
    have hrounds := rounds_div (a := 1) rfl hlength hpos'.ne'
    rw [value_one] at hrounds
    -- the factor is off by less than one part in four thousand
    have hinverse : 0 < 1 / value v.length := one_div_pos.2 hpos'
    have hlow : (2 : ℝ) ^ (-126 : ℤ) < 1 / value v.length := by
      calc (2 : ℝ) ^ (-126 : ℤ) ≤ 2 ^ (-65 : ℤ) := zpow_le_zpow_right₀ one_le_two (by norm_num)
        _ = 1 / 2 ^ (65 : ℤ) := by rw [zpow_neg, one_div]
        _ < 1 / value v.length := one_div_lt_one_div_of_lt hpos' hlarge
    have herror := (abs_le.1 (hrounds.relative hfinite hinverse hlow)).2
    have hsmall : 1 / value v.length * 2 ^ (-24 : ℤ) * 4000 ≤ 1 / value v.length := by
      rw [mul_assoc]
      exact mul_le_of_le_one_right hinverse.le (by norm_num)
    have hfactor := hrounds.nonneg hinverse.le
    have hone : value v.length * (1 / value v.length) = 1 := mul_one_div_cancel hpos'.ne'
    have hcoordinate : ∀ a ∈ v.toList, Single.Within (a * (1 / v.length)) 5 (-2) := by
      intro a ha
      obtain ⟨ha', hle⟩ := hcoordinates a ha
      refine (rounds_mul ha' hfinite).within ?_ (by norm_num) (by norm_num) (by norm_num)
      have hproduct : 1600000 * (|value a| * value (1 / v.length)) ≤ 491 * 4001 := by
        calc 1600000 * (|value a| * value (1 / v.length))
            = 400 * |value a| * (4000 * value (1 / v.length)) := by ring
          _ ≤ 491 * value v.length * (4001 * (1 / value v.length)) :=
            mul_le_mul hle (by linarith) (by linarith) (by linarith)
          _ = 491 * 4001 * (value v.length * (1 / value v.length)) := by ring
          _ = 491 * 4001 := by rw [hone, mul_one]
      rw [abs_mul, abs_of_nonneg hfactor, show ((5 : ℕ) : ℝ) * 2 ^ (-2 : ℤ) = 5 / 4 by norm_num]
      linarith
    obtain ⟨hx, hy, hz⟩ := forall_mem_toList.1 hcoordinate
    exact ⟨hx, hy, hz⟩
  · exact .zero _ _

end Vec3

/-! ### Normals -/

theorem Single.value_abs {a : Float32} (ha : a.isFinite = true) :
    (Scalar.abs a).isFinite = true ∧ value (Scalar.abs a) = |value a| := by
  have hsign := lt_iff_value ha (c := 0) rfl
  rw [value_zero] at hsign
  rw [Scalar.abs]
  split_ifs with hneg
  · exact ⟨isFinite_neg ha, by rw [value_neg ha, abs_of_neg (hsign.1 hneg)]⟩
  · exact ⟨ha, (abs_of_nonneg (not_lt.1 (mt hsign.2 hneg))).symm⟩

/-- **The normal of a sound plane** has no coordinate that is greater than one by more than a
    quarter. -/
theorem Plane.IsSound.normal_within {p : Plane Float32} (h : p.IsSound) :
    p.normal.Within 5 (-2) := by
  obtain ⟨hlength, hnear, -⟩ := h
  replace hlength : p.normal.length.isFinite = true := hlength
  have hdot : (p.normal.dot p.normal).isFinite = true := by
    by_contra hnot
    exact not_isFinite_sqrt hnot hlength
  have hroot := rounds_sqrt hdot (Vec3.square_le_of_dot hdot).1
  have hpos : 0 ≤ value p.normal.length := hroot.nonneg (Real.sqrt_nonneg _)
  have hfinite : (p.normal.length - 1).isFinite = true :=
    isFinite_sub_of_nonneg hlength rfl hpos (by rw [value_one]; exact zero_le_one)
  -- the difference from one is less than the tolerance, before rounding as well
  obtain ⟨habs, habs'⟩ := value_abs hfinite
  have htolerance : Single.Within normalTolerance 1 (-9) :=
    within_of_le (e := normalTolerance) (by decide +kernel) (by decide +kernel) (by decide +kernel)
      (by norm_num) (by norm_num)
  have hsmall : |value (p.normal.length - 1)| < 2 ^ (-8 : ℤ) := by
    rw [lt_iff_value htolerance.isFinite habs, not_lt, habs'] at hnear
    calc |value (p.normal.length - 1)| ≤ value normalTolerance := hnear
      _ ≤ 2 ^ (-9 : ℤ) := (le_abs_self _).trans htolerance.le_two_zpow
      _ < 2 ^ (-8 : ℤ) := zpow_lt_zpow_right₀ one_lt_two (by norm_num)
  have hexact : |value p.normal.length - 1| < 2 ^ (-8 : ℤ) := by
    have hsub := rounds_sub hlength (b := 1) rfl
    rw [value_one] at hsub
    exact hsub.abs_lt_two_zpow hfinite (by norm_num) (by norm_num) hsmall
  rw [abs_lt] at hexact
  norm_num at hexact
  obtain ⟨-, -, hcoordinates⟩ := Vec3.abs_le_length hlength (by linarith)
  refine Vec3.within_of_forall fun a ha => ?_
  obtain ⟨ha', hle⟩ := hcoordinates a ha
  refine ⟨ha', ?_⟩
  rw [show ((5 : ℕ) : ℝ) * 2 ^ (-2 : ℤ) = 5 / 4 by norm_num]
  linarith

end Stride
