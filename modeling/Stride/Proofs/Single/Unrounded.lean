import Mathlib
import Stride.Proofs.Single.Bounds

namespace Stride

/-!
# Results that need no rounding

Rounding does not pass a number that a single stands for, and so leaves such a number as it is.  The
difference of two singles may be rounded, but it has the sign that it should have.

* `Rounds.value_le`, `Rounds.le_value` — no result passes a number that needs no rounding.
* `Exactly` — a finite single that stands for a given number; `Exactly.add`, `Exactly.mul`.
* `isZero_of_same` — what equals zero is a zero.
* `pos_sub_iff` — a difference is positive iff the order says so.
* `pos_sub_zero_iff` — taking away zero changes no sign, also that of an infinity.
-/

namespace Single

open Float.Model (UnpackedFloat Format)
open Float.Model.UnpackedFloat

variable {x y : ℝ} {a b : Float32}

/-! ### Rounding is monotone -/

theorem signed_neg (s : Sign) (x : ℝ) : signed (-s) x = -signed s x := by
  cases s
  · exact (neg_neg x).symm
  · rfl

namespace Rounds

theorem neg (h : Rounds x a) : Rounds (-x) (-a) := by
  obtain ⟨s, y, r, t, hpos, rfl, hnearest, hresult⟩ := h
  refine ⟨-s, y, r, t, hpos, (signed_neg s y).symm, hnearest, ?_⟩
  rcases hresult with ⟨ha, hvalue⟩ | ⟨hinfinite, hlarge⟩
  · exact .inl ⟨isFinite_neg ha, by rw [value_neg ha, hvalue, signed_neg]⟩
  · exact .inr ⟨by rw [unpack_neg, hinfinite]; rfl, hlarge⟩

/-- **No result passes** a number that needs no rounding. -/
theorem value_le (h : Rounds x a) (ha : a.isFinite = true) (hy : Representable |y|) (hxy : x ≤ y) :
    value a ≤ y := by
  rcases le_total 0 x with hx | hx
  · have hresult := (h.abs_le hy (abs_le_abs_of_nonneg hx hxy)).2
    rw [abs_of_nonneg (hx.trans hxy)] at hresult
    exact (le_abs_self _).trans hresult
  · have hresult : value a ≤ 0 := by
      have hpos := h.not_pos hx
      rwa [lt_iff_value rfl ha, value_zero, not_lt] at hpos
    rcases le_total 0 y with hy' | hy'
    · exact hresult.trans hy'
    · have hle := h.le_abs ha hy (by rwa [abs_of_nonpos hx, abs_of_nonpos hy', neg_le_neg_iff])
      rwa [abs_of_nonpos hresult, abs_of_nonpos hy', neg_le_neg_iff] at hle

/-- The same from the other side. -/
theorem le_value (h : Rounds x a) (ha : a.isFinite = true) (hy : Representable |y|) (hyx : y ≤ x) :
    y ≤ value a := by
  have hle := h.neg.value_le (isFinite_neg ha) (by rwa [abs_neg]) (neg_le_neg hyx)
  rwa [value_neg ha, neg_le_neg_iff] at hle

end Rounds

/-- The single is finite, and stands for the number. -/
structure Exactly (a : Float32) (x : ℝ) : Prop where
  /-- It is finite. -/
  isFinite : a.isFinite = true
  /-- It stands for the number. -/
  value_eq : value a = x

/-- **What needs no rounding is not rounded.** -/
theorem Rounds.exactly (h : Rounds x a) (hx : Representable |x|) : Exactly a x := by
  obtain ⟨ha, -⟩ := h.abs_le hx le_rfl
  exact ⟨ha, le_antisymm (h.value_le ha hx le_rfl) (h.le_value ha hx le_rfl)⟩

theorem exactly_value (ha : a.isFinite = true) : Exactly a (value a) := ⟨ha, rfl⟩

namespace Exactly

theorem representable (h : Exactly a x) : Representable |x| := by
  rw [← h.value_eq]
  exact representable_abs_value h.isFinite

theorem zero : Exactly 0 0 := ⟨rfl, value_zero⟩

theorem one : Exactly 1 1 := ⟨rfl, value_one⟩

theorem neg (h : Exactly a x) : Exactly (-a) (-x) :=
  ⟨isFinite_neg h.isFinite, by rw [value_neg h.isFinite, h.value_eq]⟩

theorem add (ha : Exactly a x) (hb : Exactly b y) (h : Representable |x + y|) :
    Exactly (a + b) (x + y) := by
  have hrounds := rounds_add ha.isFinite hb.isFinite
  rw [ha.value_eq, hb.value_eq] at hrounds
  exact hrounds.exactly h

theorem mul (ha : Exactly a x) (hb : Exactly b y) (h : Representable |x * y|) :
    Exactly (a * b) (x * y) := by
  have hrounds := rounds_mul ha.isFinite hb.isFinite
  rw [ha.value_eq, hb.value_eq] at hrounds
  exact hrounds.exactly h

protected theorem add_zero (ha : Exactly a x) (hb : Exactly b 0) : Exactly (a + b) x := by
  have hsum := ha.add hb
  rw [add_zero] at hsum
  exact hsum ha.representable

protected theorem zero_add (ha : Exactly a 0) (hb : Exactly b x) : Exactly (a + b) x := by
  have hsum := ha.add hb
  rw [zero_add] at hsum
  exact hsum hb.representable

protected theorem zero_mul (hb : Exactly b y) : Exactly (0 * b) 0 := by
  have hproduct := zero.mul hb
  rw [zero_mul, abs_zero] at hproduct
  exact hproduct representable_zero

protected theorem one_mul (hb : Exactly b y) : Exactly (1 * b) y := by
  have hproduct := one.mul hb
  rw [one_mul] at hproduct
  exact hproduct hb.representable

protected theorem neg_one_mul (hb : Exactly b y) : Exactly (-1 * b) (-y) := by
  have hproduct := one.neg.mul hb
  rw [neg_one_mul, abs_neg] at hproduct
  exact hproduct hb.representable

end Exactly

/-- What equals zero as a number is a zero, of either sign. -/
theorem isZero_of_same (h : Scalar.same a 0 = true) : IsZero a := by
  simp only [Scalar.same, Bool.and_eq_true, decide_eq_true_eq] at h
  obtain ⟨hle, hge⟩ := h
  have ha := isFinite_of_le hge rfl hle
  rw [le_iff_value ha rfl, value_zero] at hle
  rw [le_iff_value rfl ha, value_zero] at hge
  rcases unpack_of_isFinite ha with hzero | ⟨s, m, e, hm, hu⟩
  · exact hzero
  · have hvalue : |value a| = m * 2 ^ e := by
      rw [value, hu, valueOf_finite, abs_signed,
        abs_of_nonneg (mul_nonneg m.cast_nonneg (zpow_pos two_pos e).le)]
    rw [le_antisymm hle hge, abs_zero] at hvalue
    exact absurd hvalue (mul_pos (mod_cast hm) (zpow_pos two_pos e)).ne

/-! ### The sign of a difference -/

/-- Every finite single is a multiple of the least one. -/
theorem exists_value_eq_mul_least (ha : a.isFinite = true) :
    ∃ i : ℤ, value a = i * 2 ^ (-149 : ℤ) := by
  obtain ⟨s, m, e, hm, -, hvalue⟩ := exists_value_eq ha
  have hmin := hm.min
  obtain ⟨k, hk⟩ : ∃ k : ℕ, (k : ℤ) = e + 149 := ⟨(e + 149).toNat, by omega⟩
  refine ⟨s.apply (m * 2 ^ k : ℕ), ?_⟩
  rw [signed_apply, hvalue, Nat.cast_mul, Nat.cast_pow, Nat.cast_ofNat, mul_assoc, ← zpow_natCast,
    ← zpow_add₀ two_ne_zero, hk, add_neg_cancel_right]

/-- A rounded number that is not below the least positive single is positive. -/
theorem Rounds.pos (h : Rounds x a) (hx : 2 ^ (-149 : ℤ) ≤ x) : 0 < a := by
  have hleast : (0 : ℝ) < 2 ^ (-149 : ℤ) := zpow_pos two_pos _
  have hnonneg := h.zero_le (hleast.le.trans hx)
  refine Scalar.lt_of_not_le (isNumber_of_isFinite rfl) (Scalar.Lawful.number_right hnonneg) ?_
  intro hle
  have ha := isFinite_of_le hnonneg rfl hle
  have hvalue := h.le_value ha (by
    rw [abs_of_pos hleast]
    exact representable_two_zpow le_rfl (by norm_num)) hx
  rw [le_iff_value ha rfl, value_zero] at hle
  exact absurd (hvalue.trans hle) hleast.not_ge

/-- **The sign of a difference** is right, also where the difference is rounded or overflows. -/
theorem pos_sub_iff (ha : a.isFinite = true) (hb : b.isFinite = true) :
    0 < a - b ↔ value b < value a := by
  have hrounds := rounds_sub ha hb
  constructor
  · intro hpos
    by_contra hle
    exact hrounds.not_pos (sub_nonpos.2 (not_lt.1 hle)) hpos
  · intro hlt
    refine hrounds.pos ?_
    -- multiples of the least single that are different are at least that far apart
    obtain ⟨i, hi⟩ := exists_value_eq_mul_least ha
    obtain ⟨j, hj⟩ := exists_value_eq_mul_least hb
    rw [hi, hj, mul_lt_mul_iff_left₀ (zpow_pos two_pos _), Int.cast_lt] at hlt
    rw [hi, hj, ← sub_mul]
    refine le_mul_of_one_le_left (zpow_pos two_pos _).le ?_
    have hstep : ((1 : ℤ) : ℝ) ≤ (i - j : ℤ) := Int.cast_le.2 (by omega)
    rwa [Int.cast_one, Int.cast_sub] at hstep

/-- Taking away zero changes nothing in the order. -/
theorem place_sub_zero (a : Float32) (hb : IsZero b) : place (a - b) = place a := by
  by_cases ha : a.isFinite = true
  · exact place_eq_of_alike (alike_sub_zero ha hb)
  · obtain ⟨s, hv⟩ := hb
    have hsub : (a - b).toModel.unpack =
        (Float32.ofModel (.pack (sub .binary32 a.toModel.unpack (.zero s)))).toModel.unpack := by
      rw [← hv]
      rfl
    rw [place, place, hsub]
    rcases unpack_of_not_isFinite ha with ⟨_ | _, hu⟩ | hu <;> rw [hu] <;> cases s <;> rfl

theorem pos_sub_zero_iff (a : Float32) (hb : IsZero b) : 0 < a - b ↔ 0 < a := by
  rw [lt_iff, lt_iff, place_sub_zero a hb]

end Single

end Stride
