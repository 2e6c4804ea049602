import Mathlib
import Stride.Bounds
import Stride.Proofs.Scalar.Vectors
import Stride.Proofs.Single.Unrounded

namespace Stride

/-!
# Singles and integers

A single is rounded to a neighbouring integer by its mantissa and exponent, and an integer is
rounded to a single.  Going there and back may round twice, but neither step passes the single
itself, so the integer bounds around a box of singles enclose the box.

* `floorOf_eq` — the division of the mantissa, as the greatest integer below a real number.
* `Fits` — a single whose neighbouring integers have 32 bits.
* `Fits.toInt_floor`, `Fits.toInt_ceil` — the neighbouring integers.
* `ofInt32_le`, `le_ofInt32` — rounding an integer does not pass a single.
* `Bounds.enclosing_tight` — the integer bounds around a box.
-/

namespace Single

open Float.Model (UnpackedFloat Format)
open Float.Model.UnpackedFloat

variable {a : Float32}

/-! ### To the neighbouring integer -/

/-- The greatest integer that is at most a number with mantissa and exponent. -/
theorem floorOf_eq (s : Sign) (m : ℕ) (e : ℤ) : floorOf s m e = ⌊signed s (m * 2 ^ e)⌋ := by
  rw [← signed_apply, floorOf]
  simp only [Nat.pow_eq]
  split_ifs with he
  · -- the number is an integer
    have hpower : (2 : ℝ) ^ e = ((2 ^ e.natAbs : ℕ) : ℤ) := by
      rw [Int.cast_natCast, Nat.cast_pow, Nat.cast_ofNat, ← zpow_natCast, Int.natAbs_of_nonneg he]
    rw [hpower, ← Int.cast_mul, Int.floor_intCast]
  · have hpower : (2 : ℝ) ^ e = ((2 ^ e.natAbs : ℕ) : ℝ)⁻¹ := by
      rw [Nat.cast_pow, Nat.cast_ofNat, ← zpow_natCast, ← zpow_neg]
      congr 1
      omega
    rw [hpower, ← div_eq_mul_inv, Int.fdiv_eq_ediv_of_nonneg _ (Int.natCast_nonneg _),
      Int.floor_div_natCast, Int.floor_intCast]

/-- A single whose neighbouring integers have 32 bits. -/
@[mk_iff]
structure Fits (a : Float32) : Prop where
  /-- It is not below the least integer. -/
  low : -2147483648 ≤ a
  /-- It is below what follows the greatest integer. -/
  high : a < 2147483648

instance (a : Float32) : Decidable (Fits a) := decidable_of_iff' _ (fits_iff a)

namespace Fits

theorem value_mem (h : Fits a) : a.isFinite = true ∧ -2 ^ 31 ≤ value a ∧ value a < 2 ^ 31 := by
  obtain ⟨htop, hvalue⟩ := value_twoPow (k := 31) (by norm_num) (by norm_num)
  have heq : (2147483648 : Float32) = twoPow 31 := by decide +kernel
  obtain ⟨hlow, hhigh⟩ := h
  rw [heq] at hlow hhigh
  have ha := isFinite_of_mem (isFinite_neg htop) htop hlow (Scalar.Lawful.le_of_lt hhigh)
  rw [le_iff_value (isFinite_neg htop) ha, value_neg htop, hvalue] at hlow
  rw [lt_iff_value ha htop, hvalue] at hhigh
  exact ⟨ha, mod_cast hlow, mod_cast hhigh⟩

/-- Just below `2 ^ 31` there are no singles. -/
theorem value_le (h : Fits a) : value a ≤ 2 ^ 31 - 1 := by
  obtain ⟨ha, -, hlt⟩ := h.value_mem
  obtain ⟨s, m, e, hm, -, hvalue⟩ := exists_value_eq ha
  have hpos : (0 : ℝ) ≤ m * 2 ^ e := mul_nonneg m.cast_nonneg (zpow_pos two_pos e).le
  rw [hvalue] at hlt ⊢
  cases s with
  | negative =>
    rw [signed]
    linarith
  | positive =>
    rw [signed] at hlt ⊢
    rcases le_or_gt 0 e with he | he
    · -- the single is an integer
      obtain ⟨k, rfl⟩ := Int.eq_ofNat_of_zero_le he
      have hcast : (m : ℝ) * 2 ^ (k : ℤ) = (m * 2 ^ k : ℕ) := by
        rw [Nat.cast_mul, Nat.cast_pow, Nat.cast_ofNat, zpow_natCast]
      rw [hcast] at hlt ⊢
      have hnext : m * 2 ^ k + 1 ≤ 2 ^ 31 := mod_cast hlt
      have hnext' : ((m * 2 ^ k : ℕ) : ℝ) + 1 ≤ 2 ^ 31 := mod_cast hnext
      linarith
    · -- the single is small
      calc (m : ℝ) * 2 ^ e ≤ m * 1 :=
            mul_le_mul_of_nonneg_left (zpow_le_one_of_nonpos₀ one_le_two he.le) m.cast_nonneg
        _ ≤ 2 ^ 24 := by exact_mod_cast (Nat.mul_one m).le.trans hm.lt.le
        _ ≤ 2 ^ 31 - 1 := by norm_num

/-- **The greatest integer** that is at most a single. -/
theorem toInt_floor (h : Fits a) : (floor a).toInt = ⌊value a⌋ := by
  obtain ⟨ha, hlow, hhigh⟩ := h.value_mem
  rw [floor, value] at *
  rcases unpack_of_isFinite ha with ⟨s, hu⟩ | ⟨s, m, e, hm, hu⟩
  · rw [hu, valueOf_zero, Int.floor_zero]
    rfl
  · rw [hu] at hlow hhigh ⊢
    rw [valueOf_finite] at hlow hhigh ⊢
    simp only [floorOf_eq]
    refine Int32.toInt_ofIntClamp ?_ ?_
    · refine Int.le_floor.2 ?_
      exact_mod_cast hlow
    · refine Int.le_of_lt_add_one (Int.floor_lt.2 ?_)
      exact_mod_cast hhigh

/-- **The least integer** that is at least a single. -/
theorem toInt_ceil (h : Fits a) : (ceil a).toInt = ⌈value a⌉ := by
  obtain ⟨ha, hlow, -⟩ := h.value_mem
  have hbelow := h.value_le
  rw [ceil, value] at *
  rcases unpack_of_isFinite ha with ⟨s, hu⟩ | ⟨s, m, e, hm, hu⟩
  · rw [hu, valueOf_zero, Int.ceil_zero]
    rfl
  · rw [hu] at hlow hbelow ⊢
    rw [valueOf_finite] at hlow hbelow ⊢
    simp only [floorOf_eq, signed_neg, Int.floor_neg, neg_neg]
    refine Int32.toInt_ofIntClamp ?_ ?_
    · rw [← Int.cast_le (R := ℝ)]
      exact le_trans (by exact_mod_cast hlow) (Int.le_ceil _)
    · refine Int.ceil_le.2 ?_
      exact_mod_cast hbelow

end Fits

/-! ### There and back -/

/-- An integer of 32 bits is rounded to a finite single. -/
theorem rounds_ofInt32 (n : Int32) :
    Rounds n.toInt (ofInt32 n) ∧ (ofInt32 n).isFinite = true := by
  have hrounds := rounds_normalize n.toInt 0 .positive
  rw [zpow_zero, mul_one] at hrounds
  refine ⟨hrounds, (hrounds.abs_le (representable_two_zpow (k := 31) (by norm_num) (by norm_num))
    (abs_le.2 ⟨?_, ?_⟩)).1⟩
  · exact_mod_cast n.le_toInt
  · exact_mod_cast n.toInt_lt.le

/-- **There and back.**  An integer that is at most a single is at most that single after rounding,
    also where it is changed by it. -/
theorem ofInt32_le {n : Int32} (ha : a.isFinite = true) (h : (n.toInt : ℝ) ≤ value a) :
    ofInt32 n ≤ a := by
  obtain ⟨hrounds, hfinite⟩ := rounds_ofInt32 n
  exact (le_iff_value hfinite ha).2 (hrounds.value_le hfinite (representable_abs_value ha) h)

/-- The same from the other side. -/
theorem le_ofInt32 {n : Int32} (ha : a.isFinite = true) (h : value a ≤ (n.toInt : ℝ)) :
    a ≤ ofInt32 n := by
  obtain ⟨hrounds, hfinite⟩ := rounds_ofInt32 n
  exact (le_iff_value ha hfinite).2 (hrounds.le_value hfinite (representable_abs_value ha) h)

namespace Fits

theorem ofInt32_floor_le (h : Fits a) : ofInt32 (floor a) ≤ a :=
  ofInt32_le h.value_mem.1 (by rw [h.toInt_floor]; exact Int.floor_le _)

theorem le_ofInt32_ceil (h : Fits a) : a ≤ ofInt32 (ceil a) :=
  le_ofInt32 h.value_mem.1 (by rw [h.toInt_ceil]; exact Int.le_ceil _)

end Fits

end Single

/-! ### Integer bounds around a box -/

open Single

/-- **Tight bounds.**  Where the corners of a box of singles fit in 32 bits, the corners of the
    integer bounds around it are the greatest integers that are at most its least coordinates and
    the least integers that are at least its greatest ones, and the bounds contain every point of
    the box. -/
theorem Bounds.enclosing_tight {mins maxs : Vec3 Float32} (hmins : ∀ c ∈ mins.toList, Fits c)
    (hmaxs : ∀ c ∈ maxs.toList, Fits c) :
    (enclosing mins maxs).mins.map Int32.toInt = mins.map (fun c => ⌊value c⌋) ∧
      (enclosing mins maxs).maxs.map Int32.toInt = maxs.map (fun c => ⌈value c⌉) ∧
      ∀ p : Vec3 Float32, (mins.x ≤ p.x ∧ mins.y ≤ p.y ∧ mins.z ≤ p.z) →
        (p.x ≤ maxs.x ∧ p.y ≤ maxs.y ∧ p.z ≤ maxs.z) → (enclosing mins maxs).Contains p := by
  obtain ⟨hx, hy, hz⟩ := Vec3.forall_mem_toList.1 hmins
  obtain ⟨hx', hy', hz'⟩ := Vec3.forall_mem_toList.1 hmaxs
  refine ⟨?_, ?_, fun p hlow hhigh => ⟨⟨?_, ?_, ?_⟩, ?_, ?_, ?_⟩⟩
  · exact Vec3.ext hx.toInt_floor hy.toInt_floor hz.toInt_floor
  · exact Vec3.ext hx'.toInt_ceil hy'.toInt_ceil hz'.toInt_ceil
  · exact Scalar.Lawful.le_trans hx.ofInt32_floor_le hlow.1
  · exact Scalar.Lawful.le_trans hy.ofInt32_floor_le hlow.2.1
  · exact Scalar.Lawful.le_trans hz.ofInt32_floor_le hlow.2.2
  · exact Scalar.Lawful.le_trans hhigh.1 hx'.le_ofInt32_ceil
  · exact Scalar.Lawful.le_trans hhigh.2.1 hy'.le_ofInt32_ceil
  · exact Scalar.Lawful.le_trans hhigh.2.2 hz'.le_ofInt32_ceil

/-- A box from the least integer to beyond the singles that have a fraction. -/
theorem Bounds.slab_enclosing_tight :
    (∀ c ∈ (⟨-2147483648, -0.5, 16777218⟩ : Vec3 Float32).toList, Fits c) ∧
      (∀ c ∈ (⟨2147483520, 0.25, 16777220⟩ : Vec3 Float32).toList, Fits c) ∧
      (enclosing ⟨-2147483648, -0.5, 16777218⟩ ⟨2147483520, 0.25, 16777220⟩).Contains
        ⟨2147483520, -0, 16777218⟩ := by
  have hmins : ∀ c ∈ (⟨-2147483648, -0.5, 16777218⟩ : Vec3 Float32).toList, Fits c := by
    decide +kernel
  have hmaxs : ∀ c ∈ (⟨2147483520, 0.25, 16777220⟩ : Vec3 Float32).toList, Fits c := by
    decide +kernel
  exact ⟨hmins, hmaxs, (enclosing_tight hmins hmaxs).2.2 _ (by decide +kernel) (by decide +kernel)⟩

end Stride
