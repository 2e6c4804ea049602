import Stride.Single
import Stride.Proofs.Scalar.Order
import Mathlib.Data.Prod.Lex
import Mathlib.Data.Int.Order.Basic
import Mathlib.Order.Compare

namespace Stride

/-!
# The order of single precision

Singles compare as their sign, exponent and mantissa do, in this order, and a NaN compares with
nothing.

* `Single.rank` — the place of an unpacked single in the order.
* `Single.lt_iff`, `Single.le_iff` — comparisons are those of the places.
* `Scalar.Lawful Float32` — the order of singles is lawful.
* `Single.isNumber_iff` — the numbers are the singles other than NaN.
* `Single.isNumber_sub`, `Single.isNumber_abs` — results of arithmetic that are numbers.
-/

namespace Single

open Float.Model (UnpackedFloat Format)
open Float.Model.UnpackedFloat

/-- The place of an unpacked single in the order of singles; a NaN has none. -/
def rank : UnpackedFloat → Option (ℤ ×ₗ ℤ ×ₗ ℤ)
  | .notANumber => none
  | .infinity .negative => some (toLex (-2, toLex (0, 0)))
  | .finite .negative m e _ => some (toLex (-1, toLex (-e, -m)))
  | .zero _ => some (toLex (0, toLex (0, 0)))
  | .finite .positive m e _ => some (toLex (1, toLex (e, m)))
  | .infinity .positive => some (toLex (2, toLex (0, 0)))

/-- Finite values of one sign compare by exponent, then mantissa. -/
private theorem then_eq_lt_iff (e f : ℤ) (m n : ℕ) :
    (compare e f).then (compare m n) = .lt ↔ e < f ∨ e = f ∧ m < n := by
  rw [Ordering.then_eq_lt, compare_lt_iff_lt, compare_eq_iff_eq, compare_lt_iff_lt]

private theorem then_eq_gt_iff (e f : ℤ) (m n : ℕ) :
    (compare e f).then (compare m n) = .gt ↔ f < e ∨ e = f ∧ n < m := by
  rw [Ordering.then_eq_gt, compare_gt_iff_gt, compare_eq_iff_eq, compare_gt_iff_gt]

private theorem isLE_then_iff (e f : ℤ) (m n : ℕ) :
    ((compare e f).then (compare m n)).isLE = true ↔ e < f ∨ e = f ∧ m ≤ n := by
  rw [Ordering.isLE_then_iff_or, compare_lt_iff_lt, compare_eq_iff_eq, Std.isLE_compare]

private theorem isGE_then_iff (e f : ℤ) (m n : ℕ) :
    ((compare e f).then (compare m n)).isGE = true ↔ f < e ∨ e = f ∧ n ≤ m := by
  rw [← Ordering.isLE_swap, Ordering.swap_then, ← Std.OrientedOrd.eq_swap,
    ← Std.OrientedOrd.eq_swap, isLE_then_iff, eq_comm]

theorem unpacked_lt_iff (a b : UnpackedFloat) :
    a.lt b = true ↔ ∃ x ∈ rank a, ∃ y ∈ rank b, x < y := by
  have hsign : compare Sign.negative Sign.positive = .lt := rfl
  rcases a with (_ | _) | _ | (_ | _) | ⟨_ | _, m, e, hm⟩ <;>
  rcases b with (_ | _) | _ | (_ | _) | ⟨_ | _, n, f, hn⟩ <;>
  dsimp only [UnpackedFloat.lt, UnpackedFloat.compare, rank] <;>
  simp [Prod.Lex.toLex_lt_toLex, hsign, then_eq_lt_iff, then_eq_gt_iff, eq_comm (a := (_ : ℤ))]

theorem unpacked_le_iff (a b : UnpackedFloat) :
    a.le b = true ↔ ∃ x ∈ rank a, ∃ y ∈ rank b, x ≤ y := by
  have hlt : compare Sign.negative Sign.positive = .lt := rfl
  have hgt : compare Sign.positive Sign.negative = .gt := rfl
  have heq (s : Sign) : compare s s = .eq := by cases s <;> rfl
  rcases a with (_ | _) | _ | (_ | _) | ⟨_ | _, m, e, hm⟩ <;>
  rcases b with (_ | _) | _ | (_ | _) | ⟨_ | _, n, f, hn⟩ <;>
  dsimp only [UnpackedFloat.le, UnpackedFloat.compare, rank] <;>
  simp [Prod.Lex.toLex_le_toLex, hlt, hgt, heq, isLE_then_iff, isGE_then_iff,
    eq_comm (a := (_ : ℤ))]

/-- The place of a single in the order of singles. -/
def place (a : Float32) : Option (ℤ ×ₗ ℤ ×ₗ ℤ) := rank a.toModel.unpack

theorem lt_iff (a b : Float32) : a < b ↔ ∃ x ∈ place a, ∃ y ∈ place b, x < y := by
  rw [place, place, ← unpacked_lt_iff]
  show decide (a.toModel < b.toModel) = true ↔ _
  rw [decide_eq_true_iff]
  rfl

theorem le_iff (a b : Float32) : a ≤ b ↔ ∃ x ∈ place a, ∃ y ∈ place b, x ≤ y := by
  rw [place, place, ← unpacked_le_iff]
  show decide (a.toModel ≤ b.toModel) = true ↔ _
  rw [decide_eq_true_iff]
  rfl

theorem place_zero : place 0 = some (toLex (0, toLex (0, 0))) := by decide +kernel

/-- The numbers are the singles that have a place in the order. -/
theorem isNumber_iff_place (a : Float32) : Scalar.IsNumber a ↔ ∃ x, x ∈ place a := by
  show a ≤ a ↔ _
  rw [le_iff]
  constructor
  · rintro ⟨x, hx, -⟩
    exact ⟨x, hx⟩
  · rintro ⟨x, hx⟩
    exact ⟨x, hx, x, hx, le_refl x⟩

instance : Scalar.Lawful Float32 where
  le_of_lt {a b} h := by
    obtain ⟨x, hx, y, hy, hxy⟩ := (lt_iff a b).1 h
    exact (le_iff a b).2 ⟨x, hx, y, hy, hxy.le⟩
  not_lt_of_le {a b} hle hlt := by
    obtain ⟨x, hx, y, hy, hxy⟩ := (le_iff a b).1 hle
    obtain ⟨y', hy', x', hx', hyx⟩ := (lt_iff b a).1 hlt
    obtain rfl := Option.mem_unique hx hx'
    obtain rfl := Option.mem_unique hy hy'
    exact absurd hyx hxy.not_gt
  le_trans {a b c} hab hbc := by
    obtain ⟨x, hx, y, hy, hxy⟩ := (le_iff a b).1 hab
    obtain ⟨y', hy', z, hz, hyz⟩ := (le_iff b c).1 hbc
    obtain rfl := Option.mem_unique hy hy'
    exact (le_iff a c).2 ⟨x, hx, z, hz, hxy.trans hyz⟩
  lt_or_le {a b} ha hb := by
    obtain ⟨x, hx⟩ := (isNumber_iff_place a).1 ha
    obtain ⟨y, hy⟩ := (isNumber_iff_place b).1 hb
    rcases lt_or_ge x y with h | h
    · exact .inl ((lt_iff a b).2 ⟨x, hx, y, hy, h⟩)
    · exact .inr ((le_iff b a).2 ⟨y, hy, x, hx, h⟩)
  number_left {a b} h := by
    obtain ⟨x, hx, -⟩ := (le_iff a b).1 h
    exact (isNumber_iff_place a).2 ⟨x, hx⟩
  number_right {a b} h := by
    obtain ⟨-, -, y, hy, -⟩ := (le_iff a b).1 h
    exact (isNumber_iff_place b).2 ⟨y, hy⟩
  neg_one_lt_zero := by decide +kernel
  zero_lt_one := by decide +kernel

/-! ### Results that are numbers -/

/-- A pattern of bits is a NaN when its exponent is full and its mantissa is not empty. -/
theorem unpack_eq_notANumber_iff (b : BitVec Format.binary32.numBits) :
    unpack .binary32 b = .notANumber ↔ unpackExponent b = 255#8 ∧ unpackMantissa b ≠ 0#23 := by
  by_cases he : unpackExponent b = 255#8
  · by_cases hm : unpackMantissa b = 0#23
    · have h : unpack .binary32 b = .infinity _ := (if_pos he).trans (if_pos hm)
      exact iff_of_false (fun h' => by cases h.symm.trans h') fun h' => h'.2 hm
    · exact iff_of_true ((if_pos he).trans (if_neg hm)) ⟨he, hm⟩
  · refine iff_of_false (fun h' => ?_) fun h' => he h'.1
    by_cases he' : unpackExponent b = 0#8
    · by_cases hm : unpackMantissa b = 0#23
      · have h : unpack .binary32 b = .zero _ := (if_neg he).trans ((if_pos he').trans (dif_pos hm))
        cases h.symm.trans h'
      · have h : unpack .binary32 b = .finite _ _ _ _ :=
          (if_neg he).trans ((if_pos he').trans (dif_neg hm))
        cases h.symm.trans h'
    · have h : unpack .binary32 b = .finite _ _ _ _ := (if_neg he).trans (if_neg he')
      cases h.symm.trans h'

/-- Packing keeps a NaN apart from all else. -/
theorem unpack_pack_eq_notANumber_iff (u : UnpackedFloat) :
    (Float32.Model.pack u).unpack = .notANumber ↔ u = .notANumber := by
  rw [Float32.Model.unpack, Float32.Model.pack, UInt32.toBitVec_ofBitVec, unpack_eq_notANumber_iff]
  fun_cases pack Format.binary32 u with
  | case1 => exact iff_of_true (by decide) rfl
  | case2 s => simp [packedInfinity]
  | case3 s => simp [packedZero]
  | case4 s m e hm biasedExponent h =>
    -- what is too large is packed as an infinity
    refine iff_of_false ?_ fun h => by cases h
    simp [packedInfinity]
  | case5 s m e hm actualMantissaBits biasedExponent hfits hnormal =>
    -- the exponent of what fits is not full
    have hexp : BitVec.ofNat 8 biasedExponent ≠ 255#8 := by
      intro h
      have h' := congrArg BitVec.toNat h
      simp at h' hfits
      omega
    refine iff_of_false ?_ fun h => by cases h
    simp [hexp]
  | case6 s m e hm actualMantissaBits biasedExponent hfits hnormal =>
    refine iff_of_false ?_ fun h => by cases h
    simp

theorem round_ne_notANumber (s : Sign) (m : ℕ) (e : ℤ) :
    UnpackedFloat.round .binary32 s m e ≠ .notANumber := by
  unfold UnpackedFloat.round UnpackedFloat.roundWithAccuracy
  intro h
  rcases dite_eq_iff.1 h with ⟨_, h⟩ | ⟨_, h⟩
  · cases h
  · cases h

theorem normalize_ne_notANumber (m e : Int) (s : Sign) :
    UnpackedFloat.normalize .binary32 m e s ≠ .notANumber := by
  unfold UnpackedFloat.normalize
  split
  · exact round_ne_notANumber _ _ _
  · exact fun h => by cases h
  · exact round_ne_notANumber _ _ _

theorem neg_ne_notANumber {u : UnpackedFloat} (h : u ≠ .notANumber) : u.neg ≠ .notANumber := by
  cases u with
  | notANumber => exact absurd rfl h
  | infinity | zero | finite => exact fun h => by cases h

theorem sub_ne_notANumber {u v : UnpackedFloat} (hu : u.isFinite = true) (hv : v.isFinite = true) :
    sub .binary32 u v ≠ .notANumber := by
  cases u with
  | infinity | notANumber => cases hu
  | zero s =>
    cases v with
    | infinity | notANumber => cases hv
    | zero t => exact fun h => by rcases ite_eq_iff.1 h with ⟨_, h⟩ | ⟨_, h⟩ <;> cases h
    | finite => exact fun h => by cases h
  | finite =>
    cases v with
    | infinity | notANumber => cases hv
    | zero => exact fun h => by cases h
    | finite => exact normalize_ne_notANumber _ _ _

/-- The numbers are the singles other than NaN. -/
theorem isNumber_iff (a : Float32) : Scalar.IsNumber a ↔ a.toModel.unpack ≠ .notANumber := by
  rw [isNumber_iff_place, place]
  rcases a.toModel.unpack with (_ | _) | _ | _ | ⟨_ | _, _, _, _⟩
  case notANumber => exact iff_of_false (fun ⟨_, h⟩ => by cases h) fun h => h rfl
  all_goals exact iff_of_true ⟨_, rfl⟩ fun h => by cases h

theorem isNaN_eq_false {a : Float32} (h : Scalar.IsNumber a) : a.isNaN = false := by
  rw [isNumber_iff] at h
  show a.toModel.unpack.isNaN = false
  cases hu : a.toModel.unpack with
  | notANumber => exact absurd hu h
  | infinity | zero | finite => rfl

theorem isNumber_sub {a b : Float32} (ha : a.isFinite = true) (hb : b.isFinite = true) :
    Scalar.IsNumber (a - b) := by
  rw [isNumber_iff]
  show (Float32.Model.pack (sub .binary32 a.toModel.unpack b.toModel.unpack)).unpack ≠ .notANumber
  rw [Ne, unpack_pack_eq_notANumber_iff]
  exact sub_ne_notANumber ha hb

theorem isNumber_abs {a : Float32} (ha : Scalar.IsNumber a) : Scalar.IsNumber (Scalar.abs a) := by
  rw [Scalar.abs]
  split_ifs
  · rw [isNumber_iff] at ha ⊢
    show (Float32.Model.pack a.toModel.unpack.neg).unpack ≠ .notANumber
    rw [Ne, unpack_pack_eq_notANumber_iff]
    exact neg_ne_notANumber ha
  · exact ha

end Single

end Stride
