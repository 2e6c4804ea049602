import Mathlib
import Stride.Proofs.Single.Rounding

namespace Stride

/-!
# The arithmetic of singles

Each operation on finite singles rounds the exact result.

* `rounds_add`, `rounds_sub`, `rounds_mul`, `rounds_div`, `rounds_sqrt` — the five operations.
-/

namespace Single

open Float.Model (UnpackedFloat Format)
open Float.Model.UnpackedFloat

/-! ### Signs -/

theorem signed_mul (s t : Sign) (x y : ℝ) : signed (s * t) (x * y) = signed s x * signed t y := by
  cases s <;> cases t
  · exact (neg_mul_neg x y).symm
  · exact (neg_mul x y).symm
  · exact (mul_neg x y).symm
  · rfl

theorem signed_div (s t : Sign) (x y : ℝ) : signed (s / t) (x / y) = signed s x / signed t y := by
  cases s <;> cases t
  · exact (neg_div_neg_eq x y).symm
  · exact (neg_div y x).symm
  · exact (div_neg x).symm
  · rfl

theorem signed_apply (s : Sign) (m : ℕ) (x : ℝ) :
    ((s.apply m : ℤ) : ℝ) * x = signed s (m * x) := by
  cases s
  · rw [Sign.apply, signed, Int.cast_neg, Int.cast_natCast, neg_mul]
  · rw [Sign.apply, signed, Int.cast_natCast]

theorem apply_neg (s : Sign) (m : ℤ) : (-s).apply m = -s.apply m := by
  cases s
  · exact (neg_neg m).symm
  · rfl

/-! ### Exact mantissas -/

/-- The first shift of rounding shortens a mantissa that is long enough, or of a small number. -/
theorem le_targetExponent {m : ℕ} {e : ℤ} (h : e ≤ -149 ∨ 2 ^ 23 ≤ m) :
    e ≤ Format.binary32.targetExponent (Float.Model.totalExponent m e) := by
  rw [targetExponent_eq, Float.Model.totalExponent]
  rcases h with hsmall | hlong
  · omega
  · have hlog : 23 ≤ m.log2 := (Nat.le_log2 (by omega)).2 hlong
    omega

/-- Lengthening a mantissa does not change the value. -/
theorem decreaseExponent_value (m : ℕ) (e t : ℤ) :
    ((decreaseExponent m e t).1 : ℝ) * 2 ^ (decreaseExponent m e t).2 = m * 2 ^ e := by
  simp only [decreaseExponent, Nat.shiftLeft_eq]
  rw [Nat.cast_mul, Nat.cast_pow, Nat.cast_ofNat, ← zpow_natCast, mul_assoc,
    ← zpow_add₀ two_ne_zero]
  congr 2
  omega

/-- A mantissa that is lengthened has the value with the lower exponent. -/
theorem decreaseExponent_fst {m : ℕ} {e t : ℤ} (ht : t ≤ e) :
    ((decreaseExponent m e t).1 : ℝ) * 2 ^ t = m * 2 ^ e := by
  have hexponent : (decreaseExponent m e t).2 = t := by
    simp only [decreaseExponent]
    omega
  rw [← decreaseExponent_value m e t, hexponent]

theorem rounds_round (s : Sign) {m : ℕ} (hm : 0 < m) (e : ℤ) :
    Rounds (signed s (m * 2 ^ e)) (.ofModel (.pack (UnpackedFloat.round .binary32 s m e))) := by
  obtain ⟨t, ht⟩ : ∃ t, t = Format.binary32.targetExponent (Float.Model.totalExponent m e) :=
    ⟨_, rfl⟩
  have htotal : Float.Model.totalExponent (decreaseExponent m e t).1 (decreaseExponent m e t).2 =
      Float.Model.totalExponent m e := by
    simp only [decreaseExponent, Nat.shiftLeft_eq, Float.Model.totalExponent]
    rw [log2_mul_two_pow hm]
    push_cast
    omega
  have hround : UnpackedFloat.round .binary32 s m e = roundWithAccuracy .binary32 s
      (decreaseExponent m e t).1 (decreaseExponent m e t).2 .exact := by
    rw [ht]
    rfl
  rw [← decreaseExponent_value m e t, hround]
  refine rounds_roundWithAccuracy s (stands_exact _) ?_
  rw [htotal, ← ht]
  simp only [decreaseExponent]
  omega

theorem rounds_zero (s : Sign) : Rounds 0 (.ofModel (.pack (.zero s))) := by
  cases s
  · exact rounds_value (a := .ofModel (.pack (.zero .negative))) rfl
  · exact rounds_value (a := .ofModel (.pack (.zero .positive))) rfl

theorem rounds_normalize (m e : ℤ) (zeroSign : Sign) :
    Rounds (m * 2 ^ e) (.ofModel (.pack (UnpackedFloat.normalize .binary32 m e zeroSign))) := by
  rcases lt_trichotomy m 0 with hneg | rfl | hpos
  · have hvalue : (m : ℝ) * 2 ^ e = signed .negative ((-m).toNat * 2 ^ e) := by
      have hcast : (((-m).toNat : ℕ) : ℝ) = -m := by
        exact_mod_cast Int.toNat_of_nonneg (show 0 ≤ -m by omega)
      rw [hcast, signed]
      ring
    rw [UnpackedFloat.normalize, Int.compare_eq_lt.2 hneg, hvalue]
    exact rounds_round .negative (by omega) e
  · rw [Int.cast_zero, zero_mul]
    exact rounds_zero zeroSign
  · have hvalue : (m : ℝ) * 2 ^ e = signed .positive (m.toNat * 2 ^ e) := by
      have hcast : ((m.toNat : ℕ) : ℝ) = m := by
        exact_mod_cast Int.toNat_of_nonneg hpos.le
      rw [hcast, signed]
    rw [UnpackedFloat.normalize, Int.compare_eq_gt.2 hpos, hvalue]
    exact rounds_round .positive (by omega) e

variable {a b : Float32}

/-! ### Sums -/

theorem rounds_add (ha : a.isFinite = true) (hb : b.isFinite = true) :
    Rounds (value a + value b) (a + b) := by
  have hadd : a + b = .ofModel (.pack (add .binary32 a.toModel.unpack b.toModel.unpack)) := rfl
  rcases unpack_of_isFinite ha with ⟨s, hu⟩ | ⟨s, m, e, hm, hu⟩ <;>
  rcases unpack_of_isFinite hb with ⟨t, hv⟩ | ⟨t, n, f, hn, hv⟩
  · rw [hadd, value, value, hu, hv, valueOf_zero, valueOf_zero, add_zero, add]
    split_ifs <;> exact rounds_zero _
  · have hsame : add .binary32 a.toModel.unpack b.toModel.unpack = b.toModel.unpack := by
      rw [hu, hv]
      rfl
    rw [hadd, hsame, ofModel_pack_unpack hb, value, hu, valueOf_zero, zero_add]
    exact rounds_value hb
  · have hsame : add .binary32 a.toModel.unpack b.toModel.unpack = a.toModel.unpack := by
      rw [hu, hv]
      rfl
    rw [hadd, hsame, ofModel_pack_unpack ha, value.eq_def b, hv, valueOf_zero, add_zero]
    exact rounds_value ha
  · rw [hadd, value, value, hu, hv, valueOf_finite, valueOf_finite, add]
    -- both mantissas are lengthened down to the lower one of the two exponents
    have hsum : signed s (m * 2 ^ e) + signed t (n * 2 ^ f) =
        ((s.apply (decreaseExponent m e (min e f)).1 +
          t.apply (decreaseExponent n f (min e f)).1 : ℤ) : ℝ) * 2 ^ min e f := by
      rw [Int.cast_add, add_mul, signed_apply, signed_apply, decreaseExponent_fst (min_le_left e f),
        decreaseExponent_fst (min_le_right e f)]
    rw [hsum]
    exact rounds_normalize _ _ _

/-- A difference is the sum with the negation. -/
protected theorem sub_eq_add_neg (a b : Float32) : a - b = a + -b := by
  have hsub : a - b = .ofModel (.pack (sub .binary32 a.toModel.unpack b.toModel.unpack)) := rfl
  have hadd : a + -b = .ofModel (.pack (add .binary32 a.toModel.unpack (-b).toModel.unpack)) := rfl
  rw [hsub, hadd, unpack_neg]
  congr 2
  rcases a.toModel.unpack with s | _ | s | ⟨s, m, e, hm⟩ <;>
  rcases b.toModel.unpack with t | _ | t | ⟨t, n, f, hn⟩
  case finite.finite =>
    show UnpackedFloat.normalize .binary32 (_ - _) _ _ =
      UnpackedFloat.normalize .binary32 (_ + (-t).apply _) _ _
    rw [apply_neg, ← sub_eq_add_neg]
  all_goals rfl

theorem rounds_sub (ha : a.isFinite = true) (hb : b.isFinite = true) :
    Rounds (value a - value b) (a - b) := by
  rw [Single.sub_eq_add_neg, sub_eq_add_neg, ← value_neg hb]
  exact rounds_add ha (isFinite_neg hb)

/-! ### Products -/

theorem rounds_mul (ha : a.isFinite = true) (hb : b.isFinite = true) :
    Rounds (value a * value b) (a * b) := by
  have hmul : a * b = .ofModel (.pack (mul .binary32 a.toModel.unpack b.toModel.unpack)) := rfl
  rcases unpack_of_isFinite ha with ⟨s, hu⟩ | ⟨s, m, e, hm, hu⟩ <;>
  rcases unpack_of_isFinite hb with ⟨t, hv⟩ | ⟨t, n, f, hn, hv⟩ <;>
  rw [hmul, value, value, hu, hv, mul]
  · rw [valueOf_zero, zero_mul]
    exact rounds_zero _
  · rw [valueOf_zero, zero_mul]
    exact rounds_zero _
  · rw [valueOf_zero, mul_zero]
    exact rounds_zero _
  · have hvalue : valueOf (.finite s m e hm) * valueOf (.finite t n f hn) =
        signed (s * t) ((m * n : ℕ) * 2 ^ (e + f)) := by
      rw [valueOf_finite, valueOf_finite, ← signed_mul, Nat.cast_mul, zpow_add₀ two_ne_zero,
        mul_mul_mul_comm]
    rw [hvalue]
    refine rounds_roundWithAccuracy _ (stands_exact _) (le_targetExponent ?_)
    obtain ⟨hm', -⟩ := canonical_of_unpack hu
    obtain ⟨hn', -⟩ := canonical_of_unpack hv
    rcases hm'.full with he | hlong
    · rcases hn'.full with hf | hlong
      · exact .inl (by omega)
      · exact .inr (hlong.trans (Nat.le_mul_of_pos_left n hm))
    · exact .inr (hlong.trans (Nat.le_mul_of_pos_right m hn))

/-- A factor of at most one leaves what is finite finite. -/
theorem isFinite_mul_of_le_one (ha : a.isFinite = true) (hb : b.isFinite = true)
    (hle : |value b| ≤ 1) : (a * b).isFinite = true := by
  refine ((rounds_mul ha hb).abs_le (representable_abs_value ha) ?_).1
  rw [abs_mul]
  exact mul_le_of_le_one_right (abs_nonneg _) hle

/-! ### Quotients -/

/-- What an accuracy says about the part of a number after its mantissa. -/
inductive Describes : Accuracy → ℝ → Prop
  /-- There is nothing. -/
  | exact {rest} (zero : rest = 0) : Describes .exact rest
  /-- There is less than half. -/
  | lt {rest} (pos : 0 < rest) (lt : rest < 1 / 2) : Describes (.inexact .lt) rest
  /-- There is half. -/
  | eq {rest} (half : rest = 1 / 2) : Describes (.inexact .eq) rest
  /-- There is more than half. -/
  | gt {rest} (gt : 1 / 2 < rest) (lt : rest < 1) : Describes (.inexact .gt) rest

theorem stands_of_describes {m : ℕ} {acc : Accuracy} {rest : ℝ} (h : Describes acc rest) :
    Stands (.ofMantissaAndAccuracy m acc) (m + rest) := by
  cases h with
  | exact hzero =>
    rw [hzero, add_zero]
    exact stands_exact m
  | lt hpos hlt =>
    exact ⟨rest, hpos.le, hlt, by simp [ExtendedMantissa.ofMantissaAndAccuracy, hpos.ne'],
      by simp [ExtendedMantissa.ofMantissaAndAccuracy]⟩
  | eq hhalf =>
    rw [hhalf]
    exact ⟨0, le_refl 0, by norm_num, by simp [ExtendedMantissa.ofMantissaAndAccuracy],
      by simp [ExtendedMantissa.ofMantissaAndAccuracy]⟩
  | gt hgt hlt =>
    refine ⟨rest - 1 / 2, by linarith, by linarith, ?_, ?_⟩
    · simp only [ExtendedMantissa.ofMantissaAndAccuracy, Bool.true_eq_false, false_iff]
      linarith
    · simp only [ExtendedMantissa.ofMantissaAndAccuracy, if_true]
      ring

theorem describes_accuracyOfFraction {num den : ℕ} (h : num < den) :
    Describes (accuracyOfFraction num den) (num / den) := by
  have hden : (0 : ℝ) < den := mod_cast Nat.zero_lt_of_lt h
  rw [accuracyOfFraction]
  split_ifs with hzero
  · exact .exact (by rw [hzero, Nat.cast_zero, zero_div])
  · have hnum : (0 : ℝ) < num := mod_cast Nat.pos_of_ne_zero hzero
    rcases lt_trichotomy (2 * num) den with hlt | heq | hgt
    · rw [Nat.compare_eq_lt.2 hlt]
      have hlt' : 2 * (num : ℝ) < den := mod_cast hlt
      exact .lt (div_pos hnum hden) (by rw [div_lt_div_iff₀ hden two_pos]; linarith)
    · rw [Nat.compare_eq_eq.2 heq]
      have heq' : 2 * (num : ℝ) = den := mod_cast heq
      refine .eq ?_
      rw [div_eq_div_iff hden.ne' two_ne_zero]
      linarith
    · rw [Nat.compare_eq_gt.2 hgt]
      have hgt' : (den : ℝ) < 2 * num := mod_cast hgt
      have hlt' : (num : ℝ) < den := mod_cast h
      exact .gt (by rw [div_lt_div_iff₀ two_pos hden]; linarith) ((div_lt_one hden).2 hlt')

/-- A quotient that is cut off stands for the whole one, with the accuracy of its remainder. -/
theorem stands_quotient (m : ℕ) {n : ℕ} (hn : 0 < n) :
    Stands (.ofMantissaAndAccuracy (m / n) (accuracyOfFraction (m % n) n)) ((m : ℝ) / n) := by
  have hquotient : (m : ℝ) / n = (m / n : ℕ) + (m % n : ℕ) / n := by
    have hn' : (n : ℝ) ≠ 0 := mod_cast hn.ne'
    have hparts : (m : ℝ) = n * (m / n : ℕ) + (m % n : ℕ) := mod_cast (Nat.div_add_mod m n).symm
    nth_rewrite 1 [hparts]
    rw [add_div, mul_div_cancel_left₀ _ hn']
  rw [hquotient]
  exact stands_of_describes (describes_accuracyOfFraction (Nat.mod_lt _ hn))

/-- A number that is shifted has as many binary digits more. -/
theorem two_pow_log2_add_le {m : ℕ} (hm : 0 < m) (k : ℕ) : 2 ^ (m.log2 + k) ≤ m * 2 ^ k := by
  rw [pow_add]
  exact Nat.mul_le_mul_right _ (Nat.log2_self_le hm.ne')

theorem rounds_div (ha : a.isFinite = true) (hb : b.isFinite = true) (hzero : value b ≠ 0) :
    Rounds (value a / value b) (a / b) := by
  have hdiv : a / b = .ofModel (.pack (div .binary32 a.toModel.unpack b.toModel.unpack)) := rfl
  rcases unpack_of_isFinite hb with ⟨t, hv⟩ | ⟨t, n, f, hn, hv⟩
  · rw [value, hv, valueOf_zero] at hzero
    exact absurd rfl hzero
  rcases unpack_of_isFinite ha with ⟨s, hu⟩ | ⟨s, m, e, hm, hu⟩ <;>
  rw [hdiv, value, value, hu, hv, div]
  · rw [valueOf_zero, zero_div]
    exact rounds_zero _
  · obtain ⟨i, hi⟩ : ∃ i, i = min (e - f) (Format.binary32.targetExponent
        (Float.Model.totalExponent m e - Float.Model.totalExponent n f)) := ⟨_, rfl⟩
    obtain ⟨k, hk⟩ : ∃ k : ℕ, k = (e - f - i).toNat := ⟨_, rfl⟩
    have hcore : divCore .binary32 m e n f =
        (m * 2 ^ k / n, i, accuracyOfFraction (m * 2 ^ k % n) n) := by
      rw [divCore, ← hi, ← hk, Nat.shiftLeft_eq]
    simp only [hcore]
    have hvalue : valueOf (.finite s m e hm) / valueOf (.finite t n f hn) =
        signed (s / t) (((m * 2 ^ k : ℕ) : ℝ) / n * 2 ^ i) := by
      have hexponent : (k : ℤ) = e - f - i := by omega
      rw [valueOf_finite, valueOf_finite, ← signed_div, Nat.cast_mul, Nat.cast_pow, Nat.cast_ofNat,
        ← zpow_natCast, hexponent, zpow_sub₀ two_ne_zero, zpow_sub₀ two_ne_zero]
      field_simp
    rw [hvalue]
    refine rounds_roundWithAccuracy _ (stands_quotient _ hn) (le_targetExponent ?_)
    rw [targetExponent_eq, Float.Model.totalExponent, Float.Model.totalExponent] at hi
    -- enough digits were put behind the dividend for a quotient of 24 digits
    refine or_iff_not_imp_left.2 fun hlarge => (Nat.le_div_iff_mul_le hn).2 ?_
    calc 2 ^ 23 * n ≤ 2 ^ 23 * 2 ^ (n.log2 + 1) :=
          Nat.mul_le_mul_left _ Nat.lt_log2_self.le
      _ = 2 ^ (n.log2 + 24) := by rw [← pow_add, add_comm, add_assoc]
      _ ≤ 2 ^ (m.log2 + k) := Nat.pow_le_pow_right two_pos (by omega)
      _ ≤ m * 2 ^ k := two_pow_log2_add_le hm k

/-! ### Square roots -/

/-- The digits of a square root that is cut off. -/
theorem describes_sqrt (m : ℕ) :
    Describes (if m - m.sqrt * m.sqrt = 0 then .exact
      else .inexact (if m - m.sqrt * m.sqrt ≤ m.sqrt then .lt else .gt)) (√m - m.sqrt) := by
  have hle : m.sqrt * m.sqrt ≤ m := Nat.sqrt_le m
  have hlt : m < (m.sqrt + 1) * (m.sqrt + 1) := Nat.lt_succ_sqrt m
  have hroot : (0 : ℝ) ≤ m.sqrt := Nat.cast_nonneg _
  have hm : (0 : ℝ) ≤ m := Nat.cast_nonneg _
  -- the square of half a unit more than the root is no integer, so the remainder tells the half
  split_ifs with hexact hsmall
  · have hsquare : (m : ℝ) = m.sqrt ^ 2 := by
      rw [sq]
      exact_mod_cast (show m = m.sqrt * m.sqrt by omega)
    refine .exact ?_
    nth_rewrite 1 [hsquare]
    rw [Real.sqrt_sq hroot, sub_self]
  · have hlow : ((m.sqrt * m.sqrt : ℕ) : ℝ) < m := mod_cast (show m.sqrt * m.sqrt < m by omega)
    have hhigh : (m : ℝ) ≤ (m.sqrt * m.sqrt + m.sqrt : ℕ) :=
      mod_cast (show m ≤ m.sqrt * m.sqrt + m.sqrt by omega)
    push_cast at hlow hhigh
    refine .lt (sub_pos.2 ((Real.lt_sqrt hroot).2 (by linarith))) ?_
    rw [sub_lt_iff_lt_add, Real.sqrt_lt' (by linarith)]
    nlinarith
  · have hlow : ((m.sqrt * m.sqrt + m.sqrt + 1 : ℕ) : ℝ) ≤ m :=
      mod_cast (show m.sqrt * m.sqrt + m.sqrt + 1 ≤ m by omega)
    have hhigh : (m : ℝ) < ((m.sqrt + 1) * (m.sqrt + 1) : ℕ) := mod_cast hlt
    push_cast at hlow hhigh
    refine .gt ?_ ?_
    · rw [lt_sub_iff_add_lt, Real.lt_sqrt (by linarith)]
      nlinarith
    · rw [sub_lt_iff_lt_add, Real.sqrt_lt' (by linarith)]
      nlinarith

theorem rounds_sqrt (ha : a.isFinite = true) (hpos : 0 ≤ value a) :
    Rounds √(value a) a.sqrt := by
  have hsqrt : a.sqrt = .ofModel (.pack (sqrt .binary32 a.toModel.unpack)) := rfl
  rcases unpack_of_isFinite ha with ⟨s, hu⟩ | ⟨s, m, e, hm, hu⟩
  · rw [hsqrt, value, hu, valueOf_zero, Real.sqrt_zero]
    exact rounds_zero s
  · have hmagnitude : (0 : ℝ) < m * 2 ^ e := mul_pos (mod_cast hm) (zpow_pos two_pos e)
    rw [value, hu, valueOf_finite] at hpos
    cases s
    · exact absurd (neg_nonneg.1 hpos) hmagnitude.not_ge
    obtain ⟨i, hi⟩ : ∃ i, i = min (e / 2) (Format.binary32.targetExponent
        ((Float.Model.totalExponent m e + 1) / 2)) := ⟨_, rfl⟩
    obtain ⟨k, hk⟩ : ∃ k : ℕ, k = (e - 2 * i).toNat := ⟨_, rfl⟩
    have hhalf : i ≤ e / 2 := hi ▸ min_le_left _ _
    have hround : a.sqrt = .ofModel (.pack (roundWithAccuracy .binary32 .positive
        (m * 2 ^ k).sqrt i (if m * 2 ^ k - (m * 2 ^ k).sqrt * (m * 2 ^ k).sqrt = 0 then .exact
          else .inexact
            (if m * 2 ^ k - (m * 2 ^ k).sqrt * (m * 2 ^ k).sqrt ≤ (m * 2 ^ k).sqrt then .lt
              else .gt)))) := by
      rw [hsqrt, hu, sqrt, sqrtCore, ← Nat.shiftLeft_eq, hk, hi]
      rfl
    -- an even number of digits is left in the exponent, so that half of them can be taken out
    have hvalue : √(m * 2 ^ e) = √((m * 2 ^ k : ℕ) : ℝ) * 2 ^ i := by
      have hexponent : (e : ℤ) = k + 2 * i := by omega
      have hsquare : (m : ℝ) * 2 ^ e = (m * 2 ^ k : ℕ) * (2 ^ i) ^ 2 := by
        rw [hexponent, zpow_add₀ two_ne_zero, zpow_natCast, mul_comm 2 i, zpow_mul, zpow_ofNat]
        push_cast
        ring
      rw [hsquare, Real.sqrt_mul' _ (sq_nonneg _), Real.sqrt_sq (zpow_pos two_pos i).le]
    rw [hround, value, hu, valueOf_finite, signed, hvalue]
    have hstands := stands_of_describes (m := (m * 2 ^ k).sqrt) (describes_sqrt (m * 2 ^ k))
    rw [add_sub_cancel] at hstands
    refine rounds_roundWithAccuracy .positive hstands (le_targetExponent ?_)
    rw [targetExponent_eq, Float.Model.totalExponent] at hi
    refine or_iff_not_imp_left.2 fun hlarge => Nat.le_sqrt.2 ?_
    calc 2 ^ 23 * 2 ^ 23 = 2 ^ 46 := by norm_num
      _ ≤ 2 ^ (m.log2 + k) := Nat.pow_le_pow_right two_pos (by omega)
      _ ≤ m * 2 ^ k := two_pow_log2_add_le hm k

end Single

end Stride
