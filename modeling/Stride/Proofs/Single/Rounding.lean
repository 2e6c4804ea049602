import Mathlib
import Stride.Proofs.Single.Value

namespace Stride

/-!
# Rounding

The result of an operation on finite singles is the exact result, rounded to a nearest point of the
grid that its size asks for; beyond the greatest single it is an infinity.

* `Stands` — what the two extra bits of a mantissa say about the digits that were cut off.
* `Nearest` — a nearest point of the grid that a number asks for.
* `Rounds` — a single is a number, rounded.
* `Representable` — the numbers that need no rounding; no result passes one of them.
* `Rounds.abs_le`, `Rounds.le_abs`, `Rounds.error_le` — what rounding does to a bound.
* `rounds_add`, `rounds_sub`, `rounds_mul`, `rounds_div`, `rounds_sqrt` — the operations.
-/

namespace Single

open Float.Model (UnpackedFloat Format)
open Float.Model.UnpackedFloat

/-! ### Digits that are cut off -/

/-- The mantissa is `y` with some digits cut off, of which its two extra bits keep the first one and
    whether the others are all zero. -/
inductive Stands (m : ExtendedMantissa) (y : ℝ) : Prop
  /-- The digits after the first that was cut off are worth `rest`. -/
  | mk (rest : ℝ) (nonneg : 0 ≤ rest) (lt : rest < 1 / 2) (sticky : m.stickyBit = false ↔ rest = 0)
      (eq : y = m.mantissa + (if m.roundBit = true then 1 / 2 else 0) + rest)

theorem stands_exact (m : ℕ) : Stands (.ofMantissaAndAccuracy m .exact) m := by
  refine ⟨0, le_refl 0, by norm_num, by simp [ExtendedMantissa.ofMantissaAndAccuracy], ?_⟩
  simp [ExtendedMantissa.ofMantissaAndAccuracy]

namespace Stands

variable {m : ExtendedMantissa} {y : ℝ}

theorem le (h : Stands m y) : (m.mantissa : ℝ) ≤ y := by
  obtain ⟨rest, hrest, -, -, rfl⟩ := h
  split_ifs <;> linarith

theorem lt_add_one (h : Stands m y) : y < m.mantissa + 1 := by
  obtain ⟨rest, -, hrest, -, rfl⟩ := h
  split_ifs <;> linarith

theorem shiftRightOne (h : Stands m y) : Stands m.shiftRightOne (y / 2) := by
  obtain ⟨rest, hrest, hlt, hsticky, rfl⟩ := h
  obtain ⟨mantissa, roundBit, stickyBit⟩ := m
  have hhalf : (mantissa : ℝ) = 2 * (mantissa / 2 : ℕ) + (mantissa % 2 : ℕ) := by
    exact_mod_cast (Nat.div_add_mod mantissa 2).symm
  -- the old first digit joins the others, and the last one of the mantissa takes its place
  refine ⟨((if roundBit = true then 1 / 2 else 0) + rest) / 2, ?_, ?_, ?_, ?_⟩
  · split_ifs <;> linarith
  · split_ifs <;> linarith
  · cases roundBit
    · simpa [ExtendedMantissa.shiftRightOne] using hsticky
    · simp only [ExtendedMantissa.shiftRightOne, Bool.true_or, Bool.true_eq_false, if_true,
        false_iff]
      linarith
  · rcases Nat.mod_two_eq_zero_or_one mantissa with heven | hodd
    · simp only [ExtendedMantissa.shiftRightOne, heven, bne_self_eq_false, Bool.false_eq_true,
        if_false, hhalf]
      push_cast
      ring
    · simp only [ExtendedMantissa.shiftRightOne, hodd, hhalf]
      norm_num
      ring

theorem shiftRight (h : Stands m y) (n : ℕ) : Stands (m >>> n) (y / 2 ^ n) := by
  induction n with
  | zero =>
    rw [pow_zero, div_one]
    exact h
  | succ n ih =>
    rw [pow_succ, ← div_div]
    exact ih.shiftRightOne

/-- Rounding the mantissa moves it by half a unit at most. -/
theorem abs_sub_le (h : Stands m y) : |(m.roundedMantissa : ℝ) - y| ≤ 1 / 2 := by
  obtain ⟨rest, hrest, hlt, hsticky, rfl⟩ := h
  obtain ⟨mantissa, roundBit, stickyBit⟩ := m
  rw [abs_le]
  cases roundBit <;> cases stickyBit
  · rw [hsticky.1 rfl]
    norm_num [ExtendedMantissa.roundedMantissa, ExtendedMantissa.accuracy,
      Accuracy.roundToNearestEven]
  · norm_num [ExtendedMantissa.roundedMantissa, ExtendedMantissa.accuracy,
      Accuracy.roundToNearestEven]
    constructor <;> linarith
  · rw [hsticky.1 rfl]
    rcases Nat.mod_two_eq_zero_or_one mantissa with heven | hodd
    · norm_num [ExtendedMantissa.roundedMantissa, ExtendedMantissa.accuracy,
        Accuracy.roundToNearestEven, heven]
    · norm_num [ExtendedMantissa.roundedMantissa, ExtendedMantissa.accuracy,
        Accuracy.roundToNearestEven, hodd]
  · norm_num [ExtendedMantissa.roundedMantissa, ExtendedMantissa.accuracy,
      Accuracy.roundToNearestEven]
    constructor <;> linarith

end Stands

/-! ### Nearest points -/

/-- The point `r · 2 ^ t` is nearest to `x` in the grid of the numbers that have 24 digits like `x`,
    or fewer if the grid is the finest one. -/
structure Nearest (x : ℝ) (r : ℕ) (t : ℤ) : Prop where
  /-- No grid is finer than the one of the least exponent. -/
  min : -149 ≤ t
  /-- The number has at most 24 digits before the grid's. -/
  lt : x < 2 ^ (t + 24)
  /-- It has as many, unless the grid is the finest. -/
  full : t = -149 ∨ 2 ^ (t + 23) ≤ x
  /-- The point is at most half a step away. -/
  near : |(r : ℝ) - x / 2 ^ t| ≤ 1 / 2

/-- The exponent that singles have for a size. -/
theorem targetExponent_eq (t : ℤ) : Format.binary32.targetExponent t = max (t - 24) (-149) := rfl

/-- The first shift of rounding ends in the grid that the size asks for. -/
theorem nearest_of_stands {m : ℕ} {e t : ℤ} {acc : Accuracy} {y : ℝ}
    (h : Stands (.ofMantissaAndAccuracy m acc) y)
    (ht : t = Format.binary32.targetExponent (Float.Model.totalExponent m e)) (he : e ≤ t) :
    Nearest (y * 2 ^ e)
      (ExtendedMantissa.ofMantissaAndAccuracy m acc >>> (t - e).toNat).roundedMantissa t := by
  rw [targetExponent_eq, Float.Model.totalExponent] at ht
  have hmantissa : (ExtendedMantissa.ofMantissaAndAccuracy m acc).mantissa = m := by
    rcases acc with _ | _ | _ | _ <;> rfl
  have hle : (m : ℝ) ≤ y := hmantissa ▸ h.le
  -- what is cut off is less than one, so it does not add a digit
  have hsize : y < 2 ^ ((m.log2 : ℤ) + 1) := by
    have hlog : m + 1 ≤ 2 ^ (m.log2 + 1) := Nat.lt_log2_self
    calc y < m + 1 := hmantissa ▸ h.lt_add_one
      _ ≤ 2 ^ ((m.log2 : ℤ) + 1) := by exact_mod_cast hlog
  refine ⟨by omega, ?_, ?_, ?_⟩
  · calc y * 2 ^ e < 2 ^ ((m.log2 : ℤ) + 1) * 2 ^ e :=
        mul_lt_mul_of_pos_right hsize (zpow_pos two_pos e)
      _ = 2 ^ ((m.log2 : ℤ) + 1 + e) := (zpow_add₀ two_ne_zero _ _).symm
      _ ≤ 2 ^ (t + 24) := zpow_le_zpow_right₀ one_le_two (by omega)
  · refine or_iff_not_imp_left.2 fun hmin => ?_
    have hm : m ≠ 0 := by
      rintro rfl
      rw [Nat.log2_zero] at ht
      omega
    have hlog : (2 : ℝ) ^ (m.log2 : ℤ) ≤ m := by exact_mod_cast Nat.log2_self_le hm
    calc (2 : ℝ) ^ (t + 23) = 2 ^ (m.log2 : ℤ) * 2 ^ e := by
          rw [← zpow_add₀ two_ne_zero]
          congr 1
          omega
      _ ≤ y * 2 ^ e := mul_le_mul_of_nonneg_right (hlog.trans hle) (zpow_pos two_pos e).le
  · have hscale : y * 2 ^ e / 2 ^ t = y / 2 ^ (t - e).toNat := by
      have hnat : (2 : ℝ) ^ (t - e).toNat = 2 ^ (t - e) := by
        rw [← zpow_natCast, Int.toNat_of_nonneg (by omega)]
      rw [hnat, zpow_sub₀ two_ne_zero, div_div_eq_mul_div]
    rw [hscale]
    exact (h.shiftRight _).abs_sub_le

namespace Nearest

variable {x : ℝ} {r : ℕ} {t : ℤ}

theorem le_two_pow (h : Nearest x r t) : r ≤ 2 ^ 24 := by
  have hx : x / 2 ^ t < 2 ^ 24 := by
    rw [div_lt_iff₀ (zpow_pos two_pos t)]
    have hlt := h.lt
    rw [zpow_add₀ two_ne_zero, mul_comm] at hlt
    exact_mod_cast hlt
  have hr : (r : ℝ) < 2 ^ 24 + 1 := by linarith [(abs_le.1 h.near).2]
  have hnat : r < 2 ^ 24 + 1 := by exact_mod_cast hr
  omega

theorem two_pow_le (h : Nearest x r t) (ht : t ≠ -149) : 2 ^ 23 ≤ r := by
  have hx : (2 : ℝ) ^ 23 ≤ x / 2 ^ t := by
    rw [le_div_iff₀ (zpow_pos two_pos t)]
    have hfull := h.full.resolve_left ht
    rw [zpow_add₀ two_ne_zero, mul_comm] at hfull
    exact_mod_cast hfull
  have hr : (2 : ℝ) ^ 23 < r + 1 := by linarith [(abs_le.1 h.near).1]
  have hnat : 2 ^ 23 < r + 1 := by exact_mod_cast hr
  omega

/-- A mantissa that fits is not shifted again, one that a carry made too long is shifted once. -/
theorem carried (h : Nearest x r t) :
    ∃ m e, shiftToTargetExponent .binary32 r t .exact = (⟨m, false, false⟩, e) ∧
      Canonical m e ∧ (m : ℝ) * 2 ^ e = r * 2 ^ t := by
  have hmin := h.min
  -- the only mantissa with a digit too many is a power of two, which loses a zero
  rcases h.le_two_pow.lt_or_eq with hlt | rfl
  · have hlog : r.log2 < 24 := by
      rcases Nat.eq_zero_or_pos r with rfl | hpos
      · decide
      · exact (Nat.log2_lt hpos.ne').2 hlt
    have hnone :
        (Format.binary32.targetExponent (Float.Model.totalExponent r t) - t).toNat = 0 := by
      rw [targetExponent_eq, Float.Model.totalExponent]
      omega
    refine ⟨r, t, ?_, ⟨hlt, hmin, or_iff_not_imp_left.2 h.two_pow_le⟩, rfl⟩
    rw [shiftToTargetExponent, shiftToExponent, hnone]
    simp only [Nat.cast_zero, add_zero]
    rfl
  · have hone :
        (Format.binary32.targetExponent (Float.Model.totalExponent (2 ^ 24) t) - t).toNat = 1 := by
      rw [targetExponent_eq, Float.Model.totalExponent, Nat.log2_two_pow]
      omega
    refine ⟨2 ^ 23, t + 1, ?_, ⟨by norm_num, by omega, .inr (le_refl _)⟩, ?_⟩
    · rw [shiftToTargetExponent, shiftToExponent, hone]
      rfl
    · rw [zpow_add₀ two_ne_zero]
      norm_num
      ring

end Nearest

/-- **Rounding** a mantissa with an accuracy gives a nearest point, as a zero or with the mantissa
    and the exponent that singles have. -/
theorem roundWithAccuracy_nearest (s : Sign) {m : ℕ} {e : ℤ} {acc : Accuracy} {y : ℝ}
    (h : Stands (.ofMantissaAndAccuracy m acc) y)
    (he : e ≤ Format.binary32.targetExponent (Float.Model.totalExponent m e)) :
    ∃ r t, Nearest (y * 2 ^ e) r t ∧
      (roundWithAccuracy .binary32 s m e acc = .zero s ∧ r = 0 ∨
        ∃ m' e' hm', roundWithAccuracy .binary32 s m e acc = .finite s m' e' hm' ∧
          Canonical m' e' ∧ (m' : ℝ) * 2 ^ e' = r * 2 ^ t) := by
  obtain ⟨t, ht⟩ : ∃ t, t = Format.binary32.targetExponent (Float.Model.totalExponent m e) :=
    ⟨_, rfl⟩
  rw [← ht] at he
  have hnearest := nearest_of_stands h ht he
  set r := (ExtendedMantissa.ofMantissaAndAccuracy m acc >>> (t - e).toNat).roundedMantissa with hr
  have hfirst : shiftToTargetExponent .binary32 m e acc =
      (ExtendedMantissa.ofMantissaAndAccuracy m acc >>> (t - e).toNat, t) := by
    rw [shiftToTargetExponent, ← ht, shiftToExponent]
    have hexponent : e + ((t - e).toNat : ℤ) = t := by omega
    simp only [hexponent]
  -- the second shift takes back the digit that a carry may have added
  obtain ⟨m', e', hsecond, hcanonical, hvalue⟩ := hnearest.carried
  refine ⟨r, t, hnearest, ?_⟩
  rw [roundWithAccuracy]
  simp only [hfirst, ← hr, hsecond]
  by_cases hzero : m' = 0
  · have hr : (r : ℝ) = 0 := by
      rw [hzero, Nat.cast_zero, zero_mul, zero_eq_mul] at hvalue
      exact hvalue.resolve_right (zpow_pos two_pos t).ne'
    exact .inl ⟨dif_pos hzero, Nat.cast_eq_zero.1 hr⟩
  · exact .inr ⟨m', e', Nat.pos_of_ne_zero hzero, dif_neg hzero, hcanonical, hvalue⟩

/-! ### Numbers that need no rounding -/

/-- A number that a single stands for, without its sign. -/
inductive Representable (y : ℝ) : Prop
  /-- The number has this mantissa and this exponent. -/
  | mk (n : ℕ) (j : ℤ) (canonical : Canonical n j) (le : j ≤ 104) (eq : y = n * 2 ^ j)

theorem representable_zero : Representable 0 :=
  ⟨0, -149, ⟨by norm_num, le_refl _, .inl rfl⟩, by norm_num, by norm_num⟩

theorem canonical_two_pow {k : ℤ} (hk : -126 ≤ k) : Canonical (2 ^ 23) (k - 23) :=
  ⟨by norm_num, by omega, .inr (le_refl _)⟩

theorem two_pow_mul_zpow (k : ℤ) : ((2 ^ 23 : ℕ) : ℝ) * 2 ^ (k - 23) = 2 ^ k := by
  rw [Nat.cast_pow, Nat.cast_ofNat, ← zpow_natCast, ← zpow_add₀ two_ne_zero]
  congr 1
  norm_num

theorem representable_two_zpow {k : ℤ} (hk : -149 ≤ k) (hk' : k ≤ 127) :
    Representable (2 ^ k) := by
  rcases le_or_gt (-126) k with hnormal | hsubnormal
  · exact ⟨2 ^ 23, k - 23, canonical_two_pow hnormal, by omega, (two_pow_mul_zpow k).symm⟩
  · obtain ⟨i, hi⟩ : ∃ i : ℕ, (i : ℤ) = k + 149 := ⟨(k + 149).toNat, by omega⟩
    have hlt : 2 ^ i < 2 ^ 24 := Nat.pow_lt_pow_right one_lt_two (by omega)
    refine ⟨2 ^ i, -149, ⟨hlt, le_refl _, .inl rfl⟩, by norm_num, ?_⟩
    rw [Nat.cast_pow, Nat.cast_ofNat, ← zpow_natCast, ← zpow_add₀ two_ne_zero, hi]
    congr 1
    omega

theorem representable_abs_value {a : Float32} (ha : a.isFinite = true) :
    Representable |value a| := by
  obtain ⟨s, m, e, hcanonical, he, hvalue⟩ := exists_value_eq ha
  refine ⟨m, e, hcanonical, he, ?_⟩
  rw [hvalue, abs_signed, abs_of_nonneg (mul_nonneg m.cast_nonneg (zpow_pos two_pos e).le)]

/-- Just above a power of two there are no numbers that need no rounding. -/
theorem Representable.le_of_lt {y : ℝ} (h : Representable y) {k : ℤ}
    (hy : y < 2 ^ k + 2 ^ (k - 23)) : y ≤ 2 ^ k := by
  obtain ⟨n, j, hn, -, rfl⟩ := h
  rcases le_or_gt (k - 23) j with hcoarse | hfine
  · obtain ⟨i, hi⟩ : ∃ i : ℕ, (i : ℤ) = j - (k - 23) := ⟨(j - (k - 23)).toNat, by omega⟩
    have hstep : (n : ℝ) * 2 ^ j = (n * 2 ^ i : ℕ) * 2 ^ (k - 23) := by
      rw [Nat.cast_mul, Nat.cast_pow, Nat.cast_ofNat, ← zpow_natCast, mul_assoc,
        ← zpow_add₀ two_ne_zero, hi, sub_add_cancel]
    have htop : (2 : ℝ) ^ k + 2 ^ (k - 23) = (2 ^ 23 + 1 : ℕ) * 2 ^ (k - 23) := by
      rw [Nat.cast_add, add_mul, two_pow_mul_zpow, Nat.cast_one, one_mul]
    rw [hstep, htop, mul_lt_mul_iff_left₀ (zpow_pos two_pos _), Nat.cast_lt] at hy
    rw [hstep, ← two_pow_mul_zpow k]
    exact mul_le_mul_of_nonneg_right (mod_cast Nat.lt_succ_iff.1 hy) (zpow_pos two_pos _).le
  · calc (n : ℝ) * 2 ^ j ≤ 2 ^ (j + 24) := hn.magnitude_lt.le
      _ ≤ 2 ^ k := zpow_le_zpow_right₀ one_le_two (by omega)

/-- A number with 24 digits is a point of a grid or lies below all numbers that the grid is for. -/
theorem Canonical.point_or_below {n : ℕ} {j : ℤ} (hn : Canonical n j) (t : ℤ) :
    (∃ i : ℕ, (n : ℝ) * 2 ^ j = i * 2 ^ t) ∨ t ≠ -149 ∧ (n : ℝ) * 2 ^ j < 2 ^ (t + 23) := by
  rcases le_or_gt t j with hle | hlt
  · left
    refine ⟨n * 2 ^ (j - t).toNat, ?_⟩
    rw [Nat.cast_mul, Nat.cast_pow, Nat.cast_ofNat, ← zpow_natCast, mul_assoc,
      ← zpow_add₀ two_ne_zero, Int.toNat_of_nonneg (by omega), sub_add_cancel]
  · right
    have hmin := hn.min
    refine ⟨by omega, hn.magnitude_lt.trans_le ?_⟩
    exact zpow_le_zpow_right₀ one_le_two (by omega)

namespace Nearest

variable {x : ℝ} {r n : ℕ} {t j : ℤ}

/-- Rounding passes no number that needs no rounding. -/
theorem le_of_le (h : Nearest x r t) (hn : Canonical n j) (hx : x ≤ n * 2 ^ j) :
    (r : ℝ) * 2 ^ t ≤ n * 2 ^ j := by
  have hstep : (0 : ℝ) < 2 ^ t := zpow_pos two_pos t
  rcases hn.point_or_below t with ⟨i, hi⟩ | ⟨ht, hbelow⟩
  · rw [hi] at hx ⊢
    have hnear := (abs_le.1 h.near).2
    have hxi : x / 2 ^ t ≤ i := (div_le_iff₀ hstep).2 hx
    have hr : (r : ℝ) < i + 1 := by linarith
    have hnat : r < i + 1 := mod_cast hr
    exact mul_le_mul_of_nonneg_right (mod_cast Nat.lt_succ_iff.1 hnat) hstep.le
  · exact absurd (hx.trans_lt hbelow) (h.full.resolve_left ht).not_gt

theorem ge_of_ge (h : Nearest x r t) (hn : Canonical n j) (hx : n * 2 ^ j ≤ x) :
    (n : ℝ) * 2 ^ j ≤ r * 2 ^ t := by
  have hstep : (0 : ℝ) < 2 ^ t := zpow_pos two_pos t
  rcases hn.point_or_below t with ⟨i, hi⟩ | ⟨ht, hbelow⟩
  · rw [hi] at hx ⊢
    have hnear := (abs_le.1 h.near).1
    have hxi : (i : ℝ) ≤ x / 2 ^ t := (le_div_iff₀ hstep).2 hx
    have hr : (i : ℝ) < r + 1 := by linarith
    have hnat : i < r + 1 := mod_cast hr
    exact mul_le_mul_of_nonneg_right (mod_cast Nat.lt_succ_iff.1 hnat) hstep.le
  · have hr : (2 : ℝ) ^ 23 ≤ r := mod_cast h.two_pow_le ht
    calc (n : ℝ) * 2 ^ j ≤ 2 ^ (t + 23) := hbelow.le
      _ = 2 ^ 23 * 2 ^ t := by
        rw [zpow_add₀ two_ne_zero, mul_comm]
        norm_num
      _ ≤ r * 2 ^ t := mul_le_mul_of_nonneg_right hr hstep.le

/-- Zero is not rounded. -/
theorem eq_zero (h : Nearest x r t) (hx : x = 0) : (r : ℝ) * 2 ^ t = 0 := by
  have hpoint : (0 : ℝ) ≤ r * 2 ^ t := mul_nonneg r.cast_nonneg (zpow_pos two_pos t).le
  have hle := h.le_of_le (n := 0) (j := -149) ⟨by norm_num, le_refl _, .inl rfl⟩
    (by rw [hx, Nat.cast_zero, zero_mul])
  rw [Nat.cast_zero, zero_mul] at hle
  exact le_antisymm hle hpoint

/-- The error is at most half a step of the grid below a power of two. -/
theorem error_le (h : Nearest x r t) {k : ℤ} (hk : -125 ≤ k) (hx : x ≤ 2 ^ k) :
    |(r : ℝ) * 2 ^ t - x| ≤ 2 ^ (k - 25) := by
  have hstep : (0 : ℝ) < 2 ^ t := zpow_pos two_pos t
  have hhalf : |(r : ℝ) * 2 ^ t - x| ≤ 2 ^ (t - 1) := by
    have hscale : (r : ℝ) * 2 ^ t - x = (r - x / 2 ^ t) * 2 ^ t := by
      rw [sub_mul, div_mul_cancel₀ _ hstep.ne']
    rw [hscale, abs_mul, abs_of_pos hstep, zpow_sub_one₀ two_ne_zero, mul_comm]
    have hnear := h.near
    rw [one_div] at hnear
    exact mul_le_mul_of_nonneg_left hnear hstep.le
  rcases eq_or_ne t (-149) with rfl | ht
  · exact hhalf.trans (zpow_le_zpow_right₀ one_le_two (by omega))
  · have hfull := (h.full.resolve_left ht).trans hx
    have hle : t + 23 ≤ k := (zpow_le_zpow_iff_right₀ one_lt_two).1 hfull
    rcases hle.lt_or_eq with hlt | heq
    · exact hhalf.trans (zpow_le_zpow_right₀ one_le_two (by omega))
    · -- the number is the power of two
      have hxk : x = 2 ^ k := le_antisymm hx (heq ▸ h.full.resolve_left ht)
      have hcanonical := canonical_two_pow (show -126 ≤ k by omega)
      have hexact : (r : ℝ) * 2 ^ t = x := by
        rw [hxk, ← two_pow_mul_zpow k]
        refine le_antisymm (h.le_of_le hcanonical ?_) (h.ge_of_ge hcanonical ?_)
        · rw [two_pow_mul_zpow, hxk]
        · rw [two_pow_mul_zpow, hxk]
      rw [hexact, sub_self, abs_zero]
      exact (zpow_pos two_pos _).le

end Nearest

/-! ### Results -/

/-- The single is `x`, rounded to a nearest one, or an infinity where `x` is too large. -/
inductive Rounds (x : ℝ) (a : Float32) : Prop
  /-- The nearest point is `r · 2 ^ t`, with the sign of the number. -/
  | mk (s : Sign) (y : ℝ) (r : ℕ) (t : ℤ) (nonneg : 0 ≤ y) (eq : x = signed s y)
      (nearest : Nearest y r t)
      (result : a.isFinite = true ∧ value a = signed s (r * 2 ^ t) ∨
        a.toModel.unpack = .infinity s ∧ 2 ^ 128 ≤ (r : ℝ) * 2 ^ t)

/-- What is too large is packed as an infinity. -/
theorem unpack_pack_large {s : Sign} {m : ℕ} {e : ℤ} {hm : 0 < m} (he : 104 < e) :
    (Float32.ofModel (.pack (.finite s m e hm))).toModel.unpack = .infinity s := by
  have hbias : ((Format.binary32.exponentBias : ℕ) : ℤ) = 127 := rfl
  have hwidth : ((Format.binary32.mantissaBitsWithoutImplicit : ℕ) : ℤ) = 23 := rfl
  have hlarge : 2 ^ Format.binary32.exponentBits ≤ (e + (Format.binary32.exponentBias : ℕ) +
      (Format.binary32.mantissaBitsWithoutImplicit : ℕ)).toNat + 1 := by
    show 256 ≤ _
    omega
  show unpack .binary32 (pack .binary32 (.finite s m e hm)) = _
  rw [pack, if_pos hlarge]
  cases s <;> rfl

/-- Packing a rounded value gives the nearest single. -/
theorem rounds_roundWithAccuracy (s : Sign) {m : ℕ} {e : ℤ} {acc : Accuracy} {y : ℝ}
    (h : Stands (.ofMantissaAndAccuracy m acc) y)
    (he : e ≤ Format.binary32.targetExponent (Float.Model.totalExponent m e)) :
    Rounds (signed s (y * 2 ^ e))
      (.ofModel (.pack (roundWithAccuracy .binary32 s m e acc))) := by
  have hy : 0 ≤ y := (Nat.cast_nonneg _).trans h.le
  obtain ⟨r, t, hnearest, hresult⟩ := roundWithAccuracy_nearest s h he
  refine ⟨s, y * 2 ^ e, r, t, mul_nonneg hy (zpow_pos two_pos e).le, rfl, hnearest, ?_⟩
  obtain ⟨hzero, rfl⟩ | ⟨m', e', hm', hfinite, hcanonical, hvalue⟩ := hresult
  · left
    rw [hzero, Nat.cast_zero, zero_mul]
    cases s
    · exact ⟨rfl, neg_zero.symm⟩
    · exact ⟨rfl, rfl⟩
  · rw [hfinite, ← hvalue]
    rcases le_or_gt e' 104 with hfits | hlarge
    · left
      have hunpack := unpack_ofModel_pack (u := .finite s m' e' hm') ⟨hcanonical, hfits⟩
      refine ⟨?_, by rw [value, hunpack, valueOf_finite]⟩
      show (Float32.ofModel (.pack (.finite s m' e' hm'))).toModel.unpack.isFinite = true
      rw [hunpack]
      rfl
    · right
      refine ⟨unpack_pack_large hlarge, ?_⟩
      calc (2 : ℝ) ^ 128 = 2 ^ (128 : ℤ) := by norm_cast
        _ ≤ 2 ^ (e' + 23) := zpow_le_zpow_right₀ one_le_two (by omega)
        _ ≤ m' * 2 ^ e' := hcanonical.le_magnitude (by omega)

/-- A finite single needs no rounding. -/
theorem rounds_value {a : Float32} (ha : a.isFinite = true) : Rounds (value a) a := by
  have hexact {m : ℕ} {e : ℤ} (h : Canonical m e) : Nearest (m * 2 ^ e) m e :=
    { min := h.min
      lt := h.magnitude_lt
      full := or_iff_not_imp_left.2 h.le_magnitude
      near := by
        rw [mul_div_cancel_right₀ _ (zpow_pos two_pos e).ne', sub_self, abs_zero]
        norm_num }
  obtain ⟨s, m, e, hcanonical, -, hvalue⟩ := exists_value_eq ha
  exact ⟨s, m * 2 ^ e, m, e, mul_nonneg m.cast_nonneg (zpow_pos two_pos e).le, hvalue,
    hexact hcanonical, .inl ⟨ha, hvalue⟩⟩

namespace Rounds

variable {x y : ℝ} {a : Float32}

/-- **Bounds.** What is not beyond a number that needs no rounding is not beyond it after
    rounding. -/
theorem abs_le (h : Rounds x a) (hy : Representable y) (hx : |x| ≤ y) :
    a.isFinite = true ∧ |value a| ≤ y := by
  obtain ⟨s, x, r, t, hpos, rfl, hnearest, hresult⟩ := h
  obtain ⟨n, j, hn, hj, rfl⟩ := hy
  rw [abs_signed, abs_of_nonneg hpos] at hx
  have hle := hnearest.le_of_le hn hx
  rcases hresult with ⟨ha, hvalue⟩ | ⟨-, hlarge⟩
  · rw [hvalue, abs_signed, abs_of_nonneg (mul_nonneg r.cast_nonneg (zpow_pos two_pos t).le)]
    exact ⟨ha, hle⟩
  · have hlt : (n : ℝ) * 2 ^ j < 2 ^ 128 := by
      calc (n : ℝ) * 2 ^ j < 2 ^ (j + 24) := hn.magnitude_lt
        _ ≤ 2 ^ (128 : ℤ) := zpow_le_zpow_right₀ one_le_two (by omega)
        _ = 2 ^ 128 := by norm_cast
    exact absurd (hlarge.trans hle) hlt.not_ge

/-- A finite result is a nearest point. -/
theorem nearest (h : Rounds x a) (ha : a.isFinite = true) :
    ∃ s y r t, 0 ≤ y ∧ x = signed s y ∧ Nearest y r t ∧ value a = signed s (r * 2 ^ t) := by
  obtain ⟨s, y, r, t, hpos, hx, hnearest, ⟨-, hvalue⟩ | ⟨hinfinite, -⟩⟩ := h
  · exact ⟨s, y, r, t, hpos, hx, hnearest, hvalue⟩
  · replace ha : a.toModel.unpack.isFinite = true := ha
    rw [hinfinite] at ha
    cases ha

theorem le_abs (h : Rounds x a) (ha : a.isFinite = true) (hy : Representable y) (hx : y ≤ |x|) :
    y ≤ |value a| := by
  obtain ⟨s, x, r, t, hpos, rfl, hnearest, hvalue⟩ := h.nearest ha
  obtain ⟨n, j, hn, -, rfl⟩ := hy
  rw [abs_signed, abs_of_nonneg hpos] at hx
  rw [hvalue, abs_signed, abs_of_nonneg (mul_nonneg r.cast_nonneg (zpow_pos two_pos t).le)]
  exact hnearest.ge_of_ge hn hx

theorem nonneg (h : Rounds x a) (hx : 0 ≤ x) : 0 ≤ value a := by
  by_cases ha : a.isFinite = true
  · obtain ⟨s, y, r, t, hpos, rfl, hnearest, hvalue⟩ := h.nearest ha
    have hpoint : (0 : ℝ) ≤ r * 2 ^ t := mul_nonneg r.cast_nonneg (zpow_pos two_pos t).le
    cases s
    · -- only zero is not negative and has the negative sign
      rw [hvalue, signed, hnearest.eq_zero (le_antisymm (neg_nonneg.1 hx) hpos), neg_zero]
    · rw [hvalue]
      exact hpoint
  · rw [value_of_not_isFinite ha]

/-- **Errors.** Rounding a number up to a power of two changes it by at most half a digit. -/
theorem error_le (h : Rounds x a) (ha : a.isFinite = true) {k : ℤ} (hk : -125 ≤ k)
    (hx : |x| ≤ 2 ^ k) : |value a - x| ≤ 2 ^ (k - 25) := by
  obtain ⟨s, y, r, t, hpos, rfl, hnearest, hvalue⟩ := h.nearest ha
  rw [abs_signed, abs_of_nonneg hpos] at hx
  have herror := hnearest.error_le hk hx
  rw [hvalue]
  cases s
  · rwa [signed, signed, neg_sub_neg, abs_sub_comm]
  · exact herror

/-- **Absorption.** A number that is hardly greater than a power of two is rounded down to it. -/
theorem absorb (h : Rounds x a) {k : ℤ} (hk : -125 ≤ k) (hk' : k ≤ 126)
    (hx : |x| < 2 ^ k + 2 ^ (k - 24)) : a.isFinite = true ∧ |value a| ≤ 2 ^ k := by
  have hnext : |x| ≤ 2 ^ (k + 1) := by
    have hstep : (2 : ℝ) ^ (k - 24) ≤ 2 ^ k := zpow_le_zpow_right₀ one_le_two (by omega)
    rw [zpow_add_one₀ two_ne_zero]
    linarith
  obtain ⟨ha, -⟩ := h.abs_le (representable_two_zpow (by omega) (by omega)) hnext
  have herror := h.error_le ha (show -125 ≤ k + 1 by omega) hnext
  refine ⟨ha, (representable_abs_value ha).le_of_lt ?_⟩
  have hsum : (2 : ℝ) ^ (k - 23) = 2 ^ (k - 24) + 2 ^ (k + 1 - 25) := by
    rw [show k - 23 = k - 24 + 1 by ring, show k + 1 - 25 = k - 24 by ring,
      zpow_add_one₀ two_ne_zero, mul_two]
  calc |value a| ≤ |x| + |value a - x| := by
        linarith [abs_sub_abs_le_abs_sub (value a) x]
    _ < 2 ^ k + 2 ^ (k - 23) := by linarith

end Rounds

end Single

end Stride
