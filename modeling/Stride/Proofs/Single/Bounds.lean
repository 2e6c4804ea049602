import Mathlib
import Stride.Proofs.Single.Special

namespace Stride

/-!
# Bounds of singles

A bound on the operands of an operation gives one on its result, and with it that nothing
overflows.  A bound is a small number times a power of two, which rounding does not pass.

* `Within` — a single is finite and at most so large; `Within.add`, `Within.mul` — operations.
* `Within.add_small` — what is small enough is lost in a sum.
* `IsShare` — a number from zero to one; `Within.mul_share`, `Within.mix` — interpolation.
* `Rounds.relative` — the error of a result that is not tiny.
* `le_of_rounds` — a result that is tiny is off by half the least single at most.
-/

namespace Single

open Float.Model (UnpackedFloat Format)
open Float.Model.UnpackedFloat

/-- A number with 24 digits needs no rounding, with whatever exponent it is written. -/
theorem representable_mul_zpow {c : ℕ} {k : ℤ} (hc : c < 2 ^ 24) (hk : -149 ≤ k) (hk' : k ≤ 104) :
    Representable (c * 2 ^ k) := by
  rcases Nat.eq_zero_or_pos c with rfl | hpos
  · rw [Nat.cast_zero, zero_mul]
    exact representable_zero
  -- the mantissa is made as long as the least exponent allows
  obtain ⟨i, hi⟩ : ∃ i : ℕ, i = min (23 - c.log2) (k + 149).toNat := ⟨_, rfl⟩
  have hlog : c.log2 < 24 := (Nat.log2_lt hpos.ne').2 hc
  have hlow : 2 ^ c.log2 ≤ c := Nat.log2_self_le hpos.ne'
  have hhigh : c < 2 ^ (c.log2 + 1) := Nat.lt_log2_self
  refine ⟨c * 2 ^ i, k - i, ⟨?_, by omega, ?_⟩, by omega, ?_⟩
  · calc c * 2 ^ i < 2 ^ (c.log2 + 1) * 2 ^ i := Nat.mul_lt_mul_of_pos_right hhigh (by positivity)
      _ = 2 ^ (c.log2 + 1 + i) := (pow_add 2 _ _).symm
      _ ≤ 2 ^ 24 := Nat.pow_le_pow_right two_pos (by omega)
  · rcases le_or_gt (23 - c.log2) (k + 149).toNat with hlong | hshort
    · right
      calc 2 ^ 23 = 2 ^ c.log2 * 2 ^ i := by rw [← pow_add]; congr 1; omega
        _ ≤ c * 2 ^ i := Nat.mul_le_mul_right _ hlow
    · left
      omega
  · rw [Nat.cast_mul, Nat.cast_pow, Nat.cast_ofNat, ← zpow_natCast, mul_assoc,
      ← zpow_add₀ two_ne_zero, add_sub_cancel]

/-! ### Bounds -/

/-- The single is finite, and its size is at most `c · 2 ^ k`. -/
structure Within (a : Float32) (c : ℕ) (k : ℤ) : Prop where
  /-- It is finite. -/
  isFinite : a.isFinite = true
  /-- Its size is bounded. -/
  le : |value a| ≤ c * 2 ^ k

variable {x : ℝ} {a b t : Float32} {c d i : ℕ} {k l : ℤ}

/-- Rounding does not pass a bound. -/
theorem Rounds.within (h : Rounds x a) (hx : |x| ≤ c * 2 ^ k) (hc : c < 2 ^ 24) (hk : -149 ≤ k)
    (hk' : k ≤ 104) : Within a c k := by
  obtain ⟨ha, hle⟩ := h.abs_le (representable_mul_zpow hc hk hk') hx
  exact ⟨ha, hle⟩

namespace Within

theorem zero (c : ℕ) (k : ℤ) : Within 0 c k := by
  refine ⟨rfl, ?_⟩
  rw [value_zero, abs_zero]
  exact mul_nonneg c.cast_nonneg (zpow_pos two_pos k).le

theorem mono (h : Within a c k) (hcd : c ≤ d) : Within a d k :=
  ⟨h.isFinite, h.le.trans (mul_le_mul_of_nonneg_right (mod_cast hcd) (zpow_pos two_pos k).le)⟩

/-- The same bound with a greater exponent. -/
theorem coarser (h : Within a c k) (hcd : c ≤ d * 2 ^ i) (hkl : l = k + i) : Within a d l := by
  refine ⟨h.isFinite, h.le.trans ?_⟩
  rw [hkl, zpow_add₀ two_ne_zero, mul_comm (2 ^ k : ℝ), ← mul_assoc, zpow_natCast]
  exact mul_le_mul_of_nonneg_right (mod_cast hcd) (zpow_pos two_pos k).le

/-- The same bound with a lesser exponent. -/
theorem finer (h : Within a c k) (hcd : c * 2 ^ i ≤ d) (hkl : k = l + i) : Within a d l := by
  refine ⟨h.isFinite, h.le.trans ?_⟩
  rw [hkl, zpow_add₀ two_ne_zero, mul_comm (2 ^ l : ℝ), ← mul_assoc, zpow_natCast]
  exact mul_le_mul_of_nonneg_right (mod_cast hcd) (zpow_pos two_pos l).le

theorem le_two_zpow (h : Within a 1 k) : |value a| ≤ 2 ^ k := by
  have hle := h.le
  rwa [Nat.cast_one, one_mul] at hle

theorem exponent_le (h : Within a 1 k) (hkl : k ≤ l) : Within a 1 l := by
  refine ⟨h.isFinite, ?_⟩
  rw [Nat.cast_one, one_mul]
  exact h.le_two_zpow.trans (zpow_le_zpow_right₀ one_le_two hkl)

theorem add (ha : Within a c k) (hb : Within b d k) (hcd : c + d < 2 ^ 24) (hk : -149 ≤ k)
    (hk' : k ≤ 104) : Within (a + b) (c + d) k := by
  refine (rounds_add ha.isFinite hb.isFinite).within ?_ hcd hk hk'
  rw [Nat.cast_add, add_mul]
  exact (abs_add_le _ _).trans (add_le_add ha.le hb.le)

theorem sub (ha : Within a c k) (hb : Within b d k) (hcd : c + d < 2 ^ 24) (hk : -149 ≤ k)
    (hk' : k ≤ 104) : Within (a - b) (c + d) k := by
  refine (rounds_sub ha.isFinite hb.isFinite).within ?_ hcd hk hk'
  rw [Nat.cast_add, add_mul]
  exact (abs_sub _ _).trans (add_le_add ha.le hb.le)

theorem mul (ha : Within a c k) (hb : Within b d l) (hcd : c * d < 2 ^ 24) (hkl : -149 ≤ k + l)
    (hkl' : k + l ≤ 104) : Within (a * b) (c * d) (k + l) := by
  refine (rounds_mul ha.isFinite hb.isFinite).within ?_ hcd hkl hkl'
  rw [abs_mul, Nat.cast_mul, zpow_add₀ two_ne_zero, mul_mul_mul_comm]
  exact mul_le_mul ha.le hb.le (abs_nonneg _)
    (mul_nonneg c.cast_nonneg (zpow_pos two_pos k).le)

/-- A divisor of at least one makes nothing larger. -/
theorem div (ha : Within a c k) (hb : b.isFinite = true) (hone : 1 ≤ value b) (hc : c < 2 ^ 24)
    (hk : -149 ≤ k) (hk' : k ≤ 104) : Within (a / b) c k := by
  refine (rounds_div ha.isFinite hb (by linarith)).within ?_ hc hk hk'
  rw [abs_div]
  exact (div_le_self (abs_nonneg _) (hone.trans (le_abs_self _))).trans ha.le

/-! ### Constants -/

end Within

/-- The single that is a power of two. -/
def twoPow (k : ℤ) : Float32 := .ofModel (.pack (.finite .positive (2 ^ 23) (k - 23) (by decide)))

theorem value_twoPow (hk : -126 ≤ k) (hk' : k ≤ 127) :
    (twoPow k).isFinite = true ∧ value (twoPow k) = 2 ^ k := by
  have hunpack : (twoPow k).toModel.unpack = .finite .positive (2 ^ 23) (k - 23) (by decide) :=
    unpack_pack_finite (canonical_two_pow hk) (by omega)
  constructor
  · show (twoPow k).toModel.unpack.isFinite = true
    rw [hunpack]
    rfl
  · rw [value, hunpack, valueOf_finite, signed, two_pow_mul_zpow]

theorem isFinite_of_le (ha : 0 ≤ a) (hb : b.isFinite = true) (h : a ≤ b) : a.isFinite = true := by
  rcases nonneg_iff.1 ha with ⟨ha', -⟩ | hu
  · exact ha'
  · exact absurd (lt_of_infinity hb hu) (Scalar.Lawful.not_lt_of_le h)

/-- A single between zero and a constant. -/
theorem within_of_le {e : Float32} (ha : 0 ≤ a) (hae : a ≤ e) (he : e ≤ twoPow k)
    (hk : -126 ≤ k) (hk' : k ≤ 127) : Within a 1 k := by
  obtain ⟨htop, hvalue⟩ := value_twoPow hk hk'
  have hle := Scalar.Lawful.le_trans hae he
  have hfinite := isFinite_of_le ha htop hle
  rw [le_iff_value hfinite htop, hvalue] at hle
  rw [le_iff_value rfl hfinite, value_zero] at ha
  refine ⟨hfinite, ?_⟩
  rwa [Nat.cast_one, one_mul, abs_of_nonneg ha]

theorem infinity_lt (ha : a.isFinite = true) (hb : b.toModel.unpack = .infinity .negative) :
    b < a := by
  rw [lt_iff, place, place, hb]
  rcases unpack_of_isFinite ha with ⟨s, hu⟩ | ⟨_ | _, m, e, hm, hu⟩ <;>
  simp [hu, rank, Prod.Lex.toLex_lt_toLex]

/-- What lies between finite singles is finite. -/
theorem isFinite_of_mem {c : Float32} (ha : a.isFinite = true) (hb : b.isFinite = true)
    (hac : a ≤ c) (hcb : c ≤ b) : c.isFinite = true := by
  by_contra hinfinite
  rcases unpack_of_not_isFinite hinfinite with ⟨_ | _, hu⟩ | hu
  · exact Scalar.Lawful.not_lt_of_le hac (infinity_lt ha hu)
  · exact Scalar.Lawful.not_lt_of_le hcb (lt_of_infinity hb hu)
  · exact (isNumber_iff c).1 (Scalar.Lawful.number_left hcb) hu

/-- A single between a constant and its negation. -/
theorem within_of_mem {c e : Float32} (hlow : -e ≤ c) (hhigh : c ≤ e) (he : e ≤ twoPow k)
    (he' : 0 ≤ e) (hk : -126 ≤ k) (hk' : k ≤ 127) : Within c 1 k := by
  obtain ⟨hfinite, hle⟩ := within_of_le he' (Scalar.Lawful.number_left he) he hk hk'
  have hneg := isFinite_neg hfinite
  have hc := isFinite_of_mem hneg hfinite hlow hhigh
  rw [le_iff_value hneg hc, value_neg hfinite] at hlow
  rw [le_iff_value hc hfinite] at hhigh
  exact ⟨hc, (abs_le.2 ⟨hlow, hhigh⟩).trans ((le_abs_self _).trans hle)⟩

namespace Within

/-! ### What is lost -/

theorem absorb (h : Rounds x a) (hk : -125 ≤ k) (hk' : k ≤ 126)
    (hx : |x| < 2 ^ k + 2 ^ (k - 24)) : Within a 1 k := by
  obtain ⟨ha, hle⟩ := h.absorb hk hk' hx
  refine ⟨ha, ?_⟩
  rwa [Nat.cast_one, one_mul]

/-- **Sums.** What is small enough does not take a sum beyond the bound of the other summand. -/
theorem add_small (ha : Within a 1 k) (hb : Within b 1 l) (hl : l < k - 24) (hk : -125 ≤ k)
    (hk' : k ≤ 126) : Within (a + b) 1 k := by
  refine absorb (rounds_add ha.isFinite hb.isFinite) hk hk' ?_
  have hlt : (2 : ℝ) ^ l < 2 ^ (k - 24) := zpow_lt_zpow_right₀ one_lt_two hl
  have hsum := abs_add_le (value a) (value b)
  linarith [ha.le_two_zpow, hb.le_two_zpow]

theorem sub_small (ha : Within a 1 k) (hb : Within b 1 l) (hl : l < k - 24) (hk : -125 ≤ k)
    (hk' : k ≤ 126) : Within (a - b) 1 k := by
  refine absorb (rounds_sub ha.isFinite hb.isFinite) hk hk' ?_
  have hlt : (2 : ℝ) ^ l < 2 ^ (k - 24) := zpow_lt_zpow_right₀ one_lt_two hl
  have hsum := abs_sub (value a) (value b)
  linarith [ha.le_two_zpow, hb.le_two_zpow]

end Within

/-! ### Interpolation -/

/-- The single is a number from zero to one. -/
structure IsShare (t : Float32) : Prop where
  /-- It is finite. -/
  isFinite : t.isFinite = true
  /-- It is not negative. -/
  nonneg : 0 ≤ value t
  /-- It is at most one. -/
  le_one : value t ≤ 1

theorem isShare_of_mem (hzero : 0 ≤ t) (hone : t ≤ 1) : IsShare t := by
  have hfinite : t.isFinite = true := isFinite_of_le hzero rfl hone
  rw [le_iff_value rfl hfinite, value_zero] at hzero
  rw [le_iff_value hfinite rfl, value_one] at hone
  exact ⟨hfinite, hzero, hone⟩

namespace IsShare

/-- What a share leaves, up to an error. -/
theorem one_sub (h : IsShare t) :
    IsShare (1 - t) ∧ value (1 - t) + value t ≤ 1 + 2 ^ (-25 : ℤ) := by
  have hrounds := rounds_sub (a := 1) rfl h.isFinite
  rw [value_one] at hrounds
  have hsize : |1 - value t| ≤ 2 ^ (0 : ℤ) := by
    rw [zpow_zero, abs_of_nonneg (by linarith [h.le_one])]
    linarith [h.nonneg]
  obtain ⟨hfinite, hle⟩ :=
    hrounds.abs_le (representable_two_zpow (k := 0) (by norm_num) (by norm_num)) hsize
  have herror := (abs_le.1 (hrounds.error_le hfinite (k := 0) (by norm_num) hsize)).2
  rw [zpow_zero] at hle
  rw [zero_sub] at herror
  exact ⟨⟨hfinite, hrounds.nonneg (by linarith [h.le_one]), (abs_le.1 hle).2⟩, by linarith⟩

/-- The time that is left after a share of it. -/
theorem sub_mul {s : Float32} (hs : IsShare s) (ht : IsShare t) : IsShare (s - s * t) := by
  have hmul := rounds_mul hs.isFinite ht.isFinite
  have hprod : 0 ≤ value s * value t := mul_nonneg hs.nonneg ht.nonneg
  have habs : |value s| = value s := abs_of_nonneg hs.nonneg
  obtain ⟨hfinite, hle⟩ := hmul.abs_le (representable_abs_value hs.isFinite) (by
    rw [abs_of_nonneg hprod, habs]
    exact mul_le_of_le_one_right hs.nonneg ht.le_one)
  rw [abs_of_nonneg (hmul.nonneg hprod), habs] at hle
  have hsub := rounds_sub hs.isFinite hfinite
  have hrest : 0 ≤ value s - value (s * t) := by linarith
  obtain ⟨hfinite', hle'⟩ := hsub.abs_le (representable_abs_value hs.isFinite) (by
    rw [abs_of_nonneg hrest, habs]
    linarith [hmul.nonneg hprod])
  rw [habs] at hle'
  exact ⟨hfinite', hsub.nonneg hrest, ((abs_le.1 hle').2).trans hs.le_one⟩

end IsShare

/-- A share of what is bounded has that share of the bound. -/
theorem Within.abs_mul_share_le (ha : Within a 1 k) (ht : IsShare t) (hk : 0 ≤ k) (hk' : k ≤ 126) :
    (a * t).isFinite = true ∧ |value (a * t)| ≤ 2 ^ k * value t := by
  obtain ⟨s, m, e, hm, -, hvalue⟩ := exists_value_eq ht.isFinite
  have hpoint : (0 : ℝ) ≤ m * 2 ^ e := mul_nonneg m.cast_nonneg (zpow_pos two_pos e).le
  have hsize : value t = m * 2 ^ e := by
    rw [← abs_of_nonneg ht.nonneg, hvalue, abs_signed, abs_of_nonneg hpoint]
  -- one has a smaller exponent than the least long mantissa
  have he : e ≤ -23 := by
    rcases hm.full with he | hlong
    · omega
    · have hlong' : (2 : ℝ) ^ 23 ≤ m := mod_cast hlong
      have hle : (2 : ℝ) ^ (23 + e) ≤ 2 ^ (0 : ℤ) := by
        rw [zpow_add₀ two_ne_zero, zpow_zero]
        calc (2 : ℝ) ^ (23 : ℤ) * 2 ^ e ≤ m * 2 ^ e :=
              mul_le_mul_of_nonneg_right (mod_cast hlong') (zpow_pos two_pos e).le
          _ ≤ 1 := hsize ▸ ht.le_one
      have hexponent := (zpow_le_zpow_iff_right₀ one_lt_two).1 hle
      omega
  have hbound : |value a * value t| ≤ m * 2 ^ (e + k) := by
    rw [abs_mul, abs_of_nonneg ht.nonneg, hsize, mul_comm, zpow_add₀ two_ne_zero, ← mul_assoc]
    exact mul_le_mul_of_nonneg_left ha.le_two_zpow hpoint
  have hmin := hm.min
  obtain ⟨hfinite, hle⟩ :=
    (rounds_mul ha.isFinite ht.isFinite).within hbound hm.lt (by omega) (by omega)
  refine ⟨hfinite, hle.trans_eq ?_⟩
  rw [hsize, zpow_add₀ two_ne_zero, ← mul_assoc, mul_comm]

theorem Within.mul_share (ha : Within a 1 k) (ht : IsShare t) (hk : 0 ≤ k) (hk' : k ≤ 126) :
    Within (a * t) 1 k := by
  obtain ⟨hfinite, hle⟩ := ha.abs_mul_share_le ht hk hk'
  refine ⟨hfinite, hle.trans ?_⟩
  rw [Nat.cast_one, one_mul]
  exact mul_le_of_le_one_right (zpow_pos two_pos k).le ht.le_one

/-- **Interpolation** does not leave the bounds of the end points: the two weights may add up to
    more than one, but by too little to pass a power of two. -/
theorem Within.mix (ha : Within a 1 k) (hb : Within b 1 k) (ht : IsShare t) (hk : 0 ≤ k)
    (hk' : k ≤ 126) : Within (a * (1 - t) + b * t) 1 k := by
  obtain ⟨hrest, hsum⟩ := ht.one_sub
  obtain ⟨hfirst, hfirst'⟩ := ha.abs_mul_share_le hrest hk hk'
  obtain ⟨hsecond, hsecond'⟩ := hb.abs_mul_share_le ht hk hk'
  refine absorb (rounds_add hfirst hsecond) (by omega) hk' ?_
  have hpos : (0 : ℝ) < 2 ^ k := zpow_pos two_pos k
  have hhalf : (2 : ℝ) ^ (-25 : ℤ) < 2 ^ (-24 : ℤ) := zpow_lt_zpow_right₀ one_lt_two (by norm_num)
  calc |value (a * (1 - t)) + value (b * t)|
      ≤ 2 ^ k * value (1 - t) + 2 ^ k * value t :=
        (abs_add_le _ _).trans (add_le_add hfirst' hsecond')
    _ = 2 ^ k * (value (1 - t) + value t) := (mul_add _ _ _).symm
    _ ≤ 2 ^ k * (1 + 2 ^ (-25 : ℤ)) := mul_le_mul_of_nonneg_left hsum hpos.le
    _ < 2 ^ k * (1 + 2 ^ (-24 : ℤ)) := mul_lt_mul_of_pos_left (by linarith) hpos
    _ = 2 ^ k + 2 ^ (k - 24) := by rw [mul_add, mul_one, ← zpow_add₀ two_ne_zero, ← sub_eq_add_neg]

/-! ### Errors -/

/-- **Errors.** A result that is not tiny is off by half a digit at most. -/
theorem Rounds.relative (h : Rounds x a) (ha : a.isFinite = true) (hx : 0 < x)
    (hsize : 2 ^ (-126 : ℤ) < x) : |value a - x| ≤ x * 2 ^ (-24 : ℤ) := by
  obtain ⟨n, hlow, hhigh⟩ := exists_mem_Ioc_zpow hx one_lt_two
  have hn : -126 < n + 1 := (zpow_lt_zpow_iff_right₀ one_lt_two).1 (hsize.trans_le hhigh)
  have herror := h.error_le ha (k := n + 1) (by omega) (by rwa [abs_of_pos hx])
  refine herror.trans ?_
  rw [show n + 1 - 25 = n + -24 by ring, zpow_add₀ two_ne_zero]
  exact mul_le_mul_of_nonneg_right hlow.le (zpow_pos two_pos _).le

/-- What is rounded to less than a power of two is less than it. -/
theorem Rounds.abs_lt_two_zpow {k : ℤ} (h : Rounds x a) (ha : a.isFinite = true) (hk : -149 ≤ k)
    (hk' : k ≤ 127) (hlt : |value a| < 2 ^ k) : |x| < 2 ^ k := by
  by_contra hle
  have hle' := h.le_abs ha (representable_two_zpow hk hk') (not_lt.1 hle)
  exact not_lt.2 hle' hlt

/-- A positive result is at least two thirds of what was rounded, and what is rounded to zero is
    half the least single at most. -/
theorem le_of_rounds {w : ℝ} (h : Rounds x a) (ha : a.isFinite = true) (hx : 0 ≤ x)
    (hw : value a ≤ w) (hleast : 2 ^ (-149 : ℤ) ≤ w) : x ≤ 3 / 2 * w := by
  obtain ⟨s, y, r, t, hpos, rfl, hnearest, hvalue⟩ := h.nearest ha
  have hsize : |value a| = r * 2 ^ t := by
    rw [hvalue, abs_signed, abs_of_nonneg (mul_nonneg r.cast_nonneg (zpow_pos two_pos t).le)]
  have hy : signed s y = y := by rw [← abs_of_nonneg hx, abs_signed, abs_of_nonneg hpos]
  rw [abs_of_nonneg (h.nonneg hx)] at hsize
  have hstep : (0 : ℝ) < 2 ^ t := zpow_pos two_pos t
  have hnear : y ≤ (r + 1 / 2) * 2 ^ t := by
    have hlow := (abs_le.1 hnearest.near).1
    rw [← div_le_iff₀ hstep]
    linarith
  rw [hy]
  rcases Nat.eq_zero_or_pos r with hr | hr
  · -- the grid is the finest one
    have ht : t = -149 := by
      by_contra ht
      have := hnearest.two_pow_le ht
      omega
    rw [hr, Nat.cast_zero, zero_add, ht] at hnear
    exact hnear.trans (mul_le_mul (by norm_num) hleast (zpow_pos two_pos _).le (by norm_num))
  · have hone : (1 : ℝ) ≤ r := mod_cast hr
    have hhalf : (r + 1 / 2) * (2 : ℝ) ^ t ≤ 3 / 2 * (r * 2 ^ t) := by
      rw [← mul_assoc]
      exact mul_le_mul_of_nonneg_right (by linarith) hstep.le
    linarith

/-! ### Sums and reciprocals -/

/-- A sum of numbers that are not negative is at least each of them. -/
theorem le_value_add (ha : a.isFinite = true) (hb : b.isFinite = true)
    (hsum : (a + b).isFinite = true) (ha' : 0 ≤ value a) (hb' : 0 ≤ value b) :
    value a ≤ value (a + b) ∧ value b ≤ value (a + b) := by
  have hrounds := rounds_add ha hb
  have hpos : 0 ≤ value a + value b := add_nonneg ha' hb'
  have hle {y : Float32} (hy : y.isFinite = true) (hy' : value y ≤ value a + value b)
      (hnonneg : 0 ≤ value y) : value y ≤ value (a + b) := by
    have hsize := hrounds.le_abs hsum (representable_abs_value hy)
      (by rwa [abs_of_nonneg hpos, abs_of_nonneg hnonneg])
    rwa [abs_of_nonneg hnonneg, abs_of_nonneg (hrounds.nonneg hpos)] at hsize
  exact ⟨hle ha (by linarith) ha', hle hb (by linarith) hb'⟩

/-- A difference of numbers that are not negative does not overflow. -/
theorem isFinite_sub_of_nonneg (ha : a.isFinite = true) (hb : b.isFinite = true)
    (ha' : 0 ≤ value a) (hb' : 0 ≤ value b) : (a - b).isFinite = true := by
  have hrounds := rounds_sub ha hb
  rcases le_total (value a) (value b) with hle | hle
  · refine (hrounds.abs_le (representable_abs_value hb) ?_).1
    rw [abs_of_nonpos (sub_nonpos.2 hle), abs_of_nonneg hb']
    linarith
  · refine (hrounds.abs_le (representable_abs_value ha) ?_).1
    rw [abs_of_nonneg (sub_nonneg.2 hle), abs_of_nonneg ha']
    linarith

/-- There is a least positive single, and a greatest. -/
theorem value_mem_of_pos (ha : a.isFinite = true) (hpos : 0 < value a) :
    2 ^ (-149 : ℤ) ≤ value a ∧ value a < 2 ^ (128 : ℤ) := by
  obtain ⟨s, m, e, hm, he, hvalue⟩ := exists_value_eq ha
  have hsize : value a = m * 2 ^ e := by
    rw [← abs_of_pos hpos, hvalue, abs_signed,
      abs_of_nonneg (mul_nonneg m.cast_nonneg (zpow_pos two_pos e).le)]
  rw [hsize] at hpos ⊢
  have hone : 1 ≤ m := by
    by_contra hzero
    obtain rfl : m = 0 := by omega
    rw [Nat.cast_zero, zero_mul] at hpos
    exact lt_irrefl _ hpos
  constructor
  · calc (2 : ℝ) ^ (-149 : ℤ) ≤ 2 ^ e := zpow_le_zpow_right₀ one_le_two hm.min
      _ ≤ m * 2 ^ e := le_mul_of_one_le_left (zpow_pos two_pos e).le (mod_cast hone)
  · exact hm.magnitude_lt.trans_le (zpow_le_zpow_right₀ one_le_two (by omega))

/-- Zero has no finite reciprocal. -/
theorem value_ne_zero_of_one_div (ha : a.isFinite = true) (hdiv : (1 / a).isFinite = true) :
    value a ≠ 0 := by
  have hone : (1 : Float32).toModel.unpack = .finite .positive (2 ^ 23) (-23) (by decide) := rfl
  have heq : 1 / a =
      .ofModel (.pack (div .binary32 (1 : Float32).toModel.unpack a.toModel.unpack)) := rfl
  rcases unpack_of_isFinite ha with ⟨s, hu⟩ | ⟨s, m, e, hm, hu⟩
  · rw [heq, hone, hu] at hdiv
    cases s <;> cases hdiv
  · rw [value, hu, valueOf_finite, ← abs_ne_zero, abs_signed, abs_ne_zero]
    exact mul_ne_zero (Nat.cast_ne_zero.2 hm.ne') (zpow_pos two_pos e).ne'

end Single

end Stride
