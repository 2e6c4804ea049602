import Mathlib
import Stride.Proofs.Single.Arithmetic

namespace Stride

/-!
# Zeros, infinities and NaN

What becomes of the singles that do not stand for a number of their own.  The sign of a zero is lost
or kept by an operation, but it changes nothing else, as long as nothing is divided by the zero.
What is not finite stays so when something is taken from it.

* `Single.Alike` — the same single, or zeros of any sign.
* `alike_add`, `alike_sub`, `alike_mul_left`, `alike_div` — operations on singles that are alike.
* `not_isFinite_sub`, `not_isFinite_mul` — what is not finite stays so.
* `nonneg_iff` — the singles that are not negative.
* `Rounds.zero_le`, `add_zero_le`, `sqrt_zero_le` — results that are not negative.
-/

namespace Single

open Float.Model (UnpackedFloat Format)
open Float.Model.UnpackedFloat

/-! ### Zeros of any sign -/

/-- The single is a zero of either sign. -/
def IsZero (a : Float32) : Prop := ∃ s, a.toModel.unpack = .zero s

/-- The singles are the same, or zeros of any sign.  There is only one NaN. -/
def Alike (a b : Float32) : Prop := a = b ∨ IsZero a ∧ IsZero b

/-- The unpacked singles are the same, or zeros of any sign. -/
def AlikeUnpacked (u v : UnpackedFloat) : Prop := u = v ∨ (∃ s, u = .zero s) ∧ ∃ s, v = .zero s

variable {a b c a' b' : Float32}

namespace Alike

theorem refl (a : Float32) : Alike a a := .inl rfl

theorem symm (h : Alike a b) : Alike b a := h.imp Eq.symm And.symm

theorem trans (hab : Alike a b) (hbc : Alike b c) : Alike a c := by
  rcases hab with rfl | ⟨ha, hb⟩
  · exact hbc
  · rcases hbc with rfl | ⟨-, hc⟩
    · exact .inr ⟨ha, hb⟩
    · exact .inr ⟨ha, hc⟩

theorem unpack (h : Alike a b) : AlikeUnpacked a.toModel.unpack b.toModel.unpack :=
  h.imp (congrArg fun x : Float32 => x.toModel.unpack) id

end Alike

theorem isZero_pack (s : Sign) : IsZero (.ofModel (.pack (.zero s))) :=
  ⟨s, by cases s <;> rfl⟩

theorem AlikeUnpacked.pack {u v : UnpackedFloat} (h : AlikeUnpacked u v) :
    Alike (.ofModel (.pack u)) (.ofModel (.pack v)) := by
  obtain rfl | ⟨⟨s, rfl⟩, t, rfl⟩ := h
  · exact .inl rfl
  · exact .inr ⟨isZero_pack s, isZero_pack t⟩

theorem place_eq_of_alike (h : Alike a b) : place a = place b := by
  obtain rfl | ⟨⟨s, hs⟩, t, ht⟩ := h
  · rfl
  · rw [place, place, hs, ht]
    rfl

theorem lt_iff_of_alike (ha : Alike a a') (hb : Alike b b') : a < b ↔ a' < b' := by
  rw [lt_iff, lt_iff, place_eq_of_alike ha, place_eq_of_alike hb]

theorem le_iff_of_alike (ha : Alike a a') (hb : Alike b b') : a ≤ b ↔ a' ≤ b' := by
  rw [le_iff, le_iff, place_eq_of_alike ha, place_eq_of_alike hb]

/-- The sign of a zero does not matter to what it is added to. -/
theorem alikeUnpacked_zero_add (s : Sign) (v : UnpackedFloat) :
    AlikeUnpacked (add .binary32 (.zero s) v) v ∧ AlikeUnpacked (add .binary32 v (.zero s)) v := by
  cases v with
  | infinity | notANumber | finite => exact ⟨.inl rfl, .inl rfl⟩
  | zero t =>
    cases s <;> cases t <;> exact ⟨.inr ⟨⟨_, rfl⟩, _, rfl⟩, .inr ⟨⟨_, rfl⟩, _, rfl⟩⟩

theorem alikeUnpacked_zero_mul (s t : Sign) (v : UnpackedFloat) :
    AlikeUnpacked (mul .binary32 (.zero s) v) (mul .binary32 (.zero t) v) ∧
      AlikeUnpacked (mul .binary32 v (.zero s)) (mul .binary32 v (.zero t)) := by
  cases v with
  | infinity | notANumber => exact ⟨.inl rfl, .inl rfl⟩
  | zero | finite => exact ⟨.inr ⟨⟨_, rfl⟩, _, rfl⟩, .inr ⟨⟨_, rfl⟩, _, rfl⟩⟩

theorem alikeUnpacked_zero_div (s t : Sign) (v : UnpackedFloat) :
    AlikeUnpacked (div .binary32 (.zero s) v) (div .binary32 (.zero t) v) := by
  cases v with
  | notANumber | zero => exact .inl rfl
  | infinity | finite => exact .inr ⟨⟨_, rfl⟩, _, rfl⟩

theorem alike_mul_left (h : Alike a a') (b : Float32) : Alike (a * b) (a' * b) := by
  obtain rfl | ⟨⟨s, hs⟩, t, ht⟩ := h
  · exact .refl _
  · have halike := (alikeUnpacked_zero_mul s t b.toModel.unpack).1
    rw [← hs, ← ht] at halike
    exact halike.pack

theorem alike_mul_right (a : Float32) (h : Alike b b') : Alike (a * b) (a * b') := by
  obtain rfl | ⟨⟨s, hs⟩, t, ht⟩ := h
  · exact .refl _
  · have halike := (alikeUnpacked_zero_mul s t a.toModel.unpack).2
    rw [← hs, ← ht] at halike
    exact halike.pack

theorem alike_div (h : Alike a a') (b : Float32) : Alike (a / b) (a' / b) := by
  obtain rfl | ⟨⟨s, hs⟩, t, ht⟩ := h
  · exact .refl _
  · have halike := alikeUnpacked_zero_div s t b.toModel.unpack
    rw [← hs, ← ht] at halike
    exact halike.pack

theorem AlikeUnpacked.trans_symm {u v w : UnpackedFloat} (hu : AlikeUnpacked u w)
    (hv : AlikeUnpacked v w) : AlikeUnpacked u v := by
  rcases hu with rfl | ⟨hu, s, rfl⟩
  · exact hv.imp Eq.symm And.symm
  · rcases hv with rfl | ⟨hv, -⟩
    · exact .inr ⟨hu, s, rfl⟩
    · exact .inr ⟨hu, hv⟩

theorem alike_add_left (h : Alike a a') (b : Float32) : Alike (a + b) (a' + b) := by
  obtain rfl | ⟨⟨s, hs⟩, t, ht⟩ := h
  · exact .refl _
  · have halike := (alikeUnpacked_zero_add s b.toModel.unpack).1.trans_symm
      (alikeUnpacked_zero_add t b.toModel.unpack).1
    rw [← hs, ← ht] at halike
    exact halike.pack

theorem alike_add_right (a : Float32) (h : Alike b b') : Alike (a + b) (a + b') := by
  obtain rfl | ⟨⟨s, hs⟩, t, ht⟩ := h
  · exact .refl _
  · have halike := (alikeUnpacked_zero_add s a.toModel.unpack).2.trans_symm
      (alikeUnpacked_zero_add t a.toModel.unpack).2
    rw [← hs, ← ht] at halike
    exact halike.pack

theorem alike_add (ha : Alike a a') (hb : Alike b b') : Alike (a + b) (a' + b') :=
  (alike_add_left ha b).trans (alike_add_right a' hb)

theorem alike_neg (h : Alike a a') : Alike (-a) (-a') := by
  obtain rfl | ⟨⟨s, hs⟩, t, ht⟩ := h
  · exact .refl _
  · exact .inr ⟨⟨-s, by rw [unpack_neg, hs]; rfl⟩, -t, by rw [unpack_neg, ht]; rfl⟩

theorem alike_sub (ha : Alike a a') (hb : Alike b b') : Alike (a - b) (a' - b') := by
  rw [Single.sub_eq_add_neg, Single.sub_eq_add_neg]
  exact alike_add ha (alike_neg hb)

/-- A finite single and a zero that is added to it. -/
theorem alike_add_zero (ha : a.isFinite = true) (hb : IsZero b) : Alike (a + b) a := by
  obtain ⟨s, hs⟩ := hb
  have halike := (alikeUnpacked_zero_add s a.toModel.unpack).2.pack
  rw [ofModel_pack_unpack ha, ← hs] at halike
  exact halike

namespace IsZero

theorem isFinite (h : IsZero a) : a.isFinite = true := by
  obtain ⟨s, hs⟩ := h
  show a.toModel.unpack.isFinite = true
  rw [hs]
  rfl

theorem value_eq (h : IsZero a) : value a = 0 := by
  obtain ⟨s, hs⟩ := h
  rw [value, hs, valueOf_zero]

theorem of_alike (h : IsZero b) (hab : Alike a b) : IsZero a := by
  rcases hab with rfl | ⟨ha, -⟩
  · exact h
  · exact ha

theorem neg (h : IsZero a) : IsZero (-a) := by
  obtain ⟨s, hs⟩ := h
  exact ⟨-s, by rw [unpack_neg, hs]; rfl⟩

theorem add (ha : IsZero a) (hb : IsZero b) : IsZero (a + b) :=
  ha.of_alike (alike_add_zero ha.isFinite hb)

theorem le_zero (h : IsZero a) : a ≤ 0 := by
  rw [le_iff_of_alike (.inr ⟨h, isZero_pack .positive⟩) (.refl 0)]
  exact isNumber_of_isFinite rfl

theorem mul_zero (ha : a.isFinite = true) : IsZero (a * 0) := by
  obtain ⟨s, hs, -⟩ := unpack_mul_zero ha
  exact ⟨s, hs⟩

theorem zero_mul (ha : a.isFinite = true) : IsZero (0 * a) := by
  have hmul : (0 : Float32) * a = .ofModel (.pack (mul .binary32 (.zero .positive)
      a.toModel.unpack)) := rfl
  rw [hmul]
  rcases unpack_of_isFinite ha with ⟨s, hu⟩ | ⟨s, m, e, hm, hu⟩ <;> rw [hu] <;> exact isZero_pack _

theorem zero_div (hb : Scalar.IsNumber b) (hzero : ¬ IsZero b) : IsZero (0 / b) := by
  have hdiv : 0 / b = .ofModel (.pack (div .binary32 (.zero .positive) b.toModel.unpack)) := rfl
  rw [isNumber_iff] at hb
  rw [hdiv]
  cases hv : b.toModel.unpack with
  | notANumber => exact absurd hv hb
  | zero s => exact absurd ⟨s, hv⟩ hzero
  | infinity | finite => exact isZero_pack _

end IsZero

theorem Alike.isFinite (h : Alike a b) (hb : b.isFinite = true) : a.isFinite = true := by
  rcases h with rfl | ⟨ha, -⟩
  · exact hb
  · exact ha.isFinite

/-- A finite single and a zero that is taken from it. -/
theorem alike_sub_zero (ha : a.isFinite = true) (hb : IsZero b) : Alike (a - b) a := by
  rw [Single.sub_eq_add_neg]
  exact alike_add_zero ha hb.neg

/-! ### What is not finite -/

/-- A single that is not finite is an infinity or NaN. -/
theorem unpack_of_not_isFinite (ha : ¬ a.isFinite = true) :
    (∃ s, a.toModel.unpack = .infinity s) ∨ a.toModel.unpack = .notANumber := by
  replace ha : ¬ a.toModel.unpack.isFinite = true := ha
  cases hu : a.toModel.unpack with
  | infinity s => exact .inl ⟨s, rfl⟩
  | notANumber => exact .inr rfl
  | zero | finite =>
    rw [hu] at ha
    exact absurd rfl ha

theorem unpack_pack_of_not_isFinite {u : UnpackedFloat} (hu : ¬ u.isFinite = true) :
    (Float32.ofModel (.pack u)).toModel.unpack = u := by
  cases u with
  | infinity s => cases s <;> rfl
  | notANumber => rfl
  | zero | finite => exact absurd rfl hu

theorem not_isFinite_pack {u : UnpackedFloat} (hu : ¬ u.isFinite = true) :
    ¬ (Float32.ofModel (.pack u)).isFinite = true := by
  show ¬ (Float32.ofModel (.pack u)).toModel.unpack.isFinite = true
  rwa [unpack_pack_of_not_isFinite hu]

/-- What is not finite stays so when something is added to it. -/
theorem not_isFinite_add (ha : ¬ a.isFinite = true) (b : Float32) : ¬ (a + b).isFinite = true := by
  refine not_isFinite_pack (u := add .binary32 a.toModel.unpack b.toModel.unpack) ?_
  rcases unpack_of_not_isFinite ha with ⟨s, hu⟩ | hu <;> rw [hu] <;>
  rcases b.toModel.unpack with t | _ | t | _
  case inl.infinity => cases s <;> cases t <;> decide
  all_goals exact Bool.false_ne_true

theorem not_isFinite_add_right (a : Float32) (hb : ¬ b.isFinite = true) :
    ¬ (a + b).isFinite = true := by
  refine not_isFinite_pack (u := add .binary32 a.toModel.unpack b.toModel.unpack) ?_
  rcases unpack_of_not_isFinite hb with ⟨s, hv⟩ | hv <;> rw [hv] <;>
  rcases a.toModel.unpack with t | _ | t | _
  case inl.infinity => cases s <;> cases t <;> decide
  all_goals exact Bool.false_ne_true

theorem not_isFinite_sub (ha : ¬ a.isFinite = true) (b : Float32) :
    ¬ (a - b).isFinite = true := by
  rw [Single.sub_eq_add_neg]
  exact not_isFinite_add ha _

/-- What is not finite stays so when it is multiplied. -/
theorem not_isFinite_mul (ha : ¬ a.isFinite = true) (b : Float32) : ¬ (a * b).isFinite = true := by
  refine not_isFinite_pack (u := mul .binary32 a.toModel.unpack b.toModel.unpack) ?_
  rcases unpack_of_not_isFinite ha with ⟨s, hu⟩ | hu <;> rw [hu] <;>
  rcases b.toModel.unpack with t | _ | t | _ <;> exact Bool.false_ne_true

/-- The square root of what is not finite is the positive infinity or NaN. -/
theorem sqrt_of_not_isFinite (ha : ¬ a.isFinite = true) :
    a.sqrt.toModel.unpack = .infinity .positive ∨ a.sqrt.toModel.unpack = .notANumber := by
  show (Float32.ofModel (.pack (sqrt .binary32 a.toModel.unpack))).toModel.unpack = _ ∨
    (Float32.ofModel (.pack (sqrt .binary32 a.toModel.unpack))).toModel.unpack = _
  rcases unpack_of_not_isFinite ha with ⟨_ | _, hu⟩ | hu <;> rw [hu]
  · exact .inr rfl
  · exact .inl rfl
  · exact .inr rfl

theorem not_isFinite_sqrt (ha : ¬ a.isFinite = true) : ¬ a.sqrt.isFinite = true := by
  show ¬ a.sqrt.toModel.unpack.isFinite = true
  rcases sqrt_of_not_isFinite ha with h | h <;> rw [h] <;> exact Bool.false_ne_true

theorem not_sqrt_lt_one (ha : ¬ a.isFinite = true) : ¬ a.sqrt < 1 := by
  have hone : place 1 = some (toLex (1, toLex (-23, 2 ^ 23))) := by decide +kernel
  rw [lt_iff, hone, place]
  rcases sqrt_of_not_isFinite ha with h | h <;> simp [h, rank, Prod.Lex.toLex_lt_toLex]

/-- What is not finite has no positive reciprocal. -/
theorem not_pos_one_div (ha : ¬ a.isFinite = true) : ¬ 0 < 1 / a := by
  have hone : (1 : Float32).toModel.unpack = .finite .positive (2 ^ 23) (-23) (by decide) := rfl
  have hdiv : 1 / a =
      .ofModel (.pack (div .binary32 (1 : Float32).toModel.unpack a.toModel.unpack)) := rfl
  rw [hdiv, hone]
  rcases unpack_of_not_isFinite ha with ⟨_ | _, hu⟩ | hu <;> rw [hu] <;> decide +kernel

/-! ### What is not negative -/

/-- A single that is not negative is a finite one with such a value, or the positive infinity. -/
theorem nonneg_iff :
    0 ≤ a ↔ (a.isFinite = true ∧ 0 ≤ value a) ∨ a.toModel.unpack = .infinity .positive := by
  by_cases ha : a.isFinite = true
  · rw [le_iff_value rfl ha, value_zero]
    refine ⟨fun h => .inl ⟨ha, h⟩, ?_⟩
    rintro (⟨-, h⟩ | hu)
    · exact h
    · replace ha : a.toModel.unpack.isFinite = true := ha
      rw [hu] at ha
      cases ha
  · rw [le_iff, place_zero, place]
    rcases unpack_of_not_isFinite ha with ⟨_ | _, hu⟩ | hu <;>
    simp [hu, rank, ha, Prod.Lex.toLex_le_toLex]

/-- A rounded number that is not negative. -/
theorem Rounds.zero_le {x : ℝ} (h : Rounds x a) (hx : 0 ≤ x) : 0 ≤ a := by
  rw [nonneg_iff]
  have hvalue := h.nonneg hx
  obtain ⟨s, y, r, t, hpos, rfl, hnearest, ⟨ha, -⟩ | ⟨hinfinite, hlarge⟩⟩ := h
  · exact .inl ⟨ha, hvalue⟩
  · cases s
    · -- only zero is not negative and has the negative sign, and zero is not rounded
      have hle := hnearest.eq_zero (le_antisymm (neg_nonneg.1 hx) hpos)
      rw [hle] at hlarge
      norm_num at hlarge
    · exact .inr hinfinite

/-- A rounded number that is not positive. -/
theorem Rounds.not_pos {x : ℝ} (h : Rounds x a) (hx : x ≤ 0) : ¬ 0 < a := by
  intro ha
  obtain ⟨s, y, r, t, hpos, rfl, hnearest, ⟨hfinite, hvalue⟩ | ⟨hinfinite, hlarge⟩⟩ := h
  · rw [lt_iff_value rfl hfinite, value_zero, hvalue] at ha
    cases s
    · have hpoint : (0 : ℝ) ≤ r * 2 ^ t := mul_nonneg r.cast_nonneg (zpow_pos two_pos t).le
      exact absurd ha (neg_nonpos.2 hpoint).not_gt
    · rw [signed, hnearest.eq_zero (le_antisymm hx hpos)] at ha
      exact lt_irrefl 0 ha
  · cases s
    · rcases nonneg_iff.1 (Scalar.Lawful.le_of_lt ha) with ⟨hfinite, -⟩ | hpositive
      · replace hfinite : a.toModel.unpack.isFinite = true := hfinite
        rw [hinfinite] at hfinite
        cases hfinite
      · cases hinfinite.symm.trans hpositive
    · rw [hnearest.eq_zero (le_antisymm hx hpos)] at hlarge
      norm_num at hlarge

theorem unpack_pack_infinity (s : Sign) :
    (Float32.ofModel (.pack (.infinity s))).toModel.unpack = .infinity s := by
  cases s <;> rfl

theorem add_zero_le (ha : 0 ≤ a) (hb : 0 ≤ b) : 0 ≤ a + b := by
  have hinfinite (h : add .binary32 a.toModel.unpack b.toModel.unpack = .infinity .positive) :
      0 ≤ a + b := by
    refine nonneg_iff.2 (.inr ?_)
    show (Float32.ofModel (.pack (add .binary32 _ _))).toModel.unpack = _
    rw [h, unpack_pack_infinity]
  rcases nonneg_iff.1 ha with ⟨ha', hvalue⟩ | hu <;>
  rcases nonneg_iff.1 hb with ⟨hb', hvalue'⟩ | hv
  · exact (rounds_add ha' hb').zero_le (add_nonneg hvalue hvalue')
  · refine hinfinite ?_
    rw [hv]
    rcases unpack_of_isFinite ha' with ⟨s, hu⟩ | ⟨s, m, e, hm, hu⟩ <;> rw [hu] <;> rfl
  · refine hinfinite ?_
    rw [hu]
    rcases unpack_of_isFinite hb' with ⟨s, hv⟩ | ⟨s, m, e, hm, hv⟩ <;> rw [hv] <;> rfl
  · refine hinfinite ?_
    rw [hu, hv]
    rfl

theorem sqrt_zero_le (ha : 0 ≤ a) : 0 ≤ a.sqrt := by
  rcases nonneg_iff.1 ha with ⟨ha', hvalue⟩ | hu
  · exact (rounds_sqrt ha' hvalue).zero_le (Real.sqrt_nonneg _)
  · have hsqrt : a.sqrt = .ofModel (.pack (sqrt .binary32 a.toModel.unpack)) := rfl
    rw [nonneg_iff, hsqrt, hu]
    exact .inr rfl

/-- A product of singles that are not negative is not negative either, or NaN. -/
theorem mul_zero_le (ha : 0 ≤ a) (hb : 0 ≤ b) : 0 ≤ a * b ∨ ¬ Scalar.IsNumber (a * b) := by
  have hpack {u : UnpackedFloat} (hu : ¬ u.isFinite = true)
      (h : mul .binary32 a.toModel.unpack b.toModel.unpack = u) : (a * b).toModel.unpack = u := by
    rw [← unpack_pack_of_not_isFinite hu, ← h]
    rfl
  have hnan (h : mul .binary32 a.toModel.unpack b.toModel.unpack = .notANumber) :
      ¬ Scalar.IsNumber (a * b) :=
    fun hnumber => (isNumber_iff _).1 hnumber (hpack Bool.false_ne_true h)
  have hinfinite (h : mul .binary32 a.toModel.unpack b.toModel.unpack = .infinity .positive) :
      0 ≤ a * b := nonneg_iff.2 (.inr (hpack Bool.false_ne_true h))
  -- a value that is not negative has the positive sign, unless it is zero
  have hsign {s : Sign} {m : ℕ} {e : ℤ} {hm : 0 < m} (h : 0 ≤ valueOf (.finite s m e hm)) :
      s = .positive := by
    cases s
    · have hpos : (0 : ℝ) < m * 2 ^ e := mul_pos (mod_cast hm) (zpow_pos two_pos e)
      exact absurd (neg_nonneg.1 h) hpos.not_ge
    · rfl
  rcases nonneg_iff.1 ha with ⟨ha', hvalue⟩ | hu <;>
  rcases nonneg_iff.1 hb with ⟨hb', hvalue'⟩ | hv
  · exact .inl ((rounds_mul ha' hb').zero_le (mul_nonneg hvalue hvalue'))
  · rcases unpack_of_isFinite ha' with ⟨s, hu⟩ | ⟨s, m, e, hm, hu⟩
    · exact .inr (hnan (by rw [hu, hv]; rfl))
    · rw [value, hu] at hvalue
      obtain rfl := hsign hvalue
      exact .inl (hinfinite (by rw [hu, hv]; rfl))
  · rcases unpack_of_isFinite hb' with ⟨s, hv⟩ | ⟨s, m, e, hm, hv⟩
    · exact .inr (hnan (by rw [hu, hv]; rfl))
    · rw [value, hv] at hvalue'
      obtain rfl := hsign hvalue'
      exact .inl (hinfinite (by rw [hu, hv]; rfl))
  · exact .inl (hinfinite (by rw [hu, hv]; rfl))

theorem not_isNumber_mul (ha : ¬ Scalar.IsNumber a) (b : Float32) :
    ¬ Scalar.IsNumber (a * b) := by
  have hmul : mul .binary32 .notANumber b.toModel.unpack = .notANumber := rfl
  rw [isNumber_iff, not_not] at ha ⊢
  show (Float32.ofModel (.pack (mul .binary32 a.toModel.unpack _))).toModel.unpack = _
  rw [ha, hmul]
  rfl

/-- The single is not negative, or NaN. -/
def Upward (a : Float32) : Prop := 0 ≤ a ∨ ¬ Scalar.IsNumber a

theorem Upward.mul (ha : Upward a) (hb : 0 ≤ b) : Upward (a * b) := by
  rcases ha with ha | ha
  · exact mul_zero_le ha hb
  · exact .inr (not_isNumber_mul ha b)

theorem lt_of_infinity (ha : a.isFinite = true) (hb : b.toModel.unpack = .infinity .positive) :
    a < b := by
  rw [lt_iff, place, place, hb]
  rcases unpack_of_isFinite ha with ⟨s, hu⟩ | ⟨_ | _, m, e, hm, hu⟩ <;>
  simp [hu, rank, Prod.Lex.toLex_lt_toLex]

/-- What is not negative and below a finite single is finite. -/
theorem isFinite_of_lt (ha : 0 ≤ a) (hb : b.isFinite = true) (h : a < b) : a.isFinite = true := by
  rcases nonneg_iff.1 ha with ⟨ha', -⟩ | hu
  · exact ha'
  · exact absurd (lt_of_infinity hb hu) (Scalar.Lawful.not_lt_of_le (Scalar.Lawful.le_of_lt h))

/-- Taking away what is not negative and not finite leaves nothing positive. -/
theorem not_pos_sub (hb : ¬ b.isFinite = true) (hup : Upward b) (a : Float32) : ¬ 0 < a - b := by
  have hresult : sub .binary32 a.toModel.unpack b.toModel.unpack = .infinity .negative ∨
      sub .binary32 a.toModel.unpack b.toModel.unpack = .notANumber := by
    rcases unpack_of_not_isFinite hb with ⟨s, hv⟩ | hv
    · obtain rfl : s = .positive := by
        rcases hup with hpos | hnan
        · rcases nonneg_iff.1 hpos with ⟨hfinite, -⟩ | hv'
          · exact absurd hfinite hb
          · exact UnpackedFloat.infinity.inj (hv.symm.trans hv')
        · rw [isNumber_iff, hv] at hnan
          exact absurd nofun hnan
      rw [hv]
      rcases a.toModel.unpack with _ | _ | _ | _
      case infinity s => cases s <;> [exact .inl rfl; exact .inr rfl]
      case notANumber => exact .inr rfl
      all_goals exact .inl rfl
    · rw [hv]
      rcases a.toModel.unpack with _ | _ | _ | _ <;> exact .inr rfl
  have hsub : a - b = .ofModel (.pack (sub .binary32 a.toModel.unpack b.toModel.unpack)) := rfl
  rw [hsub]
  rcases hresult with h | h <;> rw [h] <;> decide +kernel

end Single

end Stride
