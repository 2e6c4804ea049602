import Mathlib
import Stride.Proofs.Scalar.Reals
import Stride.Proofs.Single.Lossless

namespace Stride

/-!
# The values of singles

A finite single stands for a real number, its mantissa times a power of two.  Mantissa and exponent
are determined by the number, so that singles compare as their values do.

* `Canonical` — mantissa and exponent as singles have them.
* `unpack_pack_finite` — unpacking undoes packing, where the exponent is not too great.
* `value` — the number that a single stands for.
* `le_iff_value`, `lt_iff_value` — finite singles compare as their values do.
* `value_neg` — the value of a negation.
-/

namespace Single

open Float.Model (UnpackedFloat Format)
open Float.Model.UnpackedFloat

/-! ### Mantissas and exponents -/

/-- Mantissa and exponent as singles have them: the leading digit of the mantissa is missing at the
    least exponent only. -/
structure Canonical (m : ℕ) (e : ℤ) : Prop where
  /-- The mantissa has at most 24 digits. -/
  lt : m < 2 ^ 24
  /-- The exponent is not below the least one. -/
  min : -149 ≤ e
  /-- Above the least exponent the mantissa has all its digits. -/
  full : e = -149 ∨ 2 ^ 23 ≤ m

namespace Canonical

variable {m n : ℕ} {e f : ℤ}

theorem magnitude_lt (h : Canonical m e) : (m : ℝ) * 2 ^ e < 2 ^ (e + 24) := by
  have hlt : (m : ℝ) < 2 ^ 24 := mod_cast h.lt
  rw [zpow_add₀ two_ne_zero, mul_comm]
  exact mul_lt_mul_of_pos_left (mod_cast hlt) (zpow_pos two_pos e)

theorem le_magnitude (h : Canonical m e) (he : e ≠ -149) : (2 : ℝ) ^ (e + 23) ≤ m * 2 ^ e := by
  have hle : (2 : ℝ) ^ 23 ≤ m := mod_cast h.full.resolve_left he
  rw [zpow_add₀ two_ne_zero, mul_comm]
  exact mul_le_mul_of_nonneg_right (mod_cast hle) (zpow_pos two_pos e).le

/-- A smaller exponent makes a smaller number, whatever the mantissas are. -/
theorem magnitude_lt_of_lt (hm : Canonical m e) (hn : Canonical n f) (h : e < f) :
    (m : ℝ) * 2 ^ e < n * 2 ^ f := by
  have hmin := hm.min
  calc (m : ℝ) * 2 ^ e < 2 ^ (e + 24) := hm.magnitude_lt
    _ ≤ 2 ^ (f + 23) := zpow_le_zpow_right₀ one_le_two (by omega)
    _ ≤ n * 2 ^ f := hn.le_magnitude (by omega)

theorem magnitude_lt_iff (hm : Canonical m e) (hn : Canonical n f) :
    (m : ℝ) * 2 ^ e < n * 2 ^ f ↔ e < f ∨ e = f ∧ m < n := by
  rcases lt_trichotomy e f with h | rfl | h
  · exact iff_of_true (hm.magnitude_lt_of_lt hn h) (.inl h)
  · rw [mul_lt_mul_iff_left₀ (zpow_pos two_pos e), Nat.cast_lt]
    simp
  · refine iff_of_false (hn.magnitude_lt_of_lt hm h).not_gt ?_
    omega

end Canonical

variable {b : BitVec Format.binary32.numBits} {s : Sign} {m : ℕ} {e : ℤ} {hm : 0 < m}

theorem canonical_of_unpack (hb : unpack .binary32 b = .finite s m e hm) :
    Canonical m e ∧ e ≤ 104 := by
  have hlt : (unpackMantissa b).toNat < 2 ^ 23 := (unpackMantissa b).isLt
  obtain ⟨-, ⟨-, rfl, hmantissa⟩ | ⟨hzero, hfull, he, hmantissa⟩⟩ := parts_of_unpack_eq_finite hb
  · exact ⟨⟨by omega, le_refl _, .inl rfl⟩, by omega⟩
  · have hexponent : (unpackExponent b).toNat < 2 ^ 8 := (unpackExponent b).isLt
    have hpos : (unpackExponent b).toNat ≠ 0 := fun h => hzero (BitVec.eq_of_toNat_eq h)
    have hne : (unpackExponent b).toNat ≠ 255 := fun h => hfull (BitVec.eq_of_toNat_eq h)
    exact ⟨⟨by omega, by omega, .inr (by omega)⟩, by omega⟩

/-- What a pattern without an exponent stands for, if it has a mantissa. -/
theorem unpack_packComponents_zero (hm : 0 < m) (hlt : m < 2 ^ 23) :
    unpack .binary32 (packComponents .binary32 s 0#8 (.ofNat 23 m)) = .finite s m (-149) hm := by
  have hsign : Sign.ofBitVec s.toBitVec = s := by cases s <;> rfl
  have hmantissa : (BitVec.ofNat 23 m).toNat = m := Nat.mod_eq_of_lt hlt
  have hne : BitVec.ofNat 23 m ≠ 0#23 := fun h0 => by
    rw [h0] at hmantissa
    exact hm.ne hmantissa
  rw [unpack]
  simp only [unpackMantissa_packComponents, unpackExponent_packComponents,
    unpackSign_packComponents, hsign]
  rw [if_neg (by decide), if_pos trivial, dif_neg hne]
  simp only [hmantissa]
  rfl

/-- What a pattern with an exponent stands for, if that is not the greatest one: the leading digit
    of the mantissa is put back. -/
theorem unpack_packComponents_of_pos {k : ℕ} (hm : 0 < m) (hfull : 2 ^ 23 ≤ m) (hlt : m < 2 ^ 24)
    (hk : 0 < k) (hk' : k < 255) :
    unpack .binary32 (packComponents .binary32 s (.ofNat 8 k) (.ofNat 23 m)) =
      .finite s m (k - 150) hm := by
  have hsign : Sign.ofBitVec s.toBitVec = s := by cases s <;> rfl
  have hexponent : (BitVec.ofNat 8 k).toNat = k := Nat.mod_eq_of_lt (by omega)
  have hlast : BitVec.ofNat 8 k ≠ -1#8 := fun h255 => by
    rw [h255] at hexponent
    have : (-1#8).toNat = 255 := rfl
    omega
  have hfirst : BitVec.ofNat 8 k ≠ 0#8 := fun h0 => by
    rw [h0] at hexponent
    have : (0#8).toNat = 0 := rfl
    omega
  have hmantissa : (BitVec.ofNat 23 m).toNat = m - 2 ^ 23 := by
    show m % 2 ^ 23 = _
    omega
  have hwhole : (1#1 ++ BitVec.ofNat 23 m).toNat = m := by
    rw [BitVec.toNat_append, ← Nat.shiftLeft_add_eq_or_of_lt (BitVec.ofNat 23 m).isLt, hmantissa]
    show 1 <<< 23 + _ = _
    omega
  rw [unpack]
  simp only [unpackMantissa_packComponents, unpackExponent_packComponents,
    unpackSign_packComponents, hsign]
  rw [if_neg hlast, if_neg hfirst]
  simp only [hexponent, hwhole]
  rfl

/-- **Unpacking undoes packing** of a finite value whose exponent is not too great. -/
theorem unpack_pack_finite (h : Canonical m e) (he : e ≤ 104) :
    unpack .binary32 (pack .binary32 (.finite s m e hm)) = .finite s m e hm := by
  have hbias : ((Format.binary32.exponentBias : ℕ) : ℤ) = 127 := rfl
  have hwidth : ((Format.binary32.mantissaBitsWithoutImplicit : ℕ) : ℤ) = 23 := rfl
  have hbits : Format.binary32.mantissaBits = 24 := rfl
  have hmin := h.min
  obtain ⟨biased, hbiased⟩ : ∃ k : ℕ, (k : ℤ) = e + 150 := ⟨(e + 150).toNat, by omega⟩
  have hpacked : (e + (Format.binary32.exponentBias : ℕ) +
      (Format.binary32.mantissaBitsWithoutImplicit : ℕ)).toNat = biased := by omega
  rw [pack, hpacked, if_neg (show ¬ 2 ^ 8 ≤ biased + 1 by omega)]
  rcases Nat.lt_or_ge m (2 ^ 23) with hsmall | hlarge
  · have hlog : m.log2 < 23 := (Nat.log2_lt hm.ne').2 hsmall
    obtain rfl : e = -149 := h.full.resolve_right (by omega)
    rw [if_neg (by omega)]
    exact unpack_packComponents_zero hm hsmall
  · have hlog : m.log2 = 23 := (Nat.log2_eq_iff hm.ne').2 ⟨hlarge, h.lt⟩
    obtain rfl : e = biased - 150 := by omega
    rw [if_pos (by omega)]
    exact unpack_packComponents_of_pos hm hlarge h.lt (by omega) (by omega)

/-! ### Values -/

/-- A number with a sign. -/
def signed : Sign → ℝ → ℝ
  | .positive, x => x
  | .negative, x => -x

theorem abs_signed (s : Sign) (x : ℝ) : |signed s x| = |x| := by
  cases s
  · exact abs_neg x
  · rfl

/-- The number that an unpacked single stands for, zero if it is not finite. -/
noncomputable def valueOf : UnpackedFloat → ℝ
  | .finite s m e _ => signed s (m * ((2 : ℕ) : ℝ) ^ e)
  | _ => 0

theorem valueOf_zero (s : Sign) : valueOf (.zero s) = 0 := rfl

theorem valueOf_finite (s : Sign) (m : ℕ) (e : ℤ) (hm : 0 < m) :
    valueOf (.finite s m e hm) = signed s (m * 2 ^ e) := by
  rw [valueOf, Nat.cast_ofNat]

/-- The number that a single stands for, zero if it is not finite. -/
noncomputable def value (a : Float32) : ℝ := valueOf a.toModel.unpack

/-- An unpacked single that is finite. -/
def Proper : UnpackedFloat → Prop
  | .finite _ m e _ => Canonical m e ∧ e ≤ 104
  | .zero _ => True
  | _ => False

theorem proper_of_isFinite {a : Float32} (ha : a.isFinite = true) : Proper a.toModel.unpack := by
  rcases unpack_of_isFinite ha with ⟨s, hu⟩ | ⟨s, m, e, hm, hu⟩
  · rw [hu]
    trivial
  · rw [hu]
    exact canonical_of_unpack hu

/-- The value of a finite single is a mantissa with an exponent and a sign. -/
theorem exists_value_eq {a : Float32} (ha : a.isFinite = true) :
    ∃ s m e, Canonical m e ∧ e ≤ 104 ∧ value a = signed s (m * 2 ^ e) := by
  rcases unpack_of_isFinite ha with ⟨s, hu⟩ | ⟨s, m, e, hm, hu⟩
  · refine ⟨.positive, 0, -149, ⟨by norm_num, le_refl _, .inl rfl⟩, by norm_num, ?_⟩
    rw [value, hu, valueOf_zero, signed, Nat.cast_zero, zero_mul]
  · obtain ⟨hcanonical, he⟩ := canonical_of_unpack hu
    exact ⟨s, m, e, hcanonical, he, by rw [value, hu, valueOf_finite]⟩

/-- A single that is packed from a finite one unpacks to it. -/
theorem unpack_ofModel_pack {u : UnpackedFloat} (hu : Proper u) :
    (Float32.ofModel (.pack u)).toModel.unpack = u := by
  cases u with
  | infinity | notANumber => exact hu.elim
  | zero s => cases s <;> rfl
  | finite s m e hm => exact unpack_pack_finite hu.1 hu.2

/-- **Order.** Finite singles compare as their values do. -/
theorem rank_lt_iff {u v : UnpackedFloat} (hu : Proper u) (hv : Proper v) :
    (∃ x ∈ rank u, ∃ y ∈ rank v, x < y) ↔ valueOf u < valueOf v := by
  have hpos (m : ℕ) (e : ℤ) (hm : 0 < m) : (0 : ℝ) < m * 2 ^ e :=
    mul_pos (mod_cast hm) (zpow_pos two_pos e)
  -- by the signs; two negative numbers compare as their sizes do, the other way round
  rcases u with _ | _ | _ | ⟨_ | _, m, e, hm⟩ <;>
  rcases v with _ | _ | _ | ⟨_ | _, n, f, hn⟩ <;>
  first
  | exact hu.elim
  | exact hv.elim
  | simp only [rank, valueOf_zero, valueOf_finite, signed, Option.mem_some_iff, exists_eq_left',
      Prod.Lex.toLex_lt_toLex]
  case zero.zero => simp
  case zero.finite.negative => simpa using (hpos n f hn).le
  case zero.finite.positive => simpa using hpos n f hn
  case finite.negative.zero => simpa using hpos m e hm
  case finite.positive.zero => simpa using (hpos m e hm).le
  case finite.negative.finite.negative =>
    refine Iff.trans ?_ (neg_lt_neg_iff.trans (hv.1.magnitude_lt_iff hu.1)).symm
    simp
    omega
  case finite.negative.finite.positive =>
    have := hpos m e hm
    have := hpos n f hn
    simp
    linarith
  case finite.positive.finite.negative =>
    have := hpos m e hm
    have := hpos n f hn
    simp
    linarith
  case finite.positive.finite.positive =>
    rw [hu.1.magnitude_lt_iff hv.1]
    simp

variable {a c : Float32}

theorem lt_iff_value (ha : a.isFinite = true) (hc : c.isFinite = true) :
    a < c ↔ value a < value c :=
  (lt_iff a c).trans (rank_lt_iff (proper_of_isFinite ha) (proper_of_isFinite hc))

theorem isNumber_of_isFinite (ha : a.isFinite = true) : Scalar.IsNumber a := by
  rw [isNumber_iff]
  rcases unpack_of_isFinite ha with ⟨s, hu⟩ | ⟨s, m, e, hm, hu⟩ <;> rw [hu] <;> exact nofun

theorem le_iff_value (ha : a.isFinite = true) (hc : c.isFinite = true) :
    a ≤ c ↔ value a ≤ value c := by
  rw [← Scalar.not_lt_iff (isNumber_of_isFinite hc) (isNumber_of_isFinite ha),
    lt_iff_value hc ha, not_lt]

theorem value_of_not_isFinite (ha : ¬ a.isFinite = true) : value a = 0 := by
  rw [value]
  cases hu : a.toModel.unpack with
  | infinity | notANumber => rfl
  | zero | finite =>
    refine absurd ?_ ha
    show a.toModel.unpack.isFinite = true
    rw [hu]
    rfl

theorem value_zero : value 0 = 0 := rfl

theorem value_one : value 1 = 1 := by
  have hone : (1 : Float32).toModel.unpack = .finite .positive (2 ^ 23) (-23) (by decide) := rfl
  rw [value, hone, valueOf_finite, signed]
  norm_num

theorem unpack_neg (a : Float32) : (-a).toModel.unpack = a.toModel.unpack.neg := by
  show (Float32.ofModel (.pack a.toModel.unpack.neg)).toModel.unpack = _
  cases hu : a.toModel.unpack with
  | notANumber => rfl
  | infinity s | zero s => cases s <;> rfl
  | finite s m e hm => exact unpack_ofModel_pack (canonical_of_unpack hu)

theorem isFinite_neg (ha : a.isFinite = true) : (-a).isFinite = true := by
  show (-a).toModel.unpack.isFinite = true
  rw [unpack_neg]
  rcases unpack_of_isFinite ha with ⟨s, hu⟩ | ⟨s, m, e, hm, hu⟩ <;> rw [hu] <;> rfl

theorem value_neg (ha : a.isFinite = true) : value (-a) = -value a := by
  rw [value, unpack_neg, value]
  rcases unpack_of_isFinite ha with ⟨s, hu⟩ | ⟨_ | _, m, e, hm, hu⟩ <;> rw [hu]
  · exact neg_zero.symm
  · exact (neg_neg _).symm
  · rfl

end Single

end Stride
