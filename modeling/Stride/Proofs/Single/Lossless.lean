import Stride.Proofs.Single.Pattern

namespace Stride

/-!
# Arithmetic without loss

Some operations on singles need no rounding.  A finite single times one is itself, bit for bit, and
so is its sum with a multiple of itself by zero, also where it is a zero of either sign.

* `pack_unpack_of_isFinite` — packing undoes unpacking.
* `roundWithAccuracy_exact` — a mantissa that only has too many zeros at its end is not rounded.
* `mul_one`, `add_mul_zero`, `mul_zero_add` — what follows for singles.
-/

namespace Single

open Float.Model (UnpackedFloat Format)
open Float.Model.UnpackedFloat

variable {b : BitVec Format.binary32.numBits} {a : Float32}

/-! ### Packing -/

/-- A pattern is put together from its own parts. -/
theorem packComponents_eq {s : Sign} {e : BitVec 8} {m : BitVec 23}
    (hs : s = Sign.ofBitVec (unpackSign b)) (he : e = unpackExponent b)
    (hm : m = unpackMantissa b) : packComponents .binary32 s e m = b := by
  have hsign (v : BitVec 1) : (Sign.ofBitVec v).toBitVec = v := by
    revert v
    decide
  subst hs he hm
  apply BitVec.eq_of_toNat_eq
  rw [toNat_eq, toNat_eq b, unpackSign_packComponents, unpackExponent_packComponents,
    unpackMantissa_packComponents, hsign]

/-- The leading bit of a mantissa is missing in a subnormal single only. -/
theorem log2_of_unpack_eq_finite {s : Sign} {m : ℕ} {e : ℤ} {hm : 0 < m}
    (hb : unpack .binary32 b = .finite s m e hm) :
    (unpackExponent b = 0#8 → m.log2 < 23) ∧ (unpackExponent b ≠ 0#8 → m.log2 = 23) := by
  have hlt : (unpackMantissa b).toNat < 2 ^ 23 := (unpackMantissa b).isLt
  obtain ⟨-, ⟨hzero, -, hmantissa⟩ | ⟨hzero, -, -, hmantissa⟩⟩ := parts_of_unpack_eq_finite hb
  · refine ⟨fun _ => (Nat.log2_lt hm.ne').2 ?_, fun h => absurd hzero h⟩
    omega
  · refine ⟨fun h => absurd h hzero, fun _ => (Nat.log2_eq_iff hm.ne').2 ?_⟩
    omega

/-- **Packing undoes unpacking.** -/
theorem pack_unpack_of_isFinite (hb : (unpack .binary32 b).isFinite = true) :
    pack .binary32 (unpack .binary32 b) = b := by
  cases hu : unpack .binary32 b with
  | infinity | notANumber =>
    rw [hu] at hb
    cases hb
  | zero s =>
    rw [unpack] at hu
    split_ifs at hu with hfull hempty hzero hnone
    exact packComponents_eq (UnpackedFloat.zero.inj hu).symm hzero.symm hnone.symm
  | finite s m e hm =>
    have hbits : Format.binary32.mantissaBits = 24 := rfl
    obtain ⟨hsubnormal, hnormal⟩ := log2_of_unpack_eq_finite hu
    obtain ⟨hs, ⟨hzero, rfl, hmantissa⟩ | ⟨hzero, hfull, he, hmantissa⟩⟩ :=
      parts_of_unpack_eq_finite hu
    · have hlog := hsubnormal hzero
      rw [pack, if_neg (by decide), if_neg (by omega)]
      refine packComponents_eq hs hzero.symm ?_
      rw [hmantissa, BitVec.ofNat_toNat, BitVec.setWidth_eq]
    · have hlt : (unpackMantissa b).toNat < 2 ^ 23 := (unpackMantissa b).isLt
      have hlog := hnormal hzero
      have hexponent : (e + (Format.binary32.exponentBias : ℕ) +
          (Format.binary32.mantissaBitsWithoutImplicit : ℕ)).toNat = (unpackExponent b).toNat := by
        have hbias : ((Format.binary32.exponentBias : ℕ) : ℤ) = 127 := rfl
        have hwidth : ((Format.binary32.mantissaBitsWithoutImplicit : ℕ) : ℤ) = 23 := rfl
        omega
      -- the exponent is not full, so the value fits
      have hfits : ¬ 2 ^ 8 ≤ (unpackExponent b).toNat + 1 := by
        have hlt : (unpackExponent b).toNat < 2 ^ 8 := (unpackExponent b).isLt
        have hne : (unpackExponent b).toNat ≠ 255 := fun h => hfull (BitVec.eq_of_toNat_eq h)
        omega
      rw [pack, hexponent, if_neg hfits, if_pos (by omega)]
      refine packComponents_eq hs ?_ ?_
      · rw [BitVec.ofNat_toNat, BitVec.setWidth_eq]
      · apply BitVec.eq_of_toNat_eq
        show m % 2 ^ 23 = _
        omega

theorem ofModel_pack_unpack (ha : a.isFinite = true) :
    Float32.ofModel (.pack a.toModel.unpack) = a := by
  apply eq_of_toNat_eq
  show (pack .binary32 (unpack .binary32 a.toModel.toBits.toBitVec)).toNat = _
  rw [pack_unpack_of_isFinite ha]

/-! ### Rounding -/

/-- An unpacked finite value has the exponent that its size asks for. -/
theorem targetExponent_of_unpack_eq_finite {s : Sign} {m : ℕ} {e : ℤ} {hm : 0 < m}
    (hb : unpack .binary32 b = .finite s m e hm) :
    Format.binary32.targetExponent (Float.Model.totalExponent m e) = e := by
  have htarget (t : ℤ) : Format.binary32.targetExponent t = max (t - 24) (-149) := rfl
  obtain ⟨hsubnormal, hnormal⟩ := log2_of_unpack_eq_finite hb
  rw [htarget, Float.Model.totalExponent]
  obtain ⟨-, ⟨hzero, rfl, -⟩ | ⟨hzero, -, he, -⟩⟩ := parts_of_unpack_eq_finite hb
  · have hlog := hsubnormal hzero
    omega
  · have hlog := hnormal hzero
    have hpos : (unpackExponent b).toNat ≠ 0 := fun h => hzero (BitVec.eq_of_toNat_eq h)
    omega

/-- Zeros that are shifted out of a mantissa leave no trace. -/
theorem shiftRight_exact (m k : ℕ) :
    (⟨m * 2 ^ k, false, false⟩ : ExtendedMantissa) >>> k = ⟨m, false, false⟩ := by
  induction k generalizing m with
  | zero =>
    rw [pow_zero, Nat.mul_one]
    rfl
  | succ k ih =>
    have hstep : (⟨m * 2 ^ (k + 1), false, false⟩ : ExtendedMantissa) >>> (k + 1) =
        ((⟨m * 2 * 2 ^ k, false, false⟩ : ExtendedMantissa) >>> k).shiftRightOne := by
      rw [pow_succ', ← mul_assoc]
      rfl
    rw [hstep, ih, ExtendedMantissa.shiftRightOne]
    simp

theorem log2_mul_two_pow {m : ℕ} (hm : 0 < m) (k : ℕ) : (m * 2 ^ k).log2 = m.log2 + k := by
  have hpos : 0 < 2 ^ k := Nat.two_pow_pos k
  rw [Nat.log2_eq_iff (Nat.mul_pos hm hpos).ne', add_right_comm, pow_add, pow_add _ (m.log2 + 1)]
  exact ⟨Nat.mul_le_mul_right _ (Nat.log2_self_le hm.ne'),
    Nat.mul_lt_mul_of_pos_right Nat.lt_log2_self hpos⟩

/-- **Exact results.** A value that has the exponent that its size asks for, but is given by a
    longer mantissa, is not changed by rounding. -/
theorem roundWithAccuracy_exact {s : Sign} {m : ℕ} {e : ℤ} {hm : 0 < m} (k : ℕ)
    (h : Format.binary32.targetExponent (Float.Model.totalExponent m e) = e) :
    roundWithAccuracy .binary32 s (m * 2 ^ k) (e - k) .exact = .finite s m e hm := by
  have htotal (k : ℕ) :
      Float.Model.totalExponent (m * 2 ^ k) (e - k) = Float.Model.totalExponent m e := by
    rw [Float.Model.totalExponent, Float.Model.totalExponent, log2_mul_two_pow hm]
    push_cast
    ring
  have hshift (k : ℕ) : shiftToTargetExponent .binary32 (m * 2 ^ k) (e - k) .exact =
      (⟨m, false, false⟩, e) := by
    have hamount : (e - (e - k)).toNat = k := by omega
    rw [shiftToTargetExponent, htotal, h, shiftToExponent, hamount]
    show ((⟨m * 2 ^ k, false, false⟩ : ExtendedMantissa) >>> k, e - k + k) = _
    rw [shiftRight_exact, sub_add_cancel]
  -- the first shift drops the zeros, and the second one, after rounding, has nothing to do
  have hagain : shiftToTargetExponent .binary32 m e .exact = (⟨m, false, false⟩, e) := by
    simpa using hshift 0
  have hrounded : (⟨m, false, false⟩ : ExtendedMantissa).roundedMantissa = m := rfl
  rw [roundWithAccuracy]
  simp only [hshift, hrounded, hagain, dif_neg hm.ne']

/-! ### Singles -/

/-- A finite single is a zero or has a mantissa. -/
theorem unpack_of_isFinite (ha : a.isFinite = true) :
    (∃ s, a.toModel.unpack = .zero s) ∨ ∃ s m e hm, a.toModel.unpack = .finite s m e hm := by
  replace ha : a.toModel.unpack.isFinite = true := ha
  cases hu : a.toModel.unpack with
  | infinity | notANumber =>
    rw [hu] at ha
    cases ha
  | zero s => exact .inl ⟨s, rfl⟩
  | finite s m e hm => exact .inr ⟨s, m, e, hm, rfl⟩

theorem sign_mul_positive (s : Sign) : s * .positive = s := by cases s <;> rfl

protected theorem mul_one (ha : a.isFinite = true) : a * 1 = a := by
  have hone : (1 : Float32).toModel.unpack = .finite .positive (2 ^ 23) (-23) (by decide) := rfl
  have hmul : mul .binary32 a.toModel.unpack (1 : Float32).toModel.unpack = a.toModel.unpack := by
    rw [hone]
    rcases unpack_of_isFinite ha with ⟨s, hu⟩ | ⟨s, m, e, hm, hu⟩
    · rw [hu, mul, sign_mul_positive]
    · rw [hu, mul, sign_mul_positive]
      exact roundWithAccuracy_exact 23 (targetExponent_of_unpack_eq_finite hu)
  show Float32.ofModel (.pack (mul .binary32 a.toModel.unpack (1 : Float32).toModel.unpack)) = a
  rw [hmul, ofModel_pack_unpack ha]

/-- A finite single times zero is a zero, which has the sign of the single. -/
theorem unpack_mul_zero (ha : a.isFinite = true) :
    ∃ t, (a * 0).toModel.unpack = .zero t ∧ ∀ s, a.toModel.unpack = .zero s → t = s := by
  have hpack (s : Sign) : (Float32.Model.pack (.zero s)).unpack = .zero s := by cases s <;> rfl
  have hmul : (a * 0).toModel = .pack (mul .binary32 a.toModel.unpack (.zero .positive)) := rfl
  rcases unpack_of_isFinite ha with ⟨t, hu⟩ | ⟨t, m, e, hm, hu⟩
  · refine ⟨t, by rw [hmul, hu, mul, sign_mul_positive, hpack], fun s hs => ?_⟩
    exact UnpackedFloat.zero.inj (hu.symm.trans hs)
  · refine ⟨t, by rw [hmul, hu, mul, sign_mul_positive, hpack], fun s hs => ?_⟩
    cases hu.symm.trans hs

/-- A zero adds nothing on either side, if it has the sign of the zero that it is added to. -/
theorem add_zero_of_same {t : Sign} (ha : a.isFinite = true)
    (hsame : ∀ s, a.toModel.unpack = .zero s → t = s) :
    add .binary32 a.toModel.unpack (.zero t) = a.toModel.unpack ∧
      add .binary32 (.zero t) a.toModel.unpack = a.toModel.unpack := by
  rcases unpack_of_isFinite ha with ⟨s, hu⟩ | ⟨s, m, e, hm, hu⟩
  · rw [hu, hsame s hu]
    cases s <;> exact ⟨rfl, rfl⟩
  · rw [hu]
    exact ⟨rfl, rfl⟩

theorem add_mul_zero (ha : a.isFinite = true) : a + a * 0 = a := by
  obtain ⟨t, ht, hsame⟩ := unpack_mul_zero ha
  show Float32.ofModel (.pack (add .binary32 a.toModel.unpack (a * 0).toModel.unpack)) = a
  rw [ht, (add_zero_of_same ha hsame).1, ofModel_pack_unpack ha]

theorem mul_zero_add (ha : a.isFinite = true) : a * 0 + a = a := by
  obtain ⟨t, ht, hsame⟩ := unpack_mul_zero ha
  show Float32.ofModel (.pack (add .binary32 (a * 0).toModel.unpack a.toModel.unpack)) = a
  rw [ht, (add_zero_of_same ha hsame).2, ofModel_pack_unpack ha]

end Single

end Stride
