import Mathlib
import Stride.Proofs.Single.Order

namespace Stride

/-!
# The patterns of positive singles

A positive single is determined by its place in the order: the pattern of bits, read as a number, is
computed from the exponent and the mantissa.  So positive singles that are equal as numbers are the
same single, which fails of zeros alone.

* `toNat_eq` — the three parts of a pattern.
* `parts_of_unpack_eq_finite` — the parts of a pattern that stands for a finite value.
* `toNat_of_unpack_eq_finite`, `toNat_of_unpack_eq_infinity` — the pattern of a positive single.
* `Single.eq_of_le_of_le` — positive singles are equal if they are equal as numbers.
* `Single.not_lt_neg` — a single that is not negative is not below its negation.
-/

namespace Single

open Float.Model (UnpackedFloat Format)
open Float.Model.UnpackedFloat

variable {b : BitVec Format.binary32.numBits}

/-- A pattern is its sign, exponent and mantissa, one after the other. -/
theorem toNat_eq (b : BitVec Format.binary32.numBits) :
    b.toNat = (unpackSign b).toNat * 2 ^ 31 + (unpackExponent b).toNat * 2 ^ 23 +
      (unpackMantissa b).toNat := by
  have hb : b.toNat < 2 ^ 32 := b.isLt
  have hsign : (unpackSign b).toNat = b.toNat / 2 ^ 31 % 2 := by
    simp [unpackSign, BitVec.extractLsb, Nat.shiftRight_eq_div_pow]
  have hexponent : (unpackExponent b).toNat = b.toNat / 2 ^ 23 % 2 ^ 8 := by
    simp [unpackExponent, BitVec.extractLsb, Nat.shiftRight_eq_div_pow]
  have hmantissa : (unpackMantissa b).toNat = b.toNat % 2 ^ 23 := by
    simp [unpackMantissa, BitVec.extractLsb, Nat.shiftRight_eq_div_pow]
  omega

theorem toNat_eq_zero_of_positive {v : BitVec 1} (h : Sign.ofBitVec v = .positive) :
    v.toNat = 0 := by
  rw [Sign.ofBitVec] at h
  split_ifs at h with hv
  rw [hv]
  rfl

/-- The parts of a pattern that stands for a finite value: a subnormal one has the least exponent
    and no leading bit, and the others have neither an empty nor a full exponent. -/
theorem parts_of_unpack_eq_finite {s : Sign} {m : ℕ} {e : ℤ} {hm : 0 < m}
    (hb : unpack .binary32 b = .finite s m e hm) :
    s = Sign.ofBitVec (unpackSign b) ∧
      ((unpackExponent b = 0#8 ∧ e = -149 ∧ m = (unpackMantissa b).toNat) ∨
        (unpackExponent b ≠ 0#8 ∧ unpackExponent b ≠ 255#8 ∧
          e = (unpackExponent b).toNat - 150 ∧ m = 2 ^ 23 + (unpackMantissa b).toNat)) := by
  have hbias : ((Format.binary32.exponentBias : ℕ) : ℤ) = 127 := rfl
  have hwidth : ((Format.binary32.mantissaBitsWithoutImplicit : ℕ) : ℤ) = 23 := rfl
  rw [unpack] at hb
  split_ifs at hb with hfull hempty hzero hnone
  · obtain ⟨hsign, hmantissa, hexponent⟩ := UnpackedFloat.finite.inj hb
    refine ⟨hsign.symm, .inl ⟨hzero, ?_, hmantissa.symm⟩⟩
    rw [hzero, hbias, hwidth] at hexponent
    exact hexponent.symm
  · obtain ⟨hsign, hmantissa, hexponent⟩ := UnpackedFloat.finite.inj hb
    refine ⟨hsign.symm, .inr ⟨hzero, hfull, ?_, ?_⟩⟩
    · rw [← hexponent, hbias, hwidth]
      rfl
    · rw [← hmantissa, BitVec.toNat_append,
        ← Nat.shiftLeft_add_eq_or_of_lt (unpackMantissa b).isLt]
      rfl

/-- The pattern of a positive finite single: the exponent counts steps of the mantissa's range. -/
theorem toNat_of_unpack_eq_finite {m : ℕ} {e : ℤ} {hm : 0 < m}
    (hb : unpack .binary32 b = .finite .positive m e hm) :
    (b.toNat : ℤ) = (e + 149) * 2 ^ 23 + m := by
  have hparts := toNat_eq b
  obtain ⟨hsign, ⟨hzero, he, hmantissa⟩ | ⟨-, -, he, hmantissa⟩⟩ := parts_of_unpack_eq_finite hb
  · have hs := toNat_eq_zero_of_positive hsign.symm
    have hz : (unpackExponent b).toNat = 0 := by rw [hzero]; rfl
    omega
  · have hs := toNat_eq_zero_of_positive hsign.symm
    omega

theorem toNat_of_unpack_eq_infinity (hb : unpack .binary32 b = .infinity .positive) :
    b.toNat = 255 * 2 ^ 23 := by
  have hparts := toNat_eq b
  rw [unpack] at hb
  split_ifs at hb with hfull hempty
  have hs := toNat_eq_zero_of_positive (UnpackedFloat.infinity.inj hb)
  rw [hs, hfull, hempty] at hparts
  exact hparts

/-- A positive single is a positive finite one or the positive infinity. -/
theorem unpack_of_pos {a : Float32} (ha : 0 < a) :
    (∃ m e hm, a.toModel.unpack = .finite .positive m e hm) ∨
      a.toModel.unpack = .infinity .positive := by
  obtain ⟨x, hx, y, hy, hxy⟩ := (lt_iff 0 a).1 ha
  obtain rfl : toLex (0, toLex (0, 0)) = x := Option.some.inj (place_zero.symm.trans hx)
  rw [place] at hy
  rcases hu : a.toModel.unpack with (_ | _) | _ | _ | ⟨_ | _, m, e, hm⟩ <;> rw [hu] at hy
  case finite.positive => exact .inl ⟨m, e, hm, rfl⟩
  case infinity.positive => exact .inr rfl
  case notANumber => cases hy
  -- the others have a place that is not after zero
  all_goals
    obtain rfl := Option.some.inj hy
    simp [Prod.Lex.toLex_lt_toLex] at hxy

theorem place_eq_of_le_of_le {a b : Float32} (hab : a ≤ b) (hba : b ≤ a) : place a = place b := by
  obtain ⟨x, hx, y, hy, hxy⟩ := (le_iff a b).1 hab
  obtain ⟨y', hy', x', hx', hyx⟩ := (le_iff b a).1 hba
  obtain rfl := Option.mem_unique hx hx'
  obtain rfl := Option.mem_unique hy hy'
  obtain rfl := le_antisymm hxy hyx
  exact hx.trans hy.symm

/-- Singles with the same pattern are the same. -/
theorem eq_of_toNat_eq {a b : Float32}
    (h : a.toModel.toBits.toBitVec.toNat = b.toModel.toBits.toBitVec.toNat) : a = b := by
  obtain ⟨⟨⟨bits⟩, valid⟩⟩ := a
  obtain ⟨⟨⟨bits'⟩, valid'⟩⟩ := b
  obtain rfl : bits = bits' := BitVec.eq_of_toNat_eq h
  rfl

/-- **Positive singles** that are equal as numbers are the same. -/
theorem eq_of_le_of_le {a b : Float32} (ha : 0 < a) (hab : a ≤ b) (hba : b ≤ a) : a = b := by
  have hb : 0 < b := Scalar.lt_of_lt_of_le ha hab
  have hplace := place_eq_of_le_of_le hab hba
  rw [place, place] at hplace
  apply eq_of_toNat_eq
  rcases unpack_of_pos ha with ⟨m, e, hm, hua⟩ | hua <;>
  rcases unpack_of_pos hb with ⟨m', e', hm', hub⟩ | hub <;>
  rw [hua, hub] at hplace
  · -- finite ones of one place have the same exponent and mantissa
    obtain ⟨rfl, hmantissa⟩ : e = e' ∧ (m : ℤ) = m' := by simpa [rank] using hplace
    have hna := toNat_of_unpack_eq_finite hua
    rw [hmantissa, ← toNat_of_unpack_eq_finite hub] at hna
    exact Int.ofNat_inj.1 hna
  · simp [rank] at hplace
  · simp [rank] at hplace
  · exact (toNat_of_unpack_eq_infinity hua).trans (toNat_of_unpack_eq_infinity hub).symm

/-! ### Negation -/

theorem unpackSign_packComponents {spec : Format} (s : Sign) (e : BitVec spec.exponentBits)
    (m : BitVec spec.mantissaBitsWithoutImplicit) :
    unpackSign (packComponents spec s e m) = s.toBitVec := by
  refine BitVec.eq_of_getLsbD_eq fun i hi => ?_
  obtain rfl : i = 0 := by omega
  simp [unpackSign, packComponents, BitVec.getLsbD_append, BitVec.getElem_append]

/-- The sign of a pattern that is put together from its parts. -/
theorem sign_packComponents {spec : Format} (s : Sign) (e : BitVec spec.exponentBits)
    (m : BitVec spec.mantissaBitsWithoutImplicit) :
    Sign.ofBitVec (unpackSign (packComponents spec s e m)) = s := by
  rw [unpackSign_packComponents]
  cases s <;> rfl

/-- Packing keeps the sign of a finite value, also where the value is too large and is packed as an
    infinity. -/
theorem sign_pack_finite (s : Sign) (m : ℕ) (e : ℤ) (hm : 0 < m) :
    Sign.ofBitVec (unpackSign (pack .binary32 (.finite s m e hm))) = s := by
  rw [pack]
  split_ifs <;> exact sign_packComponents s _ _

theorem sign_of_unpack_eq_finite {s : Sign} {m : ℕ} {e : ℤ} {hm : 0 < m}
    (hb : unpack .binary32 b = .finite s m e hm) : Sign.ofBitVec (unpackSign b) = s :=
  (parts_of_unpack_eq_finite hb).1.symm

theorem sign_of_unpack_eq_infinity {s : Sign} (hb : unpack .binary32 b = .infinity s) :
    Sign.ofBitVec (unpackSign b) = s := by
  rw [unpack] at hb
  split_ifs at hb
  exact UnpackedFloat.infinity.inj hb

/-- What is packed with the negative sign is not positive. -/
theorem not_pos_pack {u : UnpackedFloat}
    (h : Sign.ofBitVec (unpackSign (pack .binary32 u)) = .negative) :
    ¬ (0 : Float32) < .ofModel (Float32.Model.pack u) := by
  intro hpos
  rcases unpack_of_pos hpos with ⟨m, e, hm, hu⟩ | hu
  · cases h.symm.trans (sign_of_unpack_eq_finite hu)
  · cases h.symm.trans (sign_of_unpack_eq_infinity hu)

/-- The negation of a positive single, or of a zero, is not positive. -/
theorem not_pos_neg {a : Float32} (ha : 0 ≤ a) : ¬ 0 < -a := by
  show ¬ (0 : Float32) < .ofModel (Float32.Model.pack a.toModel.unpack.neg)
  obtain ⟨x, hx, y, hy, hxy⟩ := (le_iff 0 a).1 ha
  obtain rfl : toLex (0, toLex (0, 0)) = x := Option.some.inj (place_zero.symm.trans hx)
  rw [place] at hy
  rcases hu : a.toModel.unpack with (_ | _) | _ | s | ⟨_ | _, m, e, hm⟩ <;> rw [hu] at hy
  case finite.positive => exact not_pos_pack (sign_pack_finite .negative m e hm)
  case infinity.positive => exact not_pos_pack rfl
  case zero => cases s <;> decide +kernel
  case notANumber => cases hy
  -- the others have a place before zero
  all_goals
    obtain rfl := Option.some.inj hy
    simp [Prod.Lex.toLex_le_toLex] at hxy

/-- A single that is not negative is not below its negation. -/
theorem not_lt_neg {a : Float32} (ha : 0 ≤ a) : ¬ a < -a := fun hlt =>
  not_pos_neg ha (Scalar.lt_of_le_of_lt ha hlt)

end Single

end Stride
