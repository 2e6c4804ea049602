import Stride.Proofs.Scalar.Exact
import Mathlib.Tactic.Linarith
import Mathlib.Tactic.NormNum
import Mathlib.Tactic.Ring
import Stride.Sweep.Solid

namespace Stride

/-!
# Points on a sweep

In exact arithmetic the gap between a sphere and a plane changes along a sweep at a constant rate.

* `Sweep.at` — the centre at a fraction of the sweep.
* `Sweep.gap` — how far the surface of the sphere is in front of a plane there.
* `Sweep.Enters`, `Sweep.Leaves`, `Sweep.Misses` — how a sweep goes past a plane.
* `enterAt_le_iff`, `le_enterAt_iff`, `le_leaveAt_iff` — what the crossings that the library
  computes mean.
-/

variable {K : Type} [Field K] [LinearOrder K] [HasSqrt K]

/-! ### Interpolation -/

theorem Vec3.lerp_def (v w : Vec3 K) (t : K) :
    v.lerp w t =
      ⟨v.x * (1 - t) + w.x * t, v.y * (1 - t) + w.y * t, v.z * (1 - t) + w.z * t⟩ := rfl

theorem distanceTo_lerp (p : Plane K) (v w : Vec3 K) (t : K) :
    p.distanceTo (v.lerp w t) = p.distanceTo v + (p.distanceTo w - p.distanceTo v) * t := by
  simp only [Plane.distanceTo, Vec3.dot, Vec3.lerp_def]
  ring

/-- The centre of the sphere at a fraction of a sweep. -/
def Sweep.at (s : Sweep K) (t : K) : Vec3 K := s.start.lerp s.finish t

/-- How far the surface of the sphere is in front of a plane at a fraction of a sweep. -/
def Sweep.gap (s : Sweep K) (p : Plane K) (t : K) : K := p.distanceTo (s.at t) - s.radius

namespace Sweep

variable {s : Sweep K} {p : Plane K} {t : K}

@[simp] theorem at_zero (s : Sweep K) : s.at 0 = s.start := by
  simp [Sweep.at, Vec3.lerp_def]

@[simp] theorem at_one (s : Sweep K) : s.at 1 = s.finish := by
  simp [Sweep.at, Vec3.lerp_def]

/-- A point between two points of a sweep is a point of the sweep. -/
theorem lerp_at (s : Sweep K) (a b u : K) :
    (s.at a).lerp (s.at b) u = s.at (Scalar.mix a b u) := by
  simp only [Sweep.at, Vec3.lerp_def, Scalar.mix, Vec3.mk.injEq]
  refine ⟨?_, ?_, ?_⟩ <;> ring

theorem gap_eq (s : Sweep K) (p : Plane K) (t : K) :
    s.gap p t = s.startGap p + (s.endGap p - s.startGap p) * t := by
  simp only [gap, startGap, endGap, Sweep.at, distanceTo_lerp]
  ring

@[simp] theorem gap_zero (s : Sweep K) (p : Plane K) : s.gap p 0 = s.startGap p := by
  rw [gap, at_zero, startGap]

@[simp] theorem gap_one (s : Sweep K) (p : Plane K) : s.gap p 1 = s.endGap p := by
  rw [gap, at_one, endGap]

/-! ### Crossings -/

/-- Start and end are in front of the plane. -/
def Misses (s : Sweep K) (p : Plane K) : Prop := 0 < s.startGap p ∧ 0 < s.endGap p

/-- The start is in front of the plane and the end is not. -/
def Enters (s : Sweep K) (p : Plane K) : Prop := 0 < s.startGap p ∧ s.endGap p ≤ 0

/-- The end is in front of the plane and the start is not. -/
def Leaves (s : Sweep K) (p : Plane K) : Prop := s.startGap p ≤ 0 ∧ 0 < s.endGap p

/-- Where an entering sweep counts as behind the plane: `traceOffset` before it is. -/
def enterAt (s : Sweep K) (p : Plane K) : K :=
  (s.startGap p - traceOffset) / (s.startGap p - s.endGap p)

/-- Where a leaving sweep counts as in front of the plane: `traceOffset` before it is. -/
def leaveAt (s : Sweep K) (p : Plane K) : K :=
  (s.startGap p + traceOffset) / (s.startGap p - s.endGap p)

/-- A sweep misses a plane, stays behind it, enters or leaves. -/
theorem crossing_cases (s : Sweep K) (p : Plane K) :
    s.Misses p ∨ (s.startGap p ≤ 0 ∧ s.endGap p ≤ 0) ∨ s.Enters p ∨ s.Leaves p := by
  rcases lt_or_ge 0 (s.startGap p) with hs | hs <;> rcases lt_or_ge 0 (s.endGap p) with he | he
  · exact .inl ⟨hs, he⟩
  · exact .inr (.inr (.inl ⟨hs, he⟩))
  · exact .inr (.inr (.inr ⟨hs, he⟩))
  · exact .inr (.inl ⟨hs, he⟩)

theorem Enters.not_misses (h : s.Enters p) : ¬ s.Misses p := fun hm => not_lt.2 h.2 hm.2

theorem Leaves.not_misses (h : s.Leaves p) : ¬ s.Misses p := fun hm => not_lt.2 h.1 hm.1

variable [IsStrictOrderedRing K]

theorem traceOffset_eq : (traceOffset : K) = 1 / 32 := by
  norm_num [traceOffset]

theorem traceOffset_pos : (0 : K) < traceOffset := by
  rw [traceOffset_eq]
  norm_num

/-- From its entry on, and only there, an entering sweep is at most `traceOffset` in front. -/
theorem Enters.enterAt_le_iff (h : s.Enters p) : s.enterAt p ≤ t ↔ s.gap p t ≤ traceOffset := by
  have hpos : 0 < s.startGap p - s.endGap p := by linarith [h.1, h.2]
  rw [enterAt, div_le_iff₀ hpos, gap_eq]
  constructor <;> intro h <;> linarith

/-- Up to its entry, and only there, an entering sweep is at least `traceOffset` in front. -/
theorem Enters.le_enterAt_iff (h : s.Enters p) : t ≤ s.enterAt p ↔ traceOffset ≤ s.gap p t := by
  have hpos : 0 < s.startGap p - s.endGap p := by linarith [h.1, h.2]
  rw [enterAt, le_div_iff₀ hpos, gap_eq]
  constructor <;> intro h <;> linarith

/-- An entry comes before the end. -/
theorem Enters.enterAt_lt_one (h : s.Enters p) : s.enterAt p < 1 := by
  by_contra hge
  have hgap := h.le_enterAt_iff.1 (not_lt.1 hge)
  rw [gap_one] at hgap
  linarith [h.2, traceOffset_pos (K := K)]

/-- Up to its exit, and only there, a leaving sweep is at least `traceOffset` behind. -/
theorem Leaves.le_leaveAt_iff (h : s.Leaves p) : t ≤ s.leaveAt p ↔ s.gap p t ≤ -traceOffset := by
  have hneg : s.startGap p - s.endGap p < 0 := by linarith [h.1, h.2]
  rw [leaveAt, le_div_iff_of_neg hneg, gap_eq]
  constructor <;> intro h <;> linarith

/-- Between two points of a sweep that are behind a plane the sweep is behind it. -/
theorem gap_nonpos (hs : s.startGap p ≤ 0) (he : s.endGap p ≤ 0) (h0 : 0 ≤ t) (h1 : t ≤ 1) :
    s.gap p t ≤ 0 := by
  have hstart : s.startGap p * (1 - t) ≤ 0 :=
    mul_nonpos_of_nonpos_of_nonneg hs (by linarith)
  have hend : s.endGap p * t ≤ 0 := mul_nonpos_of_nonpos_of_nonneg he h0
  rw [gap_eq]
  linarith

/-- Between two points of a sweep that are in front of a plane the sweep is in front of it. -/
theorem Misses.gap_pos (h : s.Misses p) (h0 : 0 ≤ t) (h1 : t ≤ 1) : 0 < s.gap p t := by
  have hmix : s.gap p t = s.startGap p * (1 - t) + s.endGap p * t := by
    rw [gap_eq]
    ring
  rw [hmix]
  rcases eq_or_lt_of_le h0 with rfl | hpos
  · simpa using h.1
  · exact add_pos_of_nonneg_of_pos (mul_nonneg h.1.le (sub_nonneg.2 h1)) (mul_pos h.2 hpos)

end Sweep

end Stride
