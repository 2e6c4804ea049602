import Stride.Proofs.Sweep.Path
import Stride.Sweep.Split

namespace Stride

/-!
# Splitting loses nothing

In exact arithmetic the parts into which a stretch of a sweep is split at a plane cover it: every
point of the stretch lies on a part that goes to a side which the point reaches, when the half-space
is grown by the radius and `traceOffset`.

* `Side.Reaches` — a point is in the grown half-space of a side.
* `Segment.On` — a stretch of a given sweep.
* `cuts_cases` — where a stretch is cut.
* `split_whole_reaches`, `split_parts_cover` — what a split covers.
* `split_parts_start` — the start of a stretch goes to the side that is searched first.
-/

variable {K : Type} [Field K] [LinearOrder K] [HasSqrt K]

/-- A point at that distance from a plane is on the side, or no farther than `reach` from it. -/
def Side.Reaches : Side → (reach distance : K) → Prop
  | .front, reach, distance => -reach ≤ distance
  | .back, reach, distance => distance ≤ reach

namespace Segment

/-- A stretch of a sweep. -/
structure On (g : Segment K) (s : Sweep K) : Prop where
  /-- It starts on the sweep. -/
  start_eq : g.start = s.at g.startFraction
  /-- It ends on the sweep. -/
  finish_eq : g.finish = s.at g.endFraction
  /-- It does not end before it starts. -/
  le : g.startFraction ≤ g.endFraction

variable {g : Segment K} {s : Sweep K} {p : Plane K} {r t : K} {side first : Side}
  {near far : Segment K}

/-- The distance at a fraction of a stretch. -/
theorem On.distanceTo_at_mix (h : g.On s) (p : Plane K) (u : K) :
    p.distanceTo (s.at (Scalar.mix g.startFraction g.endFraction u)) =
      p.distanceTo g.start + (p.distanceTo g.finish - p.distanceTo g.start) * u := by
  rw [← Sweep.lerp_at, ← h.start_eq, ← h.finish_eq, distanceTo_lerp]

/-! ### Where a stretch goes -/

/-- A stretch goes as a whole to one side only from one side of the plane to the same side. -/
theorem split_eq_whole (h : g.split p r = .whole side) :
    (side = .front ∧ r ≤ p.distanceTo g.start ∧ r ≤ p.distanceTo g.finish) ∨
      (side = .back ∧ p.distanceTo g.start < -r ∧ p.distanceTo g.finish < -r) := by
  simp only [split] at h
  split_ifs at h with hfront hback
  · cases h
    exact .inl ⟨rfl, hfront⟩
  · cases h
    exact .inr ⟨rfl, hback⟩

/-- A stretch that does not goes in parts. -/
theorem split_eq_parts (h : g.split p r = .parts first near far) :
    ¬ (r ≤ p.distanceTo g.start ∧ r ≤ p.distanceTo g.finish) ∧
      ¬ (p.distanceTo g.start < -r ∧ p.distanceTo g.finish < -r) ∧
      ∃ u v, cuts (p.distanceTo g.start) (p.distanceTo g.finish) r = (first, u, v) ∧
        near = g.before (Scalar.clamp 0 1 u) ∧ far = g.after (Scalar.clamp 0 1 v) := by
  simp only [split] at h
  split_ifs at h with hfront hback
  refine ⟨hfront, hback, ?_⟩
  obtain ⟨rfl, rfl, rfl⟩ : _ ∧ _ ∧ _ := by simpa using h
  exact ⟨_, _, rfl, rfl, rfl⟩

/-- **The cuts of a stretch**, by the way it goes.  From behind, the first part goes on to
    `r - traceOffset` in front of the plane, and the other begins `r + traceOffset` behind it; from
    the front, the first part goes on to `r + traceOffset` behind, and the other begins as far in
    front; and if the stretch is parallel to the plane, both parts are all of it. -/
theorem cuts_cases {a b u v : K} (h : cuts a b r = (first, u, v)) :
    (first = .back ∧ a < b ∧ u = (a - r + traceOffset) / (a - b) ∧
        v = (a + r + traceOffset) / (a - b)) ∨
      (first = .front ∧ b < a ∧ u = (a + r + traceOffset) / (a - b) ∧
        v = (a - r - traceOffset) / (a - b)) ∨
      (first = .front ∧ a = b ∧ u = 1 ∧ v = 0) := by
  rw [cuts] at h
  split_ifs at h with hlt hgt
  · obtain ⟨rfl, rfl, rfl⟩ : Side.back = first ∧ _ = u ∧ _ = v := by simpa using h
    rw [← div_eq_mul_inv, ← div_eq_mul_inv]
    exact .inl ⟨rfl, hlt, rfl, rfl⟩
  · obtain ⟨rfl, rfl, rfl⟩ : Side.front = first ∧ _ = u ∧ _ = v := by simpa using h
    rw [← div_eq_mul_inv, ← div_eq_mul_inv]
    exact .inr (.inl ⟨rfl, hgt, rfl, rfl⟩)
  · obtain ⟨rfl, rfl, rfl⟩ : Side.front = first ∧ 1 = u ∧ 0 = v := by simpa using h
    exact .inr (.inr ⟨rfl, le_antisymm (not_lt.1 hgt) (not_lt.1 hlt), rfl, rfl⟩)

/-- The side that is searched first is the one that the stretch comes from. -/
theorem cuts_side {a b u v : K} (h : cuts a b r = (first, u, v)) :
    (first = .back ∧ a < b) ∨ (first = .front ∧ b ≤ a) := by
  rcases cuts_cases h with ⟨hback, hlt, -⟩ | ⟨hfront, hgt, -⟩ | ⟨hfront, heq, -⟩
  · exact .inl ⟨hback, hlt⟩
  · exact .inr ⟨hfront, hgt.le⟩
  · exact .inr ⟨hfront, heq.ge⟩

variable [IsStrictOrderedRing K]

/-! ### Fractions of a stretch -/

theorem mix_mem {a b u : K} (hab : a ≤ b) (h0 : 0 ≤ u) (h1 : u ≤ 1) :
    a ≤ Scalar.mix a b u ∧ Scalar.mix a b u ≤ b := by
  have hnonneg : 0 ≤ (b - a) * u := mul_nonneg (sub_nonneg.2 hab) h0
  have hle : (b - a) * u ≤ b - a := mul_le_of_le_one_right (sub_nonneg.2 hab) h1
  rw [Scalar.mix]
  constructor <;> linarith

theorem mix_le_mix {a b u v : K} (hab : a ≤ b) (h : u ≤ v) :
    Scalar.mix a b u ≤ Scalar.mix a b v := by
  rw [Scalar.mix, Scalar.mix]
  linarith [mul_le_mul_of_nonneg_left h (sub_nonneg.2 hab)]

/-- A fraction between two others is a mixture of them. -/
theorem exists_mix {a b t : K} (ha : a ≤ t) (hb : t ≤ b) :
    ∃ u, 0 ≤ u ∧ u ≤ 1 ∧ t = Scalar.mix a b u := by
  rcases eq_or_lt_of_le (ha.trans hb) with rfl | hlt
  · exact ⟨0, le_refl 0, zero_le_one, by rw [Scalar.mix, mul_zero, add_zero, le_antisymm hb ha]⟩
  · have hpos : 0 < b - a := sub_pos.2 hlt
    refine ⟨(t - a) / (b - a), div_nonneg (sub_nonneg.2 ha) hpos.le,
      (div_le_one hpos).2 (by linarith), ?_⟩
    rw [Scalar.mix, mul_div_cancel₀ _ hpos.ne']
    ring

theorem On.before (h : g.On s) {u : K} (h0 : 0 ≤ u) (h1 : u ≤ 1) : (g.before u).On s where
  start_eq := h.start_eq
  finish_eq := by
    show g.start.lerp g.finish u = _
    rw [h.start_eq, h.finish_eq, Sweep.lerp_at]
    rfl
  le := (mix_mem h.le h0 h1).1

theorem On.after (h : g.On s) {u : K} (h0 : 0 ≤ u) (h1 : u ≤ 1) : (g.after u).On s where
  start_eq := by
    show g.start.lerp g.finish u = _
    rw [h.start_eq, h.finish_eq, Sweep.lerp_at]
    rfl
  finish_eq := h.finish_eq
  le := (mix_mem h.le h0 h1).2

/-! ### What a split covers -/

/-- **The cuts overlap.** Every fraction of a stretch is before the cut of the first part and
    reaches its side, or after the cut of the other part and reaches the other side. -/
theorem cuts_cover {a b u v x : K} (hr : 0 ≤ r) (hcuts : cuts a b r = (first, u, v)) (h0 : 0 ≤ x)
    (h1 : x ≤ 1) :
    (x ≤ u ∧ first.Reaches (r + traceOffset) (a + (b - a) * x)) ∨
      (v ≤ x ∧ first.other.Reaches (r + traceOffset) (a + (b - a) * x)) := by
  have hpos := Sweep.traceOffset_pos (K := K)
  rcases cuts_cases hcuts with ⟨rfl, hlt, rfl, rfl⟩ | ⟨rfl, hgt, rfl, rfl⟩ | ⟨rfl, -, rfl, rfl⟩
  · -- the stretch comes from behind
    have hneg : a - b < 0 := sub_neg.2 hlt
    rw [le_div_iff_of_neg hneg, div_le_iff_of_neg hneg]
    show (_ ∧ _ ≤ r + traceOffset) ∨ (_ ∧ -(r + traceOffset) ≤ _)
    rcases le_or_gt (a + (b - a) * x) (r - traceOffset) with h | h
    · exact .inl ⟨by linarith, by linarith⟩
    · exact .inr ⟨by linarith, by linarith⟩
  · -- it comes from the front
    have hpos' : 0 < a - b := sub_pos.2 hgt
    rw [le_div_iff₀ hpos', div_le_iff₀ hpos']
    show (_ ∧ -(r + traceOffset) ≤ _) ∨ (_ ∧ _ ≤ r + traceOffset)
    rcases le_or_gt (-(r + traceOffset)) (a + (b - a) * x) with h | h
    · exact .inl ⟨by linarith, h⟩
    · exact .inr ⟨by linarith, by linarith⟩
  · -- it keeps its distance, and both parts are the whole of it
    show (_ ∧ -(r + traceOffset) ≤ _) ∨ (_ ∧ _ ≤ r + traceOffset)
    rcases le_or_gt (-(r + traceOffset)) (a + (b - a) * x) with h | h
    · exact .inl ⟨h1, h⟩
    · exact .inr ⟨h0, by linarith⟩

/-- The side that is searched first is one that the start reaches. -/
theorem cuts_start {a b u v : K} (hcuts : cuts a b r = (first, u, v))
    (hfront : ¬ (r ≤ a ∧ r ≤ b)) (hback : ¬ (a < -r ∧ b < -r)) :
    first.Reaches (r + traceOffset) a := by
  have hpos := Sweep.traceOffset_pos (K := K)
  rcases cuts_side hcuts with ⟨rfl, hlt⟩ | ⟨rfl, hle⟩
  · show a ≤ r + traceOffset
    by_contra hfar
    exact hfront ⟨by linarith, by linarith⟩
  · show -(r + traceOffset) ≤ a
    by_contra hfar
    exact hback ⟨by linarith, by linarith⟩

/-- Every point of a stretch that goes to one side reaches that side. -/
theorem split_whole_reaches (hr : 0 ≤ r) (hg : g.On s) (h : g.split p r = .whole side)
    (hstart : g.startFraction ≤ t) (hend : t ≤ g.endFraction) :
    side.Reaches (r + traceOffset) (p.distanceTo (s.at t)) := by
  have hpos := Sweep.traceOffset_pos (K := K)
  obtain ⟨u, h0, h1, rfl⟩ := exists_mix hstart hend
  -- the distance lies between those at the ends
  have hmix : p.distanceTo (s.at (Scalar.mix g.startFraction g.endFraction u)) =
      p.distanceTo g.start * (1 - u) + p.distanceTo g.finish * u := by
    rw [hg.distanceTo_at_mix]
    ring
  have hu : 0 ≤ 1 - u := sub_nonneg.2 h1
  rcases split_eq_whole h with ⟨rfl, hs, hf⟩ | ⟨rfl, hs, hf⟩
  · show -(r + traceOffset) ≤ _
    have hs := mul_le_mul_of_nonneg_right hs hu
    have hf := mul_le_mul_of_nonneg_right hf h0
    linarith
  · show _ ≤ r + traceOffset
    have hs := mul_le_mul_of_nonneg_right hs.le hu
    have hf := mul_le_mul_of_nonneg_right hf.le h0
    linarith

/-- The parts of a stretch of a sweep are stretches of it, and the first starts where it does. -/
theorem split_parts_on (hg : g.On s) (h : g.split p r = .parts first near far) :
    near.On s ∧ far.On s ∧ near.startFraction = g.startFraction := by
  obtain ⟨-, -, u, v, -, rfl, rfl⟩ := split_eq_parts h
  obtain ⟨hu0, hu1⟩ := Scalar.clamp_mem (zero_le_one' K) u
  obtain ⟨hv0, hv1⟩ := Scalar.clamp_mem (zero_le_one' K) v
  exact ⟨hg.before hu0 hu1, hg.after hv0 hv1, rfl⟩

/-- The start of a stretch that goes in parts reaches the side that is searched first. -/
theorem split_parts_start (hg : g.On s) (h : g.split p r = .parts first near far) :
    first.Reaches (r + traceOffset) (p.distanceTo (s.at g.startFraction)) := by
  obtain ⟨hfront, hback, u, v, hcuts, -, -⟩ := split_eq_parts h
  rw [← hg.start_eq]
  exact cuts_start hcuts hfront hback

/-- **Splitting loses nothing.** Every point of a stretch that goes in parts lies on a part that
    goes to a side which the point reaches. -/
theorem split_parts_cover (hr : 0 ≤ r) (hg : g.On s) (h : g.split p r = .parts first near far)
    (hstart : g.startFraction ≤ t) (hend : t ≤ g.endFraction) :
    (near.startFraction ≤ t ∧ t ≤ near.endFraction ∧
        first.Reaches (r + traceOffset) (p.distanceTo (s.at t))) ∨
      (far.startFraction ≤ t ∧ t ≤ far.endFraction ∧
        first.other.Reaches (r + traceOffset) (p.distanceTo (s.at t))) := by
  obtain ⟨-, -, u, v, hcuts, rfl, rfl⟩ := split_eq_parts h
  obtain ⟨x, h0, h1, rfl⟩ := exists_mix hstart hend
  rw [hg.distanceTo_at_mix]
  rcases cuts_cover hr hcuts h0 h1 with ⟨hx, hside⟩ | ⟨hx, hside⟩
  · exact .inl ⟨hstart, mix_le_mix hg.le (Scalar.le_clamp hx h1), hside⟩
  · exact .inr ⟨mix_le_mix hg.le (Scalar.clamp_le hx h0), hend, hside⟩

end Segment

end Stride
