import Stride.Proofs.Sweep.Flat

namespace Stride

/-!
# What each child is searched over

At a node whose plane a stretch of the sweep straddles, the stretch is handed on in two parts.  In
exact arithmetic the front part goes `radius + traceOffset` beyond the plane, whatever the direction
of travel.  So does the back part of a stretch that comes from the front.  The back part of one that
comes from behind does not: the offset has the other sign there, and the part ends `traceOffset`
before the sphere is in front.  A solid behind the plane that is only met after that is not found.

* `Segment.Contains` — a point of the sweep lies on a stretch.
* `near_contains_iff`, `far_contains_iff` — the points on the two parts.
* `World.Handed` — the stretches that a search hands from node to node.
* `Handed.on`, `Handed.exists_holds` — they are stretches of the sweep, for nodes of the tree.
* `Accepted.handed_parts` — the two parts at a node.
-/

variable {K : Type} [Field K] [LinearOrder K] [HasSqrt K]

/-- The point at a fraction of the sweep lies on the stretch. -/
def Segment.Contains (g : Segment K) (t : K) : Prop := g.startFraction ≤ t ∧ t ≤ g.endFraction

/-- The ends of a stretch are not both in front of a plane, for the surface of a sphere, and not
    both behind it. -/
structure Segment.Straddles (g : Segment K) (p : Plane K) (radius : K) : Prop where
  /-- Not both ends are in front. -/
  not_front : ¬ (radius ≤ p.distanceTo g.start ∧ radius ≤ p.distanceTo g.finish)
  /-- Not both ends are behind. -/
  not_back : ¬ (p.distanceTo g.start < -radius ∧ p.distanceTo g.finish < -radius)

/-! ### The points on the two parts -/

namespace Segment

variable {g : Segment K} {s : Sweep K} {p : Plane K} {r t : K} {first : Side} {near far : Segment K}

/-- A stretch that straddles the plane goes in parts. -/
theorem Straddles.exists_parts (h : g.Straddles p r) :
    ∃ first near far, g.split p r = .parts first near far := by
  rw [split, if_neg h.not_front, if_neg h.not_back]
  exact ⟨_, _, _, rfl⟩

variable [IsStrictOrderedRing K]

/-- A limited fraction is not below a fraction of the stretch iff it was not before it was limited,
    or that is the start. -/
theorem le_clamp_iff {u x : K} (h0 : 0 ≤ x) (h1 : x ≤ 1) :
    x ≤ Scalar.clamp 0 1 u ↔ x ≤ u ∨ x = 0 := by
  constructor
  · intro h
    rw [Scalar.clamp] at h
    split_ifs at h with hlo hhi
    · exact .inr (le_antisymm h h0)
    · exact .inl (h1.trans hhi.le)
    · exact .inl h
  · rintro (h | rfl)
    · exact Scalar.le_clamp h h1
    · exact (Scalar.clamp_mem zero_le_one u).1

theorem clamp_le_iff {v x : K} (h0 : 0 ≤ x) (h1 : x ≤ 1) :
    Scalar.clamp 0 1 v ≤ x ↔ v ≤ x ∨ x = 1 := by
  constructor
  · intro h
    rw [Scalar.clamp] at h
    split_ifs at h with hlo hhi
    · exact .inl (hlo.le.trans h0)
    · exact .inr (le_antisymm h1 h)
    · exact .inl h
  · rintro (h | rfl)
    · exact Scalar.clamp_le h h0
    · exact (Scalar.clamp_mem zero_le_one v).2

theorem mix_le_mix_iff {a b u v : K} (hab : a < b) :
    Scalar.mix a b u ≤ Scalar.mix a b v ↔ u ≤ v := by
  rw [Scalar.mix, Scalar.mix, add_le_add_iff_left, mul_le_mul_iff_right₀ (sub_pos.2 hab)]

/-- How far the part that is searched first goes beyond the plane.  From behind, the offset has the
    other sign. -/
def nearReach (first : Side) (r : K) : K := first.pick (r + traceOffset) (r - traceOffset)

/-- **The two cuts.** The first part ends where its side is left by `nearReach`, and the other part
    starts where its side is reached up to `traceOffset`. -/
theorem cuts_iff {a b u v x : K} (hcuts : cuts a b r = (first, u, v)) (hfront : ¬ (r ≤ a ∧ r ≤ b))
    (hback : ¬ (a < -r ∧ b < -r)) (h0 : 0 ≤ x) (h1 : x ≤ 1) :
    (x ≤ u ↔ first.Reaches (nearReach first r) (a + (b - a) * x)) ∧
      (v ≤ x ↔ first.other.Reaches (r + traceOffset) (a + (b - a) * x)) := by
  have hpos := Sweep.traceOffset_pos (K := K)
  rcases cuts_cases hcuts with ⟨rfl, hlt, rfl, rfl⟩ | ⟨rfl, hgt, rfl, rfl⟩ | ⟨rfl, rfl, rfl, rfl⟩
  · have hneg : a - b < 0 := sub_neg.2 hlt
    rw [le_div_iff_of_neg hneg, div_le_iff_of_neg hneg]
    show (_ ↔ _ ≤ r - traceOffset) ∧ (_ ↔ -(r + traceOffset) ≤ _)
    constructor <;> constructor <;> intro h <;> linarith
  · have hpos' : 0 < a - b := sub_pos.2 hgt
    rw [le_div_iff₀ hpos', div_le_iff₀ hpos']
    show (_ ↔ -(r + traceOffset) ≤ _) ∧ (_ ↔ _ ≤ r + traceOffset)
    constructor <;> constructor <;> intro h <;> linarith
  · -- parallel to the plane, and between the two grown half-spaces
    rw [and_self, not_le] at hfront
    rw [and_self, not_lt] at hback
    show (_ ↔ -(r + traceOffset) ≤ _) ∧ (_ ↔ _ ≤ r + traceOffset)
    exact ⟨iff_of_true h1 (by linarith), iff_of_true h0 (by linarith)⟩

/-- The end of a stretch that goes in parts reaches the side that is searched last. -/
theorem cuts_finish {a b u v : K} (hcuts : cuts a b r = (first, u, v))
    (hfront : ¬ (r ≤ a ∧ r ≤ b)) (hback : ¬ (a < -r ∧ b < -r)) :
    first.other.Reaches (r + traceOffset) b := by
  have hpos := Sweep.traceOffset_pos (K := K)
  rcases cuts_side hcuts with ⟨rfl, hlt⟩ | ⟨rfl, hle⟩
  · show -(r + traceOffset) ≤ b
    by_contra hfar
    exact hback ⟨by linarith, by linarith⟩
  · show b ≤ r + traceOffset
    by_contra hfar
    exact hfront ⟨by linarith, by linarith⟩

/-- **The part that is searched first** holds its start and the points that its side reaches. -/
theorem near_contains_iff (hg : g.On s) (h : g.split p r = .parts first near far)
    (ht : g.Contains t) :
    near.Contains t ↔
      first.Reaches (nearReach first r) (p.distanceTo (s.at t)) ∨ t = g.startFraction := by
  obtain ⟨hfront, hback, u, v, hcuts, rfl, -⟩ := split_eq_parts h
  obtain ⟨x, h0, h1, rfl⟩ := exists_mix ht.1 ht.2
  rw [hg.distanceTo_at_mix, ← (cuts_iff hcuts hfront hback h0 h1).1]
  constructor
  · rintro ⟨-, hle⟩
    rcases eq_or_lt_of_le hg.le with heq | hlt
    · exact .inr (le_antisymm (ht.2.trans heq.ge) ht.1)
    · refine ((le_clamp_iff h0 h1).1 ((mix_le_mix_iff hlt).1 hle)).imp_right ?_
      rintro rfl
      rw [Scalar.mix, mul_zero, add_zero]
  · rintro (hle | heq)
    · exact ⟨ht.1, mix_le_mix hg.le (Scalar.le_clamp hle h1)⟩
    · rw [heq]
      obtain ⟨hu0, hu1⟩ := Scalar.clamp_mem (zero_le_one' K) u
      exact ⟨le_refl _, (mix_mem hg.le hu0 hu1).1⟩

/-- **The part that is searched last** holds the points that its side reaches. -/
theorem far_contains_iff (hg : g.On s) (h : g.split p r = .parts first near far)
    (ht : g.Contains t) :
    far.Contains t ↔ first.other.Reaches (r + traceOffset) (p.distanceTo (s.at t)) := by
  obtain ⟨hfront, hback, u, v, hcuts, -, rfl⟩ := split_eq_parts h
  have hend : t = g.endFraction →
      first.other.Reaches (r + traceOffset) (p.distanceTo (s.at t)) := by
    rintro rfl
    rw [← hg.finish_eq]
    exact cuts_finish hcuts hfront hback
  obtain ⟨x, h0, h1, rfl⟩ := exists_mix ht.1 ht.2
  rw [← or_iff_left_of_imp hend, hg.distanceTo_at_mix, ← (cuts_iff hcuts hfront hback h0 h1).2]
  constructor
  · rintro ⟨hle, -⟩
    rcases eq_or_lt_of_le hg.le with heq | hlt
    · exact .inr (le_antisymm ht.2 (heq.ge.trans ht.1))
    · refine ((clamp_le_iff h0 h1).1 ((mix_le_mix_iff hlt).1 hle)).imp_right ?_
      rintro rfl
      rw [Scalar.mix, mul_one, add_sub_cancel]
  · rintro (hle | heq)
    · exact ⟨mix_le_mix hg.le (Scalar.clamp_le hle h0), ht.2⟩
    · rw [heq]
      obtain ⟨hv0, hv1⟩ := Scalar.clamp_mem (zero_le_one' K) v
      exact ⟨(mix_mem hg.le hv0 hv1).2, le_refl _⟩

end Segment

/-! ### The stretches that are handed on -/

namespace World

/-- The stretches of a sweep that the search hands from the root to the nodes below. -/
inductive Handed {α : Type} [Scalar α] (w : World α) (s : Sweep α) : NodeId → Segment α → Prop where
  /-- The root is handed the whole sweep. -/
  | root : w.Handed s w.root s.whole
  /-- A stretch on one side of the plane goes to the child on that side. -/
  | whole {id front back : NodeId} {plane : PlaneId} {bounds : Bounds} {p : Plane α} {side : Side}
      {g : Segment α} (h : w.Handed s id g)
      (node : w.node? id = some (.split plane front back bounds)) (hp : w.plane? plane = some p)
      (hsplit : g.split p s.radius = .whole side) : w.Handed s (side.pick front back) g
  /-- Of any other stretch the first part goes to the child on the first side. -/
  | near {id front back : NodeId} {plane : PlaneId} {bounds : Bounds} {p : Plane α} {first : Side}
      {g near far : Segment α} (h : w.Handed s id g)
      (node : w.node? id = some (.split plane front back bounds)) (hp : w.plane? plane = some p)
      (hsplit : g.split p s.radius = .parts first near far) :
      w.Handed s (first.pick front back) near
  /-- The last part goes to the child on the other side. -/
  | far {id front back : NodeId} {plane : PlaneId} {bounds : Bounds} {p : Plane α} {first : Side}
      {g near far : Segment α} (h : w.Handed s id g)
      (node : w.node? id = some (.split plane front back bounds)) (hp : w.plane? plane = some p)
      (hsplit : g.split p s.radius = .parts first near far) :
      w.Handed s (first.other.pick front back) far

/-- What is handed on goes to nodes of the tree. -/
theorem Handed.exists_holds {α : Type} [Scalar α] {w : World α} {s : Sweep α} {id : NodeId}
    {g : Segment α} (hw : w.WellFormed) (h : w.Handed s id g) : ∃ p, w.Holds id p := by
  -- the children of a node of the tree are nodes of the tree
  have child {id front back : NodeId} {plane : PlaneId} {bounds : Bounds} (side : Side)
      (node : w.node? id = some (.split plane front back bounds)) (hid : ∃ p, w.Holds id p) :
      ∃ p, w.Holds (side.pick front back) p := by
    obtain ⟨p, hp⟩ := hid
    cases p with
    | leaf i brushes bounds' => cases node.symm.trans hp.leaf.1
    | split i plane' bounds' f b =>
      obtain ⟨front', back', pl, node', -, hchild⟩ := hp.split
      obtain ⟨rfl, rfl, rfl, rfl⟩ : _ ∧ _ ∧ _ ∧ _ := by simpa using node.symm.trans node'
      exact ⟨_, hchild side⟩
  induction h with
  | root => exact hw.exists_holds
  | whole _ node _ _ ih => exact child _ node ih
  | near _ node _ _ ih => exact child _ node ih
  | far _ node _ _ ih => exact child _ node ih

variable [IsStrictOrderedRing K] {w : World K} {s : Sweep K} {id : NodeId} {g : Segment K}

/-- What is handed on is a stretch of the sweep. -/
theorem Handed.on (h : w.Handed s id g) : g.On s := by
  induction h with
  | root => exact on_whole s
  | whole _ _ _ _ ih => exact ih
  | near _ _ _ hsplit ih => exact (Segment.split_parts_on ih hsplit).1
  | far _ _ _ hsplit ih => exact (Segment.split_parts_on ih hsplit).2.1

/-- A search that is not cut short searches the two parts one after the other. -/
theorem search?_parts {α : Type} [Scalar α] {w : World α} {s : Sweep α} {id front back : NodeId}
    {plane : PlaneId} {bounds : Bounds} {p : Plane α} {first : Side} {g near far : Segment α}
    {c : Contact α} (node : w.node? id = some (.split plane front back bounds))
    (hp : w.plane? plane = some p) (hsplit : g.split p s.radius = .parts first near far)
    (hlt : ¬ c.fraction ≤ g.startFraction) (fuel : ℕ) :
    w.search? s (fuel + 1) id g c =
      (w.search? s fuel (first.pick front back) near c).bind
        (w.search? s fuel (first.other.pick front back) far) := by
  rw [search?, if_neg hlt]
  simp only [node, hp, hsplit]
  cases first with
  | front =>
    simp only [Side.pick, Side.other]
    cases w.search? s fuel front near c <;> rfl
  | back =>
    simp only [Side.pick, Side.other]
    cases w.search? s fuel back near c <;> rfl

/-- **The two parts.** In an accepted level, at every split whose plane a stretch straddles that the
    search hands to it, both children are handed a stretch, the one on the side of the start first.
    The front child is searched over the points that are at most `radius + traceOffset` behind the
    plane, so over all that are not farther than the radius behind.  The back child is searched over
    the points that are at most `radius + traceOffset` in front, so over all that are less than the
    radius in front, unless the stretch comes from behind; then it is searched over the start and
    the points that are at most `radius - traceOffset` in front. -/
theorem Accepted.handed_parts (hw : w.Accepted) (h : w.Handed s id g) {front back : NodeId}
    {plane : PlaneId} {bounds : Bounds}
    (node : w.node? id = some (.split plane front back bounds)) :
    ∃ p, w.plane? plane = some p ∧ (g.Straddles p s.radius →
      ∃ toFront toBack, w.Handed s front toFront ∧ w.Handed s back toBack ∧
        (∀ fuel c, ¬ c.fraction ≤ g.startFraction → w.search? s (fuel + 1) id g c =
          if p.distanceTo g.start < p.distanceTo g.finish then
            (w.search? s fuel back toBack c).bind (w.search? s fuel front toFront)
          else (w.search? s fuel front toFront c).bind (w.search? s fuel back toBack)) ∧
        ∀ t, g.Contains t →
          (toFront.Contains t ↔ -(s.radius + traceOffset) ≤ p.distanceTo (s.at t)) ∧
          (toBack.Contains t ↔
            if p.distanceTo g.start < p.distanceTo g.finish then
              p.distanceTo (s.at t) ≤ s.radius - traceOffset ∨ t = g.startFraction
            else p.distanceTo (s.at t) ≤ s.radius + traceOffset)) := by
  obtain ⟨q, hq⟩ := h.exists_holds hw.wellFormed
  obtain ⟨p, hp⟩ := exists_plane? (hq.resolves id (hq.unfolds.root_eq ▸ q.root_mem_ids) _ node).1
  refine ⟨p, hp, fun hstraddles => ?_⟩
  obtain ⟨first, near, far, hsplit⟩ := hstraddles.exists_parts
  obtain ⟨-, -, u, v, hcuts, -, -⟩ := Segment.split_eq_parts hsplit
  have hstart := Segment.split_parts_start h.on hsplit
  have hnear {t : K} := Segment.near_contains_iff (t := t) h.on hsplit
  have hfar {t : K} := Segment.far_contains_iff (t := t) h.on hsplit
  have htoNear := h.near node hp hsplit
  have htoFar := h.far node hp hsplit
  have hsearch (fuel : ℕ) (c : Contact K) (hlt : ¬ c.fraction ≤ g.startFraction) :=
    search?_parts node hp hsplit hlt fuel
  -- a stretch that comes from behind goes to the back child first, any other to the front child
  cases first with
  | front =>
    have hdir : ¬ p.distanceTo g.start < p.distanceTo g.finish := by
      intro hlt
      rw [Segment.cuts, if_pos hlt] at hcuts
      cases hcuts
    refine ⟨near, far, htoNear, htoFar, fun fuel c hlt => ?_, fun t ht => ⟨?_, ?_⟩⟩
    · rw [if_neg hdir]
      exact hsearch fuel c hlt
    · -- the start is in front, so it is no exception
      rw [hnear ht]
      refine or_iff_left_of_imp ?_
      rintro rfl
      exact hstart
    · rw [if_neg hdir]
      exact hfar ht
  | back =>
    have hdir : p.distanceTo g.start < p.distanceTo g.finish := by
      by_contra hlt
      rw [Segment.cuts, if_neg hlt] at hcuts
      split_ifs at hcuts <;> cases hcuts
    refine ⟨far, near, htoFar, htoNear, fun fuel c hlt => ?_, fun t ht => ⟨hfar ht, ?_⟩⟩
    · rw [if_pos hdir]
      exact hsearch fuel c hlt
    · rw [if_pos hdir]
      exact hnear ht

end World

/-- A thin panel just behind a split, and a second split at its back. -/
def panel : Builder ℚ where
  planes := #[⟨⟨1, 0, 0⟩, 0⟩, ⟨⟨1, 0, 0⟩, -1 / 64⟩, ⟨⟨-1, 0, 0⟩, 1 / 64⟩]
  brushes := #[⟨[.ofIndex 0, .ofIndex 2], true⟩]
  nodes := #[.leaf [] .everything, .leaf [.ofIndex 0] .everything, .leaf [] .everything,
    .split (.ofIndex 1) (.ofIndex 1) (.ofIndex 2) .everything,
    .split (.ofIndex 0) (.ofIndex 0) (.ofIndex 3) .everything]

/-- A sweep from behind the panel to the front. -/
def throughPanel : Sweep ℚ := ⟨⟨-1, 0, 0⟩, ⟨1, 0, 0⟩, 0⟩

theorem panel_accepted : (panel.toWorld (.ofIndex 4)).Accepted :=
  World.accepted_of_defect?_eq_none (by decide +kernel)

/-- Behind the upper split the sweep is only searched up to `traceOffset` before the plane. -/
theorem panel_handed_parts :
    (panel.toWorld (.ofIndex 4)).Handed throughPanel (.ofIndex 4) throughPanel.whole ∧
      throughPanel.whole.Straddles ⟨⟨1, 0, 0⟩, 0⟩ 0 ∧
      ∃ toFront toBack,
        (panel.toWorld (.ofIndex 4)).Handed throughPanel (.ofIndex 0) toFront ∧
        (panel.toWorld (.ofIndex 4)).Handed throughPanel (.ofIndex 3) toBack ∧
        ∀ t, throughPanel.whole.Contains t →
          (toFront.Contains t ↔ -(0 + traceOffset) ≤
            (⟨⟨1, 0, 0⟩, 0⟩ : Plane ℚ).distanceTo (throughPanel.at t)) ∧
          (toBack.Contains t ↔ (⟨⟨1, 0, 0⟩, 0⟩ : Plane ℚ).distanceTo (throughPanel.at t) ≤
            0 - traceOffset ∨ t = 0) := by
  have hstraddles : throughPanel.whole.Straddles ⟨⟨1, 0, 0⟩, 0⟩ 0 :=
    ⟨by decide +kernel, by decide +kernel⟩
  have hdir : (⟨⟨1, 0, 0⟩, 0⟩ : Plane ℚ).distanceTo throughPanel.whole.start <
      (⟨⟨1, 0, 0⟩, 0⟩ : Plane ℚ).distanceTo throughPanel.whole.finish := by
    decide +kernel
  obtain ⟨p, hp, hparts⟩ :=
    panel_accepted.handed_parts (.root : World.Handed _ throughPanel _ _) rfl
  obtain rfl : (⟨⟨1, 0, 0⟩, 0⟩ : Plane ℚ) = p := Option.some.inj hp
  obtain ⟨toFront, toBack, hfront, hback, -, hcontains⟩ := hparts hstraddles
  simp only [if_pos hdir] at hcontains
  exact ⟨.root, hstraddles, toFront, toBack, hfront, hback, hcontains⟩

/-- The sweep enters the panel at the fraction `63 / 128`, behind the plane of the upper split, and
    the part of the sweep that is handed to the back child ends before that.  So it goes through the
    panel, at which it is stopped where one leaf lists all. -/
theorem panel_missed :
    (panel.toWorld (.ofIndex 4)).Accepted ∧
      throughPanel.whole.Straddles ⟨⟨1, 0, 0⟩, 0⟩ 0 ∧
      throughPanel.whole.split ⟨⟨1, 0, 0⟩, 0⟩ 0 =
        .parts .back ⟨0, 31 / 64, ⟨-1, 0, 0⟩, ⟨-1 / 32, 0, 0⟩⟩
          ⟨31 / 64, 1, ⟨-1 / 32, 0, 0⟩, ⟨1, 0, 0⟩⟩ ∧
      (⟨⟨1, 0, 0⟩, 0⟩ : Plane ℚ).distanceTo (throughPanel.at (63 / 128)) < 0 ∧
      ¬ Segment.Contains ⟨0, 31 / 64, ⟨-1, 0, 0⟩, ⟨-1 / 32, 0, 0⟩⟩ (63 / 128 : ℚ) ∧
      ((panel.toWorld (.ofIndex 4)).trace ⟨-1, 0, 0⟩ ⟨1, 0, 0⟩ 0).fraction = 1 ∧
      (((panel.toWorld (.ofIndex 4)).flat [.ofIndex 0]).trace ⟨-1, 0, 0⟩ ⟨1, 0, 0⟩ 0).fraction =
        61 / 128 := by
  refine ⟨panel_accepted, ⟨?_, ?_⟩, ?_, ?_, ?_, ?_, ?_⟩
  case refine_5 =>
    rintro ⟨-, hle⟩
    norm_num at hle
  all_goals decide +kernel

end Stride
