import Stride.Proofs.Sweep.Span
import Stride.Proofs.Sweep.Split
import Stride.Proofs.Sweep.Search
import Stride.Proofs.World.Reading

namespace Stride

/-!
# The tree finds what the list finds

A partition of space only speeds a sweep up.  Where the leaves list every solid that a sphere can
touch in them, the pruned and reordered search through the tree stops a sweep where the plain walk
over all solids does.

* `Cell.Near` — a leaf that a sphere at a point may touch.
* `World.Listed`, `World.Complete` — the solids that leaves list, and leaves that list enough.
* `World.MeetsNear` — a hit that covers all that some leaf near a point lists.
* `search_meets_near` — for every point of a stretch, the search stops before it or meets what a
  leaf near the point lists.
* `search_meets_first` — the search meets what a leaf near the start lists.
* `Accepted.trace_eq_flat` — the tree against one leaf.
-/

variable {K : Type} [Field K] [LinearOrder K] [HasSqrt K]

/-- A leaf is near a point if the point reaches the side of every turn to it, for a sphere of the
    given radius with `traceOffset` to spare. -/
def Cell.Near (w : World K) (radius : K) (point : Vec3 K) (c : Cell) : Prop :=
  ∀ turn ∈ c.turns, ∃ plane, w.plane? turn.plane = some plane ∧
    turn.side.Reaches (radius + traceOffset) (plane.distanceTo point)

namespace World

/-- A solid with faces that some leaf lists. -/
def Listed (w : World K) (id : BrushId) : Prop :=
  (∃ faces, w.HasSolid id faces ∧ faces ≠ []) ∧ ∃ cell, w.HasCell cell ∧ id ∈ cell.brushes

/-- The leaves list enough for a sweep: a listed solid that the sphere can touch at a point of the
    sweep is listed by every leaf near that point. -/
def Complete (w : World K) (s : Sweep K) : Prop :=
  ∀ id faces, w.Listed id → w.HasSolid id faces → ∀ t, 0 ≤ t → t ≤ 1 →
    (∀ face ∈ faces, face.plane.distanceTo (s.at t) ≤ s.radius + traceOffset) →
    ∀ cell, w.HasCell cell → cell.Near w s.radius (s.at t) → id ∈ cell.brushes

/-- A hit that covers every solid that a leaf lists. -/
def Meets (w : World K) (s : Sweep K) (c : Contact K) (cell : Cell) : Prop :=
  ∀ id ∈ cell.brushes, ∀ faces, w.HasSolid id faces → c.Covers (Contact.alone s faces)

variable {w : World K} {s : Sweep K} {id : NodeId} {p : Partition} {plane : PlaneId}
  {pl : Plane K} {side : Side} {cell : Cell} {c d : Contact K} {segment : Segment K} {t : K}

theorem near_after {point : Vec3 K} (hplane : w.plane? plane = some pl)
    (hside : side.Reaches (s.radius + traceOffset) (pl.distanceTo point))
    (h : cell.Near w s.radius point) : (cell.after ⟨plane, side⟩).Near w s.radius point := by
  intro turn hturn
  rcases List.mem_cons.1 hturn with rfl | hturn
  · exact ⟨pl, hplane, hside⟩
  · exact h turn hturn

/-- Some leaf of the tree is near a point, and a hit covers all that it lists. -/
def MeetsNear (w : World K) (s : Sweep K) (point : Vec3 K) (c : Contact K) (p : Partition) : Prop :=
  ∃ cell ∈ p.cells, cell.Near w s.radius point ∧ w.Meets s c cell

/-- What is met near a point on a side that the point reaches is met in the whole. -/
theorem MeetsNear.of_side {point : Vec3 K} {i : NodeId} {bounds : Bounds} {f b : Partition}
    (hplane : w.plane? plane = some pl)
    (hside : side.Reaches (s.radius + traceOffset) (pl.distanceTo point))
    (h : w.MeetsNear s point c (side.pick f b)) :
    w.MeetsNear s point c (.split i plane bounds f b) := by
  obtain ⟨cell, hcell, hnear, hmeets⟩ := h
  exact ⟨_, Partition.after_mem_cells hcell, near_after hplane hside hnear, hmeets⟩

variable [IsStrictOrderedRing K]

theorem Meets.mono (hcd : c.Covers d) (h : w.Meets s d cell) : w.Meets s c cell :=
  fun id hid faces hfaces => hcd.trans (h id hid faces hfaces)

theorem MeetsNear.mono {point : Vec3 K} (hcd : c.Covers d) (h : w.MeetsNear s point d p) :
    w.MeetsNear s point c p := by
  obtain ⟨cell, hcell, hnear, hmeets⟩ := h
  exact ⟨cell, hcell, hnear, hmeets.mono hcd⟩

/-- A leaf that is not passed over is met as a whole. -/
theorem WellFormed.meets_leaf (hw : w.WellFormed) {brushes : List BrushId}
    (h : ∀ id ∈ brushes, id.index < w.brushes.size) (hc : c.Proper) (point : Vec3 K)
    (i : NodeId) (bounds : Bounds) :
    w.MeetsNear s point ((w.solids brushes).foldl (Contact.meet s) c) (.leaf i brushes bounds) := by
  refine ⟨⟨[], brushes⟩, by simp [Partition.cells], by simp [Cell.Near], ?_⟩
  intro id hid faces hfaces
  exact Contact.foldl_meet_covers hc ((hw.mem_solids_iff h faces).2 ⟨id, hid, hfaces⟩)

/-! ### What the search meets -/

/-- **The search passes over nothing.** For every point of a stretch, the search stops the sweep
    before it or meets all that some leaf near the point lists. -/
theorem WellFormed.search_meets_near (hw : w.WellFormed) (hp : w.Holds id p) (hr : 0 ≤ s.radius)
    (hg : segment.On s) (hc : c.Proper) (hstart : segment.startFraction ≤ t)
    (hend : t ≤ segment.endFraction) :
    (p.search w s segment c).fraction ≤ t ∨
      w.MeetsNear s (s.at t) (p.search w s segment c) p := by
  induction p using Partition.pick_induction generalizing id segment c with
  | leaf i brushes bounds =>
    rw [Partition.search]
    split_ifs with hpruned
    · exact .inl (hpruned.trans hstart)
    · exact .inr (hw.meets_leaf hp.leaf.2 hc _ i bounds)
  | split i plane bounds f b ih =>
    obtain ⟨front, back, pl, -, hplane, hchild⟩ := hp.split
    rw [Partition.search]
    split_ifs with hpruned
    · exact .inl (hpruned.trans hstart)
    · simp only [hplane, Partition.pick_search]
      cases hsplit : segment.split pl s.radius with
      | whole side =>
        have hside := Segment.split_whole_reaches hr hg hsplit hstart hend
        exact (ih side (hchild side) hg hc hstart hend).imp_right (.of_side hplane hside)
      | parts first near far =>
        obtain ⟨hnear, hfar, -⟩ := Segment.split_parts_on hg hsplit
        obtain ⟨-, hmid⟩ := hw.search_covers (hchild first) s near hc
        rcases Segment.split_parts_cover hr hg hsplit hstart hend with
          ⟨hs, he, hside⟩ | ⟨hs, he, hside⟩
        · -- the far part only adds to what the near part found
          obtain ⟨hlater, -⟩ := hw.search_covers (hchild first.other) s far hmid
          exact (ih first (hchild first) hnear hc hs he).imp hlater.fraction_le.trans
            fun hmeets => (hmeets.of_side hplane hside).mono hlater
        · exact (ih first.other (hchild first.other) hfar hmid hs he).imp_right
            (.of_side hplane hside)

/-- **The search looks at the start.** A search that starts before the best hit meets all that some
    leaf near its start lists. -/
theorem WellFormed.search_meets_first (hw : w.WellFormed) (hp : w.Holds id p) (hr : 0 ≤ s.radius)
    (hg : segment.On s) (hc : c.Proper) (hlt : segment.startFraction < c.fraction) :
    w.MeetsNear s (s.at segment.startFraction) (p.search w s segment c) p := by
  induction p using Partition.pick_induction generalizing id segment with
  | leaf i brushes bounds =>
    rw [Partition.search, if_neg (not_le.2 hlt)]
    exact hw.meets_leaf hp.leaf.2 hc _ i bounds
  | split i plane bounds f b ih =>
    obtain ⟨front, back, pl, -, hplane, hchild⟩ := hp.split
    rw [Partition.search, if_neg (not_le.2 hlt)]
    simp only [hplane, Partition.pick_search]
    cases hsplit : segment.split pl s.radius with
    | whole side =>
      have hside := Segment.split_whole_reaches hr hg hsplit (le_refl _) hg.le
      exact (ih side (hchild side) hg hlt).of_side hplane hside
    | parts first near far =>
      -- the near part starts where the stretch does, and the far part only adds to it
      obtain ⟨hnear, -, hsame⟩ := Segment.split_parts_on hg hsplit
      have hside := Segment.split_parts_start hg hsplit
      have hmeets := ih first (hchild first) hnear (hsame ▸ hlt)
      rw [hsame] at hmeets
      obtain ⟨-, hmid⟩ := hw.search_covers (hchild first) s near hc
      obtain ⟨hlater, -⟩ := hw.search_covers (hchild first.other) s far hmid
      exact (hmeets.of_side hplane hside).mono hlater

/-! ### The whole sweep -/

theorem on_whole (s : Sweep K) : s.whole.On s where
  start_eq := s.at_zero.symm
  finish_eq := s.at_one.symm
  le := zero_le_one

/-- What is met near a point covers every listed solid that the sphere can touch there. -/
theorem MeetsNear.covers (h : w.MeetsNear s (s.at t) c p) (hp : w.Unfolds w.root p)
    (hcomplete : w.Complete s) {id : BrushId} {faces : List (Face K)} (hlisted : w.Listed id)
    (hfaces : w.HasSolid id faces) (h0 : 0 ≤ t) (h1 : t ≤ 1)
    (hgap : ∀ face ∈ faces, s.gap face.plane t ≤ traceOffset) :
    c.Covers (Contact.alone s faces) := by
  obtain ⟨cell, hcell, hnear, hmeets⟩ := h
  refine hmeets id ?_ faces hfaces
  refine hcomplete id faces hlisted hfaces t h0 h1 (fun face hface => ?_) cell
    ((hasCell_iff_mem_cells hp).2 hcell) hnear
  exact sub_le_iff_le_add'.1 (hgap face hface)

/-- A listed solid is met as far as it matters: the search stops the sweep no later than the solid
    does, and reports the sphere inside if the solid does. -/
theorem WellFormed.search_covers_listed (hw : w.WellFormed) (hp : w.Holds w.root p)
    (hr : 0 ≤ s.radius) (hcomplete : w.Complete s) {id : BrushId} {faces : List (Face K)}
    (hlisted : w.Listed id) (hfaces : w.HasSolid id faces) :
    (p.search w s s.whole Contact.clear).Covers (Contact.alone s faces) := by
  have hpos := (Sweep.traceOffset_pos (K := K)).le
  have hclear := Contact.clear_proper (α := K)
  -- a solid that has the start inside is listed by the leaf that is searched first
  have hinside (h : ∀ face ∈ faces, s.startGap face.plane ≤ 0) :
      (p.search w s s.whole Contact.clear).Covers (Contact.alone s faces) := by
    have hmeets := hw.search_meets_first hp hr (on_whole s) hclear zero_lt_one
    refine hmeets.covers hp.unfolds hcomplete hlisted hfaces le_rfl zero_le_one fun face hface => ?_
    exact (s.gap_zero face.plane).trans_le ((h face hface).trans hpos)
  refine ⟨?_, fun h => ?_, fun h => ?_⟩
  · obtain ⟨-, hle⟩ := Contact.alone_proper s faces
    rcases lt_or_ge (Contact.alone s faces).fraction 1 with h | h
    · -- where the solid stops the sphere, the search stops it earlier or meets the solid
      obtain ⟨hnonneg, hgap⟩ := Contact.gap_le_of_alone h
      rcases hw.search_meets_near hp hr (on_whole s) hclear hnonneg hle with hearlier | hmeets
      · exact hearlier
      · exact (hmeets.covers hp.unfolds hcomplete hlisted hfaces hnonneg hle hgap).fraction_le
    · exact (hw.search_covers hp s s.whole hclear).1.fraction_le.trans h
  · exact (hinside (Contact.alone_startSolid_iff.1 h).2).startSolid h
  · exact (hinside fun face hface => ((Contact.alone_allSolid_iff.1 h).2 face hface).1).allSolid h

/-- **The tree finds what the list finds.** On an accepted level whose leaves list enough for a
    sweep, the sweep through the tree ends where the sweep past all listed solids does, and
    reports the sphere inside at the same times. -/
theorem Accepted.trace_eq_flat (hw : w.Accepted) (start finish : Vec3 K) {radius : K}
    (hr : 0 ≤ radius) (hcomplete : w.Complete ⟨start, finish, radius⟩) (ids : List BrushId)
    (hids : ∀ id, id ∈ ids ↔ w.Listed id) :
    ∃ tree flat, w.trace? ⟨start, finish, radius⟩ = some tree ∧
      (w.flat ids).trace? ⟨start, finish, radius⟩ = some flat ∧
      tree.fraction = flat.fraction ∧ tree.finish = flat.finish ∧
      tree.startSolid = flat.startSolid ∧ tree.allSolid = flat.allSolid := by
  have hwf := hw.wellFormed
  obtain ⟨p, hp⟩ := hwf.exists_holds
  have hexists : ∀ id ∈ ids, id.index < w.brushes.size := by
    intro id hid
    obtain ⟨⟨_, ⟨brush, hbrush, -⟩, -⟩, -⟩ := (hids id).1 hid
    exact (Array.getElem?_eq_some_iff.1 hbrush).1
  have hflat := hwf.flat hexists
  refine ⟨_, _, hwf.trace?_eq_report hp _, (hflat.trace?_of_leaf (w.node?_root_flat ids) _).2, ?_⟩
  set s : Sweep K := ⟨start, finish, radius⟩
  have hclear := Contact.clear_proper (α := K)
  obtain ⟨met, hmet, hsearch⟩ := hwf.exists_met hp s s.whole Contact.clear
  -- each of the two stops the sweep no later than the other: the tree, for it meets every listed
  -- solid as far as it matters, and the list, for the tree meets nothing else that has faces
  have htree : (p.search w s s.whole Contact.clear).Covers
      ((w.solids ids).foldl (Contact.meet s) Contact.clear) := by
    refine (hwf.search_covers hp s s.whole hclear).1.foldl_meet hclear fun faces hfaces => ?_
    obtain ⟨id, hid, hsolid⟩ := (hwf.mem_solids_iff hexists faces).1 hfaces
    exact hwf.search_covers_listed hp hr hcomplete ((hids id).1 hid) hsolid
  have hlist : ((w.solids ids).foldl (Contact.meet s) Contact.clear).Covers
      (p.search w s s.whole Contact.clear) := by
    rw [hsearch]
    refine (Contact.foldl_meet_covers_init hclear).foldl_meet hclear fun faces hfaces => ?_
    obtain ⟨id, hid, hsolid⟩ := hmet faces hfaces
    cases faces with
    | nil => exact Contact.foldl_meet_covers_init hclear
    | cons face faces =>
      obtain ⟨cell, hcell, hmem⟩ := Partition.mem_brushes_iff.1 hid
      have hlisted : w.Listed id :=
        ⟨⟨_, hsolid, by simp⟩, cell, (hasCell_iff_mem_cells hp.unfolds).2 hcell, hmem⟩
      exact Contact.foldl_meet_covers hclear
        ((hwf.mem_solids_iff hexists _).2 ⟨id, (hids id).2 hlisted, hsolid⟩)
  have hfraction := le_antisymm htree.fraction_le hlist.fraction_le
  -- the list looks its solids up in the same planes and brushes
  have hsame : (w.flat ids).solids ids = w.solids ids := rfl
  simp only [report, hsame, hfraction, true_and]
  exact ⟨Bool.eq_iff_iff.2 ⟨hlist.startSolid, htree.startSolid⟩,
    Bool.eq_iff_iff.2 ⟨hlist.allSolid, htree.allSolid⟩⟩

end World

/-- A wall at fifty, in the front half of a space that is split at thirty. -/
def corridor : Builder ℚ where
  planes := #[⟨⟨1, 0, 0⟩, 30⟩, ⟨⟨-1, 0, 0⟩, -50⟩]
  brushes := #[⟨[.ofIndex 1], true⟩]
  nodes := #[.leaf [.ofIndex 0] .everything, .leaf [] .everything,
    .split (.ofIndex 0) (.ofIndex 0) (.ofIndex 1) .everything]

/-- Only the leaf in front of the split lists the wall, and that is enough. -/
theorem corridor_trace_eq_flat :
    ∃ w : World ℚ, w.Accepted ∧ w.Complete ⟨⟨0, 0, 0⟩, ⟨100, 0, 0⟩, 5⟩ ∧
      ∃ tree flat, w.trace? ⟨⟨0, 0, 0⟩, ⟨100, 0, 0⟩, 5⟩ = some tree ∧
        (w.flat [.ofIndex 0]).trace? ⟨⟨0, 0, 0⟩, ⟨100, 0, 0⟩, 5⟩ = some flat ∧
        tree.fraction = flat.fraction ∧ tree.finish = flat.finish ∧
        tree.startSolid = flat.startSolid ∧ tree.allSolid = flat.allSolid := by
  let w := corridor.toWorld (.ofIndex 2)
  have hw : w.Accepted := World.accepted_of_defect?_eq_none (by decide +kernel)
  have hp : w.Unfolds w.root (.split (.ofIndex 2) (.ofIndex 0) .everything
      (.leaf (.ofIndex 0) [.ofIndex 0] .everything) (.leaf (.ofIndex 1) [] .everything)) :=
    .split rfl (.leaf rfl) (.leaf rfl)
  have hcell (c : Cell) : w.HasCell c ↔ c = ⟨[⟨.ofIndex 0, .front⟩], [.ofIndex 0]⟩ ∨
      c = ⟨[⟨.ofIndex 0, .back⟩], []⟩ := by
    rw [World.hasCell_iff_mem_cells hp]
    simp [Partition.cells, Cell.after]
  have hwall : w.HasSolid (.ofIndex 0) [⟨.ofIndex 1, ⟨⟨-1, 0, 0⟩, -50⟩⟩] := ⟨_, rfl, rfl, rfl⟩
  have hlisted (id : BrushId) : id ∈ [BrushId.ofIndex 0] ↔ w.Listed id := by
    rw [List.mem_singleton]
    constructor
    · rintro rfl
      exact ⟨⟨_, hwall, by simp⟩, _, (hcell _).2 (.inl rfl), by simp⟩
    · rintro ⟨-, c, hc, hid⟩
      rcases (hcell c).1 hc with rfl | rfl
      · exact List.mem_singleton.1 hid
      · cases hid
  have hcomplete : w.Complete ⟨⟨0, 0, 0⟩, ⟨100, 0, 0⟩, 5⟩ := by
    intro id faces hid hfaces t h0 h1 htouch c hc hnear
    obtain rfl := List.mem_singleton.1 ((hlisted id).2 hid)
    obtain rfl := hfaces.unique hwall
    rcases (hcell c).1 hc with rfl | rfl
    · exact List.mem_singleton.2 rfl
    · -- behind the split the sphere is too far from the wall
      obtain ⟨pl, hpl, hreach⟩ := hnear _ List.mem_cons_self
      obtain rfl : (⟨⟨1, 0, 0⟩, 30⟩ : Plane ℚ) = pl := Option.some.inj hpl
      have hback : (⟨⟨1, 0, 0⟩, 30⟩ : Plane ℚ).distanceTo (Sweep.at ⟨⟨0, 0, 0⟩, ⟨100, 0, 0⟩, 5⟩ t) ≤
        5 + traceOffset := hreach
      have hwall := htouch _ List.mem_cons_self
      simp only [Plane.distanceTo, Vec3.dot, Sweep.at, Vec3.lerp_def, Sweep.traceOffset_eq]
        at hback hwall
      exfalso
      linarith
  exact ⟨w, hw, hcomplete, hw.trace_eq_flat _ _ (by norm_num) hcomplete _ hlisted⟩

end Stride
