import Mathlib.Data.Real.Basic
import Stride.Proofs.Sweep.Span
import Stride.Proofs.Sweep.Search
import Stride.Proofs.World.Reading

namespace Stride

/-!
# Where a sweep from a clear position ends

In a level of one leaf a sweep that starts outside every solid ends outside, or less than
`traceOffset` inside.  The second happens in two ways, both because crossings are shifted by
`traceOffset`: a sweep past an edge of a solid may leave it before it enters it, by the shifted
crossings, and be stopped just inside by another solid; and an entry that is shifted back by a whole
sweep or more counts for none.  A solid with a face that has the whole sweep in front is no such
solid, and neither is one that the sweep leaves, if nothing stops it.

* `Ahead` — a point is in front of one of the faces.
* `Sweep.CutsCorner`, `Sweep.Creeps` — the two ways to end inside.
* `Sweep.Overlooks` — a solid in the way of a sweep, past which it gets in one of these ways.
* `isClear_iff` — a position is clear if it is in front of a face of every solid.
* `overlooks_of_inside`, `ahead_at_of_le` — one solid, at any point before it stops the sphere.
* `Accepted.ahead_of_clear` — the end of a sweep that starts clear.
-/

variable {K : Type} [Field K] [LinearOrder K] [HasSqrt K]

/-- A point is farther than `reach` in front of one of the faces. -/
def Ahead (faces : List (Face K)) (reach : K) (point : Vec3 K) : Prop :=
  ∃ face ∈ faces, reach < face.plane.distanceTo point

namespace Sweep

/-- By the shifted crossings, the sweep leaves through one face before it has entered by another. -/
def CutsCorner (s : Sweep K) (faces : List (Face K)) : Prop :=
  ∃ f ∈ faces, ∃ g ∈ faces, s.Enters f.plane ∧ s.Leaves g.plane ∧
    s.leaveAt g.plane ≤ s.enterAt f.plane

/-- By the shifted crossings, the sweep enters by every face a whole sweep or more before its
    start. -/
def Creeps (s : Sweep K) (faces : List (Face K)) : Prop :=
  ∀ face ∈ faces, s.Enters face.plane → s.enterAt face.plane ≤ -1

/-- The sweep gets past a solid by the shifted crossings alone, for no face has all of the sweep in
    front.  A sweep that starts outside enters such a solid by some face (`Sweep.exists_enters`). -/
structure Overlooks (s : Sweep K) (faces : List (Face K)) : Prop where
  /-- No face has the whole sweep in front. -/
  not_misses : ∀ face ∈ faces, ¬ s.Misses face.plane
  /-- The entries are too early to count, or one comes after an exit. -/
  shifted : s.Creeps faces ∨ s.CutsCorner faces

variable [IsStrictOrderedRing K] {s : Sweep K} {faces : List (Face K)} {face : Face K} {t : K}

theorem ahead_start_iff :
    Ahead faces s.radius s.start ↔ ∃ face ∈ faces, 0 < s.startGap face.plane := by
  simp only [Ahead, startGap, sub_pos]

theorem ahead_at (hface : face ∈ faces) (h : 0 < s.gap face.plane t) :
    Ahead faces s.radius (s.at t) := ⟨face, hface, sub_pos.1 h⟩

theorem ahead_at_sub (hface : face ∈ faces) (h : -traceOffset < s.gap face.plane t) :
    Ahead faces (s.radius - traceOffset) (s.at t) := by
  rw [gap] at h
  exact ⟨face, hface, by linarith⟩

/-- A sweep that starts outside a solid enters by some face, if no face has all of it in front. -/
theorem exists_enters (hnot : ∀ face ∈ faces, ¬ s.Misses face.plane)
    (hstart : Ahead faces s.radius s.start) : ∃ face ∈ faces, s.Enters face.plane := by
  obtain ⟨face, hface, hgap⟩ := ahead_start_iff.1 hstart
  have hend : s.endGap face.plane ≤ 0 := by
    by_contra hend
    exact hnot face hface ⟨hgap, not_le.1 hend⟩
  exact ⟨face, hface, hgap, hend⟩

/-- An entry a whole sweep or more before the start means that start and end are close to the
    face. -/
theorem Enters.gap_of_enterAt_le (h : s.Enters face.plane) (hearly : s.enterAt face.plane ≤ -1)
    (h0 : 0 ≤ t) (h1 : t ≤ 1) : -traceOffset < s.gap face.plane t := by
  have hpos := traceOffset_pos (K := K)
  obtain ⟨hgap, hend⟩ := h
  rw [enterAt, div_le_iff₀ (by linarith)] at hearly
  -- the gap is the mean of a positive gap and one that is above `-traceOffset`
  have hfirst : 0 ≤ s.startGap face.plane * (1 - t) := mul_nonneg hgap.le (sub_nonneg.2 h1)
  have hlast : (-traceOffset) * t ≤ s.endGap face.plane * t :=
    mul_le_mul_of_nonneg_right (by linarith) h0
  rw [gap_eq]
  rcases eq_or_lt_of_le h1 with rfl | hlt
  · linarith
  · have hshort : traceOffset * t < traceOffset * 1 := mul_lt_mul_of_pos_left hlt hpos
    linarith

/-- A face that has the whole sweep in front keeps it outside. -/
theorem not_misses_of_inside (hin : ¬ Ahead faces s.radius (s.at t)) (h0 : 0 ≤ t) (h1 : t ≤ 1) :
    ∀ face ∈ faces, ¬ s.Misses face.plane := by
  intro face hface hmiss
  exact hin (ahead_at hface (hmiss.gap_pos h0 h1))

/-- The end of a sweep is in front of the faces that it leaves by. -/
theorem lt_one_or_not_leaves (hin : ¬ Ahead faces s.radius (s.at t)) (h1 : t ≤ 1) :
    t < 1 ∨ ∀ face ∈ faces, ¬ s.Leaves face.plane := by
  rcases eq_or_lt_of_le h1 with rfl | hlt
  · right
    intro face hface hleaves
    refine hin (ahead_at hface ?_)
    rw [gap_one]
    exact hleaves.2
  · exact .inl hlt

end Sweep

/-! ### One solid -/

section

variable {s : Sweep K} {faces : List (Face K)} {t : K}

/-- A sweep creeps into a solid iff the stretch inside begins a whole sweep before its start. -/
theorem Span.Describes.creeps_iff {span : Span K} (h : span.Describes s faces) :
    s.Creeps faces ↔ span.enter ≤ -1 := by
  constructor
  · intro hcreep
    rcases h.enter_eq with ⟨heq, -⟩ | ⟨face, hface, henters, heq, -⟩
    · exact heq.le
    · exact heq.le.trans (hcreep face hface henters)
  · intro hle face hface henters
    exact (h.enterAt_le face hface henters).trans hle

variable [IsStrictOrderedRing K]

/-- A sweep cuts a corner of a solid iff the stretch inside ends before it begins. -/
theorem Span.Describes.cutsCorner_iff {span : Span K} (h : span.Describes s faces)
    (hneg : -1 < span.enter) : s.CutsCorner faces ↔ span.exit ≤ span.enter := by
  constructor
  · rintro ⟨f, hf, g, hg, henters, hleaves, hle⟩
    exact (h.le_leaveAt g hg hleaves).trans (hle.trans (h.enterAt_le f hf henters))
  · intro hle
    obtain ⟨f, hf, henters, henter, -⟩ := h.enter_eq.resolve_left fun h => hneg.ne' h.1
    rw [henter] at hle
    rcases h.exit_eq with hexit | ⟨g, hg, hleaves, hexit⟩
    · exact absurd (hexit.ge.trans hle) (not_le.2 henters.enterAt_lt_one)
    · exact ⟨f, hf, g, hg, henters, hleaves, hexit.ge.trans hle⟩

/-- A sphere inside a solid is past the entry with which the stretch inside begins. -/
theorem Span.Describes.enter_lt_of_inside {span : Span K} (h : span.Describes s faces)
    (hneg : -1 < span.enter) (hin : ¬ Ahead faces s.radius (s.at t)) : span.enter < t := by
  obtain ⟨face, hface, henters, henter, -⟩ := h.enter_eq.resolve_left fun h => hneg.ne' h.1
  by_contra hle
  rw [not_lt, henter, henters.le_enterAt_iff] at hle
  exact hin (Sweep.ahead_at hface ((Sweep.traceOffset_pos (K := K)).trans_le hle))

/-- After the exit with which the stretch inside ends, the sphere is less than `traceOffset` behind
    the face of the exit. -/
theorem Span.Describes.ahead_at_sub {span : Span K} (h : span.Describes s faces)
    (hearly : span.exit < 1) (ht : span.exit < t) :
    Ahead faces (s.radius - traceOffset) (s.at t) := by
  obtain ⟨face, hface, hleaves, hleave⟩ := h.exit_eq.resolve_left hearly.ne
  refine Sweep.ahead_at_sub hface ?_
  rw [← not_le, ← hleaves.le_leaveAt_iff, not_le, ← hleave]
  exact ht

namespace Contact

/-- A sphere that is inside a solid before the solid stops it has overlooked the solid, and is less
    than `traceOffset` inside. -/
theorem overlooks_of_inside (hstart : Ahead faces s.radius s.start) (h0 : 0 ≤ t)
    (ht : t ≤ (alone s faces).fraction) (hin : ¬ Ahead faces s.radius (s.at t)) :
    s.Overlooks faces ∧ Ahead faces (s.radius - traceOffset) (s.at t) := by
  have h1 : t ≤ 1 := ht.trans (alone_proper s faces).2
  have hnot := Sweep.not_misses_of_inside hin h0 h1
  by_cases hcreep : s.Creeps faces
  · obtain ⟨face, hface, henters⟩ := Sweep.exists_enters hnot hstart
    have hgap := henters.gap_of_enterAt_le (hcreep face hface henters) h0 h1
    exact ⟨⟨hnot, .inl hcreep⟩, Sweep.ahead_at_sub hface hgap⟩
  have hsome : s.span? faces ≠ none := by
    intro hnone
    obtain ⟨face, hface, hmiss⟩ := Sweep.span?_eq_none_iff.1 hnone
    exact hnot face hface hmiss
  obtain ⟨span, hspan⟩ := Option.ne_none_iff_exists'.1 hsome
  have hdesc := Sweep.span?_describes hspan
  -- some entry counts, and the sphere is past it
  have hneg : -1 < span.enter := not_le.1 (mt hdesc.creeps_iff.2 hcreep)
  have hlate : span.enter < t := hdesc.enter_lt_of_inside hneg hin
  -- the solid did not stop the sphere there, so the exit comes before the entry
  have hexit : span.exit ≤ span.enter := by
    by_contra hlt
    have hout := hdesc.startsOut_iff.2 (Sweep.ahead_start_iff.1 hstart)
    rw [alone_fraction_of_enters hspan hout (not_le.1 hlt) hneg] at ht
    rcases le_max_iff.1 ht with h | h
    · exact absurd h (not_le.2 hlate)
    · rw [le_antisymm h h0, Sweep.at_zero] at hin
      exact hin hstart
  have hcut : s.CutsCorner faces := (hdesc.cutsCorner_iff hneg).2 hexit
  have hleft : span.exit < t := hexit.trans_lt hlate
  exact ⟨⟨hnot, .inr hcut⟩, hdesc.ahead_at_sub (hleft.trans_le h1) hleft⟩

/-- **One solid.** At every point up to where a solid stops it, a sphere that starts outside the
    solid is outside, or it is less than `traceOffset` inside a solid that it overlooks.  The end of
    the sweep is outside a solid that the sweep leaves. -/
theorem ahead_at_of_le (hstart : Ahead faces s.radius s.start) (h0 : 0 ≤ t)
    (ht : t ≤ (alone s faces).fraction) :
    Ahead faces s.radius (s.at t) ∨ (Ahead faces (s.radius - traceOffset) (s.at t) ∧
      s.Overlooks faces ∧ (t < 1 ∨ ∀ face ∈ faces, ¬ s.Leaves face.plane)) := by
  by_cases hin : Ahead faces s.radius (s.at t)
  · exact .inl hin
  · obtain ⟨hover, hsub⟩ := overlooks_of_inside hstart h0 ht hin
    have h1 : t ≤ 1 := ht.trans (alone_proper s faces).2
    exact .inr ⟨hsub, hover, Sweep.lt_one_or_not_leaves hin h1⟩

end Contact

end

/-! ### The whole level -/

namespace World

variable [IsStrictOrderedRing K] {w : World K} {ids : List BrushId} {bounds : Bounds}

/-- The report of a proper hit. -/
theorem report_eq (w : World K) (s : Sweep K) {c : Contact K} (hc : c.Proper) :
    (w.report s c).fraction = c.fraction ∧ (w.report s c).finish = s.at c.fraction := by
  have hfraction : Scalar.clamp 0 1 c.fraction = c.fraction := w.report_fraction s hc
  simp only [report, hfraction, true_and]
  split_ifs with hlt
  · rfl
  · rw [le_antisymm hc.2 (not_lt.1 hlt), Sweep.at_one]

/-- **Clear positions.** In a level of one leaf a position is clear iff the sphere is there in
    front of some face of every listed solid with faces. -/
theorem WellFormed.isClear_iff (hw : w.WellFormed)
    (hroot : w.node? w.root = some (.leaf ids bounds)) (point : Vec3 K) (radius : K) :
    w.isClear point radius = true ↔
      ∀ id ∈ ids, ∀ faces, w.HasSolid id faces → faces ≠ [] → Ahead faces radius point := by
  rw [← Bool.not_eq_false, hw.isClear_eq_false_iff_of_leaf hroot]
  simp only [not_exists, not_and, not_forall, not_not, exists_prop, sub_pos]
  rfl

/-- **A sweep that starts clear.** In an accepted level of one leaf, a sweep that starts at a clear
    position ends in front of some face of every listed solid with faces, or less than `traceOffset`
    behind it.  The second only for a solid that the sweep overlooks, and if something else stops it
    or it does not leave the solid by any face.  So it ends at a clear position, unless there is
    such a solid. -/
theorem Accepted.ahead_of_clear (hw : w.Accepted) (hroot : w.node? w.root = some (.leaf ids bounds))
    (start finish : Vec3 K) (radius : K) (hclear : w.isClear start radius = true) :
    ∃ t, w.trace? ⟨start, finish, radius⟩ = some t ∧ w.trace start finish radius = t ∧
      (∀ id ∈ ids, ∀ faces, w.HasSolid id faces → faces ≠ [] →
        Ahead faces radius t.finish ∨
          (Ahead faces (radius - traceOffset) t.finish ∧
            Sweep.Overlooks ⟨start, finish, radius⟩ faces ∧
            (t.fraction < 1 ∨
              ∀ face ∈ faces, ¬ Sweep.Leaves ⟨start, finish, radius⟩ face.plane))) ∧
      ((∀ id ∈ ids, ∀ faces, w.HasSolid id faces → faces ≠ [] →
        Sweep.Overlooks ⟨start, finish, radius⟩ faces →
          t.fraction = 1 ∧ ∃ face ∈ faces, Sweep.Leaves ⟨start, finish, radius⟩ face.plane) →
        w.isClear t.finish radius = true) := by
  have hwf := hw.wellFormed
  obtain ⟨hids, htrace⟩ := hwf.trace?_of_leaf hroot ⟨start, finish, radius⟩
  have hstart := (hwf.isClear_iff hroot start radius).1 hclear
  set s : Sweep K := ⟨start, finish, radius⟩
  set c := (w.solids ids).foldl (Contact.meet s) Contact.clear
  have hproper : c.Proper := Contact.foldl_meet_proper Contact.clear_proper
  obtain ⟨hfraction, hfinish⟩ := w.report_eq s hproper
  -- the sweep ends before each of the solids stops it
  have hend : ∀ id ∈ ids, ∀ faces, w.HasSolid id faces → faces ≠ [] →
      Ahead faces radius (s.at c.fraction) ∨ (Ahead faces (radius - traceOffset) (s.at c.fraction) ∧
        s.Overlooks faces ∧ (c.fraction < 1 ∨ ∀ face ∈ faces, ¬ s.Leaves face.plane)) := by
    intro id hid faces hfaces hne
    have hmem := (hwf.mem_solids_iff hids faces).2 ⟨id, hid, hfaces⟩
    exact Contact.ahead_at_of_le (hstart id hid faces hfaces hne) hproper.nonneg
      (Contact.foldl_meet_fraction_le Contact.clear_proper hmem)
  refine ⟨w.report s c, htrace, trace_eq_of_trace? htrace, ?_, fun hplain => ?_⟩
  · rw [hfraction, hfinish]
    exact hend
  · rw [hfinish, hwf.isClear_iff hroot]
    intro id hid faces hfaces hne
    rcases hend id hid faces hfaces hne with hahead | ⟨-, hover, hstop⟩
    · exact hahead
    · -- the sweep goes its whole way and leaves the solid
      obtain ⟨hwhole, face, hface, hleaves⟩ := hplain id hid faces hfaces hne hover
      rw [hfraction] at hwhole
      rcases hstop with hlt | hnot
      · exact absurd hwhole hlt.ne
      · exact absurd hleaves (hnot face hface)

end World

/-- A solid quarter of space behind an edge, and a wall just beyond the edge. -/
def edge : Builder ℚ where
  planes := #[⟨⟨-1, 0, 0⟩, 0⟩, ⟨⟨0, 0, 1⟩, 0⟩, ⟨⟨-1, 0, 0⟩, -3 / 32⟩]
  brushes := #[⟨[.ofIndex 0, .ofIndex 1], true⟩, ⟨[.ofIndex 2], true⟩]
  nodes := #[.leaf [.ofIndex 0, .ofIndex 1] .everything]

/-- Half of space is solid. -/
def ground : Builder ℚ where
  planes := #[⟨⟨0, 0, 1⟩, 0⟩]
  brushes := #[⟨[.ofIndex 0], true⟩]
  nodes := #[.leaf [.ofIndex 0] .everything]

theorem edge_accepted : (edge.toWorld (.ofIndex 0)).Accepted :=
  World.accepted_of_defect?_eq_none (by decide +kernel)

theorem ground_accepted : (ground.toWorld (.ofIndex 0)).Accepted :=
  World.accepted_of_defect?_eq_none (by decide +kernel)

/-- The same half of space, read over the reals. -/
noncomputable def realGround : World ℝ :=
  (ground.toWorld (.ofIndex 0)).map fun q : ℚ => (q : ℝ)

theorem realGround_accepted : realGround.Accepted := ground_accepted.map _

/-- The solid behind the edge and the wall. -/
theorem edge_solid_cases {id : BrushId} {faces : List (Face ℚ)}
    (hid : id ∈ [BrushId.ofIndex 0, BrushId.ofIndex 1])
    (hfaces : (edge.toWorld (.ofIndex 0)).HasSolid id faces) :
    faces = [⟨.ofIndex 0, ⟨⟨-1, 0, 0⟩, 0⟩⟩, ⟨.ofIndex 1, ⟨⟨0, 0, 1⟩, 0⟩⟩] ∨
      faces = [⟨.ofIndex 2, ⟨⟨-1, 0, 0⟩, -3 / 32⟩⟩] := by
  rw [List.mem_pair] at hid
  rcases hid with rfl | rfl
  · exact .inl (hfaces.unique ⟨_, rfl, rfl, rfl⟩)
  · exact .inr (hfaces.unique ⟨_, rfl, rfl, rfl⟩)

/-- The sweep past the edge is stopped by the wall, just inside the solid behind the edge.  The
    level sweep above the edge misses that solid and is stopped outside the wall.  The sweep that
    cuts the corner overlooks the solid and leaves it before its end. -/
theorem edge_ahead_of_clear :
    ((edge.toWorld (.ofIndex 0)).isClear ⟨-1, 0, -9 / 64⟩ 0 = true ∧
      ∃ t, (edge.toWorld (.ofIndex 0)).trace? ⟨⟨-1, 0, -9 / 64⟩, ⟨1, 0, 7 / 64⟩, 0⟩ = some t ∧
        t.fraction = 17 / 32 ∧
        ∀ id ∈ [BrushId.ofIndex 0, BrushId.ofIndex 1], ∀ faces,
          (edge.toWorld (.ofIndex 0)).HasSolid id faces → faces ≠ [] →
          Ahead faces 0 t.finish ∨ (Ahead faces (0 - traceOffset) t.finish ∧
            Sweep.Overlooks ⟨⟨-1, 0, -9 / 64⟩, ⟨1, 0, 7 / 64⟩, 0⟩ faces ∧
            (t.fraction < 1 ∨ ∀ face ∈ faces,
              ¬ Sweep.Leaves ⟨⟨-1, 0, -9 / 64⟩, ⟨1, 0, 7 / 64⟩, 0⟩ face.plane))) ∧
    ((edge.toWorld (.ofIndex 0)).isClear ⟨-1, 0, 1⟩ 0 = true ∧
      ∃ t, (edge.toWorld (.ofIndex 0)).trace? ⟨⟨-1, 0, 1⟩, ⟨1, 0, 1⟩, 0⟩ = some t ∧
        t.fraction = 17 / 32 ∧ (edge.toWorld (.ofIndex 0)).isClear t.finish 0 = true) ∧
    ((edge.toWorld (.ofIndex 0)).isClear ⟨-1, 0, -9 / 64⟩ 0 = true ∧
      ∃ t, (edge.toWorld (.ofIndex 0)).trace? ⟨⟨-1, 0, -9 / 64⟩, ⟨1 / 16, 0, 1 / 256⟩, 0⟩ =
          some t ∧
        t.fraction = 1 ∧ (edge.toWorld (.ofIndex 0)).isClear t.finish 0 = true) := by
  have hclear : (edge.toWorld (.ofIndex 0)).isClear ⟨-1, 0, -9 / 64⟩ 0 = true := by
    decide +kernel
  refine ⟨⟨hclear, ?_⟩, ⟨by decide +kernel, ?_⟩, hclear, ?_⟩
  · obtain ⟨t, htrace, heq, hend, -⟩ :=
      edge_accepted.ahead_of_clear rfl ⟨-1, 0, -9 / 64⟩ ⟨1, 0, 7 / 64⟩ 0 hclear
    refine ⟨t, htrace, ?_, hend⟩
    rw [← heq]
    decide +kernel
  · obtain ⟨t, htrace, heq, -, hplain⟩ :=
      edge_accepted.ahead_of_clear rfl ⟨-1, 0, 1⟩ ⟨1, 0, 1⟩ 0 (by decide +kernel)
    refine ⟨t, htrace, ?_, hplain ?_⟩
    · rw [← heq]
      decide +kernel
    intro id hid faces hfaces _ hover
    rcases edge_solid_cases hid hfaces with rfl | rfl
    · -- the upper face has the whole sweep in front
      have hmiss := hover.not_misses ⟨.ofIndex 1, ⟨⟨0, 0, 1⟩, 0⟩⟩ (by simp)
      exact absurd ⟨by decide +kernel, by decide +kernel⟩ hmiss
    · -- the sweep enters the wall halfway, and there is no face to leave it by
      rcases hover.shifted with hcreep | ⟨-, -, face, hface, -, hleaves, -⟩
      · have hle := hcreep _ List.mem_cons_self ⟨by decide +kernel, by decide +kernel⟩
        exact absurd hle (by decide +kernel)
      · obtain rfl := List.mem_singleton.1 hface
        exact absurd hleaves.1 (by decide +kernel)
  · obtain ⟨t, htrace, heq, -, hplain⟩ :=
      edge_accepted.ahead_of_clear rfl ⟨-1, 0, -9 / 64⟩ ⟨1 / 16, 0, 1 / 256⟩ 0 hclear
    have hwhole : t.fraction = 1 := by
      rw [← heq]
      decide +kernel
    refine ⟨t, htrace, hwhole, hplain ?_⟩
    intro id hid faces hfaces _ hover
    rcases edge_solid_cases hid hfaces with rfl | rfl
    · exact ⟨hwhole, ⟨.ofIndex 1, ⟨⟨0, 0, 1⟩, 0⟩⟩, by simp, by decide +kernel, by decide +kernel⟩
    · -- the sweep ends in front of the wall
      exact absurd ⟨by decide +kernel, by decide +kernel⟩ (hover.not_misses _ List.mem_cons_self)

/-- A sweep that starts clear may end inside a solid: past the edge, where it leaves the solid
    before it enters it, and through the ground, where start and end are close to it. -/
theorem clear_start_ends_inside :
    ((edge.toWorld (.ofIndex 0)).Accepted ∧
      (edge.toWorld (.ofIndex 0)).isClear ⟨-1, 0, -9 / 64⟩ 0 = true ∧
      (edge.toWorld (.ofIndex 0)).isClear
        ((edge.toWorld (.ofIndex 0)).trace ⟨-1, 0, -9 / 64⟩ ⟨1, 0, 7 / 64⟩ 0).finish 0 = false) ∧
    ((ground.toWorld (.ofIndex 0)).Accepted ∧
      (ground.toWorld (.ofIndex 0)).isClear ⟨0, 0, 1 / 1024⟩ 0 = true ∧
      (ground.toWorld (.ofIndex 0)).isClear
        ((ground.toWorld (.ofIndex 0)).trace ⟨0, 0, 1 / 1024⟩ ⟨0, 0, -1 / 1024⟩ 0).finish 0 =
        false) := by
  refine ⟨⟨edge_accepted, ?_, ?_⟩, ⟨ground_accepted, ?_, ?_⟩⟩ <;> decide +kernel

end Stride
