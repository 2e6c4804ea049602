import Stride.Proofs.Sweep.Depth

namespace Stride

/-!
# Looking there and back

In exact arithmetic a line of sight is free if it gets past every solid.  Most solids are passed in
the same way from both ends of the line: one face has both ends in front.  What is left are solids
that the line gets past by the shifted crossings alone, and since all crossings are shifted against
the direction of the sweep, it may get past such a solid on the way there and not on the way back.
This happens only where the line grazes the solid.

* `Sweep.reverse` — the way back.
* `Sweep.Slips` — a sweep that gets past a solid by the shifted crossings.
* `Contact.Free`, `alone_free_iff` — when a solid does not stop a sweep.
* `lineOfSight_iff` — what a line of sight says.
* `Sweep.Grazes`, `Slips.grazes` — how close a line is to a solid that tells its ends apart.
* `Accepted.sight_there_and_back` — the two directions of a line.
-/

variable {K : Type} [Field K] [LinearOrder K] [HasSqrt K]

namespace Sweep

/-- The same way from its end to its start. -/
def reverse (s : Sweep K) : Sweep K := ⟨s.finish, s.start, s.radius⟩

/-- The sweep starts outside a solid, and by the shifted crossings it enters too early to count or
    leaves before it enters. -/
def Slips (s : Sweep K) (faces : List (Face K)) : Prop :=
  Ahead faces s.radius s.start ∧ (s.Creeps faces ∨ s.CutsCorner faces)

/-- The sweep comes as close to a solid as `traceOffset`, and nowhere goes as deep into it. -/
structure Grazes (s : Sweep K) (faces : List (Face K)) : Prop where
  /-- No point is as deep as `traceOffset` behind all faces. -/
  shallow : ∀ t, 0 ≤ t → t ≤ 1 → ∃ face ∈ faces, -traceOffset < s.gap face.plane t
  /-- Some point is at most `traceOffset` in front of every face. -/
  close : ∃ t, 0 ≤ t ∧ t ≤ 1 ∧ ∀ face ∈ faces, s.gap face.plane t ≤ traceOffset

variable {s : Sweep K} {p : Plane K} {t : K} {faces : List (Face K)}

theorem reverse_at (s : Sweep K) (t : K) : s.reverse.at t = s.at (1 - t) := by
  simp only [Sweep.at, reverse, Vec3.lerp_def, Vec3.mk.injEq]
  refine ⟨?_, ?_, ?_⟩ <;> ring

theorem reverse_gap (s : Sweep K) (p : Plane K) (t : K) : s.reverse.gap p t = s.gap p (1 - t) := by
  rw [gap, gap, reverse_at]
  rfl

theorem reverse_misses_iff : s.reverse.Misses p ↔ s.Misses p := and_comm

end Sweep

variable {s : Sweep K} {faces : List (Face K)}

/-! ### One solid -/

variable [IsStrictOrderedRing K]

namespace Contact

/-- The sphere starts outside and is not stopped. -/
def Free (c : Contact K) : Prop := c.startSolid = false ∧ ¬ c.fraction < 1

/-- Meeting solids leaves a sweep free iff each of them alone does. -/
theorem foldl_meet_free_iff {met : List (List (Face K))} :
    (met.foldl (Contact.meet s) clear).Free ↔ ∀ faces ∈ met, (alone s faces).Free := by
  have hclear := clear_proper (α := K)
  constructor
  · rintro ⟨hsolid, hfraction⟩ faces hfaces
    have hcovers := foldl_meet_covers (s := s) hclear hfaces
    constructor
    · rw [← Bool.not_eq_true] at hsolid ⊢
      exact fun h => hsolid (hcovers.startSolid h)
    · exact fun h => hfraction (hcovers.fraction_le.trans_lt h)
  · intro h
    constructor
    · rw [← Bool.not_eq_true, foldl_meet_startSolid_iff]
      rintro ⟨faces, hfaces, hsolid⟩
      cases hsolid.symm.trans (h faces hfaces).1
    · have hbest : (met.foldl (Contact.meet s) clear).fraction = _ ∨ _ :=
        foldl_meet_fraction_eq hclear
      rcases hbest with heq | ⟨faces, hfaces, heq⟩
      · rw [heq]
        exact lt_irrefl _
      · rw [heq]
        exact (h faces hfaces).2

/-- The stretch inside a solid leaves the sweep free iff the sphere starts outside and the entry
    comes after the exit or too early to count. -/
theorem alone_free_iff_of_span {span : Span K} (hne : faces ≠ [])
    (hspan : s.span? faces = some span) : (alone s faces).Free ↔
      span.startsOut = true ∧ ¬ (span.enter < span.exit ∧ -1 < span.enter) := by
  obtain ⟨hnone, -⟩ | ⟨span', -, hspan', hmeet⟩ := meet_cases s faces
  · cases hspan.symm.trans (hnone.resolve_left hne)
  obtain rfl : span = span' := Option.some.inj (hspan.symm.trans hspan')
  rw [Free, alone, hmeet, meetSpan_startSolid]
  by_cases hout : span.startsOut = true
  · have hnone : ((clear : Contact K).startSolid || !true) = false := rfl
    rw [meetSpan_fraction_of_startsOut hout, hout, and_iff_right hnone, and_iff_right rfl]
    constructor
    · rintro hnot ⟨hexit, hneg⟩
      have hlt : span.enter < 1 := hexit.trans_le (Sweep.span?_describes hspan).exit_le
      rw [if_pos ⟨hexit, hneg, hlt⟩, Scalar.maxNum_eq_max] at hnot
      exact hnot (max_lt hlt zero_lt_one)
    · intro h
      rw [if_neg fun hin => h ⟨hin.1, hin.2.1⟩]
      exact lt_irrefl _
  · rw [Bool.eq_false_of_not_eq_true hout]
    exact iff_of_false (fun h => Bool.noConfusion h.1) (fun h => Bool.noConfusion h.1)

/-- **One solid.** A solid with faces leaves a sweep free iff one face has the whole sweep in front,
    or the sweep slips past it. -/
theorem alone_free_iff (hne : faces ≠ []) :
    (alone s faces).Free ↔ (∃ face ∈ faces, s.Misses face.plane) ∨ s.Slips faces := by
  cases hspan : s.span? faces with
  | none =>
    have hpass : alone s faces = clear := by
      rcases meet_cases s faces with ⟨-, hpass⟩ | ⟨span, -, hsome, -⟩
      · exact hpass clear
      · cases hspan.symm.trans hsome
    rw [hpass]
    exact iff_of_true ⟨rfl, lt_irrefl _⟩ (.inl (Sweep.span?_eq_none_iff.1 hspan))
  | some span =>
    have hdesc := Sweep.span?_describes hspan
    have hmiss : ¬ ∃ face ∈ faces, s.Misses face.plane := by
      rintro ⟨face, hface, h⟩
      exact hdesc.not_misses face hface h
    rw [alone_free_iff_of_span hne hspan, or_iff_right hmiss, Sweep.Slips, Sweep.ahead_start_iff,
      ← hdesc.startsOut_iff, hdesc.creeps_iff, not_and_or, not_lt, not_lt]
    refine and_congr_right fun _ => ?_
    rcases le_or_gt span.enter (-1) with hneg | hneg
    · exact iff_of_true (.inr hneg) (.inl hneg)
    · rw [hdesc.cutsCorner_iff hneg, or_iff_left (not_le.2 hneg), or_iff_right (not_le.2 hneg)]

end Contact

/-- A sweep that slips past a solid on the way there, and does not get past it on the way back,
    grazes it. -/
theorem Sweep.Slips.grazes (hne : faces ≠ []) (hslips : s.Slips faces)
    (hback : ¬ (Contact.alone s.reverse faces).Free) : s.Grazes faces where
  shallow t h0 h1 := by
    have hfree := (Contact.alone_free_iff hne).2 (.inr hslips)
    obtain ⟨face, hface, hgap⟩ :=
      Contact.ahead_sub_of_le hslips.1 h0 (h1.trans (not_lt.1 hfree.2))
    refine ⟨face, hface, ?_⟩
    rw [gap]
    linarith
  close := by
    have hpos := (traceOffset_pos (K := K)).le
    simp only [Contact.Free, not_and_or, not_not, Bool.not_eq_false] at hback
    rcases hback with hsolid | hstop
    · -- the end is inside
      obtain ⟨-, hinside⟩ := Contact.alone_startSolid_iff.1 hsolid
      refine ⟨1, zero_le_one, le_refl 1, fun face hface => ?_⟩
      rw [gap_one]
      exact (hinside face hface).trans hpos
    · obtain ⟨hnonneg, hgap⟩ := Contact.gap_le_of_alone hstop
      refine ⟨_, sub_nonneg.2 hstop.le, sub_le_self 1 hnonneg, fun face hface => ?_⟩
      rw [← reverse_gap]
      exact hgap face hface

/-- A sweep grazes what the way back grazes. -/
theorem Sweep.Grazes.of_reverse (h : s.reverse.Grazes faces) : s.Grazes faces where
  shallow t h0 h1 := by
    obtain ⟨face, hface, hgap⟩ := h.shallow (1 - t) (sub_nonneg.2 h1) (sub_le_self 1 h0)
    rw [reverse_gap, sub_sub_cancel] at hgap
    exact ⟨face, hface, hgap⟩
  close := by
    obtain ⟨t, h0, h1, hgap⟩ := h.close
    refine ⟨1 - t, sub_nonneg.2 h1, sub_le_self 1 h0, fun face hface => ?_⟩
    rw [← reverse_gap]
    exact hgap face hface

/-! ### The line of sight -/

namespace World

variable {w : World K} {ids : List BrushId} {bounds : Bounds} {a b : Vec3 K}

/-- A line of sight is free iff each listed solid with faces leaves it free. -/
theorem WellFormed.lineOfSight_iff_free (hw : w.WellFormed)
    (hroot : w.node? w.root = some (.leaf ids bounds)) (a b : Vec3 K) :
    w.lineOfSight a b = true ↔
      ∀ id ∈ ids, ∀ faces, w.HasSolid id faces → faces ≠ [] →
        (Contact.alone ⟨a, b, 0⟩ faces).Free := by
  obtain ⟨hids, htrace⟩ := hw.trace?_of_leaf hroot ⟨a, b, 0⟩
  set s : Sweep K := ⟨a, b, 0⟩
  set c := (w.solids ids).foldl (Contact.meet s) Contact.clear with hc
  -- the report has the flag and the fraction of the hit that the solids leave
  have hsight : w.lineOfSight a b = true ↔ c.Free := by
    have hproper : c.Proper := Contact.foldl_meet_proper Contact.clear_proper
    have hhit : (w.report s c).Hit ↔ c.fraction < 1 := by
      rw [Trace.Hit, w.report_fraction s hproper]
    rw [lineOfSight, trace, htrace, Option.getD_some, Bool.and_eq_true, Bool.not_eq_true',
      Bool.not_eq_true', decide_eq_false_iff_not, hhit]
    rfl
  rw [hsight, hc, Contact.foldl_meet_free_iff]
  constructor
  · intro h id hid faces hfaces _
    exact h faces ((hw.mem_solids_iff hids faces).2 ⟨id, hid, hfaces⟩)
  · intro h faces hmem
    obtain ⟨id, hid, hfaces⟩ := (hw.mem_solids_iff hids faces).1 hmem
    by_cases hne : faces = []
    · subst hne
      exact ⟨rfl, lt_irrefl _⟩
    · exact h id hid faces hfaces hne

/-- **The line of sight.** In an accepted level of one leaf a line of sight is free iff every listed
    solid with faces has a face with both ends in front, or the line slips past it. -/
theorem WellFormed.lineOfSight_iff (hw : w.WellFormed)
    (hroot : w.node? w.root = some (.leaf ids bounds)) (a b : Vec3 K) :
    w.lineOfSight a b = true ↔
      ∀ id ∈ ids, ∀ faces, w.HasSolid id faces → faces ≠ [] →
        (∃ face ∈ faces, Sweep.Misses ⟨a, b, 0⟩ face.plane) ∨ Sweep.Slips ⟨a, b, 0⟩ faces := by
  rw [hw.lineOfSight_iff_free hroot]
  refine forall₅_congr fun id _ faces _ hne => ?_
  exact Contact.alone_free_iff hne

/-- A line that is free in one direction only slips past a solid in just that direction.  No face of
    the solid has both ends in front. -/
theorem WellFormed.exists_grazed (hw : w.WellFormed)
    (hroot : w.node? w.root = some (.leaf ids bounds)) (hthere : w.lineOfSight a b = true)
    (hback : ¬ w.lineOfSight b a = true) :
    ∃ id ∈ ids, ∃ faces, w.HasSolid id faces ∧
      (∀ face ∈ faces, ¬ Sweep.Misses ⟨a, b, 0⟩ face.plane) ∧ Sweep.Slips ⟨a, b, 0⟩ faces ∧
      ¬ Sweep.Slips ⟨b, a, 0⟩ faces ∧ Sweep.Grazes ⟨a, b, 0⟩ faces := by
  rw [hw.lineOfSight_iff_free hroot] at hback
  push Not at hback
  obtain ⟨id, hid, faces, hfaces, hne, hstop⟩ := hback
  have hstop' := hstop
  rw [Contact.alone_free_iff hne, not_or] at hstop'
  obtain ⟨hback, hnot⟩ := hstop'
  -- a face that has both ends in front has them in front on the way back
  have hmiss : ∀ face ∈ faces, ¬ Sweep.Misses ⟨a, b, 0⟩ face.plane := by
    intro face hface h
    exact hback ⟨face, hface, Sweep.reverse_misses_iff.2 h⟩
  have hslips : Sweep.Slips ⟨a, b, 0⟩ faces := by
    refine ((hw.lineOfSight_iff hroot a b).1 hthere id hid faces hfaces hne).resolve_left ?_
    rintro ⟨face, hface, h⟩
    exact hmiss face hface h
  exact ⟨id, hid, faces, hfaces, hmiss, hslips, hnot, hslips.grazes hne hstop⟩

/-- **There and back.** In an accepted level of one leaf a line of sight is free iff every listed
    solid with faces has a face with both ends in front, or the line slips past it.  It is free in
    both directions or in none, unless there is a listed solid without such a face past which it
    slips in just one direction; and that solid it grazes. -/
theorem Accepted.sight_there_and_back (hw : w.Accepted)
    (hroot : w.node? w.root = some (.leaf ids bounds)) (a b : Vec3 K) :
    (w.lineOfSight a b = true ↔
      ∀ id ∈ ids, ∀ faces, w.HasSolid id faces → faces ≠ [] →
        (∃ face ∈ faces, Sweep.Misses ⟨a, b, 0⟩ face.plane) ∨ Sweep.Slips ⟨a, b, 0⟩ faces) ∧
    (w.lineOfSight a b = w.lineOfSight b a ∨
      ∃ id ∈ ids, ∃ faces, w.HasSolid id faces ∧
        (∀ face ∈ faces, ¬ Sweep.Misses ⟨a, b, 0⟩ face.plane) ∧
        (Sweep.Slips ⟨a, b, 0⟩ faces ↔ ¬ Sweep.Slips ⟨b, a, 0⟩ faces) ∧
        Sweep.Grazes ⟨a, b, 0⟩ faces) := by
  refine ⟨hw.wellFormed.lineOfSight_iff hroot a b, ?_⟩
  by_cases hthere : w.lineOfSight a b = true <;> by_cases hback : w.lineOfSight b a = true
  · exact .inl (hthere.trans hback.symm)
  · obtain ⟨id, hid, faces, hfaces, hmiss, hslips, hnot, hgrazes⟩ :=
      hw.wellFormed.exists_grazed hroot hthere hback
    exact .inr ⟨id, hid, faces, hfaces, hmiss, iff_of_true hslips hnot, hgrazes⟩
  · obtain ⟨id, hid, faces, hfaces, hmiss, hslips, hnot, hgrazes⟩ :=
      hw.wellFormed.exists_grazed hroot hback hthere
    have hmiss' : ∀ face ∈ faces, ¬ Sweep.Misses ⟨a, b, 0⟩ face.plane := by
      intro face hface h
      exact hmiss face hface (Sweep.reverse_misses_iff.2 h)
    exact .inr ⟨id, hid, faces, hfaces, hmiss', iff_of_false hnot (not_not.2 hslips),
      hgrazes.of_reverse⟩
  · rw [Bool.not_eq_true] at hthere hback
    exact .inl (hthere.trans hback.symm)

end World

/-- From just below the ground one does not see what is just above it, and from there one sees what
    is just below.  The line grazes the ground. -/
theorem ground_sight_there_and_back :
    (ground.toWorld (.ofIndex 0)).lineOfSight ⟨0, 0, -1 / 1024⟩ ⟨0, 0, 1 / 1024⟩ = false ∧
    (ground.toWorld (.ofIndex 0)).lineOfSight ⟨0, 0, 1 / 1024⟩ ⟨0, 0, -1 / 1024⟩ = true ∧
      ∃ id ∈ [BrushId.ofIndex 0], ∃ faces, (ground.toWorld (.ofIndex 0)).HasSolid id faces ∧
        (∀ face ∈ faces,
          ¬ Sweep.Misses ⟨⟨0, 0, -1 / 1024⟩, ⟨0, 0, 1 / 1024⟩, 0⟩ face.plane) ∧
        (Sweep.Slips ⟨⟨0, 0, -1 / 1024⟩, ⟨0, 0, 1 / 1024⟩, 0⟩ faces ↔
          ¬ Sweep.Slips ⟨⟨0, 0, 1 / 1024⟩, ⟨0, 0, -1 / 1024⟩, 0⟩ faces) ∧
        Sweep.Grazes ⟨⟨0, 0, -1 / 1024⟩, ⟨0, 0, 1 / 1024⟩, 0⟩ faces := by
  have hthere : (ground.toWorld (.ofIndex 0)).lineOfSight ⟨0, 0, -1 / 1024⟩ ⟨0, 0, 1 / 1024⟩ =
      false := by
    decide +kernel
  have hback : (ground.toWorld (.ofIndex 0)).lineOfSight ⟨0, 0, 1 / 1024⟩ ⟨0, 0, -1 / 1024⟩ =
      true := by
    decide +kernel
  have hboth := (ground_accepted.sight_there_and_back rfl ⟨0, 0, -1 / 1024⟩ ⟨0, 0, 1 / 1024⟩).2
  refine ⟨hthere, hback, hboth.resolve_left ?_⟩
  rw [hthere, hback]
  exact Bool.false_ne_true

/-- Two points need not see each other alike.  The line across the edge is free in one direction
    only, and both of its ends are clear; the line through the ground is free downwards only. -/
theorem sight_one_way :
    ((edge.toWorld (.ofIndex 0)).Accepted ∧
      (edge.toWorld (.ofIndex 0)).isClear acrossEdge.start 0 = true ∧
      (edge.toWorld (.ofIndex 0)).isClear acrossEdge.finish 0 = true ∧
      (edge.toWorld (.ofIndex 0)).lineOfSight acrossEdge.start acrossEdge.finish = true ∧
      (edge.toWorld (.ofIndex 0)).lineOfSight acrossEdge.finish acrossEdge.start = false) ∧
    ((ground.toWorld (.ofIndex 0)).Accepted ∧
      (ground.toWorld (.ofIndex 0)).lineOfSight ⟨0, 0, 1 / 1024⟩ ⟨0, 0, -1 / 1024⟩ = true ∧
      (ground.toWorld (.ofIndex 0)).lineOfSight ⟨0, 0, -1 / 1024⟩ ⟨0, 0, 1 / 1024⟩ = false) := by
  refine ⟨⟨edge_accepted, ?_, ?_, ?_, ?_⟩, ⟨ground_accepted, ?_, ?_⟩⟩ <;> decide +kernel

end Stride
