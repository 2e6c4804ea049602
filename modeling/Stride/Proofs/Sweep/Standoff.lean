import Stride.Proofs.Sweep.Clearance
import Stride.Proofs.Sweep.Report

namespace Stride

/-!
# Where a face stops a sweep

In exact arithmetic a face that is reported is one that the sphere would have gone behind: its start
is in front of the face and its end is not.  The sphere is stopped `traceOffset` in front of the
face, or at its start if that is nearer, and there it touches the solid that the face belongs to.

* `Enters.gap_max_enterAt` — how far in front of a face an entry stops the sphere.
* `exists_enters_of_alone` — the face that a solid names is one that the sweep enters by.
* `Accepted.stands_off` — the face that a sweep reports.
-/

variable {K : Type} [Field K] [LinearOrder K] [HasSqrt K] {s : Sweep K} {faces : List (Face K)}

/-- The face that a solid names is one that the sweep enters by, and stops the sphere. -/
theorem Contact.exists_enters_of_alone {id : PlaneId} (h : (alone s faces).plane = some id) :
    ∃ plane, ⟨id, plane⟩ ∈ faces ∧ s.Enters plane ∧
      (alone s faces).fraction = max (s.enterAt plane) 0 := by
  obtain ⟨span, hspan, hout, hexit, hneg⟩ := exists_span_of_alone h
  have halone := alone_eq_of_enters hspan hout hexit hneg
  have hnamed : span.plane = some id := by
    rw [halone] at h
    exact h
  rcases (Sweep.span?_describes hspan).enter_eq with
    ⟨-, hnone⟩ | ⟨face, hface, henters, henter, hplane⟩
  · cases hnamed.symm.trans hnone
  · obtain rfl : face.id = id := Option.some.inj (hplane.symm.trans hnamed)
    refine ⟨face.plane, hface, henters, ?_⟩
    rw [halone, ← henter]

variable [IsStrictOrderedRing K]

/-- An entry stops the sphere `traceOffset` in front of the face, or at its start. -/
theorem Sweep.Enters.gap_max_enterAt {p : Plane K} (h : s.Enters p) :
    s.gap p (max (s.enterAt p) 0) = min (s.startGap p) traceOffset := by
  rcases le_total 0 (s.enterAt p) with hle | hle
  · have hstart := h.le_enterAt_iff.1 hle
    have hgap : s.gap p (s.enterAt p) = traceOffset :=
      le_antisymm (h.enterAt_le_iff.1 (le_refl _)) (h.le_enterAt_iff.1 (le_refl _))
    rw [gap_zero] at hstart
    rw [max_eq_left hle, hgap, min_eq_right hstart]
  · have hstart := h.enterAt_le_iff.1 hle
    rw [gap_zero] at hstart
    rw [max_eq_right hle, gap_zero, min_eq_left hstart]

namespace World

variable {w : World K}

/-- **The face that is reported.** On an accepted level, where a sweep names a face and the sphere is
    not inside a solid all the way, the start is in front of the face, the end is not, and the sphere
    is stopped at its start or `traceOffset` in front of the face, whichever is nearer to it.  The
    face is one of a collidable brush that some leaf lists, of which no face is then farther than
    `traceOffset`. -/
theorem Accepted.stands_off (hw : w.Accepted) (start finish : Vec3 K) (radius : K) :
    ∃ t, w.trace? ⟨start, finish, radius⟩ = some t ∧ w.trace start finish radius = t ∧
      ∀ id, t.plane = some id → t.allSolid = false →
        ∃ plane, w.plane? id = some plane ∧
          0 < plane.distanceTo start - radius ∧
          plane.distanceTo finish ≤ radius ∧
          plane.distanceTo t.finish - radius =
            min (plane.distanceTo start - radius) traceOffset ∧
          ∃ cell, w.HasCell cell ∧ ∃ b ∈ cell.brushes, ∃ faces, w.HasSolid b faces ∧
            ⟨id, plane⟩ ∈ faces ∧
            ∀ face ∈ faces, face.plane.distanceTo t.finish ≤ radius + traceOffset := by
  have hwf := hw.wellFormed
  obtain ⟨p, hp⟩ := hwf.exists_holds
  have htrace := hwf.trace?_eq_report hp ⟨start, finish, radius⟩
  refine ⟨_, htrace, trace_eq_of_trace? htrace, fun id hplane hfree => ?_⟩
  set s : Sweep K := ⟨start, finish, radius⟩
  obtain ⟨met, hmet, hsearch⟩ := hwf.exists_met hp s s.whole Contact.clear
  have hproper := (hwf.search_coherent hp s).1.proper
  rw [(w.report_eq s hproper).2]
  rw [hsearch] at hplane hfree ⊢
  -- face and fraction are those of one of the solids that were met
  obtain ⟨faces, hfaces, hnamed, hfraction⟩ := Contact.foldl_meet_hit hfree hplane
  obtain ⟨b, hb, hsolid⟩ := hmet faces hfaces
  obtain ⟨cell, hcell, hlisted⟩ := Partition.mem_brushes_iff.1 hb
  obtain ⟨plane, hface, henters, hentry⟩ := Contact.exists_enters_of_alone hnamed
  have hlt : (Contact.alone s faces).fraction < 1 :=
    (Contact.alone_coherent s faces).lt_one_iff.2 (.inl (by rw [hnamed]; rfl))
  have htouch := (Contact.gap_le_of_alone hlt).2
  have hgap := henters.gap_max_enterAt
  rw [hfraction] at htouch hentry
  rw [← hentry] at hgap
  refine ⟨plane, hsolid.plane? hface, henters.1, sub_nonpos.1 henters.2, hgap, cell,
    (hasCell_iff_mem_cells hp.unfolds).2 hcell, b, hlisted, faces, hsolid, hface, ?_⟩
  intro face hmem
  have h := htouch face hmem
  rw [Sweep.gap, sub_le_iff_le_add] at h
  rwa [add_comm]

end World

/-- A sphere that starts nearer to the ground than `traceOffset` stops where it starts. -/
theorem ground_stands_off :
    ∃ t, (ground.toWorld (.ofIndex 0)).trace? ⟨⟨0, 0, 1 / 64⟩, ⟨0, 0, -1⟩, 0⟩ = some t ∧
      t.plane = some (.ofIndex 0) ∧ t.allSolid = false ∧
      ∃ plane, (ground.toWorld (.ofIndex 0)).plane? (.ofIndex 0) = some plane ∧
        0 < plane.distanceTo ⟨0, 0, 1 / 64⟩ - 0 ∧
        plane.distanceTo ⟨0, 0, -1⟩ ≤ 0 ∧
        plane.distanceTo t.finish - 0 =
          min (plane.distanceTo ⟨0, 0, 1 / 64⟩ - 0) traceOffset ∧
        ∃ cell, (ground.toWorld (.ofIndex 0)).HasCell cell ∧ ∃ b ∈ cell.brushes, ∃ faces,
          (ground.toWorld (.ofIndex 0)).HasSolid b faces ∧ ⟨.ofIndex 0, plane⟩ ∈ faces ∧
          ∀ face ∈ faces, face.plane.distanceTo t.finish ≤ 0 + traceOffset := by
  obtain ⟨t, htrace, heq, hface⟩ := ground_accepted.stands_off ⟨0, 0, 1 / 64⟩ ⟨0, 0, -1⟩ 0
  have hplane : t.plane = some (.ofIndex 0) := by
    rw [← heq]
    decide +kernel
  have hfree : t.allSolid = false := by
    rw [← heq]
    decide +kernel
  exact ⟨t, htrace, hplane, hfree, hface _ hplane hfree⟩

end Stride
