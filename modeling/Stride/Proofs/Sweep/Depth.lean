import Stride.Proofs.Sweep.Clearance

namespace Stride

/-!
# How deep a free sweep gets

In exact arithmetic a sweep that does not start inside a solid gets less than `traceOffset` inside
any, and this holds at every point up to where it is stopped.  What is passed over, because it is
missed, left before it is entered, entered a whole sweep before the start or farther than what stops
the sphere, is no exception.

* `Contact.ahead_sub_of_le` — one solid, at every point before it stops the sphere.
* `Accepted.depth_lt` — all solids of a level of one leaf, and what a line of sight says.
-/

variable {K : Type} [Field K] [LinearOrder K] [HasSqrt K]

/-- The point a fraction of the way between two points, as an offset from the first. -/
theorem Vec3.lerp_eq_add (v w : Vec3 K) (t : K) : v.lerp w t = v + (w - v) * t := by
  have hadd : v + (w - v) * t =
      ⟨v.x + (w.x - v.x) * t, v.y + (w.y - v.y) * t, v.z + (w.z - v.z) * t⟩ := rfl
  rw [hadd, Vec3.lerp_def, Vec3.mk.injEq]
  refine ⟨?_, ?_, ?_⟩ <;> ring

variable [IsStrictOrderedRing K]

/-- Up to where a solid stops it, a sphere that starts outside the solid is less than `traceOffset`
    inside. -/
theorem Contact.ahead_sub_of_le {s : Sweep K} {faces : List (Face K)} {t : K}
    (hstart : Ahead faces s.radius s.start) (h0 : 0 ≤ t) (ht : t ≤ (alone s faces).fraction) :
    Ahead faces (s.radius - traceOffset) (s.at t) := by
  rcases ahead_at_of_le hstart h0 ht with ⟨face, hface, hgap⟩ | ⟨hahead, -⟩
  · have hpos := Sweep.traceOffset_pos (K := K)
    exact ⟨face, hface, by linarith⟩
  · exact hahead

namespace World

variable {w : World K} {ids : List BrushId} {bounds : Bounds}

/-- A sweep that does not start inside a solid gets less than `traceOffset` inside any. -/
theorem WellFormed.ahead_of_free (hw : w.WellFormed)
    (hroot : w.node? w.root = some (.leaf ids bounds)) (start finish : Vec3 K) (radius : K) :
    ∃ t, w.trace? ⟨start, finish, radius⟩ = some t ∧
      (t.startSolid = false → ∀ u, 0 ≤ u → u ≤ t.fraction →
        ∀ id ∈ ids, ∀ faces, w.HasSolid id faces → faces ≠ [] →
          Ahead faces (radius - traceOffset) (start.lerp finish u)) := by
  obtain ⟨hids, htrace⟩ := hw.trace?_of_leaf hroot ⟨start, finish, radius⟩
  refine ⟨_, htrace, fun hfree u h0 hu id hid faces hfaces hne => ?_⟩
  set s : Sweep K := ⟨start, finish, radius⟩
  have hclear := Contact.clear_proper (α := K)
  have hmem := (hw.mem_solids_iff hids faces).2 ⟨id, hid, hfaces⟩
  rw [(w.report_eq s (Contact.foldl_meet_proper hclear)).1] at hu
  have hcovers := Contact.foldl_meet_covers (s := s) hclear hmem
  -- a solid that has the start inside would be reported
  have hstart : Ahead faces s.radius s.start := by
    by_contra hbehind
    have hinside : ∀ face ∈ faces, s.startGap face.plane ≤ 0 := by
      intro face hface
      by_contra hgap
      exact hbehind (Sweep.ahead_start_iff.2 ⟨face, hface, not_le.1 hgap⟩)
    have hsolid := hcovers.startSolid (Contact.alone_startSolid_iff.2 ⟨hne, hinside⟩)
    cases hfree.symm.trans hsolid
  exact Contact.ahead_sub_of_le hstart h0 (hu.trans hcovers.fraction_le)

/-- **The depth of a free sweep.** In an accepted level of one leaf, a sweep that does not start
    inside a solid is, at every point up to the reported fraction, less than `traceOffset` behind
    some face of every listed solid with faces.  So where there is a line of sight, no point of the
    line is deeper than that in a solid. -/
theorem Accepted.depth_lt (hw : w.Accepted) (hroot : w.node? w.root = some (.leaf ids bounds))
    (start finish : Vec3 K) (radius : K) :
    (∃ t, w.trace? ⟨start, finish, radius⟩ = some t ∧ w.trace start finish radius = t ∧
      (t.startSolid = false → ∀ u : K, 0 ≤ u → u ≤ t.fraction →
        ∀ id ∈ ids, ∀ faces, w.HasSolid id faces → faces ≠ [] → ∃ face ∈ faces,
          -traceOffset < face.plane.distanceTo (start + (finish - start) * u) - radius)) ∧
    (w.lineOfSight start finish = true → ∀ u : K, 0 ≤ u → u ≤ 1 →
      ∀ id ∈ ids, ∀ faces, w.HasSolid id faces → faces ≠ [] → ∃ face ∈ faces,
        -traceOffset < face.plane.distanceTo (start + (finish - start) * u)) := by
  simp only [← Vec3.lerp_eq_add]
  constructor
  · obtain ⟨t, htrace, hfree⟩ := hw.wellFormed.ahead_of_free hroot start finish radius
    refine ⟨t, htrace, trace_eq_of_trace? htrace, ?_⟩
    intro hout u h0 hu id hid faces hfaces hne
    obtain ⟨face, hface, hgap⟩ := hfree hout u h0 hu id hid faces hfaces hne
    exact ⟨face, hface, by linarith⟩
  · intro hsight u h0 h1 id hid faces hfaces hne
    obtain ⟨t, htrace, hfree⟩ := hw.wellFormed.ahead_of_free hroot start finish 0
    rw [lineOfSight, trace, htrace, Option.getD_some] at hsight
    obtain ⟨hout, hmiss⟩ : t.startSolid = false ∧ ¬ t.Hit := by simpa using hsight
    -- nothing is hit, so the whole line is free
    obtain ⟨face, hface, hgap⟩ :=
      hfree hout u h0 (h1.trans (not_lt.1 hmiss)) id hid faces hfaces hne
    exact ⟨face, hface, by rwa [zero_sub] at hgap⟩

end World

/-- A sweep that is stopped just inside the solid behind an edge. -/
def pastEdge : Sweep ℚ := ⟨⟨-1, 0, -9 / 64⟩, ⟨1, 0, 7 / 64⟩, 0⟩

/-- A line that cuts the corner of the same solid. -/
def acrossEdge : Sweep ℚ := ⟨⟨-1, 0, -9 / 64⟩, ⟨1 / 16, 0, 1 / 256⟩, 0⟩

/-- The sweep past the edge and the line across it go into the solid, and not as deep as
    `traceOffset`. -/
theorem edge_depth_lt :
    (∃ t, (edge.toWorld (.ofIndex 0)).trace? pastEdge = some t ∧
      t.startSolid = false ∧ t.fraction = 17 / 32 ∧
      ∀ u : ℚ, 0 ≤ u → u ≤ t.fraction → ∀ id ∈ [BrushId.ofIndex 0, BrushId.ofIndex 1], ∀ faces,
        (edge.toWorld (.ofIndex 0)).HasSolid id faces → faces ≠ [] → ∃ face ∈ faces,
          -traceOffset < face.plane.distanceTo
            (pastEdge.start + (pastEdge.finish - pastEdge.start) * u) - pastEdge.radius) ∧
    (edge.toWorld (.ofIndex 0)).lineOfSight acrossEdge.start acrossEdge.finish = true ∧
      ∀ u : ℚ, 0 ≤ u → u ≤ 1 → ∀ id ∈ [BrushId.ofIndex 0, BrushId.ofIndex 1], ∀ faces,
        (edge.toWorld (.ofIndex 0)).HasSolid id faces → faces ≠ [] → ∃ face ∈ faces,
          -traceOffset < face.plane.distanceTo
            (acrossEdge.start + (acrossEdge.finish - acrossEdge.start) * u) := by
  constructor
  · obtain ⟨⟨t, htrace, heq, hdepth⟩, -⟩ :=
      edge_accepted.depth_lt rfl pastEdge.start pastEdge.finish pastEdge.radius
    have hout : t.startSolid = false := by
      rw [← heq]
      decide +kernel
    refine ⟨t, htrace, hout, ?_, hdepth hout⟩
    rw [← heq]
    decide +kernel
  · have hsight : (edge.toWorld (.ofIndex 0)).lineOfSight acrossEdge.start acrossEdge.finish =
        true := by
      decide +kernel
    exact ⟨hsight, (edge_accepted.depth_lt rfl _ _ 0).2 hsight⟩

end Stride
