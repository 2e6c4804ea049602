import Stride.Proofs.Sweep.Span
import Stride.Proofs.Sweep.OneLeaf

namespace Stride

/-!
# Sweeps straight down

In exact arithmetic a sphere that falls onto a solid without faces that look down is never let out
of it, so it is stopped by the face that it enters by last, and by the first of these if there are
several.  From where it is stopped, a sweep of the same length is stopped at once, by the same face.

* `span?_plane_eq` — which of the faces a stretch names.
* `foldl_meet_eq_alone` — solids of which only one has faces.
* `Sweep.drop` — a sweep straight down.
* `alone_drop_again` — the second of two drops.
-/

variable {K : Type} [Field K] [LinearOrder K] [HasSqrt K] {s : Sweep K} {span : Span K}
  {faces : List (Face K)}

/-! ### The face that is named -/

/-- The sweep enters by a face at the given fraction. -/
def Sweep.EntersAt (s : Sweep K) (t : K) (face : Face K) : Prop :=
  s.Enters face.plane ∧ s.enterAt face.plane = t

instance (s : Sweep K) (t : K) : DecidablePred (s.EntersAt t) := fun face =>
  inferInstanceAs (Decidable ((0 < s.startGap face.plane ∧ s.endGap face.plane ≤ 0) ∧ _))

/-- One more face begins the stretch, if it is entered later than all before, or leaves its
    beginning. -/
theorem Span.cross_begins_cases {before : Span K} {face : Face K}
    (h : before.cross s face = some span) :
    (s.Enters face.plane ∧ before.enter < s.enterAt face.plane ∧
      span.enter = s.enterAt face.plane ∧ span.plane = some face.id) ∨
    (span.enter = before.enter ∧ span.plane = before.plane) := by
  rcases s.crossing_cases face.plane with hmiss | ⟨hstart, hend⟩ | henter | hleave
  · rw [cross_of_misses hmiss] at h
    cases h
  · rw [cross_of_behind hstart hend, Option.some.injEq] at h
    subst h
    exact .inr ⟨rfl, rfl⟩
  · rw [cross_of_enters henter, Option.some.injEq] at h
    subst h
    by_cases hlt : before.enter < s.enterAt face.plane
    · exact .inl ⟨henter, hlt, max_eq_right hlt.le, if_pos hlt⟩
    · exact .inr ⟨max_eq_left (not_lt.1 hlt), if_neg hlt⟩
  · rw [cross_of_leaves hleave, Option.some.injEq] at h
    subst h
    exact .inr ⟨rfl, rfl⟩

/-- **The face that is named** is the first of those that the sweep enters by last. -/
theorem Sweep.span?_plane_eq (h : s.span? faces = some span) (hneg : -1 < span.enter) :
    span.plane = (faces.find? fun face => s.EntersAt span.enter face).map Face.id := by
  refine span?_induction (P := fun faces span => -1 < span.enter →
    span.plane = (faces.find? fun face => s.EntersAt span.enter face).map Face.id)
    (fun hneg => absurd hneg (lt_irrefl _)) ?_ h hneg
  intro faces face before span hbefore ih h hneg
  have hdesc := Sweep.span?_describes hbefore
  rcases Span.cross_begins_cases h with ⟨henter, hlt, hlater, hplane⟩ | ⟨hsame, hplane⟩
  · -- none of the faces before is entered as late as this one
    have hnone : faces.find? (fun face => s.EntersAt span.enter face) = none := by
      rw [List.find?_eq_none]
      intro f hf hentersAt
      obtain ⟨hf', hat⟩ := of_decide_eq_true hentersAt
      have hle := hdesc.enterAt_le f hf hf'
      rw [hat, hlater] at hle
      exact not_lt.2 hle hlt
    have hface : s.EntersAt span.enter face := ⟨henter, hlater.symm⟩
    rw [List.find?_append, hnone, hplane]
    simp [hface]
  · -- the face that begins the stretch is found among those before
    rw [hsame] at hneg ⊢
    have hearlier := ih hneg
    obtain ⟨first, -, -, -, hfirst⟩ := hdesc.enter_eq.resolve_left fun h => hneg.ne' h.1
    rw [hfirst] at hearlier
    obtain ⟨found, hfound, -⟩ := Option.map_eq_some_iff.1 hearlier.symm
    rw [List.find?_append, hfound, Option.some_or, ← hfound, hplane, hfirst, hearlier]

/-! ### The hit on one solid -/

variable [IsStrictOrderedRing K]

namespace Contact

omit [IsStrictOrderedRing K] in
/-- Solids without faces are not met. -/
theorem foldl_meet_eq_clear {met : List (List (Face K))} (h : ∀ faces ∈ met, faces = []) :
    met.foldl (Contact.meet s) Contact.clear = Contact.clear := by
  refine foldl_meet_eq_self fun faces hfaces => ?_
  rw [h faces hfaces]
  rfl

/-- Of solids without faces and copies of one solid, only the one is met. -/
theorem foldl_meet_eq_alone {met : List (List (Face K))} (hmem : faces ∈ met)
    (hsole : ∀ faces' ∈ met, faces' = [] ∨ faces' = faces) :
    met.foldl (Contact.meet s) Contact.clear = alone s faces := by
  have hagain : (alone s faces).meet s faces = alone s faces := by
    have htwice : [faces].foldl (Contact.meet s) ([faces].foldl (Contact.meet s) Contact.clear) =
        [faces].foldl (Contact.meet s) Contact.clear := foldl_meet_foldl_meet Contact.clear_proper
    exact htwice
  induction met with
  | nil => cases hmem
  | cons other met ih =>
    have hmet : ∀ faces' ∈ met, faces' = [] ∨ faces' = faces :=
      fun faces' hfaces' => hsole faces' (List.mem_cons_of_mem _ hfaces')
    rw [List.foldl_cons]
    by_cases hother : other = faces
    · -- once the solid is met, the others add nothing
      rw [hother]
      refine foldl_meet_eq_self fun faces' hfaces' => ?_
      rcases hmet faces' hfaces' with rfl | rfl
      · rfl
      · exact hagain
    · obtain rfl := (hsole other List.mem_cons_self).resolve_right hother
      exact ih ((List.mem_cons.1 hmem).resolve_left (Ne.symm hother)) hmet

end Contact

/-! ### Two drops -/

/-- A sweep straight down. -/
def Sweep.drop (point : Vec3 K) (height radius : K) : Sweep K :=
  ⟨point, point - Vec3.up height, radius⟩

/-- None of the faces looks down. -/
def LooksUp (faces : List (Face K)) : Prop := ∀ face ∈ faces, 0 ≤ face.plane.normal.z

namespace Sweep

variable {point : Vec3 K} {height radius t : K} {p : Plane K}

omit [IsStrictOrderedRing K] in
theorem drop_endGap (point : Vec3 K) (height radius : K) (p : Plane K) :
    (drop point height radius).endGap p =
      (drop point height radius).startGap p - p.normal.z * height := by
  have hdown : point - Vec3.up height = ⟨point.x - 0, point.y - 0, point.z - height⟩ := rfl
  simp only [endGap, startGap, drop, Plane.distanceTo, Vec3.dot, hdown]
  ring

theorem not_leaves_drop (hup : 0 ≤ p.normal.z) (hheight : 0 ≤ height) :
    ¬ (drop point height radius).Leaves p := by
  rintro ⟨hstart, hend⟩
  have hfall := mul_nonneg hup hheight
  rw [drop_endGap] at hend
  linarith

/-- The second drop starts where the first one is stopped. -/
def dropAgain (point : Vec3 K) (height radius t : K) : Sweep K :=
  drop ((drop point height radius).at t) height radius

omit [IsStrictOrderedRing K] in
theorem dropAgain_startGap (point : Vec3 K) (height radius t : K) (p : Plane K) :
    (dropAgain point height radius t).startGap p = (drop point height radius).gap p t := rfl

theorem dropAgain_startGap_le (hup : 0 ≤ p.normal.z) (hheight : 0 ≤ height) (ht : 0 ≤ t) :
    (dropAgain point height radius t).startGap p ≤ (drop point height radius).startGap p := by
  have hfall := mul_nonneg (mul_nonneg hup hheight) ht
  rw [dropAgain_startGap, gap_eq, drop_endGap]
  linarith

/-- The second drop ends behind every face that the first one ends behind. -/
theorem dropAgain_endGap_nonpos (hup : 0 ≤ p.normal.z) (hheight : 0 ≤ height) (ht : 0 ≤ t)
    (hend : (drop point height radius).endGap p ≤ 0) :
    (dropAgain point height radius t).endGap p ≤ 0 := by
  have hstart : (dropAgain point height radius t).startGap p ≤
      (drop point height radius).startGap p := dropAgain_startGap_le hup hheight ht
  rw [drop_endGap] at hend
  rw [dropAgain, drop_endGap, ← dropAgain]
  linarith

/-- What the second drop enters by, the first one enters by. -/
theorem enters_of_dropAgain (hup : 0 ≤ p.normal.z) (hheight : 0 ≤ height) (ht : 0 ≤ t)
    (hend : (drop point height radius).endGap p ≤ 0)
    (h : (dropAgain point height radius t).Enters p) : (drop point height radius).Enters p :=
  ⟨h.1.trans_le (dropAgain_startGap_le hup hheight ht), hend⟩

/-- What the first drop enters by at a fraction, the second one enters by at its start, if it starts
    at this fraction. -/
theorem Enters.dropAgain_entersAt {face : Face K} (hup : 0 ≤ face.plane.normal.z)
    (hheight : 0 ≤ height) (ht : 0 ≤ t) (h : (drop point height radius).EntersAt t face) :
    (dropAgain point height radius t).EntersAt 0 face := by
  obtain ⟨henters, hat⟩ := h
  have hgap : (dropAgain point height radius t).startGap face.plane = traceOffset := by
    rw [dropAgain_startGap]
    exact le_antisymm (henters.enterAt_le_iff.1 hat.le) (henters.le_enterAt_iff.1 hat.ge)
  refine ⟨⟨hgap ▸ traceOffset_pos, dropAgain_endGap_nonpos hup hheight ht henters.2⟩, ?_⟩
  rw [enterAt, hgap, sub_self, zero_div]

/-- Of the faces that the first drop does not enter later than at a fraction, the second drop enters
    at its start, if it starts at this fraction, by those that the first one enters by there. -/
theorem dropAgain_entersAt_iff {face : Face K} (hup : 0 ≤ face.plane.normal.z)
    (hheight : 0 ≤ height) (ht : 0 ≤ t) (hend : (drop point height radius).endGap face.plane ≤ 0)
    (hlast : (drop point height radius).Enters face.plane →
      (drop point height radius).enterAt face.plane ≤ t) :
    (dropAgain point height radius t).EntersAt 0 face ↔
      (drop point height radius).EntersAt t face := by
  constructor
  · rintro ⟨henters, hat⟩
    have hfirst := enters_of_dropAgain hup hheight ht hend henters
    have hgap := henters.le_enterAt_iff.1 hat.ge
    rw [gap_zero, dropAgain_startGap] at hgap
    exact ⟨hfirst, le_antisymm (hlast hfirst) (hfirst.le_enterAt_iff.2 hgap)⟩
  · exact Enters.dropAgain_entersAt hup hheight ht

/-- A drop that does not miss the solid ends behind all of its faces. -/
theorem drop_endGap_nonpos (hup : LooksUp faces) (hheight : 0 ≤ height)
    (hdesc : span.Describes (drop point height radius) faces) {face : Face K}
    (hface : face ∈ faces) : (drop point height radius).endGap face.plane ≤ 0 := by
  rcases (drop point height radius).crossing_cases face.plane with
    hmiss | ⟨-, hend⟩ | henter | hleave
  · exact absurd hmiss (hdesc.not_misses face hface)
  · exact hend
  · exact henter.2
  · exact absurd hleave (not_leaves_drop (hup face hface) hheight)

/-- The stretch of a drop ends with the sweep. -/
theorem drop_exit (hup : LooksUp faces) (hheight : 0 ≤ height)
    (hdesc : span.Describes (drop point height radius) faces) : span.exit = 1 := by
  rcases hdesc.exit_eq with hexit | ⟨face, hface, hleaves, -⟩
  · exact hexit
  · exact absurd hleaves (not_leaves_drop (hup face hface) hheight)

/-- **The second drop** is stopped at its start, by the face that stopped the first one. -/
theorem dropAgain_span (hup : LooksUp faces) (hheight : 0 ≤ height)
    (hspan : (drop point height radius).span? faces = some span) (hpos : 0 < span.enter) :
    ∃ again, (dropAgain point height radius span.enter).span? faces = some again ∧
      again.startsOut = true ∧ again.enter = 0 ∧ again.exit = 1 ∧ again.plane = span.plane := by
  have hneg : (-1 : K) < 0 := neg_one_lt_zero
  have hdesc := Sweep.span?_describes hspan
  have hend (face : Face K) (hface : face ∈ faces) := drop_endGap_nonpos hup hheight hdesc hface
  have hiff (face : Face K) (hface : face ∈ faces) :=
    dropAgain_entersAt_iff (hup face hface) hheight hpos.le (hend face hface)
      (hdesc.enterAt_le face hface)
  -- no face has the second drop in front, for it ends behind all of them
  obtain ⟨again, hagain⟩ : ∃ again, (dropAgain point height radius span.enter).span? faces =
      some again := by
    rw [← Option.isSome_iff_exists, Option.isSome_iff_ne_none]
    intro hnone
    obtain ⟨face, hface, hmiss⟩ := Sweep.span?_eq_none_iff.1 hnone
    have hbehind := dropAgain_endGap_nonpos (hup face hface) hheight hpos.le (hend face hface)
    exact not_lt.2 hbehind hmiss.2
  have hdesc' := Sweep.span?_describes hagain
  have hexit : again.exit = 1 := drop_exit hup hheight hdesc'
  obtain ⟨first, hfirst, henters, hat, -⟩ := hdesc.enter_eq.resolve_left fun h => by
    have := h.1
    linarith
  obtain ⟨henters', hat'⟩ := (hiff first hfirst).2 ⟨henters, hat.symm⟩
  have henter : again.enter = 0 := by
    apply le_antisymm
    · rcases hdesc'.enter_eq with ⟨hnone, -⟩ | ⟨face, hface, hlast, hsame, -⟩
      · exact hnone ▸ hneg.le
      · have hbefore := enters_of_dropAgain (hup face hface) hheight hpos.le (hend face hface) hlast
        have hgap := hbefore.enterAt_le_iff.1 (hdesc.enterAt_le face hface hbefore)
        rw [hsame, hlast.enterAt_le_iff, gap_zero, dropAgain_startGap]
        exact hgap
    · exact hat' ▸ hdesc'.enterAt_le first hfirst henters'
  refine ⟨again, hagain, hdesc'.startsOut_iff.2 ⟨first, hfirst, henters'.1⟩, henter, hexit, ?_⟩
  rw [span?_plane_eq hspan (hneg.trans hpos), span?_plane_eq hagain (henter ▸ hneg), henter]
  exact congrArg _ (List.find?_congr fun face hface => decide_eq_decide.2 (hiff face hface))

end Sweep

/-- **Two drops.** From where a solid without faces that look down stops a drop, a second one is
    stopped at once, by the same face. -/
theorem Contact.alone_drop_again {point : Vec3 K} {height radius : K} {id : PlaneId}
    (hup : LooksUp faces) (hheight : 0 ≤ height)
    (h : (alone (.drop point height radius) faces).plane = some id) :
    alone (.dropAgain point height radius (alone (.drop point height radius) faces).fraction)
      faces = ⟨0, some id, false, false⟩ := by
  obtain ⟨span, hspan, hout, hexit, hneg⟩ := exists_span_of_alone h
  have halone := alone_eq_of_enters hspan hout hexit hneg
  have hplane : span.plane = some id := by
    rw [halone] at h
    exact h
  rcases le_or_gt span.enter 0 with hle | hpos
  · -- the first drop did not get anywhere, so the second one is the same
    have hsame : Sweep.dropAgain point height radius 0 = .drop point height radius := by
      rw [Sweep.dropAgain, Sweep.at_zero]
      rfl
    rw [halone, max_eq_right hle, hsame, halone, max_eq_right hle, hplane]
  · obtain ⟨again, hagain, hout', henter', hexit', hplane'⟩ :=
      Sweep.dropAgain_span hup hheight hspan hpos
    have hlt : again.enter < again.exit := by
      rw [henter', hexit']
      exact zero_lt_one
    have hneg' : -1 < again.enter := by
      rw [henter']
      exact neg_one_lt_zero
    rw [halone, max_eq_left hpos.le, alone_eq_of_enters hagain hout' hlt hneg', henter', max_self,
      hplane', hplane]

end Stride
