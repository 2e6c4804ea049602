import Stride.Proofs.Single.Pattern
import Stride.Proofs.Sweep.Inside
import Stride.Proofs.Sweep.Report
import Stride.Proofs.World.Reading

namespace Stride

/-!
# The order of listed brushes

Where a sweep stops depends on which collidable brushes with faces the leaves list, and not on the
order in which they stand there, on how often, or on what else is listed.  In a level of one leaf
the reported fraction is the least of those that the brushes give alone; and where two levels
split space alike and list the same collidable brushes with faces, leaf by leaf, every sweep stops
at the same place in both.  This holds in single precision, NaNs included.

* `World.Rearranges` — levels that list the same solids in another order.
* `Contact.Alike` — hits that stop a sweep at the same place.
* `foldl_meet_alike` — the same solids in another order.
* `search_alike` — a search through both levels.
* `Trace.Joins`, `joins_of_leaf` — a report on one leaf, from the reports on single brushes.
* `Loaded.stop_of_listed` — a level of one leaf, and levels that are rearranged.
-/

variable {α : Type}

/-! ### Levels that list the same -/

/-- A collidable brush with faces. -/
def World.IsSolid (w : World α) (id : BrushId) : Prop := ∃ faces, w.HasSolid id faces ∧ faces ≠ []

/-- Two trees that split space by the same planes and whose leaves list the same collidable brushes
    with faces, in any order, any number of times and among any others. -/
inductive Partition.Rearranges (w w' : World α) : Partition → Partition → Prop where
  /-- Two leaves that list the same. -/
  | leaf {id id' : NodeId} {ids ids' : List BrushId} {bounds bounds' : Bounds}
      (same : ∀ brush : Brush, brush.collidable = true → brush.planes ≠ [] →
        ((∃ i ∈ ids, w.brush? i = some brush) ↔ ∃ i ∈ ids', w'.brush? i = some brush)) :
      Rearranges w w' (.leaf id ids bounds) (.leaf id' ids' bounds')
  /-- Two splits by the same plane. -/
  | split {id id' : NodeId} {plane : PlaneId} {bounds bounds' : Bounds} {f b f' b' : Partition}
      (inFront : Rearranges w w' f f') (behind : Rearranges w w' b b') :
      Rearranges w w' (.split id plane bounds f b) (.split id' plane bounds' f' b')

/-- A plane that is in both arenas is the same in both. -/
def World.SamePlanes (w w' : World α) : Prop :=
  ∀ id plane plane', w.plane? id = some plane → w'.plane? id = some plane' → plane = plane'

theorem World.SamePlanes.symm {w w' : World α} (h : w.SamePlanes w') : w'.SamePlanes w :=
  fun id plane plane' hp hp' => (h id plane' plane hp' hp).symm

/-- Two levels over the same planes that split space alike and list the same collidable brushes with
    faces in each leaf.  Other brushes may come and go, with the planes that only they use. -/
structure World.Rearranges (w w' : World α) : Prop where
  /-- The planes are the same. -/
  planes : w.SamePlanes w'
  /-- The trees below the roots list the same. -/
  trees : ∃ p p', w.Unfolds w.root p ∧ w'.Unfolds w'.root p' ∧ p.Rearranges w w' p'

namespace World

variable {w w' : World α} {ids ids' : List BrushId} {faces : List (Face α)}

/-- A solid that is looked up by itself is found by itself. -/
theorem HasSolid.solids_singleton {id : BrushId} (h : w.HasSolid id faces) :
    w.solids [id] = [faces] := by
  obtain ⟨brush, hbrush, hcoll, hfaces⟩ := h
  simp [solids, solids?, hbrush, hcoll, hfaces]

/-- Over the same planes a brush has the same faces. -/
theorem WellFormed.faces?_eq (hw : w.WellFormed) (hw' : w'.WellFormed)
    (hplanes : w.SamePlanes w') {brush : Brush} (h : brush ∈ w.brushes) (h' : brush ∈ w'.brushes) :
    w'.faces? brush = w.faces? brush := by
  refine mapM_congr fun id hid => ?_
  obtain ⟨plane, hp⟩ := exists_plane? (hw.faces brush h id hid)
  obtain ⟨plane', hp'⟩ := exists_plane? (hw'.faces brush h' id hid)
  rw [hp, hp', hplanes id plane plane' hp hp']

/-- A solid with faces that one leaf lists is listed by another that lists the same brushes. -/
theorem WellFormed.exists_hasSolid (hw : w.WellFormed) (hw' : w'.WellFormed)
    (hplanes : w.SamePlanes w')
    (hsub : ∀ brush : Brush, brush.collidable = true → brush.planes ≠ [] →
      (∃ i ∈ ids, w.brush? i = some brush) → ∃ i ∈ ids', w'.brush? i = some brush)
    (hne : faces ≠ []) (h : ∃ i ∈ ids, w.HasSolid i faces) :
    ∃ i ∈ ids', w'.HasSolid i faces := by
  obtain ⟨i, hi, brush, hbrush, hcoll, hfaces⟩ := h
  have hsides : brush.planes ≠ [] := by
    intro hnil
    rw [faces?, hnil] at hfaces
    exact hne (Option.some.inj hfaces).symm
  obtain ⟨i', hi', hbrush'⟩ := hsub brush hcoll hsides ⟨i, hi, hbrush⟩
  have hsame :=
    hw.faces?_eq hw' hplanes (Array.mem_of_getElem? hbrush) (Array.mem_of_getElem? hbrush')
  exact ⟨i', hi', brush, hbrush', hcoll, hsame.trans hfaces⟩

end World

/-! ### Hits that stop a sweep alike -/

variable [Scalar α] {s : Sweep α} {c d : Contact α} {faces : List (Face α)}
  {met met' : List (List (Face α))}

namespace Contact

/-- Two hits that stop a sweep at the same place and report the sphere inside at the same times. -/
def Alike (c d : Contact α) : Prop := c.Covers d ∧ d.Covers c

theorem covers_clear (hc : c.Proper) : c.Covers clear where
  fraction_le := hc.2
  startSolid h := by cases h
  allSolid h := by cases h

variable [Scalar.Lawful α]

theorem Alike.le_iff (h : c.Alike d) (a : α) : c.fraction ≤ a ↔ d.fraction ≤ a :=
  ⟨Scalar.Lawful.le_trans h.2.fraction_le, Scalar.Lawful.le_trans h.1.fraction_le⟩

/-- Meeting all solids with faces that another search meets finds what it finds. -/
theorem foldl_meet_covers_foldl_meet (hc : c.Proper) (hd : d.Proper) (hcd : c.Covers d)
    (hsub : ∀ faces ∈ met', faces ≠ [] → faces ∈ met) :
    (met.foldl (Contact.meet s) c).Covers (met'.foldl (Contact.meet s) d) := by
  refine Covers.foldl_meet hd ((foldl_meet_covers_init hc).trans hcd) fun faces hfaces => ?_
  by_cases hne : faces = []
  · subst hne
    exact covers_clear (foldl_meet_proper hc)
  · exact foldl_meet_covers hc (hsub faces hfaces hne)

/-- **The order of solids.** Meeting the same solids with faces, in any order and any number of
    times, stops a sweep at the same place. -/
theorem foldl_meet_alike (hc : c.Proper) (hd : d.Proper) (h : c.Alike d)
    (hsame : ∀ faces, faces ≠ [] → (faces ∈ met ↔ faces ∈ met')) :
    (met.foldl (Contact.meet s) c).Alike (met'.foldl (Contact.meet s) d) :=
  ⟨foldl_meet_covers_foldl_meet hc hd h.1 fun faces hmem hne => (hsame faces hne).2 hmem,
    foldl_meet_covers_foldl_meet hd hc h.2 fun faces hmem hne => (hsame faces hne).1 hmem⟩

end Contact

/-! ### Searching both levels -/

variable [Scalar.Lawful α]

namespace World

variable {w w' : World α} {id id' : NodeId} {p p' : Partition}

/-- **Searches in lockstep.** Below two nodes with rearranged trees, searches that start with hits
    that stop a sweep alike end with such hits. -/
theorem WellFormed.search_alike (hw : w.WellFormed) (hw' : w'.WellFormed)
    (hplanes : w.SamePlanes w')
    (h : p.Rearranges w w' p') (hp : w.Holds id p) (hp' : w'.Holds id' p') (segment : Segment α)
    (hc : c.Proper) (hd : d.Proper) (hcd : c.Alike d) :
    (p.search w s segment c).Alike (p'.search w' s segment d) := by
  -- along both trees at once: each stretch is passed over in both or in neither, for the hits so
  -- far have the same fraction as a number
  induction h generalizing id id' segment c d with
  | @leaf i i' ids ids' bounds bounds' same =>
    rw [Partition.search, Partition.search]
    by_cases hpruned : c.fraction ≤ segment.startFraction
    · rw [if_pos hpruned, if_pos ((hcd.le_iff _).1 hpruned)]
      exact hcd
    · rw [if_neg hpruned, if_neg fun hd => hpruned ((hcd.le_iff _).2 hd)]
      refine Contact.foldl_meet_alike hc hd hcd fun faces hne => ?_
      rw [hw.mem_solids_iff hp.leaf.2, hw'.mem_solids_iff hp'.leaf.2]
      exact ⟨hw.exists_hasSolid hw' hplanes (fun brush hcoll hfaces => (same brush hcoll hfaces).1)
          hne,
        hw'.exists_hasSolid hw hplanes.symm (fun brush hcoll hfaces => (same brush hcoll hfaces).2)
          hne⟩
  | @split i i' plane bounds bounds' f b f' b' inFront behind ihf ihb =>
    obtain ⟨front, back, pl, -, hpl, hchild⟩ := hp.split
    obtain ⟨front', back', pl', -, hpl', hchild'⟩ := hp'.split
    obtain rfl := hplanes plane pl pl' hpl hpl'
    have ih : ∀ (side : Side) (g : Segment α) {c d : Contact α}, c.Proper → d.Proper → c.Alike d →
        ((side.pick f b).search w s g c).Alike ((side.pick f' b').search w' s g d) := by
      intro side g c d hc hd hcd
      cases side with
      | front => exact ihf (hchild .front) (hchild' .front) g hc hd hcd
      | back => exact ihb (hchild .back) (hchild' .back) g hc hd hcd
    rw [Partition.search, Partition.search]
    by_cases hpruned : c.fraction ≤ segment.startFraction
    · rw [if_pos hpruned, if_pos ((hcd.le_iff _).1 hpruned)]
      exact hcd
    · rw [if_neg hpruned, if_neg fun hd => hpruned ((hcd.le_iff _).2 hd)]
      simp only [hpl, hpl', Partition.pick_search]
      cases segment.split pl s.radius with
      | whole side => exact ih side segment hc hd hcd
      | parts first near far =>
        have hmid := (hw.search_covers (hchild first) s near hc).2
        have hmid' := (hw'.search_covers (hchild' first) s near hd).2
        exact ih first.other far hmid hmid' (ih first near hc hd hcd)

end World

/-! ### One leaf -/

/-- The report of a sweep where only that brush is listed. -/
def World.traceAlone (w : World α) (id : BrushId) (s : Sweep α) : Trace α :=
  (w.flat [id]).trace s.start s.finish s.radius

/-- What a report on a list of brushes says, from what the collidable ones with faces report
    alone. -/
structure Trace.Joins (w : World α) (ids : List BrushId) (s : Sweep α) (t : Trace α) : Prop where
  /-- A brush by itself has a report. -/
  alone : ∀ id ∈ ids, (w.flat [id]).trace? s = some (w.traceAlone id s)
  /-- No brush alone stops the sweep earlier. -/
  fraction_le : ∀ id ∈ ids, w.IsSolid id → t.fraction ≤ (w.traceAlone id s).fraction
  /-- Some brush alone stops the sweep there, unless there is none. -/
  fraction_eq : (t.fraction = 1 ∧ ∀ id ∈ ids, ¬ w.IsSolid id) ∨
    ∃ id ∈ ids, w.IsSolid id ∧ t.fraction = (w.traceAlone id s).fraction
  /-- The sphere starts inside if no face of some brush has the start in front. -/
  startSolid_iff : t.startSolid = true ↔ ∃ id ∈ ids, ∃ faces, w.HasSolid id faces ∧ faces ≠ [] ∧
    ∀ face ∈ faces, ¬ 0 < face.plane.distanceTo s.start - s.radius
  /-- The sphere is inside all the way if it is for some brush. -/
  allSolid_iff : t.allSolid = true ↔
    ∃ id ∈ ids, w.IsSolid id ∧ (w.traceAlone id s).allSolid = true

/-- Fractions between nothing and the whole sweep are equal if they are equal as numbers. -/
theorem Contact.Proper.fraction_eq {c d : Contact Float32} (hc : c.Proper) (hd : d.Proper)
    (hcd : c.fraction ≤ d.fraction) (hdc : d.fraction ≤ c.fraction) : c.fraction = d.fraction := by
  rcases hc.1 with hzero | hpos
  · rcases hd.1 with hzero' | hpos
    · rw [hzero, hzero']
    · rw [hzero] at hdc
      exact absurd (Scalar.lt_of_lt_of_le hpos hdc) (Scalar.lt_irrefl 0)
  · exact Single.eq_of_le_of_le hpos hcd hdc

/-- **The least fraction** is that of a solid with faces alone, unless there is none. -/
theorem Contact.foldl_meet_fraction_cases {s : Sweep Float32} {met : List (List (Face Float32))} :
    ((met.foldl (Contact.meet s) clear).fraction = 1 ∧ ∀ faces ∈ met, faces = []) ∨
      ∃ faces ∈ met, faces ≠ [] ∧
        (met.foldl (Contact.meet s) clear).fraction = (alone s faces).fraction := by
  have hclear := clear_proper (α := Float32)
  -- without faces a solid gives the whole sweep
  have heq : (met.foldl (Contact.meet s) clear).fraction = 1 ∨ ∃ faces ∈ met, faces ≠ [] ∧
      (met.foldl (Contact.meet s) clear).fraction = (alone s faces).fraction := by
    refine (foldl_meet_fraction_eq hclear).elim .inl ?_
    rintro ⟨faces, hfaces, h⟩
    by_cases hne : faces = []
    · subst hne
      exact .inl h
    · exact .inr ⟨faces, hfaces, hne, h⟩
  rcases heq with hone | h
  · by_cases hnone : ∀ faces ∈ met, faces = []
    · exact .inl ⟨hone, hnone⟩
    · -- a solid that gives no less gives the whole sweep, too
      push Not at hnone
      obtain ⟨faces, hfaces, hne⟩ := hnone
      have hle := foldl_meet_fraction_le (s := s) hclear hfaces
      refine .inr ⟨faces, hfaces, hne, ?_⟩
      refine (foldl_meet_proper hclear).fraction_eq (alone_proper s faces) hle ?_
      rw [hone]
      exact (alone_proper s faces).2
  · exact .inr h

namespace World

variable {w : World α} {id : BrushId} {ids : List BrushId}

/-- A brush by itself has a report: that of its solid. -/
theorem WellFormed.trace?_flat_singleton (hw : w.WellFormed) (h : id.index < w.brushes.size)
    (s : Sweep α) :
    (w.flat [id]).trace? s = some (w.traceAlone id s) ∧
      ∀ faces, w.HasSolid id faces → w.traceAlone id s = w.report s (Contact.alone s faces) := by
  have hflat : (w.flat [id]).WellFormed := hw.flat (by simpa using h)
  have htrace := (hflat.trace?_of_leaf (w.node?_root_flat [id]) s).2
  have halone : w.traceAlone id s = _ := trace_eq_of_trace? htrace
  rw [htrace, halone]
  refine ⟨rfl, fun faces hfaces => ?_⟩
  have hsolids : (w.flat [id]).solids [id] = [faces] := hfaces.solids_singleton
  rw [hsolids]
  rfl

/-- **One leaf.** A level of one leaf reports the least of the fractions that the listed solids give
    alone, and joins their flags. -/
theorem WellFormed.joins_of_leaf {w : World Float32} (hw : w.WellFormed) {bounds : Bounds}
    (hroot : w.node? w.root = some (.leaf ids bounds)) (s : Sweep Float32) :
    ∃ t, w.trace? s = some t ∧ t.Joins w ids s := by
  obtain ⟨hids, htrace⟩ := hw.trace?_of_leaf hroot s
  have hclear := Contact.clear_proper (α := Float32)
  have hproper : ((w.solids ids).foldl (Contact.meet s) Contact.clear).Proper :=
    Contact.foldl_meet_proper hclear
  have hfraction := w.report_fraction s hproper
  -- what a listed solid reports alone is what the search finds on it
  have halone (id : BrushId) (hid : id ∈ ids) (faces : List (Face Float32))
      (h : w.HasSolid id faces) : w.traceAlone id s = w.report s (Contact.alone s faces) :=
    (hw.trace?_flat_singleton (hids id hid) s).2 faces h
  refine ⟨_, htrace, fun id hid => (hw.trace?_flat_singleton (hids id hid) s).1, ?_, ?_, ?_, ?_⟩
  · rintro id hid ⟨faces, hfaces, -⟩
    rw [hfraction, halone id hid faces hfaces, w.report_fraction s (Contact.alone_proper s faces)]
    exact Contact.foldl_meet_fraction_le hclear ((hw.mem_solids_iff hids faces).2 ⟨id, hid, hfaces⟩)
  · rw [hfraction]
    refine Contact.foldl_meet_fraction_cases.imp (And.imp_right fun hnone => ?_) fun hsome => ?_
    · rintro id hid ⟨faces, hfaces, hne⟩
      exact hne (hnone faces ((hw.mem_solids_iff hids faces).2 ⟨id, hid, hfaces⟩))
    · obtain ⟨id, hid, faces, hfaces, hne, heq⟩ := (hw.exists_mem_solids_iff hids).1 hsome
      refine ⟨id, hid, ⟨faces, hfaces, hne⟩, ?_⟩
      rw [heq, halone id hid faces hfaces, w.report_fraction s (Contact.alone_proper s faces)]
  · show Contact.startSolid _ = true ↔ _
    rw [Contact.foldl_meet_startSolid_iff, hw.exists_mem_solids_iff hids]
    simp only [Contact.alone_startSolid_iff_forall]
    rfl
  · show Contact.allSolid _ = true ↔ _
    rw [Contact.foldl_meet_allSolid_iff, hw.exists_mem_solids_iff hids]
    constructor
    · rintro ⟨id, hid, faces, hfaces, hin⟩
      -- a solid without faces is passed over
      have hne : faces ≠ [] := by
        rintro rfl
        cases hin
      exact ⟨id, hid, ⟨faces, hfaces, hne⟩, by rwa [halone id hid faces hfaces]⟩
    · rintro ⟨id, hid, ⟨faces, hfaces, -⟩, hin⟩
      rw [halone id hid faces hfaces] at hin
      exact ⟨id, hid, faces, hfaces, hin⟩

/-! ### Brush order -/

/-- **The order of brushes.** In a level of one leaf, a sweep stops where it would for the listed
    brush that stops it first, and starts or stays inside if it does for some listed brush; and in
    a level that is rearranged, with collidable brushes with faces permuted or listed again and
    others added or removed, it stops at the same place. -/
theorem Loaded.stop_of_listed {w : World Float32} (hw : w.Loaded) (start finish : Vec3 Float32)
    (radius : Float32) :
    (∀ ids bounds, w.node? w.root = some (.leaf ids bounds) →
      ∃ t, w.trace? ⟨start, finish, radius⟩ = some t ∧ w.trace start finish radius = t ∧
        t.Joins w ids ⟨start, finish, radius⟩) ∧
    ∀ w' : World Float32, w'.Loaded → w.Rearranges w' →
      ∃ t t', w.trace? ⟨start, finish, radius⟩ = some t ∧
        w'.trace? ⟨start, finish, radius⟩ = some t' ∧
        t'.fraction = t.fraction ∧ t'.finish = t.finish ∧
        t'.startSolid = t.startSolid ∧ t'.allSolid = t.allSolid := by
  constructor
  · intro ids bounds hroot
    obtain ⟨t, htrace, hjoins⟩ := hw.wellFormed.joins_of_leaf hroot ⟨start, finish, radius⟩
    exact ⟨t, htrace, trace_eq_of_trace? htrace, hjoins⟩
  · intro w' hw' hrearranged
    set s : Sweep Float32 := ⟨start, finish, radius⟩
    have hwf := hw.wellFormed
    have hwf' := hw'.wellFormed
    obtain ⟨p, hp⟩ := hwf.exists_holds
    obtain ⟨p', hp'⟩ := hwf'.exists_holds
    obtain ⟨q, q', hq, hq', hsame⟩ := hrearranged.trees
    obtain rfl := hp.unfolds.unique hq
    obtain rfl := hp'.unfolds.unique hq'
    have hclear := Contact.clear_proper (α := Float32)
    have hrefl : (Contact.clear : Contact Float32).Alike Contact.clear :=
      ⟨Contact.covers_clear hclear, Contact.covers_clear hclear⟩
    -- the two searches take the same turns, and at every leaf they meet the same solids
    obtain ⟨hle, hge⟩ :=
      hwf.search_alike (s := s) hwf' hrearranged.planes hsame hp hp' s.whole hclear hclear hrefl
    have hfraction := (hwf'.search_covers hp' s s.whole hclear).2.fraction_eq
      (hwf.search_covers hp s s.whole hclear).2 hge.fraction_le hle.fraction_le
    refine ⟨_, _, hwf.trace?_eq_report hp s, hwf'.trace?_eq_report hp' s, ?_⟩
    simp only [report, hfraction, true_and]
    exact ⟨Bool.eq_iff_iff.2 ⟨hle.startSolid, hge.startSolid⟩,
      Bool.eq_iff_iff.2 ⟨hle.allSolid, hge.allSolid⟩⟩

end World

/-- Two walls, one behind the other, in the front half of a space that is split at thirty. -/
def gallery : Builder Float32 where
  planes := #[⟨⟨1, 0, 0⟩, 30⟩, ⟨⟨-1, 0, 0⟩, -50⟩, ⟨⟨-1, 0, 0⟩, -80⟩]
  brushes := #[⟨[.ofIndex 1], true⟩, ⟨[.ofIndex 2], true⟩]
  nodes := #[.leaf [.ofIndex 0, .ofIndex 1] .everything, .leaf [] .everything,
    .split (.ofIndex 0) (.ofIndex 0) (.ofIndex 1) .everything]

/-- The same walls in the other order and one of them listed twice, with a trigger in both halves
    and a brush without faces behind the split. -/
def rearrangedGallery : Builder Float32 where
  planes := gallery.planes
  brushes := #[⟨[.ofIndex 2], true⟩, ⟨[.ofIndex 1], true⟩, ⟨[.ofIndex 0], false⟩, ⟨[], true⟩]
  nodes := #[.leaf [.ofIndex 0, .ofIndex 2, .ofIndex 1, .ofIndex 0] .everything,
    .leaf [.ofIndex 3, .ofIndex 2] .everything,
    .split (.ofIndex 0) (.ofIndex 0) (.ofIndex 1) .everything]

theorem gallery_rearranges :
    (gallery.toWorld (.ofIndex 2)).Rearranges (rearrangedGallery.toWorld (.ofIndex 2)) where
  planes _ _ _ h h' := Option.some.inj (h.symm.trans h')
  trees := by
    refine ⟨_, _, .split rfl (.leaf rfl) (.leaf rfl), .split rfl (.leaf rfl) (.leaf rfl),
      .split (.leaf fun brush hcoll hfaces => ?_) (.leaf fun brush hcoll hfaces => ?_)⟩
    all_goals
      have htrigger : (⟨[.ofIndex 0], false⟩ : Brush) ≠ brush := by
        rintro rfl
        cases hcoll
      have hempty : (⟨[], true⟩ : Brush) ≠ brush := by
        rintro rfl
        exact hfaces rfl
      simp [World.brush?, Builder.toWorld, gallery, rearrangedGallery, BrushId.index,
        BrushId.ofIndex, htrigger, hempty]
    tauto

/-- Where only the leaf with the walls is reached, and where they are split off and rearranged, a
    sweep stops at the nearer wall. -/
theorem gallery_stop_of_listed :
    (∃ w, gallery.build (.ofIndex 0) = .ok w ∧
      ∃ t, w.trace? ⟨⟨0, 0, 0⟩, ⟨100, 0, 0⟩, 5⟩ = some t ∧
        t.Joins w [.ofIndex 0, .ofIndex 1] ⟨⟨0, 0, 0⟩, ⟨100, 0, 0⟩, 5⟩ ∧ t.fraction < 1) ∧
    ∃ w w', gallery.build (.ofIndex 2) = .ok w ∧ rearrangedGallery.build (.ofIndex 2) = .ok w' ∧
      w.Rearranges w' ∧
      ∃ t t', w.trace? ⟨⟨0, 0, 0⟩, ⟨100, 0, 0⟩, 5⟩ = some t ∧
        w'.trace? ⟨⟨0, 0, 0⟩, ⟨100, 0, 0⟩, 5⟩ = some t' ∧
        t'.fraction = t.fraction ∧ t'.finish = t.finish ∧
        t'.startSolid = t.startSolid ∧ t'.allSolid = t.allSolid := by
  constructor
  · have hbuild : gallery.build (.ofIndex 0) = .ok (gallery.toWorld (.ofIndex 0)) :=
      Builder.build_of_defect?_eq_none (by decide +kernel)
    obtain ⟨t, htrace, heq, hjoins⟩ :=
      ((World.Loaded.build hbuild).stop_of_listed ⟨0, 0, 0⟩ ⟨100, 0, 0⟩ 5).1 _ _ rfl
    refine ⟨_, hbuild, t, htrace, hjoins, ?_⟩
    rw [← heq]
    decide +kernel
  · have hbuild : gallery.build (.ofIndex 2) = .ok (gallery.toWorld (.ofIndex 2)) :=
      Builder.build_of_defect?_eq_none (by decide +kernel)
    have hbuild' : rearrangedGallery.build (.ofIndex 2) =
        .ok (rearrangedGallery.toWorld (.ofIndex 2)) :=
      Builder.build_of_defect?_eq_none (by decide +kernel)
    exact ⟨_, _, hbuild, hbuild', gallery_rearranges,
      ((World.Loaded.build hbuild).stop_of_listed _ _ _).2 _ (.build hbuild') gallery_rearranges⟩

end Stride
