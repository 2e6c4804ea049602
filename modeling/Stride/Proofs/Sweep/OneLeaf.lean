import Stride.Proofs.Sweep.Rearranged

namespace Stride

/-!
# A tree against one leaf

A tree of splits spares a sweep some of the brushes that its leaves list, and adds none: on one leaf
that lists them all the sweep stops no later.  Where every leaf lists the same brushes in the same
order, nothing is spared either, and the two reports are the same in every part.  This holds in
single precision, NaNs and infinities included, for it does not matter where a split cuts a sweep.

The second half needs that meeting solids again changes nothing.  Several of them may be closer to
the start than the gap that is kept, and then each takes the place of the one before.

* `Contact.Crowds` — a solid that is closer to the start than the gap that is kept.
* `meet_of_crowds`, `meet_of_covers` — a solid that takes the place of the best hit, and one that
  leaves it.
* `foldl_meet_foldl_meet` — meeting the same solids again changes nothing.
* `search_of_same_leaves` — a tree whose leaves list the same.
* `Loaded.trace_oneLeaf` — reports on a tree and on one leaf.
-/

variable {α : Type}

/-! ### Meeting solids again -/

attribute [ext] Contact

namespace Contact

variable [Scalar α] {s : Sweep α} {c : Contact α} {faces : List (Face α)}
  {met : List (List (Face α))}

/-- The start is outside a solid but closer to it than the gap that is kept: the fraction at which
    the sphere gets behind the last face is negative, though it counts as an entry.  `plane` is the
    face of that entry. -/
def Crowds (s : Sweep α) (faces : List (Face α)) (plane : Option PlaneId) : Prop :=
  ∃ span, faces ≠ [] ∧ s.span? faces = some span ∧ span.startsOut = true ∧
    span.enter < span.exit ∧ -1 < span.enter ∧ span.enter < 0 ∧ span.plane = plane

variable [Scalar.Lawful α]

/-- A solid that is too close takes the place of the best hit, whatever that was. -/
theorem meet_of_crowds (hc : c.Proper) {plane : Option PlaneId} (h : Crowds s faces plane) :
    (c.meet s faces).fraction = 0 ∧ (c.meet s faces).plane = plane := by
  obtain ⟨span, hne, hspan, hout, hexit, hneg, hlt, rfl⟩ := h
  have hbefore : span.enter < c.fraction := Scalar.lt_of_lt_of_le hlt hc.nonneg
  rcases meet_cases s faces with ⟨hnone, -⟩ | ⟨span', -, hspan', hmeet⟩
  · cases (hnone.resolve_left hne).symm.trans hspan
  · obtain rfl := Option.some.inj (hspan'.symm.trans hspan)
    rw [hmeet, meetSpan, if_pos hout, if_pos ⟨hexit, hneg, hbefore⟩]
    refine ⟨(Scalar.maxNum_zero_cases span'.enter).elim (fun hpos => ?_) And.right, rfl⟩
    exact absurd hpos.1 (Scalar.Lawful.not_lt_of_le (Scalar.Lawful.le_of_lt hlt))

/-- Any other solid leaves fraction and face as they are, if the sweep is stopped as early as the
    solid alone stops it. -/
theorem meet_hit_of_not_crowds (hc : c.Proper) (hle : c.fraction ≤ (alone s faces).fraction)
    (hnot : ∀ plane, ¬ Crowds s faces plane) :
    (c.meet s faces).fraction = c.fraction ∧ (c.meet s faces).plane = c.plane := by
  constructor
  · rw [(meet_merges hc faces).1]
    exact Scalar.minNum_of_not_lt hc.number (Scalar.Lawful.not_lt_of_le hle)
  · rcases meet_cases s faces with ⟨-, hpass⟩ | ⟨span, hne, hspan, hmeet⟩
    · rw [hpass]
    · have halone : alone s faces = Contact.clear.meetSpan span := hmeet _
      rw [hmeet, meetSpan]
      split_ifs with hout hin hends
      · -- an entry before a hit that is as early as the solid's own is one before the start
        obtain ⟨hexit, hneg, hlt⟩ := hin
        rw [halone, meetSpan_fraction_of_startsOut hout,
          if_pos ⟨hexit, hneg, Scalar.lt_of_lt_of_le hlt hc.2⟩] at hle
        exfalso
        rcases Scalar.maxNum_zero_cases span.enter with ⟨-, hmax⟩ | ⟨-, hmax⟩
        · rw [hmax] at hle
          exact Scalar.Lawful.not_lt_of_le hle hlt
        · rw [hmax] at hle
          have hbefore : span.enter < 0 := Scalar.lt_of_lt_of_le hlt hle
          exact hnot span.plane ⟨span, hne, hspan, hout, hexit, hneg, hbefore, rfl⟩
      all_goals rfl

/-- Such a solid changes nothing where its flags are reported already. -/
theorem meet_of_covers (hc : c.Proper) (hcovers : c.Covers (alone s faces))
    (hnot : ∀ plane, ¬ Crowds s faces plane) : c.meet s faces = c := by
  obtain ⟨hfraction, hplane⟩ := meet_hit_of_not_crowds hc hcovers.fraction_le hnot
  obtain ⟨-, hstart, hall⟩ := meet_merges (s := s) hc faces
  have hstart' : (c.startSolid || (alone s faces).startSolid) = c.startSolid := by
    simpa using hcovers.startSolid
  have hall' : (c.allSolid || (alone s faces).allSolid) = c.allSolid := by
    simpa using hcovers.allSolid
  exact Contact.ext hfraction hplane (hstart.trans hstart') (hall.trans hall')

/-- **The last word.** Either a list of solids ends with the same face at the start of the sweep,
    whatever was found before, or none of the solids is too close. -/
theorem foldl_meet_crowds (s : Sweep α) (met : List (List (Face α))) :
    (∃ plane, ∀ c : Contact α, c.Proper →
      (met.foldl (Contact.meet s) c).fraction = 0 ∧
        (met.foldl (Contact.meet s) c).plane = plane) ∨
    ∀ faces ∈ met, ∀ plane, ¬ Crowds s faces plane := by
  induction met using List.reverseRecOn with
  | nil => exact .inr (by simp)
  | append_singleton met faces ih =>
    simp only [List.foldl_append, List.foldl_cons, List.foldl_nil]
    by_cases hcrowds : ∃ plane, Crowds s faces plane
    · obtain ⟨plane, hplane⟩ := hcrowds
      exact .inl ⟨plane, fun c hc => meet_of_crowds (foldl_meet_proper hc) hplane⟩
    · have hnot : ∀ plane, ¬ Crowds s faces plane := not_exists.1 hcrowds
      rcases ih with ⟨plane, hlast⟩ | hnone
      · -- one that is not too close leaves a hit at the start of the sweep
        refine .inl ⟨plane, fun c hc => ?_⟩
        obtain ⟨hzero, hplane⟩ := hlast c hc
        have hle : (met.foldl (Contact.meet s) c).fraction ≤ (alone s faces).fraction := by
          rw [hzero]
          exact (alone_proper s faces).nonneg
        obtain ⟨hfraction, hsame⟩ := meet_hit_of_not_crowds (foldl_meet_proper hc) hle hnot
        exact ⟨hfraction.trans hzero, hsame.trans hplane⟩
      · refine .inr fun faces' hfaces' => ?_
        rcases List.mem_append.1 hfaces' with h | h
        · exact hnone faces' h
        · rwa [List.mem_singleton.1 h]

/-- Solids none of which is too close change nothing where each of them is reported already. -/
theorem foldl_meet_of_covers (hc : c.Proper) (hcovers : ∀ faces ∈ met, c.Covers (alone s faces))
    (hnot : ∀ faces ∈ met, ∀ plane, ¬ Crowds s faces plane) :
    met.foldl (Contact.meet s) c = c :=
  foldl_meet_eq_self fun faces h => meet_of_covers hc (hcovers faces h) (hnot faces h)

/-- **Meeting the same solids again** changes nothing. -/
theorem foldl_meet_foldl_meet (hc : c.Proper) :
    met.foldl (Contact.meet s) (met.foldl (Contact.meet s) c) =
      met.foldl (Contact.meet s) c := by
  have hproper : (met.foldl (Contact.meet s) c).Proper := foldl_meet_proper hc
  have hmet (faces : List (Face α)) (h : faces ∈ met) :
      (met.foldl (Contact.meet s) c).Covers (alone s faces) := foldl_meet_covers hc h
  rcases foldl_meet_crowds s met with ⟨plane, hlast⟩ | hnone
  · have hinit : (met.foldl (Contact.meet s) (met.foldl (Contact.meet s) c)).Covers
        (met.foldl (Contact.meet s) c) := foldl_meet_covers_init hproper
    have hrefl : (met.foldl (Contact.meet s) c).Covers (met.foldl (Contact.meet s) c) :=
      ⟨hproper.number, id, id⟩
    have hagain := hrefl.foldl_meet hproper hmet
    obtain ⟨hzero, hplane⟩ := hlast c hc
    obtain ⟨hzero', hplane'⟩ := hlast _ hproper
    exact Contact.ext (hzero'.trans hzero.symm) (hplane'.trans hplane.symm)
      (Bool.eq_iff_iff.2 ⟨hagain.startSolid, hinit.startSolid⟩)
      (Bool.eq_iff_iff.2 ⟨hagain.allSolid, hinit.allSolid⟩)
  · exact foldl_meet_of_covers hproper hmet hnone

end Contact

/-! ### A tree whose leaves list the same -/

variable [Scalar α]

namespace World

variable {w : World α} {s : Sweep α} {id : NodeId} {p : Partition} {c : Contact α}

/-- A hit that no leaf changes is kept by every search, over whatever stretch. -/
theorem search_of_fixed (hfixed : ∀ cell ∈ p.cells,
      (w.solids cell.brushes).foldl (Contact.meet s) c = c) (segment : Segment α) :
    p.search w s segment c = c := by
  induction p using Partition.pick_induction generalizing segment with
  | leaf i brushes bounds =>
    rw [Partition.search]
    split_ifs
    · rfl
    · exact hfixed _ List.mem_cons_self
  | split i plane bounds f b ih =>
    have ih (side : Side) (g : Segment α) : (side.pick f b).search w s g c = c :=
      ih side (fun cell hcell =>
        hfixed (cell.after ⟨plane, side⟩) (Partition.after_mem_cells hcell)) g
    rw [Partition.search]
    split_ifs
    · rfl
    · cases w.plane? plane with
      | none => rfl
      | some pl =>
        simp only [Partition.pick_search]
        cases segment.split pl s.radius with
        | whole side => exact ih side segment
        | parts first near far => simp only [ih]

/-- The part that is searched first starts where the whole stretch starts. -/
theorem startFraction_of_split {segment near far : Segment α} {pl : Plane α} {r : α} {first : Side}
    (h : segment.split pl r = .parts first near far) :
    near.startFraction = segment.startFraction := by
  simp only [Segment.split] at h
  split_ifs at h
  cases h
  rfl

/-- **Leaves that list the same.** A search through a tree all of whose leaves list the same brushes
    finds what meeting these once finds. -/
theorem Holds.search_of_same_leaves [Scalar.Lawful α] (hp : w.Holds id p) {ids : List BrushId}
    (hcells : ∀ cell ∈ p.cells, cell.brushes = ids) (hc : c.Proper) {segment : Segment α}
    (hfirst : ¬ c.fraction ≤ segment.startFraction) :
    p.search w s segment c = (w.solids ids).foldl (Contact.meet s) c := by
  induction p using Partition.pick_induction generalizing id segment with
  | leaf i brushes bounds =>
    rw [Partition.search, if_neg hfirst]
    rw [show brushes = ids from hcells ⟨[], brushes⟩ List.mem_cons_self]
  | split i plane bounds f b ih =>
    obtain ⟨front, back, pl, -, hpl, hchild⟩ := hp.split
    have hcells (side : Side) : ∀ cell ∈ (side.pick f b).cells, cell.brushes = ids :=
      fun cell hcell =>
        hcells (cell.after ⟨plane, side⟩) (Partition.after_mem_cells hcell)
    rw [Partition.search, if_neg hfirst]
    simp only [hpl, Partition.pick_search]
    cases hsplit : segment.split pl s.radius with
    | whole side => exact ih side (hchild side) (hcells side) hfirst
    | parts first near far =>
      have hnear : ¬ c.fraction ≤ near.startFraction := by rwa [startFraction_of_split hsplit]
      show (first.other.pick f b).search w s far ((first.pick f b).search w s near c) = _
      rw [ih first (hchild first) (hcells first) hnear]
      -- what the other side lists was met on the first
      refine search_of_fixed (fun cell hcell => ?_) far
      rw [hcells first.other cell hcell, Contact.foldl_meet_foldl_meet hc]

/-! ### Reports -/

/-- Over the same planes and brushes the same solids are listed, and a hit has the same report. -/
theorem solids_and_report_congr {w f : World α} (hplanes : f.planes = w.planes)
    (hbrushes : f.brushes = w.brushes) :
    (∀ ids, f.solids ids = w.solids ids) ∧ ∀ s c, f.report s c = w.report s c := by
  obtain ⟨planes, brushes, nodes, root⟩ := f
  obtain rfl : planes = w.planes := hplanes
  obtain rfl : brushes = w.brushes := hbrushes
  exact ⟨fun _ => rfl, fun _ _ => rfl⟩

/-- **A tree against one leaf.** Let the root of `f` be a leaf that lists, over the same planes and
    brushes, every brush that a leaf of `w` lists.  Between any two points and for any radius, NaN
    and the infinities included, a sweep through `w` gets as far as one through `f`, and where it
    starts or stays inside a solid so does that.  If each leaf of `w` lists what `f` lists, in the
    same order, the two reports are the same in every part. -/
theorem Loaded.trace_oneLeaf {w f : World Float32} (hw : w.Loaded) (hf : f.Loaded)
    (hplanes : f.planes = w.planes) (hbrushes : f.brushes = w.brushes) {ids : List BrushId}
    {bounds : Bounds} (hroot : f.node? f.root = some (.leaf ids bounds))
    (hlists : ∀ cell, w.HasCell cell → ∀ b ∈ cell.brushes, b ∈ ids)
    (start finish : Vec3 Float32) (radius : Float32) :
    ∃ t t', w.trace? ⟨start, finish, radius⟩ = some t ∧
      f.trace? ⟨start, finish, radius⟩ = some t' ∧
      t'.fraction ≤ t.fraction ∧ (t.startSolid = true → t'.startSolid = true) ∧
      (t.allSolid = true → t'.allSolid = true) ∧
      ((∀ cell, w.HasCell cell → cell.brushes = ids) → t = t') := by
  set s : Sweep Float32 := ⟨start, finish, radius⟩
  have hwf := hw.wellFormed
  obtain ⟨hsolids, hreport⟩ := solids_and_report_congr hplanes hbrushes
  obtain ⟨hids, hleaf⟩ := hf.wellFormed.trace?_of_leaf hroot s
  rw [hsolids, hreport] at hleaf
  rw [hbrushes] at hids
  obtain ⟨p, hp⟩ := hwf.exists_holds
  have hclear := Contact.clear_proper (α := Float32)
  obtain ⟨met, hmet, hsearch⟩ := hwf.exists_met hp s s.whole Contact.clear
  -- all that the search meets is listed
  have hcovers : ((w.solids ids).foldl (Contact.meet s) Contact.clear).Covers
      (p.search w s s.whole Contact.clear) := by
    rw [hsearch]
    refine Contact.foldl_meet_covers_foldl_meet hclear hclear (Contact.covers_clear hclear) ?_
    intro faces hfaces _
    obtain ⟨b, hb, hsolid⟩ := hmet faces hfaces
    obtain ⟨cell, hcell, hmem⟩ := Partition.mem_brushes_iff.1 hb
    exact (hwf.mem_solids_iff hids faces).2
      ⟨b, hlists cell ((hasCell_iff_mem_cells hp.unfolds).2 hcell) b hmem, hsolid⟩
  refine ⟨_, _, hwf.trace?_eq_report hp s, hleaf, ?_, hcovers.startSolid, hcovers.allSolid,
    fun hsame => ?_⟩
  · rw [w.report_fraction s (Contact.foldl_meet_proper hclear),
      w.report_fraction s (hwf.search_covers hp s s.whole hclear).2]
    exact hcovers.fraction_le
  · have hcells (cell : Cell) (hcell : cell ∈ p.cells) : cell.brushes = ids :=
      hsame cell ((hasCell_iff_mem_cells hp.unfolds).2 hcell)
    rw [hp.search_of_same_leaves hcells hclear (not_clear_le_start s)]

end World

/-- Two solids that are closer than the gap that is kept, listed on both sides of a split. -/
def niche : Builder Float32 where
  planes := #[⟨⟨1, 0, 0⟩, 0⟩, ⟨⟨-1, 0, 0⟩, -5.01⟩, ⟨⟨-1, 0, 0⟩, -5.02⟩]
  brushes := #[⟨[.ofIndex 1], true⟩, ⟨[.ofIndex 2], true⟩]
  nodes := #[.leaf [.ofIndex 0, .ofIndex 1] .everything,
    .leaf [.ofIndex 0, .ofIndex 1] .everything,
    .split (.ofIndex 0) (.ofIndex 0) (.ofIndex 1) .everything]

/-- A wall that only the leaf behind a split lists. -/
def hiddenWall : Builder Float32 where
  planes := #[⟨⟨1, 0, 0⟩, -1000⟩, ⟨⟨-1, 0, 0⟩, -50⟩]
  brushes := #[⟨[.ofIndex 1], true⟩]
  nodes := #[.leaf [.ofIndex 0] .everything, .leaf [] .everything,
    .split (.ofIndex 0) (.ofIndex 1) (.ofIndex 0) .everything]

/-- In front of the split a sweep is spared the wall, and gets further than on the one leaf that
    lists it.  Where both sides list the two solids that are too close, they are met twice, and the
    second one is reported as on one leaf. -/
theorem niche_trace_oneLeaf :
    (∃ w f, hiddenWall.build (.ofIndex 2) = .ok w ∧ hiddenWall.build (.ofIndex 0) = .ok f ∧
      ∃ t t', w.trace? ⟨⟨0, 0, 0⟩, ⟨100, 0, 0⟩, 5⟩ = some t ∧
        f.trace? ⟨⟨0, 0, 0⟩, ⟨100, 0, 0⟩, 5⟩ = some t' ∧ t'.fraction ≤ t.fraction ∧
        ¬ t.fraction ≤ t'.fraction) ∧
    ∃ w f, niche.build (.ofIndex 2) = .ok w ∧ niche.build (.ofIndex 0) = .ok f ∧
      ∃ t, w.trace? ⟨⟨0, 0, 0⟩, ⟨100, 0, 0⟩, 5⟩ = some t ∧
        f.trace? ⟨⟨0, 0, 0⟩, ⟨100, 0, 0⟩, 5⟩ = some t ∧ t.plane = some (.ofIndex 2) := by
  constructor
  · have hbuild : hiddenWall.build (.ofIndex 2) = .ok (hiddenWall.toWorld (.ofIndex 2)) :=
      Builder.build_of_defect?_eq_none (by decide +kernel)
    have hbuild' : hiddenWall.build (.ofIndex 0) = .ok (hiddenWall.toWorld (.ofIndex 0)) :=
      Builder.build_of_defect?_eq_none (by decide +kernel)
    have hp : (hiddenWall.toWorld (.ofIndex 2)).Unfolds (.ofIndex 2) _ :=
      .split rfl (.leaf rfl) (.leaf rfl)
    have hlists (cell : Cell) (hcell : (hiddenWall.toWorld (.ofIndex 2)).HasCell cell) :
        ∀ b ∈ cell.brushes, b ∈ [BrushId.ofIndex 0] := by
      rw [World.hasCell_iff_mem_cells hp] at hcell
      revert cell
      decide
    obtain ⟨t, t', htrace, htrace', hle, -⟩ := (World.Loaded.build hbuild).trace_oneLeaf
      (.build hbuild') rfl rfl rfl hlists ⟨0, 0, 0⟩ ⟨100, 0, 0⟩ 5
    refine ⟨_, _, hbuild, hbuild', t, t', htrace, htrace', hle, ?_⟩
    rw [← World.trace_eq_of_trace? htrace, ← World.trace_eq_of_trace? htrace']
    decide +kernel
  · have hbuild : niche.build (.ofIndex 2) = .ok (niche.toWorld (.ofIndex 2)) :=
      Builder.build_of_defect?_eq_none (by decide +kernel)
    have hbuild' : niche.build (.ofIndex 0) = .ok (niche.toWorld (.ofIndex 0)) :=
      Builder.build_of_defect?_eq_none (by decide +kernel)
    have hp : (niche.toWorld (.ofIndex 2)).Unfolds (.ofIndex 2) _ :=
      .split rfl (.leaf rfl) (.leaf rfl)
    have hsame (cell : Cell) (hcell : (niche.toWorld (.ofIndex 2)).HasCell cell) :
        cell.brushes = [.ofIndex 0, .ofIndex 1] := by
      rw [World.hasCell_iff_mem_cells hp] at hcell
      revert cell
      decide
    obtain ⟨t, t', htrace, htrace', -, -, -, heq⟩ := (World.Loaded.build hbuild).trace_oneLeaf
      (.build hbuild') rfl rfl rfl (fun cell hcell b hb => hsame cell hcell ▸ hb)
      ⟨0, 0, 0⟩ ⟨100, 0, 0⟩ 5
    obtain rfl : t = t' := heq hsame
    refine ⟨_, _, hbuild, hbuild', t, htrace, htrace', ?_⟩
    rw [← World.trace_eq_of_trace? htrace]
    decide +kernel

end Stride
