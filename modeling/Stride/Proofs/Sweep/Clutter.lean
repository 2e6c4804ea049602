import Stride.Proofs.Sweep.Rearranged

namespace Stride

/-!
# Geometry beside the path

What a sweep cannot meet does not change its report in any part, in single precision as well: the
same face, the same fraction, the same point, bit for bit.  A level may be extended by planes and by
brushes that lie beside the sweep, listed anywhere among the others, and its partition may be put
under splits whose planes the whole sweep keeps clear of.

* `World.Beside` — a brush that a sweep cannot meet.
* `Partition.Fills`, `Partition.Under` — leaves that list more, and a tree under new splits.
* `World.Cluttered` — a level with geometry beside the path of a sweep added to it.
* `meet_of_beside` — such a brush is passed over, whatever its other faces say.
* `search_of_fills`, `search_of_under` — the searches of both levels, step by step.
* `Loaded.trace?_of_cluttered` — the report is the same.
-/

variable {α : Type}

/-! ### More than a level holds -/

section Levels

variable [Scalar α]

/-- A brush that a sweep cannot meet: nothing stops at it, it has no faces, or one of its faces has
    the start and the end of the sweep in front. -/
def World.Beside (w : World α) (s : Sweep α) (brush : Brush) : Prop :=
  brush.collidable = false ∨ brush.planes = [] ∨
    ∃ id ∈ brush.planes, ∃ plane, w.plane? id = some plane ∧
      0 < plane.distanceTo s.start - s.radius ∧ 0 < plane.distanceTo s.finish - s.radius

/-- A sweep that keeps to one side of a plane, clear of it by the radius. -/
def Sweep.KeepsTo (s : Sweep α) (plane : Plane α) : Side → Prop
  | .front => s.radius ≤ plane.distanceTo s.start ∧ s.radius ≤ plane.distanceTo s.finish
  | .back => 0 ≤ s.radius ∧ plane.distanceTo s.start < -s.radius ∧
      plane.distanceTo s.finish < -s.radius

/-- The same tree, whose leaves list, at any places among the brushes that they listed before,
    brushes with numbers from `count` on that lie beside the sweep. -/
inductive Partition.Fills (w : World α) (s : Sweep α) (count : Nat) : Partition → Partition → Prop
    where
  /-- Without the new brushes a leaf lists what it listed before, in the same order. -/
  | leaf {id id' : NodeId} {ids ids' : List BrushId} {bounds bounds' : Bounds}
      (kept : ids'.filter (fun i => i.index < count) = ids)
      (beside : ∀ i ∈ ids', count ≤ i.index → ∀ brush, w.brush? i = some brush → w.Beside s brush) :
      Fills w s count (.leaf id ids bounds) (.leaf id' ids' bounds')
  /-- The splits are the same. -/
  | split {id id' : NodeId} {plane : PlaneId} {bounds bounds' : Bounds} {f b f' b' : Partition}
      (inFront : Fills w s count f f') (behind : Fills w s count b b') :
      Fills w s count (.split id plane bounds f b) (.split id' plane bounds' f' b')

/-- A tree under any number of new splits.  At each of them the sweep keeps to the side of the tree,
    and on the other side may be anything. -/
inductive Partition.Under (w : World α) (s : Sweep α) (p : Partition) : Partition → Prop where
  /-- No new split. -/
  | top : Under w s p p
  /-- One more split at the top. -/
  | split {id : NodeId} {plane : PlaneId} {bounds : Bounds} {front back : Partition} {pl : Plane α}
      (side : Side) (look : w.plane? plane = some pl) (keeps : s.KeepsTo pl side)
      (below : Under w s p (side.pick front back)) : Under w s p (.split id plane bounds front back)

/-- The level `w'` is `w` with geometry beside the path of a sweep added to it. -/
structure World.Cluttered (w w' : World α) (s : Sweep α) : Prop where
  /-- Planes are appended. -/
  planes : ∃ more, w'.planes = w.planes ++ more
  /-- Brushes are appended. -/
  brushes : ∃ more, w'.brushes = w.brushes ++ more
  /-- New brushes are listed among the others, and the tree is put under new splits. -/
  trees : ∃ p q p', w.Unfolds w.root p ∧ p.Fills w' s w.brushes.size q ∧ q.Under w' s p' ∧
    w'.Unfolds w'.root p'

end Levels

/-! ### Solids by number -/

namespace World

variable {w w' : World α} {ids : List BrushId} {id : BrushId} {faces : List (Face α)}

/-- The faces of the brush of that number, if it is collidable. -/
def solid? (w : World α) (id : BrushId) : Option (List (Face α)) :=
  (w.brush? id).bind fun brush => if brush.collidable then w.faces? brush else none

theorem solid?_eq_some_iff : w.solid? id = some faces ↔ w.HasSolid id faces := by
  rw [solid?, HasSolid, Option.bind_eq_some_iff]
  refine exists_congr fun brush => and_congr_right fun _ => ?_
  cases brush.collidable <;> simp

/-- Looking up the members of a list, where none fails, is looking them up one by one. -/
theorem filterMap_eq_of_mapM {β γ : Type} {f : β → Option γ} {l : List β} {m : List γ}
    (h : l.mapM f = some m) : l.filterMap f = m := by
  induction l generalizing m with
  | nil => simpa using h
  | cons a l ih =>
    rw [List.mapM_cons] at h
    obtain ⟨c, hc, h⟩ := Option.bind_eq_some_iff.1 h
    obtain ⟨m', hm', h⟩ := Option.bind_eq_some_iff.1 h
    obtain rfl : c :: m' = m := by simpa using h
    rw [List.filterMap_cons_some hc, ih hm']

/-- The solids of listed brushes are found one by one. -/
theorem WellFormed.solids_eq_filterMap (hw : w.WellFormed)
    (h : ∀ id ∈ ids, id.index < w.brushes.size) : w.solids ids = ids.filterMap w.solid? := by
  obtain ⟨brushes, hbrushes, hfaces⟩ := hw.exists_brushes h
  rw [← filterMap_eq_of_mapM hfaces, ← filterMap_eq_of_mapM hbrushes, List.filterMap_filter,
    List.filterMap_filterMap]
  rfl

/-! ### What was there before -/

section Extended

variable [Scalar α] {s : Sweep α}

/-- What is appended to an array leaves its members where they are. -/
theorem getElem?_append_of_eq_some {β : Type} {l more : Array β} {i : Nat} {a : β}
    (h : l[i]? = some a) : (l ++ more)[i]? = some a := by
  rw [Array.getElem?_append_left (Array.getElem?_eq_some_iff.1 h).1, h]

theorem Cluttered.plane? (h : w.Cluttered w' s) {id : PlaneId} {plane : Plane α}
    (hplane : w.plane? id = some plane) : w'.plane? id = some plane := by
  obtain ⟨more, hmore⟩ := h.planes
  rw [World.plane?, hmore]
  exact getElem?_append_of_eq_some hplane

theorem Cluttered.brush? (h : w.Cluttered w' s) {brush : Brush}
    (hbrush : w.brush? id = some brush) : w'.brush? id = some brush := by
  obtain ⟨more, hmore⟩ := h.brushes
  rw [World.brush?, hmore]
  exact getElem?_append_of_eq_some hbrush

/-- A brush that was there before is the same solid as before. -/
theorem Cluttered.solid?_eq (h : w.Cluttered w' s) (hw : w.WellFormed) (hw' : w'.WellFormed)
    (hid : id.index < w.brushes.size) : w'.solid? id = w.solid? id := by
  obtain ⟨brush, hbrush, hmem⟩ := exists_brush? hid
  have hbrush' := h.brush? hbrush
  have hplanes : w.SamePlanes w' := fun id plane plane' hp hp' =>
    Option.some.inj ((h.plane? hp).symm.trans hp')
  rw [solid?, solid?, hbrush, hbrush', Option.bind_some, Option.bind_some,
    hw.faces?_eq hw' hplanes hmem (Array.mem_of_getElem? hbrush')]

end Extended

end World

/-! ### Meeting what is beside -/

section Meeting

variable [Scalar α] {w w' : World α} {s : Sweep α} {faces : List (Face α)} {id : BrushId}

/-- A solid that has no faces, or a face with the whole sweep in front, is passed over. -/
theorem Contact.meet_eq_self (c : Contact α)
    (h : faces = [] ∨ ∃ face ∈ faces, 0 < s.startGap face.plane ∧ 0 < s.endGap face.plane) :
    c.meet s faces = c := by
  rcases Contact.meet_cases s faces with ⟨-, hpass⟩ | ⟨span, hne, hspan, -⟩
  · exact hpass c
  · -- wherever that face stands in the list, what was seen before it is dropped
    have hnone := Sweep.span?_eq_none_iff.2 (h.resolve_left hne)
    cases hnone.symm.trans hspan

/-- **A brush beside the sweep** is passed over. -/
theorem Contact.meet_of_beside (hsolid : w.HasSolid id faces)
    (hbeside : ∀ brush, w.brush? id = some brush → w.Beside s brush) (c : Contact α) :
    c.meet s faces = c := by
  obtain ⟨brush, hbrush, hcoll, hfaces⟩ := hsolid
  apply c.meet_eq_self
  rcases hbeside brush hbrush with hnot | hnil | ⟨i, hi, plane, hplane, hstart, hfinish⟩
  · cases hnot.symm.trans hcoll
  · rw [World.faces?, hnil] at hfaces
    exact .inl (Option.some.inj hfaces).symm
  · have hface : ⟨i, plane⟩ ∈ faces :=
      (mem_of_mapM_eq_some hfaces _).2 ⟨i, hi, by rw [hplane]; rfl⟩
    exact .inr ⟨⟨i, plane⟩, hface, hstart, hfinish⟩

/-- A fold over what is found passes over members that change nothing. -/
theorem foldl_filterMap_filter {β γ δ : Type} {f g : β → Option γ} {h : δ → γ → δ} {kept : β → Bool}
    {l : List β} (hsame : ∀ a ∈ l, kept a = true → f a = g a)
    (hskip : ∀ a ∈ l, kept a = false → ∀ c, f a = some c → ∀ d, h d c = d) (d : δ) :
    (l.filterMap f).foldl h d = ((l.filter kept).filterMap g).foldl h d := by
  induction l generalizing d with
  | nil => rfl
  | cons a l ih =>
    have ih := ih (fun b hb => hsame b (List.mem_cons_of_mem _ hb))
      fun b hb => hskip b (List.mem_cons_of_mem _ hb)
    cases hkept : kept a with
    | true =>
      rw [List.filter_cons_of_pos hkept, List.filterMap_cons, List.filterMap_cons,
        hsame a List.mem_cons_self hkept]
      cases g a with
      | none => exact ih d
      | some c => exact ih (h d c)
    | false =>
      rw [List.filter_cons_of_neg (by rw [hkept]; exact Bool.false_ne_true), List.filterMap_cons]
      cases hfound : f a with
      | none => exact ih d
      | some c =>
        show (l.filterMap f).foldl h (h d c) = _
        rw [hskip a List.mem_cons_self hkept c hfound d]
        exact ih d

end Meeting

/-! ### Searching both levels -/

namespace World

section Fills

variable [Scalar α] {w w' : World α} {s : Sweep α} {id id' : NodeId} {p q : Partition}

/-- **Searches in lockstep.** A search through leaves that list more holds, after every step, what
    the search through the leaves as they were holds. -/
theorem Cluttered.search_of_fills (h : w.Cluttered w' s) (hw : w.WellFormed) (hw' : w'.WellFormed)
    (hpq : p.Fills w' s w.brushes.size q) (hp : w.Holds id p) (hq : w'.Holds id' q)
    (segment : Segment α) (c : Contact α) : q.search w' s segment c = p.search w s segment c := by
  induction hpq generalizing id id' segment c with
  | @leaf i i' ids ids' bounds bounds' kept beside =>
    -- without the new brushes the list is the old one, and the new ones are passed over
    have hfold : (w'.solids ids').foldl (Contact.meet s) c =
        (w.solids ids).foldl (Contact.meet s) c := by
      rw [hw'.solids_eq_filterMap hq.leaf.2, hw.solids_eq_filterMap hp.leaf.2, ← kept]
      refine foldl_filterMap_filter (fun b _ hold => ?_) (fun b hb hnew faces hfaces d => ?_) c
      · exact h.solid?_eq hw hw' (of_decide_eq_true hold)
      · have hsize : w.brushes.size ≤ b.index := Nat.le_of_not_lt (of_decide_eq_false hnew)
        exact d.meet_of_beside (solid?_eq_some_iff.1 hfaces) (beside b hb hsize)
    rw [Partition.search, Partition.search, hfold]
  | @split i i' plane bounds bounds' f b f' b' inFront behind ihf ihb =>
    obtain ⟨front, back, pl, -, hpl, hchild⟩ := hp.split
    obtain ⟨front', back', pl', -, hpl', hchild'⟩ := hq.split
    obtain rfl : pl = pl' := Option.some.inj ((h.plane? hpl).symm.trans hpl')
    have ih (side : Side) (g : Segment α) (c : Contact α) :
        (side.pick f' b').search w' s g c = (side.pick f b).search w s g c := by
      cases side with
      | front => exact ihf (hchild .front) (hchild' .front) g c
      | back => exact ihb (hchild .back) (hchild' .back) g c
    rw [Partition.search, Partition.search]
    simp only [hpl, hpl', Partition.pick_search, ih]

end Fills

variable {w w' : World Float32} {s : Sweep Float32} {p p' : Partition}

/-- A sweep that keeps to one side goes there as a whole. -/
theorem split_of_keepsTo {plane : Plane Float32} {side : Side} (h : s.KeepsTo plane side) :
    s.whole.split plane s.radius = .whole side := by
  cases side with
  | front => exact if_pos h
  | back =>
    obtain ⟨hradius, hstart, hfinish⟩ := h
    have hnot : ¬ (s.radius ≤ plane.distanceTo s.start ∧ s.radius ≤ plane.distanceTo s.finish) :=
      fun hfront => Single.not_lt_neg hradius (Scalar.lt_of_le_of_lt hfront.1 hstart)
    exact (if_neg hnot).trans (if_pos ⟨hstart, hfinish⟩)

/-- A hit at the start of a stretch ends its search. -/
theorem search_of_fraction_le {α : Type} [Scalar α] {w : World α} {s : Sweep α}
    {segment : Segment α} {c : Contact α} (p : Partition)
    (h : c.fraction ≤ segment.startFraction) : p.search w s segment c = c := by
  cases p with
  | leaf => exact if_pos h
  | split => exact if_pos h

/-- Under new splits that the sweep keeps clear of, the search goes straight to the tree. -/
theorem search_of_under (h : p.Under w s p') (c : Contact Float32) :
    p'.search w s s.whole c = p.search w s s.whole c := by
  induction h with
  | top => rfl
  | @split id plane bounds front back pl side look keeps _ ih =>
    by_cases hpruned : c.fraction ≤ s.whole.startFraction
    · rw [search_of_fraction_le _ hpruned, search_of_fraction_le _ hpruned]
    · rw [Partition.search, if_neg hpruned]
      simp only [look, split_of_keepsTo keeps, Partition.pick_search]
      exact ih

/-- Below new splits is the tree that was put under them. -/
theorem Holds.exists_of_under {id : NodeId} (hp : w.Holds id p') (h : p.Under w s p') :
    ∃ id', w.Holds id' p := by
  induction h generalizing id with
  | top => exact ⟨id, hp⟩
  | split side look keeps _ ih =>
    obtain ⟨front, back, -, -, -, hchild⟩ := hp.split
    exact ih (hchild side)

/-- **Geometry beside the path** of a sweep changes nothing: the report on a level and the report on
    the level with such geometry added to it are the same, in every part and bit for bit. -/
theorem Loaded.trace?_of_cluttered (hw : w.Loaded) (hw' : w'.Loaded) (start finish : Vec3 Float32)
    (radius : Float32) (h : w.Cluttered w' ⟨start, finish, radius⟩) :
    ∃ t, w.trace? ⟨start, finish, radius⟩ = some t ∧ w'.trace? ⟨start, finish, radius⟩ = some t ∧
      w.trace start finish radius = t ∧ w'.trace start finish radius = t := by
  obtain ⟨p, q, p', hp, hfills, hunder, hp'⟩ := h.trees
  set s : Sweep Float32 := ⟨start, finish, radius⟩
  have hwf := hw.wellFormed
  have hwf' := hw'.wellFormed
  obtain ⟨_, hold⟩ := hwf.exists_holds
  obtain ⟨_, hnew⟩ := hwf'.exists_holds
  obtain rfl := hold.unfolds.unique hp
  obtain rfl := hnew.unfolds.unique hp'
  obtain ⟨_, hq⟩ := hnew.exists_of_under hunder
  have hsearch := (search_of_under hunder Contact.clear).trans
    (h.search_of_fills hwf hwf' hfills hold hq s.whole Contact.clear)
  have htrace := hwf.trace?_eq_report hold s
  have htrace' := hwf'.trace?_eq_report hnew s
  rw [hsearch, report_congr fun id hid => ?_] at htrace'
  · exact ⟨_, htrace, htrace', trace_eq_of_trace? htrace, trace_eq_of_trace? htrace'⟩
  · obtain ⟨plane, hplane⟩ := hwf.exists_plane_of_search hold hid
    rw [hplane, h.plane? hplane]

end World

/-- A wall at fifty. -/
def wall : Builder Float32 where
  planes := #[⟨⟨-1, 0, 0⟩, -50⟩]
  brushes := #[⟨[.ofIndex 0], true⟩]
  nodes := #[.leaf [.ofIndex 0] .everything]

/-- The same wall among a block beyond two thousand, of which the sweep enters the first face, a
    trigger and a brush without faces, behind a split at a thousand and in front of one at minus a
    hundred.  Beyond the split at a thousand a brush is listed that the sweep is inside of. -/
def clutteredWall : Builder Float32 where
  planes := wall.planes ++
    #[⟨⟨0, 1, 0⟩, -4⟩, ⟨⟨-1, 0, 0⟩, -2000⟩, ⟨⟨1, 0, 0⟩, 1000⟩, ⟨⟨1, 0, 0⟩, -100⟩]
  brushes := wall.brushes ++ #[⟨[.ofIndex 1, .ofIndex 2], true⟩, ⟨[.ofIndex 0], false⟩, ⟨[], true⟩,
    ⟨[.ofIndex 3], true⟩]
  nodes := #[.leaf [.ofIndex 1, .ofIndex 2, .ofIndex 0, .ofIndex 3] .everything,
    .leaf [.ofIndex 4] .everything, .leaf [] .everything,
    .split (.ofIndex 3) (.ofIndex 1) (.ofIndex 0) .everything,
    .split (.ofIndex 4) (.ofIndex 3) (.ofIndex 2) .everything]

theorem clutteredWall_cluttered :
    (wall.toWorld (.ofIndex 0)).Cluttered (clutteredWall.toWorld (.ofIndex 4))
      ⟨⟨0, 3, 0⟩, ⟨100, -3, 0⟩, 5⟩ where
  planes := ⟨_, rfl⟩
  brushes := ⟨_, rfl⟩
  trees := by
    refine ⟨_, .leaf (.ofIndex 0) [.ofIndex 1, .ofIndex 2, .ofIndex 0, .ofIndex 3] .everything, _,
      .leaf rfl, .leaf rfl ?_, ?_, .split rfl (.split rfl (.leaf rfl) (.leaf rfl)) (.leaf rfl)⟩
    · intro i hi hnew brush hbrush
      simp only [List.mem_cons, List.not_mem_nil, or_false] at hi
      rcases hi with rfl | rfl | rfl | rfl
      · cases hbrush
        exact .inr (.inr ⟨.ofIndex 2, by decide, _, rfl, by decide +kernel, by decide +kernel⟩)
      · cases hbrush
        exact .inl rfl
      · exact absurd hnew (by decide)
      · cases hbrush
        exact .inr (.inl rfl)
    · refine .split .front rfl ⟨by decide +kernel, by decide +kernel⟩ ?_
      exact .split .back rfl ⟨by decide +kernel, by decide +kernel, by decide +kernel⟩ .top

/-- The sweep stops at the wall in both levels. -/
theorem clutteredWall_trace?_eq :
    ∃ w w', wall.build (.ofIndex 0) = .ok w ∧ clutteredWall.build (.ofIndex 4) = .ok w' ∧
      w.Cluttered w' ⟨⟨0, 3, 0⟩, ⟨100, -3, 0⟩, 5⟩ ∧
      ∃ t, w.trace? ⟨⟨0, 3, 0⟩, ⟨100, -3, 0⟩, 5⟩ = some t ∧
        w'.trace? ⟨⟨0, 3, 0⟩, ⟨100, -3, 0⟩, 5⟩ = some t ∧
        w.trace ⟨0, 3, 0⟩ ⟨100, -3, 0⟩ 5 = t ∧ w'.trace ⟨0, 3, 0⟩ ⟨100, -3, 0⟩ 5 = t ∧
        t.plane = some (.ofIndex 0) := by
  have hbuild : wall.build (.ofIndex 0) = .ok (wall.toWorld (.ofIndex 0)) :=
    Builder.build_of_defect?_eq_none (by decide +kernel)
  have hbuild' : clutteredWall.build (.ofIndex 4) = .ok (clutteredWall.toWorld (.ofIndex 4)) :=
    Builder.build_of_defect?_eq_none (by decide +kernel)
  obtain ⟨t, htrace, htrace', heq, heq'⟩ := (World.Loaded.build hbuild).trace?_of_cluttered
    (.build hbuild') ⟨0, 3, 0⟩ ⟨100, -3, 0⟩ 5 clutteredWall_cluttered
  refine ⟨_, _, hbuild, hbuild', clutteredWall_cluttered, t, htrace, htrace', heq, heq', ?_⟩
  rw [← heq]
  decide +kernel

end Stride
