import Stride.Proofs.Scalar.Vectors
import Stride.Proofs.Single.Lossless
import Stride.Proofs.Sweep.Inside
import Stride.Proofs.Sweep.Queries

namespace Stride

/-!
# A sphere at rest

A position is tested for being clear by a sweep that does not move.  At a split such a sweep is
handed to one side as a whole, or to both sides as a whole: interpolating between a point and itself
gives the point back, also in single precision.  So the test looks into every leaf that the sphere
can touch, and a position is not clear exactly if such a leaf lists a solid that has it inside.

* `Side.Admits`, `Cell.Admits` — the leaves that a sphere at a point can touch.
* `Cell.Overlaps` — a leaf lists a solid that no face keeps the sphere out of.
* `Sweep.Rests`, `rests_of_isFinite` — a sweep that does not move, and whose parts do not.
* `Sweep.Rests.split_cases` — where such a sweep goes at a split.
* `search_startSolid_iff` — what its search finds.
* `Loaded.isClear_eq_false_iff` — the positions that are not clear.
-/

variable {α : Type}

/-! ### The leaves that a sphere can touch -/

/-- Something holds of a side iff it holds of the front or of the back. -/
theorem Side.exists_iff {P : Side → Prop} : (∃ side, P side) ↔ P .front ∨ P .back := by
  constructor
  · rintro ⟨_ | _, h⟩
    · exact .inl h
    · exact .inr h
  · rintro (h | h)
    · exact ⟨.front, h⟩
    · exact ⟨.back, h⟩

/-- A sphere at that distance from a plane is not wholly on the other side. -/
def Side.Admits [Scalar α] : Side → (radius distance : α) → Prop
  | .front, radius, distance => ¬ distance < -radius
  | .back, radius, distance => ¬ radius ≤ distance

namespace Cell

variable [Scalar α]

/-- At every turn on the way to the leaf, the sphere is not wholly on the other side. -/
def Admits (w : World α) (point : Vec3 α) (radius : α) (c : Cell) : Prop :=
  ∀ turn ∈ c.turns, ∃ plane, w.plane? turn.plane = some plane ∧
    turn.side.Admits radius (plane.distanceTo point)

/-- The leaf lists a collidable brush with faces, and none of them has the sphere in front. -/
def Overlaps (w : World α) (point : Vec3 α) (radius : α) (c : Cell) : Prop :=
  ∃ id ∈ c.brushes, ∃ faces, w.HasSolid id faces ∧ faces ≠ [] ∧
    ∀ face ∈ faces, ¬ 0 < face.plane.distanceTo point - radius

/-- A turn may be put in front of a way on the sides that admit the sphere. -/
theorem admits_after_iff {w : World α} {point : Vec3 α} {radius : α} {c : Cell} {plane : PlaneId}
    {pl : Plane α} {side : Side} (hplane : w.plane? plane = some pl) :
    (c.after ⟨plane, side⟩).Admits w point radius ↔
      side.Admits radius (pl.distanceTo point) ∧ c.Admits w point radius := by
  rw [Admits, Cell.after, List.forall_mem_cons, hplane]
  simp only [Option.some.injEq, exists_eq_left']
  rfl

end Cell

namespace Partition

variable [Scalar α]

/-- Some leaf of the tree can be touched by the sphere and lists a solid that has it inside. -/
def Blocks (w : World α) (point : Vec3 α) (radius : α) (p : Partition) : Prop :=
  ∃ cell ∈ p.cells, cell.Admits w point radius ∧ cell.Overlaps w point radius

theorem blocks_leaf_iff {w : World α} {point : Vec3 α} {radius : α} {id : NodeId}
    {brushes : List BrushId} {bounds : Bounds} :
    (leaf id brushes bounds).Blocks w point radius ↔
      Cell.Overlaps w point radius ⟨[], brushes⟩ := by
  rw [Blocks, cells]
  simp only [List.mem_singleton, exists_eq_left, and_iff_right_iff_imp]
  intro _ turn hturn
  cases hturn

/-- A split blocks the sphere iff one of its sides does, and admits it. -/
theorem blocks_split_iff {w : World α} {point : Vec3 α} {radius : α} {id : NodeId}
    {plane : PlaneId} {bounds : Bounds} {front back : Partition} {pl : Plane α}
    (hplane : w.plane? plane = some pl) :
    (split id plane bounds front back).Blocks w point radius ↔
      ∃ side : Side, side.Admits radius (pl.distanceTo point) ∧
        (side.pick front back).Blocks w point radius := by
  constructor
  · rintro ⟨cell, hcell, hadmits, hoverlaps⟩
    obtain ⟨side, c, hc, rfl⟩ := mem_cells_split_iff.1 hcell
    obtain ⟨hside, hadmits⟩ := (Cell.admits_after_iff hplane).1 hadmits
    exact ⟨side, hside, c, hc, hadmits, hoverlaps⟩
  · rintro ⟨side, hside, c, hc, hadmits, hoverlaps⟩
    exact ⟨_, mem_cells_split_iff.2 ⟨side, c, hc, rfl⟩,
      (Cell.admits_after_iff hplane).2 ⟨hside, hadmits⟩, hoverlaps⟩

end Partition

/-! ### A sweep that does not move -/

/-- A sweep that does not move, and of which the part up to its end and the part from its start are
    the whole. -/
structure Sweep.Rests [Scalar α] (s : Sweep α) : Prop where
  /-- It ends where it starts. -/
  finish_eq : s.finish = s.start
  /-- The part up to the end is the whole. -/
  before_one : s.whole.before 1 = s.whole
  /-- The part from the start is the whole. -/
  after_zero : s.whole.after 0 = s.whole

namespace Contact

variable [Scalar α] {s : Sweep α} {c : Contact α}

/-- A solid that is met at rest is passed over or has the start inside. -/
theorem meet_of_rests (hs : s.Rests) (c : Contact α) (faces : List (Face α)) :
    c.meet s faces = c ∨ (c.meet s faces).startSolid = true := by
  rcases meet_cases s faces with ⟨-, hpass⟩ | ⟨span, -, hspan, hmeet⟩
  · exact .inl (hpass c)
  · right
    have hout : span.startsOut = false := by
      rw [Sweep.span?_startsOut hspan, List.any_eq_false]
      -- a face that has the start in front has the end in front
      intro face hface hstart
      replace hstart : 0 < s.startGap face.plane := of_decide_eq_true hstart
      have hend : 0 < s.endGap face.plane := by
        rw [Sweep.endGap, hs.finish_eq]
        exact hstart
      cases hspan.symm.trans (Sweep.span?_eq_none_iff.2 ⟨face, hface, hstart, hend⟩)
    rw [hmeet, meetSpan_startSolid, hout]
    exact Bool.or_true _

variable [Scalar.Lawful α]

theorem foldl_meet_of_rests (hs : s.Rests) (met : List (List (Face α))) (hc : c.Proper) :
    met.foldl (Contact.meet s) c = c ∨ (met.foldl (Contact.meet s) c).startSolid = true := by
  induction met generalizing c with
  | nil => exact .inl rfl
  | cons faces met ih =>
    rw [List.foldl_cons]
    rcases meet_of_rests hs c faces with hpass | hsolid
    · rw [hpass]
      exact ih hc
    · exact .inr ((foldl_meet_covers_init (meet_proper hc faces)).startSolid hsolid)

end Contact

variable [Scalar α] [Scalar.Lawful α] {s : Sweep α}

/-- A sweep that does not move is cut at its ends. -/
theorem Sweep.Rests.split_eq (hs : s.Rests) (pl : Plane α) :
    s.whole.split pl s.radius =
      if s.radius ≤ pl.distanceTo s.start then .whole .front
      else if pl.distanceTo s.start < -s.radius then .whole .back
      else .parts .front s.whole s.whole := by
  have hle : (0 : α) ≤ 1 := Scalar.Lawful.le_of_lt Scalar.Lawful.zero_lt_one
  have hone : Scalar.clamp (0 : α) 1 1 = 1 := by
    rw [Scalar.clamp, if_neg (Scalar.Lawful.not_lt_of_le hle), if_neg (Scalar.lt_irrefl 1)]
  have hzero : Scalar.clamp (0 : α) 1 0 = 0 := by
    rw [Scalar.clamp, if_neg (Scalar.lt_irrefl 0), if_neg (Scalar.Lawful.not_lt_of_le hle)]
  have hstart : s.whole.start = s.start := rfl
  have hfinish : s.whole.finish = s.start := hs.finish_eq
  have hcuts (d : α) : Segment.cuts d d s.radius = (.front, 1, 0) := by
    rw [Segment.cuts, if_neg (Scalar.lt_irrefl d), if_neg (Scalar.lt_irrefl d)]
  simp only [Segment.split, hstart, hfinish, and_self, hcuts, hone, hzero, hs.before_one,
    hs.after_zero]

/-- **Splitting at rest.** A sweep that does not move goes as a whole to each of the sides that
    admit it. -/
theorem Sweep.Rests.split_cases (hs : s.Rests) (hr : ¬ s.radius < -s.radius) (pl : Plane α) :
    (∃ side : Side, s.whole.split pl s.radius = .whole side ∧
      ∀ side' : Side, side'.Admits s.radius (pl.distanceTo s.start) ↔ side' = side) ∨
    (s.whole.split pl s.radius = .parts .front s.whole s.whole ∧
      ∀ side' : Side, side'.Admits s.radius (pl.distanceTo s.start)) := by
  rw [hs.split_eq]
  split_ifs with hfront hback
  · have hnotBack : ¬ pl.distanceTo s.start < -s.radius := fun h =>
      hr (Scalar.lt_of_le_of_lt hfront h)
    refine .inl ⟨.front, rfl, fun side => ?_⟩
    cases side with
    | front => exact iff_of_true hnotBack rfl
    | back => exact iff_of_false (not_not.2 hfront) Side.noConfusion
  · refine .inl ⟨.back, rfl, fun side => ?_⟩
    cases side with
    | front => exact iff_of_false (not_not.2 hback) Side.noConfusion
    | back => exact iff_of_true hfront rfl
  · refine .inr ⟨rfl, fun side => ?_⟩
    cases side with
    | front => exact hback
    | back => exact hfront

/-! ### The search -/

namespace World

variable {w : World α} {id : NodeId} {p : Partition}

/-- A search at rest that finds anything finds the start inside a solid. -/
theorem WellFormed.search_of_rests (hw : w.WellFormed) (hp : w.Holds id p) (hs : s.Rests)
    (g : Segment α) :
    p.search w s g Contact.clear = Contact.clear ∨
      (p.search w s g Contact.clear).startSolid = true := by
  obtain ⟨met, -, heq⟩ := hw.exists_met hp s g Contact.clear
  rw [heq]
  exact Contact.foldl_meet_of_rests hs met Contact.clear_proper

/-- **The search at rest** finds the start inside a solid iff the tree blocks the sphere there. -/
theorem WellFormed.search_startSolid_iff (hw : w.WellFormed) (hp : w.Holds id p) (hs : s.Rests)
    (hr : ¬ s.radius < -s.radius) :
    (p.search w s s.whole Contact.clear).startSolid = true ↔ p.Blocks w s.start s.radius := by
  have hclear := Contact.clear_proper (α := α)
  induction p using Partition.pick_induction generalizing id with
  | leaf i brushes bounds =>
    rw [Partition.search, if_neg (not_clear_le_start s), Contact.foldl_meet_startSolid_iff,
      Partition.blocks_leaf_iff, Cell.Overlaps, ← hw.exists_mem_solids_iff hp.leaf.2]
    simp only [Contact.alone_startSolid_iff_forall]
    rfl
  | split i plane bounds f b ih =>
    obtain ⟨front, back, pl, -, hplane, hchild⟩ := hp.split
    rw [Partition.search, if_neg (not_clear_le_start s), Partition.blocks_split_iff hplane]
    simp only [hplane, Partition.pick_search]
    rcases hs.split_cases hr pl with ⟨side, hsplit, hadmits⟩ | ⟨hsplit, hadmits⟩
    · simp only [hsplit, hadmits, exists_eq_left]
      exact ih side (hchild side)
    · simp only [hsplit, hadmits, true_and]
      have hnear := ih .front (hchild .front)
      have hfar := ih .back (hchild .back)
      rw [Side.exists_iff]
      -- the second side is searched afresh, or with what was found on the first
      rcases hw.search_of_rests (hchild .front) hs s.whole with hnone | hfound
      · rw [hnone] at hnear ⊢
        have hnot : ¬ (Side.front.pick f b).Blocks w s.start s.radius := fun h => by
          cases hnear.2 h
        rw [or_iff_right hnot]
        exact hfar
      · obtain ⟨-, hproper⟩ := hw.search_covers (hchild .front) s s.whole hclear
        obtain ⟨hkeeps, -⟩ := hw.search_covers (hchild .back) s s.whole hproper
        exact iff_of_true (hkeeps.startSolid hfound) (.inl (hnear.1 hfound))

end World

/-! ### Single precision -/

/-- Interpolating between a finite point and itself gives the point back at both ends, bit for
    bit. -/
theorem Vec3.lerp_self_of_isFinite {point : Vec3 Float32}
    (h : ∀ a ∈ point.toList, a.isFinite = true) :
    point.lerp point 1 = point ∧ point.lerp point 0 = point := by
  have hone : (1 : Float32) - 1 = 0 := by decide +kernel
  have hzero : (1 : Float32) - 0 = 1 := by decide +kernel
  have hlast (a : Float32) (ha : a ∈ point.toList) : a * (1 - 1) + a * 1 = a := by
    rw [hone, Single.mul_one (h a ha), Single.mul_zero_add (h a ha)]
  have hfirst (a : Float32) (ha : a ∈ point.toList) : a * (1 - 0) + a * 0 = a := by
    rw [hzero, Single.mul_one (h a ha), Single.add_mul_zero (h a ha)]
  obtain ⟨x, y, z⟩ := point
  constructor
  · exact Vec3.ext (hlast x (by simp [toList])) (hlast y (by simp [toList]))
      (hlast z (by simp [toList]))
  · exact Vec3.ext (hfirst x (by simp [toList])) (hfirst y (by simp [toList]))
      (hfirst z (by simp [toList]))

/-- A sweep from a finite point to itself is at rest. -/
theorem rests_of_isFinite {point : Vec3 Float32} (h : ∀ a ∈ point.toList, a.isFinite = true)
    (radius : Float32) : Sweep.Rests ⟨point, point, radius⟩ where
  finish_eq := rfl
  before_one := by
    have hmix : Scalar.mix (0 : Float32) 1 1 = 1 := by decide +kernel
    show (⟨0, Scalar.mix 0 1 1, point, point.lerp point 1⟩ : Segment Float32) = ⟨0, 1, point, point⟩
    rw [hmix, (Vec3.lerp_self_of_isFinite h).1]
  after_zero := by
    have hmix : Scalar.mix (0 : Float32) 1 0 = 0 := by decide +kernel
    show (⟨Scalar.mix 0 1 0, 1, point.lerp point 0, point⟩ : Segment Float32) = ⟨0, 1, point, point⟩
    rw [hmix, (Vec3.lerp_self_of_isFinite h).2]

/-- **Positions that are not clear.** On a level that is handed out, a finite position and a radius
    that is not negative are tested without a failed look-up.  The position is not clear exactly if
    some leaf that is reached from the root lists a collidable brush with faces, none of which has
    the sphere in front, and at every turn on the way to the leaf the sphere is not wholly on the
    other side. -/
theorem World.Loaded.isClear_eq_false_iff {w : World Float32} (hw : w.Loaded) (point : Vec3 Float32)
    (radius : Float32) (hpoint : ∀ a ∈ point.toList, a.isFinite = true) (hradius : 0 ≤ radius) :
    (∃ t, w.Answers ⟨point, point, radius⟩ t ∧ w.isClear point radius = !t.startSolid) ∧
      (w.isClear point radius = false ↔
        ∃ cell, w.HasCell cell ∧ cell.Admits w point radius ∧ cell.Overlaps w point radius) := by
  have hwf := hw.wellFormed
  obtain ⟨p, hp⟩ := hwf.exists_holds
  set s : Sweep Float32 := ⟨point, point, radius⟩
  have htrace : w.trace point point radius =
      w.report s (p.search w s s.whole Contact.clear) :=
    trace_eq_of_trace? (hwf.trace?_eq_report hp s)
  have hsearch := hwf.search_startSolid_iff hp (rests_of_isFinite hpoint radius)
    (Single.not_lt_neg hradius)
  constructor
  · obtain ⟨t, ht⟩ := hwf.exists_answers s
    refine ⟨t, ht, ?_⟩
    rw [isClear, show w.trace point point radius = t from ht.trace_eq]
  · rw [isClear, htrace, Bool.not_eq_false']
    refine hsearch.trans ?_
    simp only [Partition.Blocks, hasCell_iff_mem_cells hp.unfolds]

/-- A sphere whose centre is above the ground and that reaches below it overlaps the solid of the
    lower leaf; one that only touches the ground overlaps nothing. -/
theorem halfSolid_isClear :
    ∃ w, halfSolid.build (.ofIndex 2) = .ok w ∧
      (w.isClear ⟨0, -0, 1 / 2⟩ 1 = false ∧ ∃ cell, w.HasCell cell ∧
        cell.Admits w ⟨0, -0, 1 / 2⟩ 1 ∧ cell.Overlaps w ⟨0, -0, 1 / 2⟩ 1) ∧
      (w.isClear ⟨0, -0, 1⟩ 1 = true ∧ ¬ ∃ cell, w.HasCell cell ∧
        cell.Admits w ⟨0, -0, 1⟩ 1 ∧ cell.Overlaps w ⟨0, -0, 1⟩ 1) := by
  have hw := World.Loaded.build halfSolid_build
  have hone : (0 : Float32) ≤ 1 := by decide +kernel
  obtain ⟨-, hlow⟩ := hw.isClear_eq_false_iff ⟨0, -0, 1 / 2⟩ 1 (by decide +kernel) hone
  obtain ⟨-, hhigh⟩ := hw.isClear_eq_false_iff ⟨0, -0, 1⟩ 1 (by decide +kernel) hone
  have hblocked : (halfSolid.toWorld (.ofIndex 2)).isClear ⟨0, -0, 1 / 2⟩ 1 = false := by
    decide +kernel
  have hclear : (halfSolid.toWorld (.ofIndex 2)).isClear ⟨0, -0, 1⟩ 1 = true := by
    decide +kernel
  refine ⟨_, halfSolid_build, ⟨hblocked, hlow.1 hblocked⟩, hclear, fun h => ?_⟩
  cases hclear.symm.trans (hhigh.2 h)

end Stride
