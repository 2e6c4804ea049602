import Stride.Proofs.Saved.Values
import Stride.Saved.Snapshot

namespace Stride

/-!
# Saved snapshots read back

A tree of records is nested as deeply as it is high, and its lowest records hold arrays, so that a
tree is read as long as two more brackets than it is high may be open at once: one for the arrays
and one for the snapshot around the tree.  Of a tree that is higher the first bracket that is too
deep is a fault, and nothing is read.

* `NodeTree.height` — how many records there are from the top to the lowest.
* `NodeTree.echoes` — a tree and the room that it takes.
* `Snapshot.text_reads_back` — the text of a snapshot.
-/

open Json Saved

/-! ### Planes and brushes -/

variable {fault : Fault}

/-- The singles of a plane record. -/
def PlaneRecord.singles (p : PlaneRecord Float32) : List Float32 := p.normal.toList ++ [p.distance]

/-- The value of a field. -/
def PlaneRecord.get (p : PlaneRecord Float32) : (k : PlaneRecord.Field) → k.Value
  | .normal => p.normal
  | .distance => p.distance

theorem PlaneRecord.legible : PlaneRecord.schema.Legible := {}

theorem PlaneRecord.echoes {p : PlaneRecord Float32}
    (h : ∀ a ∈ p.singles, Echoes fault single (writeSingle a) true a) (room : Nat) :
    Echoes fault (Saved.decode (room + 2)) (Saved.write p) true p := by
  refine (Echoes.record_legible (v := p.get) legible ?_).map fun v =>
    PlaneRecord.mk (v .normal) (v .distance)
  rintro (_ | _)
  · exact .triple_legible (fun a ha => h a (by simp [singles, ha])) room
  · exact h p.distance (by simp [singles])

theorem echoes_indices (is : List Int64) (room : Nat) :
    Echoes fault (indices (room + 1)) (writeIndices is) true is :=
  .list_legible fun i _ => .int64 i

/-- The value of a field. -/
def BrushRecord.get (b : BrushRecord) : (k : BrushRecord.Field) → k.Value
  | .collidable => b.collidable
  | .planes => b.planes

theorem BrushRecord.legible : BrushRecord.schema.Legible := {}

theorem BrushRecord.echoes (b : BrushRecord) (room : Nat) :
    Echoes fault (Saved.decode (room + 2)) (Saved.write b) true b := by
  refine (Echoes.record_legible (v := b.get) legible ?_).map fun v =>
    BrushRecord.mk (v .collidable) (v .planes)
  rintro (_ | _)
  · exact .boolean b.collidable
  · exact echoes_indices b.planes room

/-! ### Trees -/

namespace NodeTree

/-- How many records there are from the top of a tree to its lowest. -/
def height : NodeTree → Nat
  | absent => 0
  | node _ left right => max left.height right.height + 1

theorem legible : NodeRecord.schema.Legible := {}

/-- The fields of the record at the top of a tree. -/
def fields (r : NodeRecord) (left right : NodeTree) : (k : NodeRecord.Field) → k.Value
  | .leaf => r.leaf
  | .plane => r.plane
  | .mins => r.bounds.mins
  | .maxs => r.bounds.maxs
  | .left => left
  | .right => right
  | .brushes => r.brushes

/-- A record is echoed as the tree that it is the top of. -/
theorem echoes_orAbsent {record : Reader ((k : NodeRecord.Field) → k.Value)} {r : NodeRecord}
    {left right : NodeTree} {good : Bool}
    (h : Echoes fault record (node r left right).write good (fields r left right)) :
    Echoes fault (orAbsent record) (node r left right).write good (node r left right) :=
  (h.nullable_some (by rintro ⟨⟩)).map _

theorem echoes_bounds (v : Vec3 Int32) (room : Nat) :
    Echoes .malformed (snapshotIntVec room) (writeIntVec v) (decide (0 < room)) v := by
  cases room with
  | zero => exact .triple_full _ _ _ v
  | succ room => exact .triple_legible (fun n _ => .int32 n) room

theorem echoes_brushes (is : Option (List Int64)) (room : Nat) :
    Echoes .malformed (nullable (indices room)) (writeOption writeIndices is)
      (is.isNone || decide (0 < room)) is := by
  cases is with
  | none => exact .nullable_none
  | some is =>
    have hnull : (writeIndices is).head? ≠ some 'n' := by rintro ⟨⟩
    cases room with
    | zero => exact (Echoes.list_full _ _ is).nullable_some hnull
    | succ room => exact (echoes_indices is room).nullable_some hnull

/-- Whether a field of the record at the top of a tree is read if there is `room` within its
    bracket. -/
def fits (r : NodeRecord) (left right : NodeTree) (room : Nat) : NodeRecord.Field → Bool
  | .leaf | .plane => true
  | .mins | .maxs => decide (0 < room)
  | .left => decide (left.height ≤ room - 1)
  | .right => decide (right.height ≤ room - 1)
  | .brushes => r.brushes.isNone || decide (0 < room)

/-- The bounds alone take up a bracket, so the fields all fit if a tree one record higher than the
    children does. -/
theorem all_fits (r : NodeRecord) (left right : NodeTree) (room : Nat) :
    NodeRecord.schema.fields.all (fits r left right room) =
      decide ((node r left right).height ≤ room) := by
  cases room with
  | zero => rfl
  | succ room =>
    have hheight : (node r left right).height ≤ room + 1 ↔
        left.height ≤ room ∧ right.height ≤ room := by
      rw [height, Nat.add_le_add_iff_right, Nat.max_le]
    simp [NodeRecord.schema, fits, hheight]

/-- **A tree** is read if there is room for one bracket more than it is high, and otherwise the
    first bracket that is too deep is a fault. -/
theorem echoes (t : NodeTree) (room : Nat) :
    Echoes .malformed (decode room) t.write (decide (t.height ≤ room - 1)) t := by
  -- the room of a child is that of its record less the record's own bracket
  induction t generalizing room with
  | absent =>
    have habsent (record) : Echoes .malformed (orAbsent record) writeNull true absent :=
      Echoes.nullable_none.map _
    cases room <;> exact habsent _
  | node r left right ihl ihr =>
    cases room with
    | zero => exact echoes_orAbsent (.record_full _ _ _)
    | succ room =>
      rw [Nat.add_sub_cancel, ← all_fits, decode]
      refine echoes_orAbsent (.record legible ?_)
      rintro (_ | _ | _ | _ | _ | _ | _)
      · exact .boolean r.leaf
      · exact .int64 r.plane
      · exact echoes_bounds r.bounds.mins room
      · exact echoes_bounds r.bounds.maxs room
      · exact ihl room
      · exact ihr room
      · exact echoes_brushes r.brushes room

end NodeTree

/-! ### Snapshots -/

namespace Snapshot

/-- The singles of a snapshot. -/
def singles (s : Snapshot Float32) : List Float32 := s.planes.flatMap PlaneRecord.singles

/-- The value of a field. -/
def get (s : Snapshot Float32) : (k : Snapshot.Field) → k.Value
  | .planes => s.planes
  | .brushes => s.brushes
  | .tree => s.tree

/-- Whether a field is read if there is `room` within the bracket around it. -/
def fits (s : Snapshot Float32) (room : Nat) : Snapshot.Field → Bool
  | .planes | .brushes => true
  | .tree => decide (s.tree.height ≤ room - 1)

theorem legible : Snapshot.schema.Legible := {}

theorem echoes {s : Snapshot Float32}
    (h : ∀ a ∈ s.singles, Echoes .malformed single (writeSingle a) true a) (room : Nat) :
    Echoes .malformed (Saved.decode (room + 4)) (Saved.write s)
      (decide (s.tree.height ≤ room + 2)) s := by
  have hall : schema.fields.all (s.fits (room + 3)) = decide (s.tree.height ≤ room + 2) := by
    simp [schema, fits]
  rw [← hall]
  refine (Echoes.record (v := s.get) legible ?_).map fun v =>
    Snapshot.mk (v .planes) (v .brushes) (v .tree)
  rintro (_ | _ | _)
  · refine .list_legible fun p hp => PlaneRecord.echoes (fun a ha => h a ?_) room
    exact List.mem_flatMap.2 ⟨p, hp, ha⟩
  · exact .list_legible fun b _ => b.echoes room
  · exact s.tree.echoes (room + 3)

/-- **Snapshots read back.**  If the singles of a snapshot are finite and read back from their own
    texts, then the text of the snapshot is read as the snapshot, and its level is that of the
    snapshot, as long as the tree is at most 125 records high.  If it is higher the text counts as
    malformed.  In no case is it read as another snapshot. -/
theorem text_reads_back {s : Snapshot Float32} (hfinite : ∀ a ∈ s.singles, a.isFinite = true)
    (hreads : Readable s.singles) :
    (s.tree.height ≤ 125 →
        Saved.ofText? (Saved.text s) = .ok s ∧
          World.ofText? (Saved.text s) = s.build.mapError .defective) ∧
      (125 < s.tree.height →
        (Saved.ofText? (Saved.text s) : Except Fault (Snapshot Float32)) = .error .malformed ∧
          World.ofText? (Saved.text s) = .error (.unreadable .malformed)) ∧
      ∀ u, Saved.ofText? (Saved.text s) = .ok u → u = s := by
  have hsingle (a : Float32) (ha : a ∈ s.singles) :
      Echoes .malformed single (writeSingle a) true a := by
    have hecho := Echoes.single (hreads a ha)
    rw [hfinite a ha] at hecho
    exact hecho.of_legible
  have htext := Saved.ofText?_text (echoes hsingle 123)
  refine ⟨fun hlow => ?_, fun hhigh => ?_, fun u hu => ?_⟩
  · rw [if_pos (decide_eq_true hlow)] at htext
    refine ⟨htext, ?_⟩
    rw [World.ofText?, htext]
  · rw [if_neg (by simpa using hhigh)] at htext
    refine ⟨htext, ?_⟩
    rw [World.ofText?, htext]
  · rw [htext] at hu
    split_ifs at hu
    exact (Except.ok.inj hu).symm

end Snapshot

/-- Records one below the other, each the left child of the one above it. -/
def NodeTree.stack : (height : Nat) → NodeTree
  | 0 => .absent
  | height + 1 => .node ⟨false, 0, .everything, none⟩ (stack height) .absent

theorem NodeTree.height_stack (height : Nat) : (stack height).height = height := by
  induction height with
  | zero => rfl
  | succ height ih => rw [stack, NodeTree.height, ih, NodeTree.height, Nat.max_zero]

/-- A slope and a partition that cuts it any number of times. -/
def terraces (cuts : Nat) : Snapshot Float32 where
  planes := [⟨⟨0, -0.6, 0.8⟩, -12.5⟩]
  brushes := [⟨true, [0]⟩]
  tree := .stack cuts

/-- The highest tree that is read, and one that is higher by one record. -/
theorem terraces_text_reads_back :
    (∀ cuts, ∀ a ∈ (terraces cuts).singles, a.isFinite = true) ∧
      (∀ cuts, Readable (terraces cuts).singles) ∧
      Saved.ofText? (Saved.text (terraces 125)) = .ok (terraces 125) ∧
      (Saved.ofText? (Saved.text (terraces 126)) : Except Fault (Snapshot Float32)) =
        .error .malformed := by
  have hfinite (cuts : Nat) : ∀ a ∈ (terraces cuts).singles, a.isFinite = true := by
    show ∀ a ∈ ([0, -0.6, 0.8, -12.5] : List Float32), a.isFinite = true
    decide +kernel
  have hreads (cuts : Nat) : Readable (terraces cuts).singles := by
    show Readable [0, -0.6, 0.8, -12.5]
    decide +kernel
  have hheight (cuts : Nat) : (terraces cuts).tree.height = cuts := NodeTree.height_stack cuts
  exact ⟨hfinite, hreads,
    ((Snapshot.text_reads_back (hfinite 125) (hreads 125)).1 (hheight 125).le).1,
    ((Snapshot.text_reads_back (hfinite 126) (hreads 126)).2.1 (by rw [hheight]; decide)).1⟩

end Stride
