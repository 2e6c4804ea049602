import Stride.World.Snapshot
import Mathlib.Data.List.Basic
import Mathlib.Tactic.SplitIfs

namespace Stride

/-!
# The defects of a snapshot

A snapshot is checked while its tree is flattened, record by record, and the first defect that is met
is reported.  Here all defects are listed in the order of the numbers that they are reported with,
and nodes in the order in which they are stored.  The two orders differ: a record is numbered before
those below it and stored after them.

* `acceptUnless` — a value, or the first of some defects.
* `NodeTree.records`, `NodeTree.recordDefects` — the records by number, and what is wrong with one.
* `NodeTree.layout` — the nodes by place.
* `Snapshot.defects` — all defects of a snapshot, and `Snapshot.contents`, the level without them.
* `flatten_eq` — a tree is laid out, or the first of its defects is named.
* `brushes?_eq` — the same of the brushes.
-/

variable {α β γ : Type}

/-! ### The first of some defects -/

/-- A value that is accepted where there are no defects; otherwise the first of them. -/
def acceptUnless (defects : List Defect) (a : β) : Except Defect β :=
  match defects with
  | [] => .ok a
  | defect :: _ => .error defect

@[simp] theorem acceptUnless_nil (a : β) : acceptUnless [] a = .ok a := rfl

@[simp] theorem acceptUnless_cons (defect : Defect) (defects : List Defect) (a : β) :
    acceptUnless (defect :: defects) a = .error defect := rfl

/-- What is made of an accepted value. -/
theorem map_acceptUnless (defects : List Defect) (a : β) (f : β → γ) :
    (acceptUnless defects a).map f = acceptUnless defects (f a) := by
  cases defects <;> rfl

theorem acceptUnless_eq_error_iff {defects : List Defect} {a : β} {defect : Defect} :
    acceptUnless defects a = .error defect ↔ defects.head? = some defect := by
  cases defects <;> simp

theorem acceptUnless_eq_ok_iff {defects : List Defect} {a b : β} :
    acceptUnless defects a = .ok b ↔ defects = [] ∧ a = b := by
  cases defects <;> simp

/-- What is checked first has the first defects. -/
theorem acceptUnless_bind {defects more : List Defect} {a : β} {c : γ} {f : β → Except Defect γ}
    (h : defects = [] → f a = acceptUnless more c) :
    (acceptUnless defects a).bind f = acceptUnless (defects ++ more) c := by
  cases defects with
  | nil => exact h rfl
  | cons => rfl

/-- A list whose members are checked in order has the defects of its members in order. -/
theorem acceptUnless_mapM {f : β → Except Defect γ} {defects : β → List Defect} {value : β → γ}
    {l : List β} (h : ∀ a ∈ l, f a = acceptUnless (defects a) (value a)) :
    l.mapM f = acceptUnless (l.flatMap defects) (l.map value) := by
  induction l with
  | nil => rfl
  | cons a l ih =>
    rw [List.mapM_cons, h a List.mem_cons_self, ih fun b hb => h b (List.mem_cons_of_mem _ hb),
      List.flatMap_cons, List.map_cons]
    exact acceptUnless_bind fun _ => by cases l.flatMap defects <;> rfl

/-! ### References by number -/

/-- A number of a record refers to one of so many items. -/
def Refers (count : Nat) (v : Int64) : Prop := 0 ≤ v.toInt ∧ v.toInt < count

instance (count : Nat) (v : Int64) : Decidable (Refers count v) :=
  inferInstanceAs (Decidable (_ ∧ _))

theorem index?_of_refers {v : Int64} {count : Nat} (h : Refers count v) :
    index? v count = some v.toInt.toNat := if_pos h

theorem index?_of_not_refers {v : Int64} {count : Nat} (h : ¬ Refers count v) :
    index? v count = none := if_neg h

/-- Numbers that are looked up in order have a defect for each that refers to nothing. -/
theorem mapM_index?_eq (count : Nat) (id : Nat → β) (defect : Int64 → Defect) (vs : List Int64) :
    (vs.mapM fun v =>
        match index? v count with
        | some k => Except.ok (id k)
        | none => .error (defect v)) =
      acceptUnless ((vs.filter fun v => ¬ Refers count v).map defect)
        (vs.map fun v => id v.toInt.toNat) := by
  have hone (v : Int64) :
      (match index? v count with
        | some k => Except.ok (id k)
        | none => .error (defect v)) =
        acceptUnless (if Refers count v then [] else [defect v]) (id v.toInt.toNat) := by
    by_cases h : Refers count v
    · rw [index?_of_refers h, if_pos h]
      rfl
    · rw [index?_of_not_refers h, if_neg h]
      rfl
  rw [acceptUnless_mapM fun v _ => hone v]
  congr 1
  -- the defects of the single numbers, one after the other, are those of the numbers that are kept
  induction vs with
  | nil => rfl
  | cons v vs ih => by_cases h : Refers count v <;> simp [h, ih]

/-! ### Records by number -/

namespace NodeTree

theorem isAbsent_iff {t : NodeTree} : t.isAbsent = true ↔ t = absent := by
  cases t <;> simp [isAbsent]

/-- How many records a tree has. -/
def size : NodeTree → Nat
  | absent => 0
  | node _ left right => left.size + right.size + 1

/-- The records of a tree, each with what is below it, from parent to left to right.  The number of
    a record is its place in this list. -/
def records : NodeTree → List NodeTree
  | absent => []
  | node r left right => node r left right :: (left.records ++ right.records)

/-- All that is wrong with the record at the top of a tree.  A leaf may have no child and must list
    brushes that exist; a split must have a plane that exists, and both children. -/
def recordDefects (planes brushes number : Nat) : NodeTree → List Defect
  | absent => []
  | node r left right =>
    if r.leaf then
      (if left.isAbsent ∧ right.isAbsent then [] else [.malformedNode number .leafWithChildren]) ++
        ((r.brushes.getD []).filter fun v => ¬ Refers brushes v).map fun v =>
          .danglingBrush number v.toInt
    else
      (if Refers planes r.plane then [] else [.danglingNodePlane number r.plane.toInt]) ++
        (if left.isAbsent ∨ right.isAbsent then [.malformedNode number .missingChild] else [])

/-- The defects of all records of a tree whose top has the given number. -/
def defects (planes brushes number : Nat) (t : NodeTree) : List Defect :=
  (t.records.zipIdx number).flatMap fun (t, k) => t.recordDefects planes brushes k

@[simp] theorem length_records (t : NodeTree) : t.records.length = t.size := by
  induction t with
  | absent => rfl
  | node r left right ihl ihr => simp [records, size, ihl, ihr]

variable (planes brushes number : Nat)

@[simp] theorem defects_absent : absent.defects planes brushes number = [] := rfl

/-- The defects of a record come before those below it, and those on the left before those on the
    right. -/
theorem defects_node (r : NodeRecord) (left right : NodeTree) :
    (node r left right).defects planes brushes number =
      (node r left right).recordDefects planes brushes number ++
        (left.defects planes brushes (number + 1) ++
          right.defects planes brushes (number + 1 + left.size)) := by
  simp [defects, records, List.zipIdx_append]

/-! ### Nodes by place -/

/-- The node that is stored for a record when the left subtree below it is stored from `start` on,
    and the right one after it.  Each child is the last node of its subtree. -/
def topNode (start : Nat) (r : NodeRecord) (left right : NodeTree) : Node :=
  if r.leaf then .leaf ((r.brushes.getD []).map fun v => .ofIndex v.toInt.toNat) r.bounds
  else
    .split (.ofIndex r.plane.toInt.toNat) (.ofIndex (start + left.size - 1))
      (.ofIndex (start + left.size + right.size - 1)) r.bounds

/-- The nodes of a tree that is stored from `start` on: those of the left subtree, those of the right
    one, and the top. -/
def layout (start : Nat) : NodeTree → List Node
  | absent => []
  | node r left right =>
    left.layout start ++ right.layout (start + left.size) ++ [topNode start r left right]

@[simp] theorem length_layout (start : Nat) (t : NodeTree) : (t.layout start).length = t.size := by
  induction t generalizing start with
  | absent => rfl
  | node r left right ihl ihr => simp [layout, size, ihl, ihr, Nat.add_assoc]

/-! ### Flattening -/

/-- The builder with the nodes of a tree added. -/
def addTo (t : NodeTree) (b : Builder α) : Builder α :=
  { b with nodes := b.nodes ++ (t.layout b.nodes.size).toArray }

/-- What flattening a tree without defects comes to. -/
def flattened (t : NodeTree) (b : Builder α) (number : Nat) : Flattened α :=
  ⟨.ofIndex (b.nodes.size + t.size - 1), number + t.size, t.addTo b⟩

/-- The brushes that a leaf lists are looked up in order. -/
theorem leafBrushes_eq (r : NodeRecord) (number brushes : Nat) :
    r.leafBrushes number brushes =
      acceptUnless
        (((r.brushes.getD []).filter fun v => ¬ Refers brushes v).map fun v =>
          .danglingBrush number v.toInt)
        ((r.brushes.getD []).map fun v => .ofIndex v.toInt.toNat) :=
  mapM_index?_eq brushes BrushId.ofIndex (fun v => .danglingBrush number v.toInt) _

/-- A leaf is flattened to one node. -/
theorem flatten_leaf (b : Builder α) (number : Nat) {r : NodeRecord} (hleaf : r.leaf = true) :
    (node r absent absent).flatten b number =
      acceptUnless ((node r absent absent).defects b.planes.size b.brushes.size number)
        ((node r absent absent).flattened b number) := by
  have hdefects : (node r absent absent).defects b.planes.size b.brushes.size number =
      ((r.brushes.getD []).filter fun v => ¬ Refers b.brushes.size v).map fun v =>
        .danglingBrush number v.toInt := by
    simp [defects_node, recordDefects, hleaf, isAbsent]
  rw [hdefects, flatten]
  simp only [hleaf, isAbsent, Bool.and_self, if_true, leafBrushes_eq]
  cases (r.brushes.getD []).filter fun v => ¬ Refers b.brushes.size v with
  | nil => simp [flattened, size, addTo, layout, topNode, hleaf, Builder.addLeaf, Builder.addNode]
  | cons => rfl

/-- A split with both children is flattened in the order left, right, top. -/
theorem flatten_split {b : Builder α} {r : NodeRecord} {left right : NodeTree} {number plane : Nat}
    (hleaf : r.leaf = false) (hplane : index? r.plane b.planes.size = some plane)
    (hleft : left.isAbsent = false) (hright : right.isAbsent = false) :
    (node r left right).flatten b number =
      (left.flatten b (number + 1)).bind fun front =>
        (right.flatten front.builder front.next).bind fun back =>
          let top := back.builder.addSplit (.ofIndex plane) front.root back.root r.bounds
          .ok ⟨top.1, back.next, top.2⟩ := by
  simp only [flatten, hleaf, hplane, hleft, hright]
  cases left.flatten b (number + 1) with
  | error => rfl
  | ok front =>
    cases hback : right.flatten front.builder front.next with
    | error => simp [hback, Except.bind]
    | ok back => simp [hback, Except.bind]

/-- Adding the subtrees and then the top adds the tree. -/
theorem addSplit_flattened (b : Builder α) (number : Nat) {r : NodeRecord} (left right : NodeTree)
    (hleaf : r.leaf = false) :
    let front := left.flattened b (number + 1)
    let back := right.flattened front.builder front.next
    let top := back.builder.addSplit (.ofIndex r.plane.toInt.toNat) front.root back.root r.bounds
    Flattened.mk top.1 back.next top.2 = (node r left right).flattened b number := by
  simp [flattened, Builder.addSplit, Builder.addNode, size, addTo, layout, topNode, hleaf]
  omega

/-- **Flattening** a tree adds its layout to the nodes, or names the first defect of its records. -/
theorem flatten_eq (b : Builder α) (number : Nat) {t : NodeTree} (h : t.isAbsent = false) :
    t.flatten b number =
      acceptUnless (t.defects b.planes.size b.brushes.size number) (t.flattened b number) := by
  induction t generalizing b number with
  | absent => cases h
  | node r left right ihl ihr =>
    cases hleaf : r.leaf with
    | true =>
      by_cases hchildren : left.isAbsent ∧ right.isAbsent
      · obtain rfl := isAbsent_iff.1 hchildren.1
        obtain rfl := isAbsent_iff.1 hchildren.2
        exact flatten_leaf b number hleaf
      · -- a record with a defect is refused before anything below it is looked at
        rw [defects_node]
        simp [flatten, recordDefects, hleaf, hchildren]
    | false =>
      -- the plane is looked up before the children are asked for
      by_cases hplane : Refers b.planes.size r.plane
      · by_cases hchildren : left.isAbsent ∨ right.isAbsent
        · rw [defects_node]
          simp [flatten, recordDefects, hleaf, hchildren, hplane, index?_of_refers hplane]
        · obtain ⟨hleft, hright⟩ : left.isAbsent = false ∧ right.isAbsent = false := by
            simpa using hchildren
          have hdefects : (node r left right).defects b.planes.size b.brushes.size number =
              left.defects b.planes.size b.brushes.size (number + 1) ++
                right.defects b.planes.size b.brushes.size (number + 1 + left.size) := by
            simp [defects_node, recordDefects, hleaf, hplane, hchildren]
          rw [flatten_split hleaf (index?_of_refers hplane) hleft hright, ihl b _ hleft, hdefects]
          refine acceptUnless_bind fun _ => ?_
          -- the left subtree adds no planes and no brushes, so the right one meets the same counts
          rw [ihr _ _ hright, ← addSplit_flattened b number left right hleaf]
          exact map_acceptUnless _ _ _
      · rw [defects_node]
        simp [flatten, recordDefects, hleaf, hplane, index?_of_not_refers hplane]

end NodeTree

/-! ### Snapshots -/

/-- The brush of a record. -/
def BrushRecord.toBrush (r : BrushRecord) : Brush :=
  ⟨r.planes.map fun v => .ofIndex v.toInt.toNat, r.collidable⟩

/-- The faces of the brush record with the given number that are no planes. -/
def BrushRecord.defects (planes number : Nat) (r : BrushRecord) : List Defect :=
  (r.planes.filter fun v => ¬ Refers planes v).map fun v => .danglingPlane number v.toInt

/-- The faces of a brush record are looked up in order. -/
theorem BrushRecord.faces_eq (r : BrushRecord) (number planes : Nat) :
    r.faces number planes =
      acceptUnless (r.defects planes number) (r.planes.map fun v => .ofIndex v.toInt.toNat) :=
  mapM_index?_eq planes PlaneId.ofIndex (fun v => .danglingPlane number v.toInt) _

/-- The plane of a record. -/
def PlaneRecord.toPlane (r : PlaneRecord α) : Plane α := ⟨r.normal, r.distance⟩

namespace Snapshot

/-- The defects of the brushes in order. -/
def brushDefects (s : Snapshot α) : List Defect :=
  s.brushes.zipIdx.flatMap fun (r, i) => r.defects s.planes.length i

/-- The defects of the planes in order. -/
def planeDefects [Scalar α] (s : Snapshot α) : List Defect :=
  (s.planes.zipIdx.filter fun (r, _) => ¬ r.toPlane.IsSound).map fun (_, i) => .degenerateNormal i

/-- The defects of the tree, in the order of its records. -/
def treeDefects (s : Snapshot α) : List Defect :=
  s.tree.defects s.planes.length s.brushes.length 0

/-- All defects of a snapshot: that it has no tree, then those of the brushes, of the records of the
    tree, and of the planes. -/
def defects [Scalar α] (s : Snapshot α) : List Defect :=
  (if s.tree.isAbsent then [.missingRoot] else []) ++
    (s.brushDefects ++ (s.treeDefects ++ s.planeDefects))

/-- The level that a snapshot without defects stands for. -/
def contents (s : Snapshot α) : World α where
  planes := (s.planes.map PlaneRecord.toPlane).toArray
  brushes := (s.brushes.map BrushRecord.toBrush).toArray
  nodes := (s.tree.layout 0).toArray
  root := .ofIndex (s.tree.size - 1)

/-- The brushes of a snapshot, or the first face that is not a plane. -/
theorem brushes?_eq (s : Snapshot α) :
    s.brushes? = acceptUnless s.brushDefects (s.brushes.map BrushRecord.toBrush) := by
  have hone (a : BrushRecord × Nat) :
      ((a.1.faces a.2 s.planes.length).map fun planes => (⟨planes, a.1.collidable⟩ : Brush)) =
        acceptUnless (a.1.defects s.planes.length a.2) a.1.toBrush := by
    rw [BrushRecord.faces_eq]
    exact map_acceptUnless _ _ _
  rw [brushes?, acceptUnless_mapM fun a _ => hone a]
  have hmap : s.brushes.zipIdx.map (BrushRecord.toBrush ∘ Prod.fst) =
      s.brushes.map BrushRecord.toBrush := by
    rw [← List.map_map, List.zipIdx_map_fst]
  exact congrArg _ hmap

/-- The lowest plane that is not sound has the first defect of the planes. -/
theorem planeDefect?_withPlanes [Scalar α] (s : Snapshot α) :
    s.withPlanes.planeDefect? = s.planeDefects.head? := by
  rw [Builder.planeDefect?, planeDefects, List.head?_map, List.head?_filter, withPlanes,
    List.findIdx?_toArray, List.findIdx?_map, List.findIdx?_eq_fst_find?_zipIdx, Option.map_map]
  simp only [decide_not]
  rfl

end Snapshot

end Stride
