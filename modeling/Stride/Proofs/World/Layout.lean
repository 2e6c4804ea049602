import Stride.Proofs.World.Records
import Stride.Proofs.World.Walk
import Mathlib.Data.List.Perm.Basic

namespace Stride

/-!
# Trees that are laid out in an arena

The nodes of a tree of records stand in the arena subtree by subtree, each record after those below
it.  Read back from the last of them, they are the tree again.

* `NodeTree.Sound` — the records have no defects.
* `World.Stores` — an arena has the nodes of a tree in consecutive places.
* `Partition.idsUp` — the nodes of a partition, each after those below it.
* `Sound.exists_unfolds` — what is stored unfolds, and its nodes are numbered by their places.
* `Sound.exists_block` — every stored node is the last one of a subtree.
* `Sound.depicts` — what is unfolded depicts the records.
-/

variable {α : Type}

/-! ### Numbers and indices -/

/-- A number that is cut to 32 bits does not grow. -/
theorem toNat_ofNat_le (i : Nat) : (UInt32.ofNat i).toNat ≤ i := Nat.mod_le _ _

theorem NodeId.index_ofIndex {i : Nat} (h : i < UInt32.size) : (NodeId.ofIndex i).index = i :=
  Nat.mod_eq_of_lt h

/-- A number that refers to one of at most `UInt32.size` items is the index that it is stored as. -/
theorem Refers.toNat_ofNat {count : Nat} {v : Int64} (h : Refers count v)
    (hcount : count ≤ UInt32.size) : ((UInt32.ofNat v.toInt.toNat).toNat : Int) = v.toInt := by
  obtain ⟨hnonneg, hlt⟩ := h
  have hsmall : v.toInt.toNat < UInt32.size := by omega
  have hkept : (UInt32.ofNat v.toInt.toNat).toNat = v.toInt.toNat := Nat.mod_eq_of_lt hsmall
  rw [hkept]
  exact Int.toNat_of_nonneg hnonneg

/-! ### Trees without defects -/

namespace NodeTree

/-- A tree of records without defects, for so many planes and brushes. -/
inductive Sound (planes brushes : Nat) : NodeTree → Prop where
  /-- A leaf has no children and lists brushes that exist. -/
  | leaf {r : NodeRecord} (isLeaf : r.leaf = true)
      (listed : ∀ v ∈ r.brushes.getD [], Refers brushes v) :
      Sound planes brushes (node r absent absent)
  /-- A split has a plane that exists, and two children. -/
  | split {r : NodeRecord} {left right : NodeTree} (isSplit : r.leaf = false)
      (plane : Refers planes r.plane) (front : Sound planes brushes left)
      (back : Sound planes brushes right) : Sound planes brushes (node r left right)

variable {planes brushes number start : Nat} {t left right : NodeTree} {r : NodeRecord}

/-- The record at the top of a tree has no defects iff it is a leaf without children whose brushes
    exist, or a split with both children whose plane exists. -/
theorem recordDefects_eq_nil_iff :
    (node r left right).recordDefects planes brushes number = [] ↔
      (r.leaf = true ∧ left = absent ∧ right = absent ∧ ∀ v ∈ r.brushes.getD [], Refers brushes v) ∨
      (r.leaf = false ∧ Refers planes r.plane ∧ left.isAbsent = false ∧ right.isAbsent = false) := by
  cases hleaf : r.leaf with
  | true => simp [recordDefects, hleaf, isAbsent_iff, and_assoc]
  | false => simp [recordDefects, hleaf]

theorem sound_of_defects_eq_nil (htop : t.isAbsent = false)
    (h : t.defects planes brushes number = []) : t.Sound planes brushes := by
  induction t generalizing number with
  | absent => cases htop
  | node r left right ihl ihr =>
    simp only [defects_node, List.append_eq_nil_iff] at h
    obtain ⟨hrecord, hl, hr⟩ := h
    obtain ⟨hleaf, rfl, rfl, hlisted⟩ | ⟨hsplit, hplane, hleft, hright⟩ :=
      recordDefects_eq_nil_iff.1 hrecord
    · exact .leaf hleaf hlisted
    · exact .split hsplit hplane (ihl hleft hl) (ihr hright hr)

theorem Sound.size_pos (h : t.Sound planes brushes) : 0 < t.size := by
  cases h <;> simp [size]

end NodeTree

/-! ### Places -/

/-- The nodes of a tree stand in the arena from an index on. -/
def World.Stores (w : World α) (start : Nat) (t : NodeTree) : Prop :=
  ∃ front back, w.nodes.toList = front ++ t.layout start ++ back ∧ front.length = start

namespace World.Stores

open NodeTree

variable {w : World α} {start : Nat} {r : NodeRecord}

theorem left {left right : NodeTree} (h : w.Stores start (node r left right)) :
    w.Stores start left := by
  obtain ⟨front, back, hnodes, hlength⟩ := h
  exact ⟨front, right.layout (start + left.size) ++ [topNode start r left right] ++ back,
    by simp [hnodes, layout], hlength⟩

theorem right {left right : NodeTree} (h : w.Stores start (node r left right)) :
    w.Stores (start + left.size) right := by
  obtain ⟨front, back, hnodes, hlength⟩ := h
  exact ⟨front ++ left.layout start, [topNode start r left right] ++ back,
    by simp [hnodes, layout], by simp [hlength]⟩

/-- The top record of a stored tree is the last of its nodes. -/
theorem node? {left right : NodeTree} (h : w.Stores start (node r left right))
    (hsize : start + (node r left right).size ≤ UInt32.size) :
    w.node? (.ofIndex (start + (node r left right).size - 1)) =
      some (topNode start r left right) := by
  obtain ⟨front, back, hnodes, hlength⟩ := h
  have hpos : 0 < (node r left right).size := Nat.succ_pos _
  have hindex : start + (node r left right).size - 1 =
      (front ++ left.layout start ++ right.layout (start + left.size)).length := by
    simp [size, hlength]
  rw [World.node?, NodeId.index_ofIndex (by omega), ← Array.getElem?_toList, hnodes, hindex]
  simp [layout]

end World.Stores

/-! ### What unfolds -/

/-- The numbers of all nodes, each after those below it. -/
def Partition.idsUp : Partition → List NodeId
  | leaf id _ _ => [id]
  | split id _ _ front back => front.idsUp ++ back.idsUp ++ [id]

theorem Partition.idsUp_perm (p : Partition) : p.idsUp.Perm p.ids := by
  induction p with
  | leaf => rfl
  | split id plane bounds front back ihf ihb =>
    exact List.perm_append_comm.trans ((ihf.append ihb).cons id)

namespace NodeTree

variable {w : World α} {planes brushes start : Nat} {t : NodeTree}

/-- **Unfolding.** A stored tree unfolds from its last node, and its nodes, each after those below
    it, are numbered by their places. -/
theorem Sound.exists_unfolds (h : t.Sound planes brushes) (hstores : w.Stores start t)
    (hsize : start + t.size ≤ UInt32.size) :
    ∃ p, w.Unfolds (.ofIndex (start + t.size - 1)) p ∧
      p.idsUp = (List.range' start t.size).map NodeId.ofIndex := by
  induction h generalizing start with
  | @leaf r isLeaf _ =>
    have hnode := hstores.node? hsize
    rw [topNode, if_pos isLeaf] at hnode
    exact ⟨_, .leaf hnode, rfl⟩
  | @split r left right isSplit _ _ _ ihl ihr =>
    have hnode := hstores.node? hsize
    rw [topNode, isSplit, if_neg Bool.false_ne_true] at hnode
    simp only [size] at hsize
    -- the left part stands from `start` on, the right one after it, and the top is the last node
    obtain ⟨front, hfront, hids⟩ := ihl hstores.left (by omega)
    obtain ⟨back, hback, hids'⟩ := ihr hstores.right (by omega)
    refine ⟨_, .split hnode hfront hback, ?_⟩
    rw [Partition.idsUp, hids, hids']
    have hrange : List.range' start (left.size + right.size + 1) =
        List.range' start left.size ++ List.range' (start + left.size) right.size ++
          [start + (left.size + right.size + 1) - 1] := by
      rw [← List.range'_append_1, ← List.range'_append_1, List.range'_one]
      congr 2
    rw [size, hrange, List.map_append, List.map_append, List.map_singleton]

/-- Every stored node is the last one of a subtree. -/
theorem Sound.exists_block (h : t.Sound planes brushes) (hstores : w.Stores start t) {i : Nat}
    (hlow : start ≤ i) (hhigh : i < start + t.size) :
    ∃ block, ∃ first, block.Sound planes brushes ∧ w.Stores first block ∧
      first + block.size = i + 1 := by
  induction h generalizing start with
  | leaf isLeaf listed =>
    refine ⟨_, start, .leaf isLeaf listed, hstores, ?_⟩
    simp only [size] at hhigh ⊢
    omega
  | @split r left right isSplit plane front back ihl ihr =>
    -- a place is in the left part, in the right part, or the last one
    have hlast : i = start + left.size + right.size ∨ i < start + left.size + right.size := by
      simp only [size] at hhigh
      omega
    rcases hlast with rfl | hbelow
    · exact ⟨_, start, .split isSplit plane front back, hstores, by simp only [size]; omega⟩
    · by_cases hleft : i < start + left.size
      · exact ihl hstores.left hlow hleft
      · exact ihr hstores.right (by omega) hbelow

/-- The references of the nodes that are stored for a tree without defects are in the arena. -/
theorem Sound.resolves (h : t.Sound w.planes.size w.brushes.size)
    (hsize : start + t.size ≤ w.nodes.size) : ∀ node ∈ t.layout start, w.Resolves node := by
  induction h generalizing start with
  | leaf isLeaf listed =>
    intro node hnode
    simp only [layout, topNode, isLeaf, if_true, List.nil_append, List.mem_singleton] at hnode
    subst hnode
    intro id hid
    obtain ⟨v, hv, rfl⟩ := List.mem_map.1 hid
    have hrefers := listed v hv
    exact (toNat_ofNat_le _).trans_lt (by have := hrefers.1; have := hrefers.2; omega)
  | @split r left right isSplit plane front back ihl ihr =>
    intro node hnode
    -- both parts have a last node, which is what the top refers to
    have hl := front.size_pos
    have hr := back.size_pos
    simp only [size] at hsize
    simp only [layout, topNode, isSplit, Bool.false_eq_true, if_false, List.mem_append,
      List.mem_singleton] at hnode
    rcases hnode with (hnode | hnode) | rfl
    · exact ihl (by omega) node hnode
    · exact ihr (by omega) node hnode
    · refine ⟨(toNat_ofNat_le _).trans_lt ?_, (toNat_ofNat_le _).trans_lt ?_,
        (toNat_ofNat_le _).trans_lt ?_⟩
      · have := plane.1
        have := plane.2
        omega
      all_goals omega

end NodeTree

/-! ### What is depicted -/

/-- A partition has the shape of a tree of records, with the same box everywhere, the plane of the
    record at a split and the brushes of the record at a leaf. -/
def Partition.Depicts : Partition → NodeTree → Prop
  | _, .absent => False
  | leaf _ brushes bounds, .node r left right =>
    r.leaf = true ∧ left = .absent ∧ right = .absent ∧ bounds = r.bounds ∧
      brushes.map (fun id => (id.index : Int)) = (r.brushes.getD []).map Int64.toInt
  | split _ plane bounds front back, .node r left right =>
    r.leaf = false ∧ front.Depicts left ∧ back.Depicts right ∧ bounds = r.bounds ∧
      (plane.index : Int) = r.plane.toInt

/-- **Reading back.** What unfolds from the last node of a stored tree depicts the tree. -/
theorem NodeTree.Sound.depicts {w : World α} {planes brushes start : Nat} {t : NodeTree}
    {p : Partition} (h : t.Sound planes brushes) (hplanes : planes ≤ UInt32.size)
    (hbrushes : brushes ≤ UInt32.size) (hstores : w.Stores start t)
    (hsize : start + t.size ≤ UInt32.size)
    (hp : w.Unfolds (.ofIndex (start + t.size - 1)) p) : p.Depicts t := by
  induction h generalizing start p with
  | @leaf r isLeaf listed =>
    have hnode := hstores.node? hsize
    rw [topNode, if_pos isLeaf] at hnode
    obtain rfl := hp.unique (.leaf hnode)
    refine ⟨isLeaf, rfl, rfl, rfl, ?_⟩
    rw [List.map_map]
    exact List.map_congr_left fun v hv => (listed v hv).toNat_ofNat hbrushes
  | @split r left right isSplit plane _ _ ihl ihr =>
    have hnode := hstores.node? hsize
    rw [topNode, isSplit, if_neg Bool.false_ne_true] at hnode
    simp only [size] at hsize
    -- what unfolds is read off the node that is stored, so the parts unfold from the children
    cases hp with
    | leaf hleaf => simp [hnode] at hleaf
    | split hsplit hfront hback =>
      obtain ⟨rfl, rfl, rfl, rfl⟩ : _ ∧ _ ∧ _ ∧ _ := by simpa using hnode.symm.trans hsplit
      exact ⟨isSplit, ihl hstores.left (by omega) hfront, ihr hstores.right (by omega) hback, rfl,
        plane.toNat_ofNat hplanes⟩

end Stride
