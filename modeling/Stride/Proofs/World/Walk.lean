import Stride.World.Builder
import Stride.Proofs.World.Ways

namespace Stride

/-!
# The walk over an arena

Before a level is accepted its nodes are walked over from the root.  The walk finds no defect
exactly where the pending nodes are the tops of disjoint trees, none of whose nodes was seen
before and all of whose references are in the arena.

* `World.Resolves` — the references of one node are in the arena.
* `World.Forest` — the trees that the walk still has to visit.
* `forest_cons_iff` — one step of the walk, seen on the trees.
* `walk_eq_none_iff` — the whole walk, for any fuel beyond the number of unseen nodes.
* `treeDefect?_eq_none_iff` — the walk from the root.
-/

variable {α : Type}

/-- The arena of a builder with a root, whatever its defects. -/
def Builder.toWorld (b : Builder α) (root : NodeId) : World α :=
  ⟨b.planes, b.brushes, b.nodes, root⟩

/-- What a node refers to is in the arena: at a split the plane and the children, at a leaf the
    listed brushes. -/
def World.Resolves (w : World α) : Node → Prop
  | .split plane front back _ =>
    plane.index < w.planes.size ∧ front.index < w.nodes.size ∧ back.index < w.nodes.size
  | .leaf brushes _ => ∀ id ∈ brushes, id.index < w.brushes.size

/-- A node has no defect of its own iff its references are in the arena. -/
theorem Builder.nodeDefect?_eq_none_iff (b : Builder α) (root id : NodeId) (node : Node) :
    b.nodeDefect? id node = none ↔ (b.toWorld root).Resolves node := by
  cases node with
  | split plane front back bounds =>
    rw [nodeDefect?, World.Resolves]
    simp only [toWorld]
    split_ifs <;> simp <;> omega
  | leaf brushes bounds => simp [nodeDefect?, World.Resolves, toWorld]

/-! ### Trees that are still to be visited -/

/-- The trees right below the top of a tree, in the order of `Builder.children`. -/
def Partition.subtrees : Partition → List Partition
  | leaf _ _ _ => []
  | split _ _ _ front back => [back, front]

theorem Partition.ids_perm (p : Partition) : p.ids.Perm (p.root :: p.subtrees.flatMap ids) := by
  cases p with
  | leaf => rfl
  | split id plane bounds front back =>
    simp only [ids, root, subtrees, List.flatMap_cons, List.flatMap_nil, List.append_nil]
    exact List.perm_append_comm.cons id

namespace World

variable {w : World α} {id : NodeId} {p : Partition} {seen : Array Bool} {pending : List NodeId}

theorem Unfolds.node? (h : w.Unfolds id p) : ∃ node, w.node? id = some node := by
  cases h with
  | leaf node => exact ⟨_, node⟩
  | split node _ _ => exact ⟨_, node⟩

/-- There is a tree below a node iff there are trees below its children. -/
theorem exists_unfolds_iff {node : Node} (hid : w.node? id = some node) (qs : List Partition) :
    (∃ p, w.Unfolds id p ∧ p.subtrees = qs) ↔
      List.Forall₂ w.Unfolds (Builder.children node) qs := by
  constructor
  · rintro ⟨p, hp, rfl⟩
    cases hp with
    | leaf hleaf =>
      obtain rfl := Option.some.inj (hid.symm.trans hleaf)
      exact .nil
    | split hsplit hf hb =>
      obtain rfl := Option.some.inj (hid.symm.trans hsplit)
      exact .cons hb (.cons hf .nil)
  · intro hqs
    cases node with
    | leaf brushes bounds =>
      cases hqs
      exact ⟨_, .leaf hid, rfl⟩
    | split plane front back bounds =>
      obtain _ | ⟨hb, _ | ⟨hf, _ | _⟩⟩ := hqs
      exact ⟨_, .split hid hf hb, rfl⟩

/-- The pending nodes are the tops of trees.  No node stands twice in these, none was seen, and the
    references of all are in the arena. -/
def Forest (w : World α) (seen : Array Bool) (pending : List NodeId) : Prop :=
  ∃ ps, List.Forall₂ w.Unfolds pending ps ∧ (ps.flatMap Partition.ids).Nodup ∧
    ∀ id ∈ ps.flatMap Partition.ids, seen.getD id.index false = false ∧
      ∀ node, w.node? id = some node → w.Resolves node

/-- The trees before and after a step have the same nodes, but for the visited one. -/
theorem flatMap_ids_perm (p : Partition) (ps : List Partition) :
    ((p :: ps).flatMap Partition.ids).Perm
      (p.root :: (p.subtrees ++ ps).flatMap Partition.ids) := by
  rw [List.flatMap_cons, List.flatMap_append, ← List.cons_append]
  exact p.ids_perm.append_right _

theorem forest_nil : w.Forest seen [] := ⟨[], .nil, by simp, by simp⟩

/-- What is unseen after a node is marked was unseen before and is another node. -/
theorem getD_mark_eq_false_iff {i j : Nat} (hi : i < seen.size) :
    (seen.setIfInBounds i true).getD j false = false ↔ j ≠ i ∧ seen.getD j false = false := by
  rw [Array.getD_eq_getD_getElem?, Array.getD_eq_getD_getElem?, Array.getElem?_setIfInBounds]
  by_cases hij : i = j
  · subst hij
    simp [hi]
  · simp [hij, Ne.symm hij]

/-- **One step of the walk.** The first pending node is visited: it exists, is new, its references
    are in the arena, and it is replaced by its children. -/
theorem forest_cons_iff (hsize : seen.size = w.nodes.size) :
    w.Forest seen (id :: pending) ↔
      ∃ node, w.node? id = some node ∧ seen.getD id.index false = false ∧ w.Resolves node ∧
        w.Forest (seen.setIfInBounds id.index true) (Builder.children node ++ pending) := by
  constructor
  · rintro ⟨_, hall, hnodup, hfresh⟩
    obtain _ | @⟨_, p, _, ps, hp, hps⟩ := hall
    obtain ⟨node, hnode⟩ := hp.node?
    have hi : id.index < seen.size := by rw [hsize]; exact lt_size_of_node? hnode
    have hperm := flatMap_ids_perm p ps
    rw [hperm.nodup_iff, List.nodup_cons, hp.root_eq] at hnodup
    simp only [hperm.mem_iff, List.mem_cons, forall_eq_or_imp, hp.root_eq] at hfresh
    obtain ⟨⟨hnew, hres⟩, hrest⟩ := hfresh
    refine ⟨node, hnode, hnew, hres node hnode, p.subtrees ++ ps,
      List.rel_append ((exists_unfolds_iff hnode _).1 ⟨p, hp, rfl⟩) hps, hnodup.2, ?_⟩
    intro a ha
    refine ⟨(getD_mark_eq_false_iff hi).2 ⟨?_, (hrest a ha).1⟩, (hrest a ha).2⟩
    intro heq
    exact hnodup.1 (NodeId.index_injective heq ▸ ha)
  · rintro ⟨node, hnode, hnew, hres, qs, hqs, hnodup, hfresh⟩
    have hi : id.index < seen.size := by rw [hsize]; exact lt_size_of_node? hnode
    -- the trees of the children come first among those that are left
    have hchildren := List.forall₂_take (Builder.children node).length hqs
    have hps := List.forall₂_drop (Builder.children node).length hqs
    rw [List.take_left] at hchildren
    rw [List.drop_left] at hps
    obtain ⟨p, hp, hsub⟩ := (exists_unfolds_iff hnode _).2 hchildren
    have hperm := flatMap_ids_perm p (qs.drop (Builder.children node).length)
    rw [hsub, List.take_append_drop] at hperm
    refine ⟨_, .cons hp hps, ?_, ?_⟩
    · rw [hperm.nodup_iff, List.nodup_cons, hp.root_eq]
      refine ⟨fun hmem => ?_, hnodup⟩
      exact ((getD_mark_eq_false_iff hi).1 (hfresh id hmem).1).1 rfl
    · intro a ha
      rw [hperm.mem_iff, List.mem_cons, hp.root_eq] at ha
      rcases ha with rfl | ha
      · refine ⟨hnew, fun node' hnode' => ?_⟩
        rw [hnode, Option.some.injEq] at hnode'
        rwa [← hnode']
      · exact ⟨((getD_mark_eq_false_iff hi).1 (hfresh a ha).1).2, (hfresh a ha).2⟩

end World

/-! ### The walk -/

namespace Builder

variable {b : Builder α} {root : NodeId}

/-- Marking an unseen node leaves one unseen node less. -/
theorem count_mark {seen : Array Bool} {i : Nat} (hi : i < seen.size)
    (hnew : seen.getD i false = false) :
    (seen.setIfInBounds i true).count false + 1 = seen.count false := by
  rw [Array.getD_eq_getD_getElem?, Array.getElem?_eq_getElem hi, Option.getD_some] at hnew
  have hpos : 0 < seen.count false := Array.count_pos_iff.2 (hnew ▸ Array.getElem_mem hi)
  rw [Array.setIfInBounds, dif_pos hi, Array.count_set]
  simp only [hnew]
  simp
  omega

/-- **The walk.** With fuel beyond the number of unseen nodes, the walk finds no defect iff the
    pending nodes are the tops of trees that are new and disjoint. -/
theorem walk_eq_none_iff (root : NodeId) (fuel : Nat) (seen : Array Bool) (pending : List NodeId)
    (hsize : seen.size = b.nodes.size) (hfuel : seen.count false < fuel) :
    b.walk fuel seen pending = none ↔ (b.toWorld root).Forest seen pending := by
  -- the fuel stays ahead of the unseen nodes, for every step that goes on marks one of them
  induction fuel generalizing seen pending with
  | zero => omega
  | succ fuel ih =>
    cases pending with
    | nil => simp [walk, World.forest_nil]
    | cons id pending =>
      rw [World.forest_cons_iff (w := b.toWorld root) hsize, walk]
      rw [show (b.toWorld root).node? id = b.nodes[id.index]? from rfl]
      cases hnode : b.nodes[id.index]? with
      | none => simp
      | some node =>
        have hi : id.index < seen.size := by
          rw [hsize]
          exact (Array.getElem?_eq_some_iff.1 hnode).1
        simp only [Option.some.injEq, exists_eq_left', ← nodeDefect?_eq_none_iff b root id]
        cases hseen : seen.getD id.index false with
        | true => simp
        | false =>
          cases hdefect : b.nodeDefect? id node with
          | some defect => simp
          | none =>
            have hcount := count_mark hi hseen
            simpa using ih (seen.setIfInBounds id.index true) (children node ++ pending)
              (by simpa using hsize) (by omega)

/-- The part below the root has no defect iff it is a tree without repeated nodes whose references
    are in the arena. -/
theorem treeDefect?_eq_none_iff :
    b.treeDefect? root = none ↔
      ∃ p, (b.toWorld root).Unfolds root p ∧ p.ids.Nodup ∧
        ∀ id ∈ p.ids, ∀ node, (b.toWorld root).node? id = some node →
          (b.toWorld root).Resolves node := by
  have hcount : (Array.replicate b.nodes.size false).count false < b.nodes.size + 1 := by simp
  rw [treeDefect?, walk_eq_none_iff root _ _ _ (by simp) hcount]
  constructor
  · rintro ⟨_, hall, hnodup, hres⟩
    obtain _ | @⟨_, p, _, _, hp, hnil⟩ := hall
    cases hnil
    simp only [List.flatMap_cons, List.flatMap_nil, List.append_nil] at hnodup hres
    exact ⟨p, hp, hnodup, fun id hid => (hres id hid).2⟩
  · rintro ⟨p, hp, hnodup, hres⟩
    refine ⟨[p], .cons hp .nil, by simpa using hnodup,
      fun id hid => ⟨?_, hres id (by simpa using hid)⟩⟩
    rw [Array.getD_eq_getD_getElem?, Array.getElem?_replicate]
    split_ifs <;> rfl

end Builder

end Stride
