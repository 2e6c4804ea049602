import Stride.World.Partition
import Mathlib.Data.Fintype.Card
import Mathlib.Data.List.Nodup

namespace Stride

/-!
# Ways through an arena

The nodes of an arena are reached from its root by turns at splits.  In a level that is accepted no
node is reached in two ways, and then what lies below the root is a tree.

* `World.Leads` — a list of turns leads from one node to another.
* `World.HasCell` — a leaf is reached from the root by given turns.
* `Partition.ways` — all ways through a tree, with the nodes that they end at.
* `leads_iff_mem_ways`, `hasCell_iff_mem_cells` — the ways through an arena that unfolds to a tree.
* `Unfolds.nodup_iff` — no number stands twice in the tree iff no node is reached in two ways.
* `exists_unfolds` — an arena without missing nodes in which no node is reached in two ways unfolds
  to a tree.
-/

variable {α : Type}

/-- The one of two things that is on this side. -/
def Side.pick {β : Type} (s : Side) (front back : β) : β :=
  match s with
  | .front => front
  | .back => back

theorem NodeId.index_injective : Function.Injective NodeId.index := by
  rintro ⟨a⟩ ⟨b⟩ h
  rw [NodeId.mk.injEq]
  exact UInt32.toNat_inj.1 h

/-! ### Ways through the arena -/

/-- Taking the turns one split after another leads from one node to another.  The node that is
    arrived at need not exist. -/
inductive World.Leads (w : World α) : NodeId → List Turn → NodeId → Prop where
  /-- Without a turn one stays. -/
  | stay (id : NodeId) : w.Leads id [] id
  /-- One turn, and the rest of the way. -/
  | turn {id front back last : NodeId} {plane : PlaneId} {bounds : Bounds} {turns : List Turn}
      (node : w.node? id = some (.split plane front back bounds)) (side : Side)
      (rest : w.Leads (side.pick front back) turns last) :
      w.Leads id (⟨plane, side⟩ :: turns) last

/-- A leaf that is reached from the root, with the turns that lead to it. -/
def World.HasCell (w : World α) (c : Cell) : Prop :=
  ∃ id bounds, w.Leads w.root c.turns id ∧ w.node? id = some (.leaf c.brushes bounds)

namespace World.Leads

variable {w : World α} {a b c : NodeId} {s t : List Turn}

/-- From a leaf no way leads on. -/
theorem iff_of_leaf {brushes : List BrushId} {bounds : Bounds}
    (node : w.node? a = some (.leaf brushes bounds)) : w.Leads a s c ↔ s = [] ∧ c = a := by
  constructor
  · rintro (_ | ⟨node', _, _⟩)
    · exact ⟨rfl, rfl⟩
    · cases node.symm.trans node'
  · rintro ⟨rfl, rfl⟩
    exact .stay _

/-- From a split a way stays, or it turns to one of the sides. -/
theorem iff_of_split {front back : NodeId} {plane : PlaneId} {bounds : Bounds}
    (node : w.node? a = some (.split plane front back bounds)) :
    w.Leads a s c ↔ (s = [] ∧ c = a) ∨
      ∃ side : Side, ∃ t, s = ⟨plane, side⟩ :: t ∧ w.Leads (side.pick front back) t c := by
  constructor
  · rintro (_ | ⟨node', side, rest⟩)
    · exact .inl ⟨rfl, rfl⟩
    · obtain ⟨rfl, rfl, rfl, rfl⟩ : _ ∧ _ ∧ _ ∧ _ := by simpa using node.symm.trans node'
      exact .inr ⟨side, _, rfl, rest⟩
  · rintro (⟨rfl, rfl⟩ | ⟨side, t, rfl, rest⟩)
    · exact .stay _
    · exact .turn node side rest

theorem trans (hab : w.Leads a s b) (hbc : w.Leads b t c) : w.Leads a (s ++ t) c := by
  induction hab with
  | stay => exact hbc
  | turn node side _ ih => exact .turn node side (ih hbc)

/-- Every beginning of a way leads somewhere. -/
theorem take (h : w.Leads a s b) (n : Nat) : ∃ m, w.Leads a (s.take n) m := by
  induction h generalizing n with
  | stay id => exact ⟨id, by rw [List.take_nil]; exact .stay id⟩
  | @turn id _ _ _ _ _ _ node side _ ih =>
    cases n with
    | zero => exact ⟨id, .stay id⟩
    | succ n =>
      obtain ⟨m, hm⟩ := ih n
      exact ⟨m, .turn node side hm⟩

end World.Leads

/-! ### Ways through a tree -/

/-- A way from the top of a tree. -/
structure Way where
  /-- The turns from the top on. -/
  turns : List Turn
  /-- The node that is arrived at. -/
  node : NodeId
deriving DecidableEq, Repr

/-- The way after one more turn at its start. -/
def Way.after (v : Way) (t : Turn) : Way := { v with turns := t :: v.turns }

namespace Partition

/-- All ways from the top of a tree, one for each node. -/
def ways : Partition → List Way
  | leaf id _ _ => [⟨[], id⟩]
  | split id plane _ front back =>
    ⟨[], id⟩ ::
      (front.ways.map (·.after ⟨plane, .front⟩) ++ back.ways.map (·.after ⟨plane, .back⟩))

/-- The ways through a split are the one that stays and those through its two sides. -/
theorem mem_ways_split_iff {id : NodeId} {plane : PlaneId} {bounds : Bounds}
    {front back : Partition} {way : Way} :
    way ∈ (split id plane bounds front back).ways ↔
      way = ⟨[], id⟩ ∨ ∃ side : Side, ∃ v ∈ (side.pick front back).ways,
        way = v.after ⟨plane, side⟩ := by
  rw [ways, List.mem_cons, List.mem_append, List.mem_map, List.mem_map]
  constructor
  · rintro (hway | ⟨v, hv, rfl⟩ | ⟨v, hv, rfl⟩)
    · exact .inl hway
    · exact .inr ⟨.front, v, hv, rfl⟩
    · exact .inr ⟨.back, v, hv, rfl⟩
  · rintro (hway | ⟨side, v, hv, rfl⟩)
    · exact .inl hway
    · cases side with
      | front => exact .inr (.inl ⟨v, hv, rfl⟩)
      | back => exact .inr (.inr ⟨v, hv, rfl⟩)

/-- The ways end at the nodes of the tree, in order. -/
theorem map_node_ways (p : Partition) : p.ways.map (·.node) = p.ids := by
  induction p with
  | leaf => rfl
  | split id plane bounds front back ihf ihb =>
    simp only [ways, ids, List.map_cons, List.map_append, List.map_map, ← ihf, ← ihb]
    rfl

/-- Different ways take different turns. -/
theorem nodup_turns_ways (p : Partition) : (p.ways.map (·.turns)).Nodup := by
  induction p with
  | leaf => simp [ways]
  | split id plane bounds front back ihf ihb =>
    simp only [ways, List.map_cons, List.map_append, List.map_map, List.nodup_cons]
    have hf : (front.ways.map (Way.turns ∘ (·.after ⟨plane, .front⟩))).Nodup := by
      rw [show Way.turns ∘ (·.after ⟨plane, .front⟩) = (⟨plane, .front⟩ :: ·) ∘ Way.turns from rfl,
        ← List.map_map]
      exact ihf.map (List.cons_injective)
    have hb : (back.ways.map (Way.turns ∘ (·.after ⟨plane, .back⟩))).Nodup := by
      rw [show Way.turns ∘ (·.after ⟨plane, .back⟩) = (⟨plane, .back⟩ :: ·) ∘ Way.turns from rfl,
        ← List.map_map]
      exact ihb.map (List.cons_injective)
    refine ⟨by simp [Way.after], hf.append hb ?_⟩
    -- a way into the front and a way into the back differ in the first turn
    intro turns hfront hback
    simp only [List.mem_map] at hfront hback
    obtain ⟨_, _, rfl⟩ := hfront
    obtain ⟨_, _, h⟩ := hback
    simp [Way.after] at h

/-- The leaves on one side of a split are leaves of the whole, after one more turn. -/
theorem after_mem_cells {id : NodeId} {plane : PlaneId} {bounds : Bounds}
    {front back : Partition} {side : Side} {cell : Cell} (h : cell ∈ (side.pick front back).cells) :
    cell.after ⟨plane, side⟩ ∈ (split id plane bounds front back).cells := by
  rw [cells, List.mem_append]
  cases side with
  | front => exact .inl (List.mem_map_of_mem h)
  | back => exact .inr (List.mem_map_of_mem h)

/-- The leaves below a split are those on its two sides. -/
theorem mem_cells_split_iff {id : NodeId} {plane : PlaneId} {bounds : Bounds}
    {front back : Partition} {cell : Cell} :
    cell ∈ (split id plane bounds front back).cells ↔
      ∃ side : Side, ∃ c ∈ (side.pick front back).cells, cell = c.after ⟨plane, side⟩ := by
  constructor
  · intro h
    rw [cells, List.mem_append, List.mem_map, List.mem_map] at h
    rcases h with ⟨c, hc, rfl⟩ | ⟨c, hc, rfl⟩
    · exact ⟨.front, c, hc, rfl⟩
    · exact ⟨.back, c, hc, rfl⟩
  · rintro ⟨side, c, hc, rfl⟩
    exact after_mem_cells hc

end Partition

/-! ### An arena that unfolds to a tree -/

namespace World

variable {w : World α} {root id : NodeId} {p : Partition} {turns : List Turn}

/-- The ways from a node are those through the tree below it. -/
theorem leads_iff_mem_ways (h : w.Unfolds root p) :
    w.Leads root turns id ↔ ⟨turns, id⟩ ∈ p.ways := by
  induction h generalizing turns with
  | leaf node =>
    rw [Leads.iff_of_leaf node]
    simp [Partition.ways]
  | @split root front back plane bounds f b node _ _ ihf ihb =>
    have ih (side : Side) {turns : List Turn} : w.Leads (side.pick front back) turns id ↔
        ⟨turns, id⟩ ∈ (side.pick f b).ways := by
      cases side with
      | front => exact ihf
      | back => exact ihb
    rw [Leads.iff_of_split node, Partition.mem_ways_split_iff]
    constructor
    · rintro (⟨rfl, rfl⟩ | ⟨side, turns, rfl, rest⟩)
      · exact .inl rfl
      · exact .inr ⟨side, ⟨turns, id⟩, (ih side).1 rest, rfl⟩
    · rintro (hway | ⟨side, ⟨turns, _⟩, hmem, hway⟩)
      · cases hway
        exact .inl ⟨rfl, rfl⟩
      · cases hway
        exact .inr ⟨side, turns, rfl, (ih side).2 hmem⟩

/-- A node is reached iff it is in the tree. -/
theorem Unfolds.mem_ids_iff (h : w.Unfolds root p) :
    id ∈ p.ids ↔ ∃ turns, w.Leads root turns id := by
  rw [← p.map_node_ways, List.mem_map]
  constructor
  · rintro ⟨⟨turns, _⟩, hmem, rfl⟩
    exact ⟨turns, (leads_iff_mem_ways h).2 hmem⟩
  · rintro ⟨turns, hleads⟩
    exact ⟨_, (leads_iff_mem_ways h).1 hleads, rfl⟩

/-- No number stands twice in the tree iff no node is reached in two ways. -/
theorem Unfolds.nodup_iff (h : w.Unfolds root p) :
    p.ids.Nodup ↔
      ∀ s t id, w.Leads root s id → w.Leads root t id → s = t := by
  -- the ways through the tree are all different, so a node stands twice where two of them end
  rw [← p.map_node_ways,
    List.nodup_map_iff_inj_on (List.Nodup.of_map _ p.nodup_turns_ways)]
  simp only [leads_iff_mem_ways h]
  constructor
  · intro hinj s t id hs ht
    exact congrArg Way.turns (hinj _ hs _ ht rfl)
  · rintro huniq ⟨s, a⟩ hs ⟨t, b⟩ ht (rfl : a = b)
    rw [huniq s t a hs ht]

theorem Unfolds.leaf_iff_mem_cells (h : w.Unfolds root p) (c : Cell) :
    (∃ id bounds, w.Leads root c.turns id ∧ w.node? id = some (.leaf c.brushes bounds)) ↔
      c ∈ p.cells := by
  induction h generalizing c with
  | @leaf root brushes bounds node =>
    rw [Partition.cells, List.mem_singleton]
    constructor
    · rintro ⟨id, bounds', hleads, leaf⟩
      obtain ⟨hturns, rfl⟩ := (Leads.iff_of_leaf node).1 hleads
      obtain ⟨hbrushes, -⟩ := Node.leaf.inj (Option.some.inj (leaf.symm.trans node))
      rw [← hturns, ← hbrushes]
    · rintro rfl
      exact ⟨_, _, .stay _, node⟩
  | @split root front back plane bounds f b node _ _ ihf ihb =>
    have ih (side : Side) (c : Cell) : (∃ id bounds, w.Leads (side.pick front back) c.turns id ∧
        w.node? id = some (.leaf c.brushes bounds)) ↔ c ∈ (side.pick f b).cells := by
      cases side with
      | front => exact ihf c
      | back => exact ihb c
    constructor
    · rintro ⟨id, bounds', hleads, leaf⟩
      rcases (Leads.iff_of_split node).1 hleads with ⟨-, rfl⟩ | ⟨side, turns, hturns, rest⟩
      · cases node.symm.trans leaf
      · have hmem := (ih side ⟨turns, c.brushes⟩).1 ⟨id, bounds', rest, leaf⟩
        refine Partition.mem_cells_split_iff.2 ⟨side, _, hmem, ?_⟩
        rw [Cell.after, ← hturns]
    · intro hmem
      obtain ⟨side, c, hc, rfl⟩ := Partition.mem_cells_split_iff.1 hmem
      obtain ⟨id, bounds', rest, leaf⟩ := (ih side c).2 hc
      exact ⟨id, bounds', .turn node side rest, leaf⟩

/-- The leaves that are reached from the root are the cells of the tree. -/
theorem hasCell_iff_mem_cells (h : w.Unfolds w.root p) {c : Cell} : w.HasCell c ↔ c ∈ p.cells :=
  h.leaf_iff_mem_cells c

/-! ### From ways to a tree -/

theorem node?_eq_none_iff : w.node? id = none ↔ w.nodes.size ≤ id.index := by
  rw [node?, Array.getElem?_eq_none_iff]

theorem lt_size_of_node? {node : Node} (h : w.node? id = some node) : id.index < w.nodes.size := by
  by_contra hge
  rw [node?_eq_none_iff.2 (Nat.le_of_not_lt hge)] at h
  cases h

/-- The nodes of the tree are nodes of the arena. -/
theorem Unfolds.lt_size (h : w.Unfolds root p) : ∀ id ∈ p.ids, id.index < w.nodes.size := by
  induction h with
  | leaf node => simpa [Partition.ids] using lt_size_of_node? node
  | split node _ _ ihf ihb =>
    simp only [Partition.ids, List.mem_cons, List.mem_append]
    rintro id (rfl | h | h)
    · exact lt_size_of_node? node
    · exact ihf id h
    · exact ihb id h

/-- Where every node that is reached exists and none is reached in two ways, a way has fewer turns
    than there are nodes: the nodes on it are all different. -/
theorem Leads.length_lt (hnode : ∀ turns id, w.Leads root turns id → id.index < w.nodes.size)
    (huniq : ∀ s t id, w.Leads root s id → w.Leads root t id → s = t)
    (h : w.Leads root turns id) : turns.length < w.nodes.size := by
  -- the nodes after each number of turns
  choose mid hmid using h.take
  let f : Fin (turns.length + 1) → Fin w.nodes.size := fun i =>
    ⟨(mid i).index, hnode _ _ (hmid i)⟩
  have hf : Function.Injective f := by
    intro i j hij
    have hsame : mid i = mid j := NodeId.index_injective (by simpa [f] using hij)
    have htake : turns.take i = turns.take j :=
      huniq _ _ _ (hmid i) (by rw [hsame]; exact hmid j)
    have hlen := congrArg List.length htake
    rw [List.length_take, List.length_take] at hlen
    ext
    omega
  have hcard := Fintype.card_le_of_injective f hf
  rw [Fintype.card_fin, Fintype.card_fin] at hcard
  omega

/-- **Trees from ways.** An arena in which every node that is reached exists and none is reached in
    two ways unfolds to a tree. -/
theorem exists_unfolds (hnode : ∀ turns id, w.Leads root turns id → id.index < w.nodes.size)
    (huniq : ∀ s t id, w.Leads root s id → w.Leads root t id → s = t) :
    ∃ p, w.Unfolds root p := by
  -- downward induction on the length of the way to a node
  have key : ∀ n turns id, w.Leads root turns id → w.nodes.size ≤ turns.length + n →
      ∃ p, w.Unfolds id p := by
    intro n
    induction n with
    | zero =>
      intro turns id h hlen
      have := h.length_lt hnode huniq
      omega
    | succ n ih =>
      intro turns id h hlen
      cases hid : w.node? id with
      | none =>
        have := hnode _ _ h
        have := node?_eq_none_iff.1 hid
        omega
      | some node =>
        cases node with
        | leaf brushes bounds => exact ⟨_, .leaf hid⟩
        | split plane front back bounds =>
          have child (side : Side) : ∃ p, w.Unfolds (side.pick front back) p :=
            ih (turns ++ [⟨plane, side⟩]) _ (h.trans (.turn hid side (.stay _)))
              (by rw [List.length_append, List.length_singleton]; omega)
          obtain ⟨f, hf⟩ := child .front
          obtain ⟨b, hb⟩ := child .back
          exact ⟨_, .split hid hf hb⟩
  exact key w.nodes.size [] root (.stay root) (by simp)

end World

end Stride
