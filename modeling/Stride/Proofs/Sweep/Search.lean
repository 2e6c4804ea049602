import Stride.Proofs.Sweep.Inside
import Stride.Proofs.Sweep.Solids

namespace Stride

/-!
# The search over a tree

Below the root of a level of the right shape is a tree, and the search is a recursion over it.  It
meets some of the solids that the leaves list, one after another, and no look-up of it fails.

* `World.Holds` — the arena holds a tree below a node, with all that it refers to.
* `Partition.search` — the search as a recursion over the tree, with neither fuel nor failure.
* `search?_eq_search` — it is what the search through the arena answers.
* `exists_met` — the search meets some of the listed solids, in some order.
* `report`, `trace?_eq_report` — the whole query.
* `isClear_eq_false_iff_of_leaf` — positions that are not clear, in a level of one leaf.
-/

variable {α : Type}

/-! ### The tree below a node -/

/-- A tree is proved about by its two sides alike. -/
theorem Partition.pick_induction {motive : Partition → Prop}
    (leaf : ∀ id brushes bounds, motive (.leaf id brushes bounds))
    (split : ∀ id plane bounds front back, (∀ side : Side, motive (side.pick front back)) →
      motive (.split id plane bounds front back)) (p : Partition) : motive p := by
  induction p with
  | leaf id brushes bounds => exact leaf id brushes bounds
  | split id plane bounds front back ihf ihb =>
    refine split id plane bounds front back fun side => ?_
    cases side with
    | front => exact ihf
    | back => exact ihb

theorem Partition.mem_brushes_iff {p : Partition} {b : BrushId} :
    b ∈ p.brushes ↔ ∃ cell ∈ p.cells, b ∈ cell.brushes := List.mem_flatMap

/-- The brushes on one side of a split are brushes of the whole. -/
theorem Partition.mem_brushes_split {id : NodeId} {plane : PlaneId} {bounds : Bounds}
    {front back : Partition} {side : Side} {b : BrushId} (h : b ∈ (side.pick front back).brushes) :
    b ∈ (split id plane bounds front back).brushes := by
  obtain ⟨cell, hcell, hb⟩ := mem_brushes_iff.1 h
  exact mem_brushes_iff.2 ⟨_, after_mem_cells hcell, hb⟩

/-- The number of nodes on the longest way through a tree. -/
def Partition.height : Partition → Nat
  | .leaf _ _ _ => 1
  | .split _ _ _ front back => max front.height back.height + 1

theorem Partition.height_le_length_ids (p : Partition) : p.height ≤ p.ids.length := by
  induction p with
  | leaf => exact le_refl 1
  | split id plane bounds front back ihf ihb =>
    rw [height, ids, List.length_cons, List.length_append]
    omega

namespace World

variable {w : World α} {id : NodeId} {p : Partition}

/-- A tree without repeated nodes is no higher than the arena has nodes. -/
theorem Unfolds.height_le (hp : w.Unfolds id p) (hnodup : p.ids.Nodup) :
    p.height ≤ w.nodes.size := by
  -- the numbers of the nodes are different and below the size of the arena
  have hinj := hnodup.map NodeId.index_injective
  have hsub : p.ids.map NodeId.index ⊆ List.range w.nodes.size := by
    intro i hi
    obtain ⟨id, hid, rfl⟩ := List.mem_map.1 hi
    exact List.mem_range.2 (hp.lt_size id hid)
  have hlen := (hinj.subperm hsub).length_le
  rw [List.length_map, List.length_range] at hlen
  exact p.height_le_length_ids.trans hlen

/-- The arena holds a tree below a node, and all that the nodes of the tree refer to. -/
structure Holds (w : World α) (id : NodeId) (p : Partition) : Prop where
  /-- Below the node is the tree. -/
  unfolds : w.Unfolds id p
  /-- What its nodes refer to is in the arena. -/
  resolves : ∀ i ∈ p.ids, ∀ node, w.node? i = some node → w.Resolves node

theorem WellFormed.exists_holds (hw : w.WellFormed) : ∃ p, w.Holds w.root p := by
  obtain ⟨p, hp, -, hres⟩ := hw.tree
  exact ⟨p, hp, hres⟩

/-- No node stands twice in the tree below the root. -/
theorem WellFormed.nodup_ids (hw : w.WellFormed) (hp : w.Holds w.root p) : p.ids.Nodup := by
  obtain ⟨q, hq, hnodup, -⟩ := hw.tree
  rwa [hp.unfolds.unique hq]

/-- The node of a leaf is there, and so are the brushes that it lists. -/
theorem Holds.leaf {i : NodeId} {brushes : List BrushId} {bounds : Bounds}
    (h : w.Holds id (.leaf i brushes bounds)) :
    w.node? id = some (.leaf brushes bounds) ∧ ∀ b ∈ brushes, b.index < w.brushes.size := by
  obtain ⟨_ | _, hres⟩ := h
  rename_i node
  exact ⟨node, hres id (by simp [Partition.ids]) _ node⟩

/-- The node of a split is there, and so are its plane and both of its children. -/
theorem Holds.split {i : NodeId} {plane : PlaneId} {bounds : Bounds} {f b : Partition}
    (h : w.Holds id (.split i plane bounds f b)) :
    ∃ front back pl, w.node? id = some (.split plane front back bounds) ∧
      w.plane? plane = some pl ∧
      ∀ side : Side, w.Holds (side.pick front back) (side.pick f b) := by
  obtain ⟨_ | @⟨_, front, back, _, _, _, _, node, hf, hb⟩, hres⟩ := h
  obtain ⟨pl, hpl⟩ := exists_plane? (hres id (by simp [Partition.ids]) _ node).1
  refine ⟨front, back, pl, node, hpl, fun side => ?_⟩
  cases side with
  | front => exact ⟨hf, fun i hi => hres i (by simp [Partition.ids, show i ∈ f.ids from hi])⟩
  | back => exact ⟨hb, fun i hi => hres i (by simp [Partition.ids, show i ∈ b.ids from hi])⟩

end World

/-! ### The recursion -/

variable [Scalar α]

/-- The best hit after the part of the level below a node, over one stretch of the sweep. -/
def Partition.search (w : World α) (s : Sweep α) : Partition → Segment α → Contact α → Contact α
  | .leaf _ brushes _, segment, contact =>
    if contact.fraction ≤ segment.startFraction then contact
    else (w.solids brushes).foldl (Contact.meet s) contact
  | .split _ plane _ front back, segment, contact =>
    if contact.fraction ≤ segment.startFraction then contact
    else
      match w.plane? plane with
      | none => contact
      | some plane =>
        match segment.split plane s.radius with
        | .whole side => side.pick (front.search w s) (back.search w s) segment contact
        | .parts first near far =>
          first.other.pick (front.search w s) (back.search w s) far
            (first.pick (front.search w s) (back.search w s) near contact)

theorem Partition.pick_search {w : World α} {s : Sweep α} (side : Side) (front back : Partition) :
    side.pick (front.search w s) (back.search w s) = (side.pick front back).search w s := by
  cases side <;> rfl

namespace World

variable {w : World α} {s : Sweep α} {id : NodeId} {p : Partition}

/-- **The search answers.** With fuel for the height of the tree, no look-up fails and the answer is
    that of the recursion over the tree. -/
theorem WellFormed.search?_eq_search (hw : w.WellFormed) (hp : w.Holds id p) (fuel : Nat)
    (hfuel : p.height ≤ fuel) (segment : Segment α) (contact : Contact α) :
    w.search? s fuel id segment contact = some (p.search w s segment contact) := by
  induction p generalizing id fuel segment contact with
  | leaf i brushes bounds =>
    obtain ⟨fuel, rfl⟩ : ∃ n, fuel = n + 1 := ⟨fuel - 1, by rw [Partition.height] at hfuel; omega⟩
    obtain ⟨node, hbrushes⟩ := hp.leaf
    rw [search?, Partition.search, node]
    simp only [hw.solids?_eq_some hbrushes, Option.map_some]
    split_ifs <;> rfl
  | split i plane bounds f b ihf ihb =>
    obtain ⟨fuel, rfl⟩ : ∃ n, fuel = n + 1 := ⟨fuel - 1, by rw [Partition.height] at hfuel; omega⟩
    rw [Partition.height] at hfuel
    obtain ⟨front, back, pl, node, hpl, hchild⟩ := hp.split
    -- one step is for the split, and what is left is enough for either child
    have ihf := ihf (hchild .front) fuel (by omega)
    have ihb := ihb (hchild .back) fuel (by omega)
    simp only [Side.pick] at ihf ihb
    rw [search?, Partition.search]
    simp only [node, hpl]
    split_ifs with hpruned
    · rfl
    · cases segment.split pl s.radius with
      | whole side => cases side <;> simp only [ihf, ihb, Side.pick]
      | parts first near far => cases first <;> simp only [ihf, ihb, Side.pick, Side.other]

/-! ### What the search meets -/

/-- **What is met.** The search meets some of the solids that the leaves list, one after another. -/
theorem WellFormed.exists_met (hw : w.WellFormed) (hp : w.Holds id p) (s : Sweep α)
    (segment : Segment α) (contact : Contact α) :
    ∃ met : List (List (Face α)),
      (∀ faces ∈ met, ∃ b ∈ p.brushes, w.HasSolid b faces) ∧
      p.search w s segment contact = met.foldl (Contact.meet s) contact := by
  induction p using Partition.pick_induction generalizing id segment contact with
  | leaf i brushes bounds =>
    rw [Partition.search]
    split_ifs
    · exact ⟨[], by simp, rfl⟩
    · refine ⟨_, fun faces hfaces => ?_, rfl⟩
      rw [Partition.brushes_leaf]
      exact (hw.mem_solids_iff hp.leaf.2 faces).1 hfaces
  | split i plane bounds f b ih =>
    obtain ⟨front, back, pl, -, hpl, hchild⟩ := hp.split
    rw [Partition.search]
    split_ifs
    · exact ⟨[], by simp, rfl⟩
    · simp only [hpl, Partition.pick_search]
      cases segment.split pl s.radius with
      | whole side =>
        obtain ⟨met, hmet, heq⟩ := ih side (hchild side) segment contact
        refine ⟨met, fun faces hfaces => ?_, heq⟩
        obtain ⟨b, hb, hsolid⟩ := hmet faces hfaces
        exact ⟨b, Partition.mem_brushes_split hb, hsolid⟩
      | parts first near far =>
        -- the other part goes on with what the first part found
        obtain ⟨met, hmet, heq⟩ := ih first (hchild first) near contact
        obtain ⟨met', hmet', heq'⟩ := ih first.other (hchild first.other) far
          (met.foldl (Contact.meet s) contact)
        refine ⟨met ++ met', fun faces hfaces => ?_, ?_⟩
        · rcases List.mem_append.1 hfaces with h | h
          · obtain ⟨b, hb, hsolid⟩ := hmet faces h
            exact ⟨b, Partition.mem_brushes_split hb, hsolid⟩
          · obtain ⟨b, hb, hsolid⟩ := hmet' faces h
            exact ⟨b, Partition.mem_brushes_split hb, hsolid⟩
        · simp only [heq, heq', List.foldl_append]

/-- The search keeps what was found before. -/
theorem WellFormed.search_covers [Scalar.Lawful α] (hw : w.WellFormed) (hp : w.Holds id p)
    (s : Sweep α) (segment : Segment α) {c : Contact α} (hc : c.Proper) :
    (p.search w s segment c).Covers c ∧ (p.search w s segment c).Proper := by
  obtain ⟨met, -, heq⟩ := hw.exists_met hp s segment c
  rw [heq]
  exact ⟨Contact.foldl_meet_covers_init hc, Contact.foldl_meet_proper hc⟩

/-! ### The report -/

/-- The report of a search whose face exists. -/
def report (w : World α) (s : Sweep α) (c : Contact α) : Trace α where
  fraction := Scalar.clamp 0 1 c.fraction
  finish :=
    if Scalar.clamp 0 1 c.fraction < 1 then s.start.lerp s.finish (Scalar.clamp 0 1 c.fraction)
    else s.finish
  startSolid := c.startSolid
  allSolid := c.allSolid
  plane := c.plane
  normal := c.plane.bind fun id => (w.plane? id).map (·.normal)

/-- A report on the same hit is the same where its face is the same. -/
theorem report_congr {w' : World α} {c : Contact α}
    (h : ∀ id, c.plane = some id → w'.plane? id = w.plane? id) : w'.report s c = w.report s c := by
  rw [report, report]
  cases hplane : c.plane with
  | none => rfl
  | some id => simp only [Option.bind_some, h id hplane]

theorem report?_eq_report {c : Contact α}
    (h : ∀ id, c.plane = some id → ∃ plane, w.plane? id = some plane) :
    w.report? s c = some (w.report s c) := by
  rw [report?, report]
  cases hc : c.plane with
  | none => rfl
  | some id =>
    obtain ⟨plane, hplane⟩ := h id hc
    simp only [Option.bind_some, hplane]
    rfl

/-- A proper fraction is reported as it is. -/
theorem report_fraction [Scalar.Lawful α] {c : Contact α} (w : World α) (s : Sweep α)
    (hc : c.Proper) : (w.report s c).fraction = c.fraction := by
  rw [report, Scalar.clamp, if_neg (Scalar.Lawful.not_lt_of_le hc.nonneg),
    if_neg (Scalar.Lawful.not_lt_of_le hc.2)]

/-- The face that a search ends with is a plane of the arena. -/
theorem WellFormed.exists_plane_of_search (hw : w.WellFormed) (hp : w.Holds id p)
    {segment : Segment α} {plane : PlaneId}
    (h : (p.search w s segment Contact.clear).plane = some plane) :
    ∃ pl, w.plane? plane = some pl := by
  obtain ⟨met, hmet, hsearch⟩ := hw.exists_met hp s segment Contact.clear
  rw [hsearch] at h
  rcases Contact.foldl_meet_plane met Contact.clear with hp | hp | ⟨faces, hfaces, face, hface, hp⟩
  · cases h.symm.trans hp
  · cases h.symm.trans hp
  · obtain ⟨brush, -, hsolid⟩ := hmet faces hfaces
    obtain rfl : plane = face.id := by simpa using h.symm.trans hp
    exact ⟨face.plane, hsolid.plane? hface⟩

/-- **The query answers.** With fuel for every node, the search answers, and so does its report. -/
theorem WellFormed.search?_root (hw : w.WellFormed) (hp : w.Holds w.root p) (s : Sweep α)
    (fuel : Nat) (hfuel : w.nodes.size ≤ fuel) :
    w.search? s fuel w.root s.whole Contact.clear =
        some (p.search w s s.whole Contact.clear) ∧
      w.report? s (p.search w s s.whole Contact.clear) =
        some (w.report s (p.search w s s.whole Contact.clear)) :=
  ⟨hw.search?_eq_search hp fuel ((hp.unfolds.height_le (hw.nodup_ids hp)).trans hfuel) _ _,
    report?_eq_report fun _ hid => hw.exists_plane_of_search hp hid⟩

/-- The answer to a query is the report of the search through the tree. -/
theorem WellFormed.trace?_eq_report (hw : w.WellFormed) (hp : w.Holds w.root p) (s : Sweep α) :
    w.trace? s = some (w.report s (p.search w s s.whole Contact.clear)) := by
  obtain ⟨hsearch, hreport⟩ := hw.search?_root hp s _ (le_refl _)
  rw [trace?, hsearch]
  exact hreport

theorem trace_eq_of_trace? {t : Trace α} (h : w.trace? s = some t) :
    w.trace s.start s.finish s.radius = t := by
  show (w.trace? s).getD _ = t
  rw [h, Option.getD_some]

/-- On a level of the right shape no look-up of a query fails. -/
theorem WellFormed.trace?_eq_some (hw : w.WellFormed) (s : Sweep α) :
    w.trace? s = some (w.trace s.start s.finish s.radius) := by
  obtain ⟨p, hp⟩ := hw.exists_holds
  have htrace := hw.trace?_eq_report hp s
  rw [htrace, trace_eq_of_trace? htrace]

/-- A sweep that has met nothing is searched from its start. -/
theorem not_clear_le_start [Scalar.Lawful α] (s : Sweep α) :
    ¬ (Contact.clear : Contact α).fraction ≤ s.whole.startFraction :=
  Scalar.not_le_of_lt Scalar.Lawful.zero_lt_one

/-- In a level of one leaf a sweep meets all that the leaf lists. -/
theorem WellFormed.trace?_of_leaf [Scalar.Lawful α] (hw : w.WellFormed) {ids : List BrushId}
    {bounds : Bounds} (hroot : w.node? w.root = some (.leaf ids bounds)) (s : Sweep α) :
    (∀ id ∈ ids, id.index < w.brushes.size) ∧
      w.trace? s = some (w.report s ((w.solids ids).foldl (Contact.meet s) Contact.clear)) := by
  obtain ⟨p, hp⟩ := hw.exists_holds
  obtain rfl := hp.unfolds.unique (.leaf hroot)
  rw [hw.trace?_eq_report hp, Partition.search, if_neg (not_clear_le_start s)]
  exact ⟨hp.leaf.2, rfl⟩

/-- **Positions that are not clear**, in a level of one leaf: some listed solid has faces, and none
    of them has the sphere in front. -/
theorem WellFormed.isClear_eq_false_iff_of_leaf [Scalar.Lawful α] (hw : w.WellFormed)
    {ids : List BrushId} {bounds : Bounds} (hroot : w.node? w.root = some (.leaf ids bounds))
    (point : Vec3 α) (radius : α) :
    w.isClear point radius = false ↔
      ∃ id ∈ ids, ∃ faces, w.HasSolid id faces ∧ faces ≠ [] ∧
        ∀ face ∈ faces, ¬ 0 < face.plane.distanceTo point - radius := by
  obtain ⟨hids, htrace⟩ := hw.trace?_of_leaf hroot ⟨point, point, radius⟩
  rw [isClear, trace_eq_of_trace? htrace, Bool.not_eq_false', ← hw.exists_mem_solids_iff hids]
  show Contact.startSolid _ = true ↔ _
  rw [Contact.foldl_meet_startSolid_iff]
  simp only [Contact.alone_startSolid_iff_forall]
  rfl

end World

end Stride
