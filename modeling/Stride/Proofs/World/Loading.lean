import Stride.Proofs.World.Acceptance
import Stride.Proofs.World.Layout

namespace Stride

/-!
# Loading a snapshot

A snapshot is refused with the first of its defects, or becomes the level that its records stand
for.  The builder's own checks add nothing but the soundness of the planes: what was flattened from
records without defects is a tree whose references are in the arena.

* `contents_wellFormed` — the shape of what was flattened.
* `Snapshot.build_eq` — loading, in one equation.
* `Snapshot.build_refuses` — the defect that is reported.
* `Snapshot.build_preserves` — the level that is made.
-/

variable {α : Type}

namespace Snapshot

/-! ### The builder's checks -/

theorem brushDefects_eq_nil_iff {s : Snapshot α} :
    s.brushDefects = [] ↔ ∀ r ∈ s.brushes, ∀ v ∈ r.planes, Refers s.planes.length v := by
  simp only [brushDefects, BrushRecord.defects, List.flatMap_eq_nil_iff, List.map_eq_nil_iff,
    List.filter_eq_nil_iff, decide_eq_true_eq, not_not]
  constructor
  · intro h r hr
    obtain ⟨i, hi, rfl⟩ := List.getElem_of_mem hr
    exact h (s.brushes[i], i) (by simp [List.mem_zipIdx_iff_getElem?, hi])
  · rintro h ⟨r, i⟩ hmem
    exact h r (List.fst_mem_of_mem_zipIdx hmem)

/-- The whole tree is stored from the start of the arena on. -/
theorem contents_stores (s : Snapshot α) : s.contents.Stores 0 s.tree :=
  ⟨[], [], by simp [contents], rfl⟩

/-- A level of records without defects has the right shape, also where there are more nodes than
    numbers: the root is then some other node, and below it is its own subtree. -/
theorem contents_wellFormed {s : Snapshot α} (hbrushes : s.brushDefects = [])
    (htree : s.tree.Sound s.planes.length s.brushes.length) : s.contents.WellFormed where
  faces := by
    intro brush hbrush id hid
    simp only [contents, List.mem_toArray] at hbrush
    obtain ⟨r, hr, rfl⟩ := List.mem_map.1 hbrush
    obtain ⟨v, hv, rfl⟩ := List.mem_map.1 hid
    obtain ⟨hnonneg, hlt⟩ := brushDefects_eq_nil_iff.1 hbrushes r hr v hv
    have hsize : s.contents.planes.size = s.planes.length := by simp [contents]
    exact (toNat_ofNat_le _).trans_lt (by omega)
  tree := by
    have hpos := htree.size_pos
    have hroot : s.contents.root.index ≤ s.tree.size - 1 := toNat_ofNat_le _
    have hlow : s.contents.root.index < UInt32.size := s.contents.root.val.toNat_lt
    -- the number of the root may have been cut, so its block need not be the whole tree
    obtain ⟨block, first, hsound, hstores, hlast⟩ := htree.exists_block s.contents_stores
      (Nat.zero_le s.contents.root.index) (by omega)
    obtain ⟨p, hp, hids⟩ := hsound.exists_unfolds hstores (by omega)
    have htop : NodeId.ofIndex (first + block.size - 1) = s.contents.root := by
      apply NodeId.index_injective
      rw [NodeId.index_ofIndex (by omega)]
      omega
    refine ⟨p, htop ▸ hp, ?_, ?_⟩
    · -- the nodes of a block have different places, and all of them can be told apart
      rw [← p.idsUp_perm.nodup_iff, hids]
      refine List.Nodup.map_on ?_ List.nodup_range'
      intro i hi j hj hij
      rw [List.mem_range'_1] at hi hj
      rw [← NodeId.index_ofIndex (i := i) (by omega), hij, NodeId.index_ofIndex (by omega)]
    · intro id _ node hnode
      have hmem : node ∈ s.tree.layout 0 := by
        have := Array.mem_of_getElem? hnode
        simpa [contents] using this
      refine NodeTree.Sound.resolves ?_ (by simp [contents]) node hmem
      simpa [contents] using htree

/-- The builder with the planes and the brushes of a snapshot. -/
def toBuilder (s : Snapshot α) : Builder α :=
  { s.withPlanes with brushes := (s.brushes.map BrushRecord.toBrush).toArray }

/-- Flattening the whole tree makes the level. -/
theorem toWorld_flattened (s : Snapshot α) :
    (s.tree.flattened s.toBuilder 0).builder.toWorld (s.tree.flattened s.toBuilder 0).root =
      s.contents := by
  simp [NodeTree.flattened, NodeTree.addTo, Builder.toWorld, toBuilder, withPlanes, contents,
    PlaneRecord.toPlane]

/-- Of a snapshot whose brushes and tree have no defects, the builder only refuses planes. -/
theorem build_flattened [Scalar α] {s : Snapshot α} (hbrushes : s.brushDefects = [])
    (htree : s.tree.Sound s.planes.length s.brushes.length) :
    (s.tree.flattened s.toBuilder 0).builder.build (s.tree.flattened s.toBuilder 0).root =
      acceptUnless s.planeDefects s.contents := by
  have hshape := contents_wellFormed hbrushes htree
  rw [← toWorld_flattened] at hshape ⊢
  have hplane : (s.tree.flattened s.toBuilder 0).builder.planeDefect? = s.planeDefects.head? :=
    s.planeDefect?_withPlanes
  -- the faces and the tree are checked again, and found to be right
  have hdefect : (s.tree.flattened s.toBuilder 0).builder.defect?
      (s.tree.flattened s.toBuilder 0).root = s.planeDefects.head? := by
    rw [Builder.defect?, hplane, Builder.brushDefect?_eq_none_iff.2 hshape.faces,
      Builder.treeDefect?_eq_none_iff.2 hshape.tree]
    simp
  rw [Builder.build, hdefect]
  cases s.planeDefects <;> rfl

/-! ### Loading -/

/-- **Loading.** A snapshot becomes the level of its records, unless it has a defect. -/
theorem build_eq [Scalar α] (s : Snapshot α) : s.build = acceptUnless s.defects s.contents := by
  cases htop : s.tree.isAbsent with
  | true => simp [build, defects, htop]
  | false =>
    have hdefects : s.defects = s.brushDefects ++ (s.treeDefects ++ s.planeDefects) := by
      simp [defects, htop]
    have hflatten : s.tree.flatten s.toBuilder 0 =
        acceptUnless s.treeDefects (s.tree.flattened s.toBuilder 0) := by
      rw [NodeTree.flatten_eq s.toBuilder 0 htop]
      simp [treeDefects, toBuilder, withPlanes]
    rw [build, htop, if_neg Bool.false_ne_true, brushes?_eq, hdefects]
    -- the first part that has defects decides
    cases hbrushes : s.brushDefects with
    | cons => rfl
    | nil =>
      simp only [acceptUnless_nil]
      rw [← toBuilder, hflatten]
      cases htree : s.treeDefects with
      | cons => rfl
      | nil => exact build_flattened hbrushes (NodeTree.sound_of_defects_eq_nil htop htree)

end Snapshot

/-! ### The defect that is reported -/

/-- A defect that names a record, or says that there is none.  The others are in terms of the
    builder's own numbers. -/
def Defect.NamesRecord : Defect → Prop
  | .danglingRoot _ => False
  | .danglingChild _ _ => False
  | .cycle _ => False
  | _ => True

namespace Snapshot

theorem namesRecord_of_mem_defects [Scalar α] {s : Snapshot α} {defect : Defect}
    (h : defect ∈ s.defects) : defect.NamesRecord := by
  simp only [defects, List.mem_append] at h
  rcases h with hroot | hbrush | htree | hplane
  · split at hroot
    · obtain rfl := List.mem_singleton.1 hroot
      trivial
    · cases hroot
  · obtain ⟨_, -, h⟩ := List.mem_flatMap.1 hbrush
    obtain ⟨v, -, rfl⟩ := List.mem_map.1 h
    trivial
  · obtain ⟨⟨t, number⟩, -, h⟩ := List.mem_flatMap.1 htree
    cases t with
    | absent => cases h
    | node r left right =>
      simp only [NodeTree.recordDefects] at h
      split at h <;> simp only [List.mem_append, List.mem_map, List.mem_ite_nil_left,
        List.mem_ite_nil_right, List.mem_singleton] at h
      · rcases h with ⟨-, rfl⟩ | ⟨v, -, rfl⟩ <;> trivial
      · rcases h with ⟨-, rfl⟩ | ⟨-, rfl⟩ <;> trivial
  · obtain ⟨_, -, rfl⟩ := List.mem_map.1 hplane
    trivial

/-- **Refusal.** A snapshot is refused with the first of its defects, in the order of a missing tree,
    of the brushes, of the records of the tree by number, and of the planes, and it becomes a level
    exactly if it has none.  No defect in terms of the builder's own numbers is ever reported. -/
theorem build_refuses [Scalar α] (s : Snapshot α) :
    (∀ defect, s.build = .error defect ↔ s.defects.head? = some defect) ∧
      ((∃ w, s.build = .ok w) ↔ s.defects = []) ∧
      (∀ root, s.build ≠ .error (.danglingRoot root)) ∧
      (∀ node child, s.build ≠ .error (.danglingChild node child)) ∧
      ∀ node, s.build ≠ .error (.cycle node) := by
  have hrecord (defect : Defect) (h : s.build = .error defect) : defect.NamesRecord := by
    rw [build_eq, acceptUnless_eq_error_iff] at h
    exact namesRecord_of_mem_defects (List.mem_of_head? h)
  refine ⟨fun defect => ?_, ?_, fun _ => hrecord _, fun _ _ => hrecord _, fun _ => hrecord _⟩
  · rw [build_eq, acceptUnless_eq_error_iff]
  · simp only [build_eq, acceptUnless_eq_ok_iff, exists_and_left, exists_eq', and_true]

/-- The leaf on the right is the third record, and would be stored second. -/
example :
    (⟨[⟨⟨1, 0, 0⟩, 0⟩], [],
      .node ⟨false, 0, .everything, none⟩
        (.node ⟨true, 0, .everything, none⟩ .absent .absent)
        (.node ⟨true, 0, .everything, some [-1]⟩ .absent .absent)⟩ : Snapshot Float32).build =
      .error (.danglingBrush 2 (-1)) := rfl

end Snapshot

/-! ### What is ignored -/

/-- A record without what means nothing: at a leaf the plane, and whether an empty list of brushes
    was written; at a split the brushes. -/
def NodeRecord.bare (r : NodeRecord) : NodeRecord :=
  if r.leaf then { r with plane := 0, brushes := some (r.brushes.getD []) }
  else { r with brushes := none }

namespace NodeTree

/-- A tree of records without what means nothing. -/
def bare : NodeTree → NodeTree
  | absent => absent
  | node r left right => node r.bare left.bare right.bare

@[simp] theorem isAbsent_bare (t : NodeTree) : t.bare.isAbsent = t.isAbsent := by cases t <;> rfl

@[simp] theorem size_bare (t : NodeTree) : t.bare.size = t.size := by
  induction t with
  | absent => rfl
  | node r left right ihl ihr => simp [bare, size, ihl, ihr]

theorem recordDefects_bare (planes brushes number : Nat) (t : NodeTree) :
    t.bare.recordDefects planes brushes number = t.recordDefects planes brushes number := by
  cases t with
  | absent => rfl
  | node r left right => cases hleaf : r.leaf <;> simp [bare, NodeRecord.bare, recordDefects, hleaf]

theorem defects_bare (planes brushes number : Nat) (t : NodeTree) :
    t.bare.defects planes brushes number = t.defects planes brushes number := by
  induction t generalizing number with
  | absent => rfl
  | node r left right ihl ihr =>
    rw [defects_node, ← recordDefects_bare, bare, defects_node, ihl, ihr, size_bare]

theorem layout_bare (start : Nat) (t : NodeTree) : t.bare.layout start = t.layout start := by
  induction t generalizing start with
  | absent => rfl
  | node r left right ihl ihr =>
    have htop : topNode start r.bare left.bare right.bare = topNode start r left right := by
      cases hleaf : r.leaf <;> simp [NodeRecord.bare, topNode, hleaf]
    rw [bare, layout, layout, ihl, ihr, htop, size_bare]

end NodeTree

namespace Snapshot

variable [Scalar α]

/-- What means nothing in the records of the tree has no effect. -/
theorem build_congr {s s' : Snapshot α} (hplanes : s'.planes = s.planes)
    (hbrushes : s'.brushes = s.brushes) (htree : s'.tree.bare = s.tree.bare) :
    s'.build = s.build := by
  have hsize : s'.tree.size = s.tree.size := by rw [← NodeTree.size_bare, htree, NodeTree.size_bare]
  have habsent : s'.tree.isAbsent = s.tree.isAbsent := by
    rw [← NodeTree.isAbsent_bare, htree, NodeTree.isAbsent_bare]
  have hdefects : s'.treeDefects = s.treeDefects := by
    rw [treeDefects, treeDefects, ← NodeTree.defects_bare, htree, NodeTree.defects_bare, hplanes,
      hbrushes]
  have hlayout : s'.tree.layout 0 = s.tree.layout 0 := by
    rw [← NodeTree.layout_bare, htree, NodeTree.layout_bare]
  rw [build_eq, build_eq]
  simp only [defects, contents, brushDefects, planeDefects, hplanes, hbrushes, habsent, hdefects,
    hlayout, hsize]

/-! ### The level that is made -/

/-- There are no more planes, brushes and records than can be told apart by number. -/
structure Numbered (s : Snapshot α) : Prop where
  /-- The planes. -/
  planes : s.planes.length ≤ UInt32.size
  /-- The brushes. -/
  brushes : s.brushes.length ≤ UInt32.size
  /-- The records of the tree. -/
  records : s.tree.size ≤ UInt32.size

theorem build_eq_ok_iff_defects {s : Snapshot α} {w : World α} :
    s.build = .ok w ↔ s.defects = [] ∧ s.contents = w := by
  rw [build_eq, acceptUnless_eq_ok_iff]

theorem sound_of_defects_eq_nil {s : Snapshot α} (h : s.defects = []) :
    s.tree.Sound s.planes.length s.brushes.length := by
  simp only [defects, List.append_eq_nil_iff] at h
  obtain ⟨hroot, -, htree, -⟩ := h
  refine NodeTree.sound_of_defects_eq_nil ?_ htree
  by_contra htop
  simp [htop] at hroot

/-- The faces of the brush of a record are those that the record lists. -/
theorem toBrush_faces {s : Snapshot α} (hs : s.Numbered) (h : s.defects = []) {r : BrushRecord}
    (hr : r ∈ s.brushes) :
    r.toBrush.planes.map (fun id => (id.index : Int)) = r.planes.map Int64.toInt := by
  simp only [defects, List.append_eq_nil_iff] at h
  rw [BrushRecord.toBrush, List.map_map]
  apply List.map_congr_left
  intro v hv
  exact (brushDefects_eq_nil_iff.1 h.2.1 r hr v hv).toNat_ofNat hs.planes

/-- From the root of a level unfolds the tree of its records, the root is the last node, and the
    nodes, each after those below it, are numbered without gaps. -/
theorem contents_unfolds {s : Snapshot α} (hs : s.Numbered) (h : s.defects = []) :
    ∃ p, s.contents.Unfolds s.contents.root p ∧ p.Depicts s.tree ∧
      p.idsUp = (List.range s.tree.size).map NodeId.ofIndex ∧
      s.contents.root.index + 1 = s.tree.size := by
  have hsound := sound_of_defects_eq_nil h
  have hpos := hsound.size_pos
  have hsize : 0 + s.tree.size ≤ UInt32.size := by simpa using hs.records
  have hroot : NodeId.ofIndex (0 + s.tree.size - 1) = s.contents.root := by
    rw [Nat.zero_add]
    rfl
  obtain ⟨p, hp, hids⟩ := hsound.exists_unfolds s.contents_stores hsize
  have hdepicts := hsound.depicts hs.planes hs.brushes s.contents_stores hsize hp
  refine ⟨p, hroot ▸ hp, hdepicts, by rw [hids, List.range_eq_range'], ?_⟩
  rw [← hroot, NodeId.index_ofIndex (by omega)]
  omega

/-- **Preservation.** The level of a snapshot has the planes and the brushes of the records in order
    and one node for each record of the tree: those of the left subtree, those of the right one, and
    the record itself, with the root at the end.  What means nothing in a record changes nothing.
    As long as no more than `UInt32.size` items have to be told apart, each brush has the faces that
    its record lists, and what unfolds from the root is the tree of the records. -/
theorem build_preserves {s : Snapshot α} {w : World α} (h : s.build = .ok w) :
    w.planes.toList = s.planes.map PlaneRecord.toPlane ∧
      w.brushes.toList = s.brushes.map BrushRecord.toBrush ∧
      w.nodes.toList = s.tree.layout 0 ∧ w.nodes.size = s.tree.size ∧
      (∀ s' : Snapshot α, s'.planes = s.planes → s'.brushes = s.brushes →
        s'.tree.bare = s.tree.bare → s'.build = .ok w) ∧
      (s.Numbered →
        (∀ (i : Nat) (r : BrushRecord), s.brushes[i]? = some r →
          ∃ brush, w.brushes[i]? = some brush ∧
          brush.planes.map (fun id => (id.index : Int)) = r.planes.map Int64.toInt ∧
          brush.collidable = r.collidable) ∧
        ∃ p, w.Unfolds w.root p ∧ p.Depicts s.tree ∧
          p.idsUp = (List.range w.nodes.size).map NodeId.ofIndex ∧
          w.root.index + 1 = w.nodes.size) := by
  have hsame : ∀ s' : Snapshot α, s'.planes = s.planes → s'.brushes = s.brushes →
      s'.tree.bare = s.tree.bare → s'.build = .ok w :=
    fun s' hplanes hbrushes htree => (build_congr hplanes hbrushes htree).trans h
  obtain ⟨hdefects, rfl⟩ := build_eq_ok_iff_defects.1 h
  have hnodes : s.contents.nodes.size = s.tree.size := by simp [contents]
  refine ⟨by simp [contents], by simp [contents], by simp [contents], hnodes, hsame,
    fun hs => ⟨?_, ?_⟩⟩
  · intro i r hr
    refine ⟨r.toBrush, by simp [contents, hr], ?_, rfl⟩
    exact toBrush_faces hs hdefects (List.mem_of_getElem? hr)
  · rw [hnodes]
    exact contents_unfolds hs hdefects

end Snapshot

/-- Two splits and three leaves.  The top record lists a brush that does not exist, and two of the
    leaves name planes that do not. -/
def lodge : Snapshot Float32 where
  planes := [⟨⟨1, 0, 0⟩, 1000⟩, ⟨⟨0, 0, 1⟩, 0⟩, ⟨⟨0, 0, -1⟩, 16⟩, ⟨⟨0, 1, 0⟩, 0⟩]
  brushes := [⟨true, [1, 2]⟩, ⟨false, [1]⟩, ⟨true, []⟩]
  tree :=
    .node ⟨false, 0, .everything, some [77]⟩
      (.node ⟨true, -1, .everything, none⟩ .absent .absent)
      (.node ⟨false, 3, .everything, none⟩
        (.node ⟨true, 99, ⟨.splat 0, .splat 64⟩, some [0, 1]⟩ .absent .absent)
        (.node ⟨true, 0, .everything, some [1, 0, 1]⟩ .absent .absent))

/-- The same level, with nothing written that means nothing. -/
def plainLodge : Snapshot Float32 where
  planes := lodge.planes
  brushes := lodge.brushes
  tree :=
    .node ⟨false, 0, .everything, none⟩
      (.node ⟨true, 0, .everything, some []⟩ .absent .absent)
      (.node ⟨false, 3, .everything, none⟩
        (.node ⟨true, 0, ⟨.splat 0, .splat 64⟩, some [0, 1]⟩ .absent .absent)
        (.node ⟨true, 0, .everything, some [1, 0, 1]⟩ .absent .absent))

theorem lodge_build_preserves :
    ∃ w, lodge.build = .ok w ∧ plainLodge.build = .ok w ∧ w.nodes.size = 5 ∧
      ∃ p, w.Unfolds w.root p ∧ p.Depicts lodge.tree ∧
        p.idsUp = (List.range 5).map NodeId.ofIndex ∧ w.root.index = 4 := by
  have hbuild : lodge.build = .ok lodge.contents :=
    Snapshot.build_eq_ok_iff_defects.2 ⟨by decide +kernel, rfl⟩
  obtain ⟨-, -, -, hsize, hsame, hread⟩ := Snapshot.build_preserves hbuild
  obtain ⟨-, p, hp, hdepicts, hids, hroot⟩ :=
    hread ⟨by decide, by decide, by decide⟩
  have hfive : lodge.contents.nodes.size = 5 := hsize
  rw [hfive] at hids hroot
  refine ⟨_, hbuild, hsame plainLodge rfl rfl (by decide), hfive, p, hp, hdepicts, hids, ?_⟩
  omega

end Stride
