import Stride.Proofs.World.Acceptance

namespace Stride

/-!
# The defect that a builder reports

A builder that refuses its contents names one defect, of many that there may be: that of the lowest
plane, else that of the lowest brush, else that of the root, else the first one that a recursive
walk from the root meets.  The walk looks at a node, then goes through all that is behind it, then
through all that is in front.  The library does this with a list of pending nodes and an array of
marks; the recursion has neither.

* `FirstAt` — the first member of a list with a property.
* `Builder.Faults` — the first thing that is wrong with a node seen by itself.
* `Builder.Visits` — the recursive walk, which ends with a defect or with the nodes it has seen.
* `VisitsAll`, `VisitsAll.of_children` — a walk through pending nodes, and one step of it.
* `exists_visitsAll` — the loop of the library ends as the recursive walk does.
* `Builder.Reports`, `build_reports` — the defect of the whole.
-/

variable {α β γ : Type}

/-! ### The first of a list -/

/-- The member of a list at place `i` is the first one with a property. -/
structure FirstAt (P : β → Prop) (l : List β) (i : ℕ) (a : β) : Prop where
  /-- It stands there. -/
  here : l[i]? = some a
  /-- It has the property. -/
  holds : P a
  /-- None before it has. -/
  first : ∀ j < i, ∀ c, l[j]? = some c → ¬ P c

section FirstAt

variable {P : β → Prop} {p : β → Bool} {l : List β} {a c : β} {i j : ℕ}

theorem firstAt_cons_zero_iff : FirstAt P (c :: l) 0 a ↔ c = a ∧ P a := by
  constructor
  · intro h
    exact ⟨Option.some.inj h.here, h.holds⟩
  · rintro ⟨rfl, h⟩
    exact ⟨rfl, h, fun j hj => absurd hj (Nat.not_lt_zero j)⟩

theorem firstAt_cons_succ_iff : FirstAt P (c :: l) (i + 1) a ↔ ¬ P c ∧ FirstAt P l i a := by
  constructor
  · intro h
    refine ⟨h.first 0 (Nat.succ_pos i) c rfl, h.here, h.holds, fun j hj => ?_⟩
    exact h.first (j + 1) (Nat.succ_lt_succ hj)
  · rintro ⟨hc, h⟩
    refine ⟨h.here, h.holds, fun j hj d hd => ?_⟩
    cases j with
    | zero =>
      obtain rfl : c = d := Option.some.inj hd
      exact hc
    | succ j => exact h.first j (Nat.lt_of_succ_lt_succ hj) d hd

theorem firstAt_iff_getElem :
    FirstAt P l i a ↔ ∃ h : i < l.length, l[i] = a ∧ P a ∧ ∀ j (hj : j < i), ¬ P l[j] := by
  constructor
  · rintro ⟨here, holds, first⟩
    obtain ⟨h, rfl⟩ := List.getElem?_eq_some_iff.1 here
    exact ⟨h, rfl, holds, fun j hj => first j hj _ (List.getElem?_eq_getElem (hj.trans h))⟩
  · rintro ⟨h, rfl, holds, first⟩
    refine ⟨List.getElem?_eq_getElem h, holds, fun j hj c hc => ?_⟩
    obtain ⟨-, rfl⟩ := List.getElem?_eq_some_iff.1 hc
    exact first j hj

theorem find?_eq_some_iff_firstAt : l.find? p = some a ↔ ∃ i, FirstAt (p · = true) l i a := by
  simp only [List.find?_eq_some_iff_getElem, firstAt_iff_getElem, Bool.not_eq_true,
    Bool.not_eq_true']
  constructor
  · rintro ⟨hp, i, hi, rfl, hfirst⟩
    exact ⟨i, hi, rfl, hp, hfirst⟩
  · rintro ⟨i, hi, rfl, hp, hfirst⟩
    exact ⟨hp, i, hi, rfl, hfirst⟩

theorem findIdx?_eq_some_iff_firstAt {xs : Array β} :
    xs.findIdx? p = some i ↔ ∃ a, FirstAt (p · = true) xs.toList i a := by
  simp only [Array.findIdx?_eq_some_iff_getElem, firstAt_iff_getElem, Array.getElem_toList,
    Array.length_toList]
  constructor
  · rintro ⟨hi, hp, hfirst⟩
    exact ⟨_, hi, rfl, hp, hfirst⟩
  · rintro ⟨_, hi, rfl, hp, hfirst⟩
    exact ⟨hi, hp, hfirst⟩

/-- Looking through a list with its places finds something at the first place where there is
    something to be found. -/
theorem findSome?_zipIdx_eq_some_iff {δ : Type} {f : β → Option γ} {g : ℕ → γ → δ} {d : δ}
    (k : ℕ) :
    ((l.zipIdx k).findSome? fun x => (f x.1).map (g x.2)) = some d ↔
      ∃ i a c, FirstAt (f · ≠ none) l i a ∧ f a = some c ∧ g (k + i) c = d := by
  induction l generalizing k with
  | nil =>
    refine iff_of_false (by simp) ?_
    rintro ⟨i, a, c, h, -⟩
    cases h.here
  | cons b l ih =>
    rw [List.zipIdx_cons, List.findSome?_cons]
    cases hb : f b with
    | none =>
      -- nothing is found at the head, and the places of the rest are one higher
      have hsucc (i : ℕ) : k + 1 + i = k + (i + 1) := by omega
      simp only [Option.map_none, ih, hsucc]
      constructor
      · rintro ⟨i, a, c, h, hc⟩
        exact ⟨i + 1, a, c, firstAt_cons_succ_iff.2 ⟨not_not.2 hb, h⟩, hc⟩
      · rintro ⟨i, a, c, h, hc⟩
        cases i with
        | zero =>
          obtain ⟨rfl, -⟩ := firstAt_cons_zero_iff.1 h
          cases hb.symm.trans hc.1
        | succ i => exact ⟨i, a, c, (firstAt_cons_succ_iff.1 h).2, hc⟩
    | some c =>
      have hne : f b ≠ none := by
        rw [hb]
        exact Option.some_ne_none c
      simp only [Option.map_some, Option.some.injEq]
      constructor
      · rintro rfl
        exact ⟨0, b, c, firstAt_cons_zero_iff.2 ⟨rfl, hne⟩, hb, rfl⟩
      · rintro ⟨i, a, c', h, hc', hd⟩
        cases i with
        | zero =>
          obtain ⟨rfl, -⟩ := firstAt_cons_zero_iff.1 h
          rw [← hd, Option.some.inj (hb.symm.trans hc')]
          rfl
        | succ i => exact absurd hne (firstAt_cons_succ_iff.1 h).1

end FirstAt

namespace Builder

variable {b : Builder α} {id : NodeId} {node : Node} {seen : List NodeId} {pending : List NodeId}
  {d : Defect} {r r' : Except Defect (List NodeId)}

/-! ### One node -/

/-- What is wrong with a node seen by itself. -/
inductive Faults (b : Builder α) (id : NodeId) : Node → Defect → Prop where
  /-- A split has no plane. -/
  | plane {plane : PlaneId} {front back : NodeId} {bounds : Bounds}
      (missing : b.planes.size ≤ plane.index) :
      b.Faults id (.split plane front back bounds) (.danglingNodePlane id.index plane.index)
  /-- A split has a plane and no front child. -/
  | front {plane : PlaneId} {front back : NodeId} {bounds : Bounds}
      (hplane : plane.index < b.planes.size) (missing : b.nodes.size ≤ front.index) :
      b.Faults id (.split plane front back bounds) (.danglingChild id.index front.index)
  /-- A split has a plane, a front child and no back child. -/
  | back {plane : PlaneId} {front back : NodeId} {bounds : Bounds}
      (hplane : plane.index < b.planes.size) (hfront : front.index < b.nodes.size)
      (missing : b.nodes.size ≤ back.index) :
      b.Faults id (.split plane front back bounds) (.danglingChild id.index back.index)
  /-- A leaf lists a brush that is missing, the first such brush on its list. -/
  | brush {brushes : List BrushId} {bounds : Bounds} {i : ℕ} {brush : BrushId}
      (missing : FirstAt (fun id => b.brushes.size ≤ id.index) brushes i brush) :
      b.Faults id (.leaf brushes bounds) (.danglingBrush id.index brush.index)

theorem nodeDefect?_eq_some_iff : b.nodeDefect? id node = some d ↔ b.Faults id node d := by
  constructor
  · intro h
    cases node with
    | split plane front back bounds =>
      rw [nodeDefect?] at h
      split_ifs at h with hplane hfront hback
      · cases h
        exact .plane hplane
      · cases h
        exact .front (Nat.lt_of_not_le hplane) hfront
      · cases h
        exact .back (Nat.lt_of_not_le hplane) (Nat.lt_of_not_le hfront) hback
    | leaf brushes bounds =>
      obtain ⟨brush, hbrush, rfl⟩ := Option.map_eq_some_iff.1 h
      obtain ⟨i, hfirst⟩ := find?_eq_some_iff_firstAt.1 hbrush
      simp only [decide_eq_true_eq] at hfirst
      exact .brush hfirst
  · intro h
    cases h with
    | plane missing => rw [nodeDefect?, if_pos missing]
    | front hplane missing => rw [nodeDefect?, if_neg (Nat.not_le_of_lt hplane), if_pos missing]
    | back hplane hfront missing =>
      rw [nodeDefect?, if_neg (Nat.not_le_of_lt hplane), if_neg (Nat.not_le_of_lt hfront),
        if_pos missing]
    | @brush brushes bounds i brush missing =>
      have hfirst : brushes.find? (fun id => decide (b.brushes.size ≤ id.index)) = some brush :=
        find?_eq_some_iff_firstAt.2 ⟨i, by simpa only [decide_eq_true_eq] using missing⟩
      rw [nodeDefect?, hfirst]
      rfl

theorem Faults.unique {d' : Defect} (h : b.Faults id node d) (h' : b.Faults id node d') : d = d' :=
  Option.some.inj ((nodeDefect?_eq_some_iff.2 h).symm.trans (nodeDefect?_eq_some_iff.2 h'))

theorem nodeDefect?_eq_none_iff_faults :
    b.nodeDefect? id node = none ↔ ∀ d, ¬ b.Faults id node d := by
  simp only [← nodeDefect?_eq_some_iff, Option.eq_none_iff_forall_ne_some]

/-! ### The recursive walk -/

/-- The walk over what is below a node, after the nodes in `seen`.  It ends with the first defect
    that it meets, or with all nodes it has seen. -/
inductive Visits (b : Builder α) :
    (seen : List NodeId) → NodeId → Except Defect (List NodeId) → Prop where
  /-- A node that was seen before is a cycle. -/
  | again {seen : List NodeId} {id : NodeId} (old : id ∈ seen) :
      b.Visits seen id (.error (.cycle id.index))
  /-- A new node that is wrong by itself ends the walk. -/
  | faulty {seen : List NodeId} {id : NodeId} {node : Node} {d : Defect} (new : id ∉ seen)
      (here : b.nodes[id.index]? = some node) (fault : b.Faults id node d) :
      b.Visits seen id (.error d)
  /-- Below a leaf is nothing. -/
  | leaf {seen : List NodeId} {id : NodeId} {brushes : List BrushId} {bounds : Bounds}
      (new : id ∉ seen) (here : b.nodes[id.index]? = some (.leaf brushes bounds))
      (sound : ∀ d, ¬ b.Faults id (.leaf brushes bounds) d) :
      b.Visits seen id (.ok (id :: seen))
  /-- A defect behind a split ends the walk. -/
  | stops {seen : List NodeId} {id front back : NodeId} {plane : PlaneId} {bounds : Bounds}
      {d : Defect} (new : id ∉ seen)
      (here : b.nodes[id.index]? = some (.split plane front back bounds))
      (sound : ∀ d, ¬ b.Faults id (.split plane front back bounds) d)
      (behind : b.Visits (id :: seen) back (.error d)) : b.Visits seen id (.error d)
  /-- Otherwise the walk ends with what is in front. -/
  | split {seen seen' : List NodeId} {id front back : NodeId} {plane : PlaneId} {bounds : Bounds}
      {r : Except Defect (List NodeId)} (new : id ∉ seen)
      (here : b.nodes[id.index]? = some (.split plane front back bounds))
      (sound : ∀ d, ¬ b.Faults id (.split plane front back bounds) d)
      (behind : b.Visits (id :: seen) back (.ok seen')) (inFront : b.Visits seen' front r) :
      b.Visits seen id r

/-- A new node that is wrong by itself decides how the walk ends. -/
theorem Visits.eq_of_faults {node : Node} {d : Defect} (new : id ∉ seen)
    (here : b.nodes[id.index]? = some node) (fault : b.Faults id node d) (h : b.Visits seen id r) :
    r = .error d := by
  cases h with
  | again old => exact absurd old new
  | faulty _ here' fault' =>
    obtain rfl := Option.some.inj (here.symm.trans here')
    rw [fault.unique fault']
  | leaf _ here' sound | stops _ here' sound | split _ here' sound =>
    obtain rfl := Option.some.inj (here.symm.trans here')
    exact absurd fault (sound _)

/-- A new leaf with nothing wrong is all that the walk sees. -/
theorem Visits.eq_of_leaf {brushes : List BrushId} {bounds : Bounds} (new : id ∉ seen)
    (here : b.nodes[id.index]? = some (.leaf brushes bounds))
    (sound : ∀ d, ¬ b.Faults id (.leaf brushes bounds) d) (h : b.Visits seen id r) :
    r = .ok (id :: seen) := by
  cases h with
  | again old => exact absurd old new
  | faulty _ here' fault =>
    obtain rfl := Option.some.inj (here.symm.trans here')
    exact absurd fault (sound _)
  | leaf => rfl
  | stops _ here' | split _ here' => cases here.symm.trans here'

/-- From a new split with nothing wrong the walk goes behind it, and to the front if no defect is
    found there. -/
theorem Visits.of_split {plane : PlaneId} {front back : NodeId} {bounds : Bounds} (new : id ∉ seen)
    (here : b.nodes[id.index]? = some (.split plane front back bounds))
    (sound : ∀ d, ¬ b.Faults id (.split plane front back bounds) d) (h : b.Visits seen id r) :
    (∃ d, r = .error d ∧ b.Visits (id :: seen) back (.error d)) ∨
      ∃ seen', b.Visits (id :: seen) back (.ok seen') ∧ b.Visits seen' front r := by
  cases h with
  | again old => exact absurd old new
  | faulty _ here' fault =>
    obtain rfl := Option.some.inj (here.symm.trans here')
    exact absurd fault (sound _)
  | leaf _ here' => cases here.symm.trans here'
  | @stops _ _ _ _ _ _ d _ here' _ behind =>
    cases here.symm.trans here'
    exact .inl ⟨d, rfl, behind⟩
  | @split _ seen' _ _ _ _ _ _ _ here' _ behind inFront =>
    cases here.symm.trans here'
    exact .inr ⟨seen', behind, inFront⟩

/-- **There is one walk** at most. -/
theorem Visits.unique (h : b.Visits seen id r) (h' : b.Visits seen id r') : r = r' := by
  induction h generalizing r' with
  | again old =>
    cases h' with
    | again => rfl
    | faulty new | leaf new | stops new | split new => exact absurd old new
  | faulty new here fault => exact (h'.eq_of_faults new here fault).symm
  | leaf new here sound => exact (h'.eq_of_leaf new here sound).symm
  | stops new here sound behind ih =>
    rcases h'.of_split new here sound with ⟨d, rfl, behind'⟩ | ⟨seen', behind', -⟩
    · exact ih behind'
    · cases ih behind'
  | split new here sound behind inFront ihb ihf =>
    rcases h'.of_split new here sound with ⟨d, rfl, behind'⟩ | ⟨seen', behind', inFront'⟩
    · cases ihb behind'
    · obtain rfl := Except.ok.inj (ihb behind')
      exact ihf inFront'

/-! ### The loop -/

/-- The walk over what is below each of the pending nodes in turn. -/
inductive VisitsAll (b : Builder α) :
    (seen pending : List NodeId) → Except Defect (List NodeId) → Prop where
  /-- Nothing is pending. -/
  | done {seen : List NodeId} : b.VisitsAll seen [] (.ok seen)
  /-- A defect below the first one ends the walk. -/
  | stops {seen pending : List NodeId} {id : NodeId} {d : Defect}
      (first : b.Visits seen id (.error d)) : b.VisitsAll seen (id :: pending) (.error d)
  /-- Otherwise the walk goes on with the others. -/
  | next {seen seen' pending : List NodeId} {id : NodeId} {r : Except Defect (List NodeId)}
      (first : b.Visits seen id (.ok seen')) (rest : b.VisitsAll seen' pending r) :
      b.VisitsAll seen (id :: pending) r

theorem visitsAll_singleton_iff : b.VisitsAll seen [id] r ↔ b.Visits seen id r := by
  constructor
  · intro h
    cases h with
    | stops first => exact first
    | next first rest =>
      cases rest
      exact first
  · intro h
    cases r with
    | error d => exact .stops h
    | ok seen' => exact .next h .done

/-- **One step of the loop.** To walk over what is below a new node is to walk over what is below
    its children. -/
theorem VisitsAll.of_children (new : id ∉ seen) (here : b.nodes[id.index]? = some node)
    (sound : ∀ d, ¬ b.Faults id node d)
    (h : b.VisitsAll (id :: seen) (children node ++ pending) r) :
    b.VisitsAll seen (id :: pending) r := by
  cases node with
  | leaf brushes bounds => exact .next (.leaf new here sound) h
  | split plane front back bounds =>
    cases h with
    | stops behind => exact .stops (.stops new here sound behind)
    | next behind h =>
      cases h with
      | stops inFront => exact .stops (.split new here sound behind inFront)
      | next inFront rest => exact .next (.split new here sound behind inFront) rest

/-- The children of a node without a fault exist. -/
theorem lt_size_of_mem_children (sound : ∀ d, ¬ b.Faults id node d) :
    ∀ i ∈ children node, i.index < b.nodes.size := by
  rw [← nodeDefect?_eq_none_iff_faults, nodeDefect?_eq_none_iff b id] at sound
  cases node with
  | leaf => simp [children]
  | split plane front back bounds =>
    obtain ⟨-, hfront, hback⟩ := sound
    simp only [children, List.mem_cons, List.not_mem_nil, or_false]
    rintro i (rfl | rfl)
    · exact hback
    · exact hfront

/-- The marks are those of the nodes that were seen. -/
structure Marks (b : Builder α) (marks : Array Bool) (seen : List NodeId) : Prop where
  /-- There is a mark for every node. -/
  size : marks.size = b.nodes.size
  /-- The nodes without a mark are new. -/
  new_iff : ∀ id : NodeId, marks.getD id.index false = false ↔ id ∉ seen

theorem Marks.mark {marks : Array Bool} (h : b.Marks marks seen) (hid : id.index < b.nodes.size) :
    b.Marks (marks.setIfInBounds id.index true) (id :: seen) where
  size := by rw [Array.size_setIfInBounds, h.size]
  new_iff i := by
    rw [World.getD_mark_eq_false_iff (h.size ▸ hid), h.new_iff, List.mem_cons, not_or]
    exact and_congr_left' (not_congr NodeId.index_injective.eq_iff)

/-- The defect with which a walk ends. -/
def defectOf : Except Defect (List NodeId) → Option Defect
  | .error d => some d
  | .ok _ => none

/-- **The loop is the recursive walk.** With fuel beyond the number of new nodes, the loop over
    pending nodes that exist ends as the walk over what is below them does. -/
theorem exists_visitsAll (fuel : ℕ) (marks : Array Bool) (seen pending : List NodeId)
    (hmarks : b.Marks marks seen) (hfuel : marks.count false < fuel)
    (hpending : ∀ id ∈ pending, id.index < b.nodes.size) :
    ∃ r, b.VisitsAll seen pending r ∧ b.walk fuel marks pending = defectOf r := by
  -- the fuel stays ahead of the new nodes, for every step that goes on marks one of them
  induction fuel generalizing marks seen pending with
  | zero => omega
  | succ fuel ih =>
    cases pending with
    | nil => exact ⟨_, .done, rfl⟩
    | cons id pending =>
      obtain ⟨hid, hpending⟩ := List.forall_mem_cons.1 hpending
      have here : b.nodes[id.index]? = some b.nodes[id.index] := Array.getElem?_eq_getElem hid
      rw [walk, here]
      cases hmark : marks.getD id.index false with
      | true =>
        have old : id ∈ seen := by
          by_contra new
          rw [(hmarks.new_iff id).2 new] at hmark
          cases hmark
        exact ⟨_, .stops (.again old), rfl⟩
      | false =>
        have new := (hmarks.new_iff id).1 hmark
        cases hfault : b.nodeDefect? id b.nodes[id.index] with
        | some d =>
          refine ⟨_, .stops (.faulty new here (nodeDefect?_eq_some_iff.1 hfault)), ?_⟩
          simp [hfault, defectOf]
        | none =>
          have sound := nodeDefect?_eq_none_iff_faults.1 hfault
          have hcount := count_mark (hmarks.size ▸ hid) hmark
          obtain ⟨r, hr, hwalk⟩ := ih _ (id :: seen) (children b.nodes[id.index] ++ pending)
            (hmarks.mark hid) (by omega)
            (List.forall_mem_append.2 ⟨lt_size_of_mem_children sound, hpending⟩)
          refine ⟨r, .of_children new here sound hr, ?_⟩
          simpa [hfault] using hwalk

/-- The walk from a root that exists ends as the recursive walk does. -/
theorem exists_visits {root : NodeId} (hroot : root.index < b.nodes.size) :
    ∃ r, b.Visits [] root r ∧ b.treeDefect? root = defectOf r := by
  have hmarks : b.Marks (Array.replicate b.nodes.size false) [] := by
    refine ⟨Array.size_replicate, fun id => iff_of_true ?_ List.not_mem_nil⟩
    rw [Array.getD_eq_getD_getElem?, Array.getElem?_replicate]
    split_ifs <;> rfl
  obtain ⟨r, hr, hwalk⟩ := exists_visitsAll (b.nodes.size + 1) _ [] [root] hmarks (by simp)
    (List.forall_mem_singleton.2 hroot)
  exact ⟨r, visitsAll_singleton_iff.1 hr, hwalk⟩

/-! ### All contents -/

variable [Scalar α] {root : NodeId}

/-- The defect with which contents are refused. -/
inductive Reports (b : Builder α) (root : NodeId) : Defect → Prop where
  /-- The lowest plane that is not sound. -/
  | plane {i : ℕ} {p : Plane α} (unsound : FirstAt (fun p => ¬ p.IsSound) b.planes.toList i p) :
      b.Reports root (.degenerateNormal i)
  /-- With sound planes, the lowest brush that has a missing plane, and the first of these. -/
  | face {i j : ℕ} {brush : Brush} {id : PlaneId} (planes : ∀ p ∈ b.planes, p.IsSound)
      (lowest : FirstAt (fun brush => ∃ id ∈ brush.planes, b.planes.size ≤ id.index)
        b.brushes.toList i brush)
      (missing : FirstAt (fun id => b.planes.size ≤ id.index) brush.planes j id) :
      b.Reports root (.danglingPlane i id.index)
  /-- With sound planes and brushes, a root that is missing. -/
  | root (planes : ∀ p ∈ b.planes, p.IsSound)
      (faces : ∀ brush ∈ b.brushes, ∀ id ∈ brush.planes, id.index < b.planes.size)
      (missing : b.nodes.size ≤ root.index) : b.Reports root (.danglingRoot root.index)
  /-- With sound planes and brushes and a root, the first defect that the walk meets. -/
  | node {d : Defect} (planes : ∀ p ∈ b.planes, p.IsSound)
      (faces : ∀ brush ∈ b.brushes, ∀ id ∈ brush.planes, id.index < b.planes.size)
      (hroot : root.index < b.nodes.size) (walk : b.Visits [] root (.error d)) : b.Reports root d

theorem planeDefect?_eq_some_iff :
    b.planeDefect? = some d ↔
      ∃ i p, FirstAt (fun p => ¬ p.IsSound) b.planes.toList i p ∧ .degenerateNormal i = d := by
  simp only [planeDefect?, Option.map_eq_some_iff, findIdx?_eq_some_iff_firstAt, Bool.not_eq_true',
    decide_eq_false_iff_not, exists_and_right]

omit [Scalar α] in
theorem brushDefect?_eq_some_iff :
    b.brushDefect? = some d ↔ ∃ i brush j id,
      FirstAt (fun brush => ∃ id ∈ brush.planes, b.planes.size ≤ id.index)
        b.brushes.toList i brush ∧
      FirstAt (fun id => b.planes.size ≤ id.index) brush.planes j id ∧
      .danglingPlane i id.index = d := by
  have hfound (brush : Brush) :
      brush.planes.find? (fun id => decide (b.planes.size ≤ id.index)) ≠ none ↔
        ∃ id ∈ brush.planes, b.planes.size ≤ id.index := by
    simp [List.find?_eq_none]
  have hsearch := findSome?_zipIdx_eq_some_iff (l := b.brushes.toList) (d := d)
    (f := fun brush => brush.planes.find? fun id => decide (b.planes.size ≤ id.index))
    (g := fun i id => Defect.danglingPlane i id.index) 0
  simp only [hfound, find?_eq_some_iff_firstAt, decide_eq_true_eq, Nat.zero_add] at hsearch
  refine hsearch.trans ?_
  constructor
  · rintro ⟨i, brush, id, hlowest, ⟨j, hfirst⟩, rfl⟩
    exact ⟨i, brush, j, id, hlowest, hfirst, rfl⟩
  · rintro ⟨i, brush, j, id, hlowest, hfirst, rfl⟩
    exact ⟨i, brush, id, hlowest, ⟨j, hfirst⟩, rfl⟩

omit [Scalar α] in
theorem treeDefect?_of_missing (h : b.nodes.size ≤ root.index) :
    b.treeDefect? root = some (.danglingRoot root.index) := by
  rw [treeDefect?, walk, Array.getElem?_eq_none h]

/-- The first defect that is found is the one to be reported. -/
theorem reports_of_defect? (h : b.defect? root = some d) : b.Reports root d := by
  -- planes are checked before brushes, and brushes before the tree
  rw [defect?] at h
  cases hplane : b.planeDefect? with
  | some d' =>
    rw [hplane] at h
    obtain rfl : d' = d := Option.some.inj h
    obtain ⟨i, p, hfirst, rfl⟩ := planeDefect?_eq_some_iff.1 hplane
    exact .plane hfirst
  | none =>
    have planes := planeDefect?_eq_none_iff.1 hplane
    cases hbrush : b.brushDefect? with
    | some d' =>
      rw [hplane, hbrush] at h
      obtain rfl : d' = d := Option.some.inj h
      obtain ⟨i, brush, j, id, hlowest, hfirst, rfl⟩ := brushDefect?_eq_some_iff.1 hbrush
      exact .face planes hlowest hfirst
    | none =>
      have faces := brushDefect?_eq_none_iff.1 hbrush
      rw [hplane, hbrush] at h
      replace h : b.treeDefect? root = some d := h
      rcases Nat.lt_or_ge root.index b.nodes.size with hroot | hroot
      · obtain ⟨r, hr, hwalk⟩ := exists_visits hroot
        rw [h] at hwalk
        cases r with
        | error d' =>
          obtain rfl : d = d' := Option.some.inj hwalk
          exact .node planes faces hroot hr
        | ok => cases hwalk
      · rw [treeDefect?_of_missing hroot] at h
        cases h
        exact .root planes faces hroot

/-- The defect to be reported is the first one that is found. -/
theorem Reports.defect? (h : b.Reports root d) : b.defect? root = some d := by
  cases h with
  | plane unsound =>
    have hplane := planeDefect?_eq_some_iff.2 ⟨_, _, unsound, rfl⟩
    rw [Builder.defect?, hplane]
    rfl
  | face planes lowest missing =>
    have hbrush := brushDefect?_eq_some_iff.2 ⟨_, _, _, _, lowest, missing, rfl⟩
    rw [Builder.defect?, planeDefect?_eq_none_iff.2 planes, hbrush]
    rfl
  | root planes faces missing =>
    rw [Builder.defect?, planeDefect?_eq_none_iff.2 planes, brushDefect?_eq_none_iff.2 faces,
      treeDefect?_of_missing missing]
    rfl
  | node planes faces hroot walk =>
    obtain ⟨r, hr, hwalk⟩ := exists_visits hroot
    obtain rfl := walk.unique hr
    rw [Builder.defect?, planeDefect?_eq_none_iff.2 planes, brushDefect?_eq_none_iff.2 faces, hwalk]
    rfl

omit [Scalar α] in
/-- The part below the root has no defect iff the root exists and the recursive walk meets none. -/
theorem treeDefect?_eq_none_iff_visits :
    b.treeDefect? root = none ↔
      root.index < b.nodes.size ∧ ∃ seen, b.Visits [] root (.ok seen) := by
  rcases Nat.lt_or_ge root.index b.nodes.size with hroot | hroot
  · obtain ⟨r, hr, hwalk⟩ := exists_visits hroot
    rw [hwalk, and_iff_right hroot]
    cases r with
    | error d =>
      refine iff_of_false (Option.some_ne_none d) ?_
      rintro ⟨seen, hseen⟩
      cases hr.unique hseen
    | ok seen => exact iff_of_true rfl ⟨seen, hr⟩
  · rw [treeDefect?_of_missing hroot]
    exact iff_of_false (Option.some_ne_none _) fun h => absurd h.1 (Nat.not_lt_of_le hroot)

/-- **The reported defect.** Contents are refused with the defect of the lowest unsound plane;
    without one, with that of the lowest brush that has a missing plane, naming the first of these;
    without one, with a missing root; and otherwise with the first defect that the recursive walk
    meets, which looks at a node, then at all behind it, then at all in front.  They are accepted if
    there is none of these and the walk sees all it gets to. -/
theorem build_reports (b : Builder α) (root : NodeId) :
    (∀ d, b.build root = .error d ↔ b.Reports root d) ∧
      ∀ w, b.build root = .ok w ↔ w = b.toWorld root ∧ (∀ p ∈ b.planes, p.IsSound) ∧
        (∀ brush ∈ b.brushes, ∀ id ∈ brush.planes, id.index < b.planes.size) ∧
        root.index < b.nodes.size ∧ ∃ seen, b.Visits [] root (.ok seen) := by
  constructor
  · intro d
    have herror : b.build root = .error d ↔ b.defect? root = some d := by
      rw [build]
      cases b.defect? root <;> simp
    rw [herror]
    exact ⟨reports_of_defect?, Reports.defect?⟩
  · intro w
    rw [build_eq_ok_iff_wellFormed, ← defect?_eq_none_iff, defect?, Option.orElse_eq_none,
      Option.orElse_eq_none, planeDefect?_eq_none_iff, brushDefect?_eq_none_iff,
      treeDefect?_eq_none_iff_visits]

/-- Both sides of the root are wrong: in front is the root again, and the leaf behind lists a brush
    that is missing.  What is behind is reported, although the front child has the lower number. -/
example :
    (⟨#[⟨⟨1, 0, 0⟩, 0⟩], #[], #[.split (.ofIndex 0) (.ofIndex 0) (.ofIndex 1) .everything,
      .leaf [.ofIndex 5, .ofIndex 4] .everything]⟩ : Builder Float32).build (.ofIndex 0) =
      .error (.danglingBrush 1 5) := by decide +kernel

end Builder

end Stride
