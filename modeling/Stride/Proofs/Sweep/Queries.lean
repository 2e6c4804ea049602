import Stride.Saved.Snapshot
import Stride.Proofs.Sweep.Search

namespace Stride

/-!
# Queries always answer

A level that was accepted, by whatever way it came in, may still hold nodes that refer to nothing
or to each other in a circle, as long as the root does not reach them.  No query gets there: every
query ends, and no look-up of it fails, whatever numbers it is asked with.

* `World.Loaded` — the levels that the library hands out.
* `World.Answers` — a query ends without a failed look-up.
* `Loaded.queries_answer` — every query on such a level does.
-/

/-- The levels that are handed out: by a builder, or from a saved map. -/
inductive World.Loaded : World Float32 → Prop where
  /-- A level built with a root. -/
  | build {b : Builder Float32} {root : NodeId} {w : World Float32} (h : b.build root = .ok w) :
      Loaded w
  /-- A level built as one leaf. -/
  | singleLeaf {b : Builder Float32} {w : World Float32} (h : b.buildSingleLeaf = .ok w) : Loaded w
  /-- A level built from the records of a map. -/
  | snapshot {m : Snapshot Float32} {w : World Float32} (h : m.build = .ok w) : Loaded w
  /-- A level read from a text. -/
  | text {source : String} {w : World Float32} (h : World.ofText? source = .ok w) : Loaded w

/-- A level that comes from the records of a map was built. -/
theorem Snapshot.exists_build {α : Type} [Scalar α] {m : Snapshot α} {w : World α}
    (h : m.build = .ok w) : ∃ (b : Builder α) (root : NodeId), b.build root = .ok w := by
  rw [Snapshot.build] at h
  split_ifs at h
  cases hbrushes : m.brushes? with
  | error defect => simp [hbrushes] at h
  | ok brushes =>
    simp only [hbrushes] at h
    cases hflat : m.tree.flatten { m.withPlanes with brushes := brushes.toArray } 0 with
    | error defect => simp [hflat] at h
    | ok tree =>
      simp only [hflat] at h
      exact ⟨tree.builder, tree.root, h⟩

namespace World

variable {w : World Float32}

/-- Every level that is handed out was built. -/
theorem Loaded.exists_build (h : w.Loaded) :
    ∃ (b : Builder Float32) (root : NodeId), b.build root = .ok w := by
  cases h with
  | build h => exact ⟨_, _, h⟩
  | singleLeaf h => exact ⟨_, _, h⟩
  | snapshot h => exact Snapshot.exists_build h
  | @text source _ h =>
    rw [World.ofText?] at h
    cases hread : (Saved.ofText? source : Except Json.Fault (Snapshot Float32)) with
    | error fault => simp [hread] at h
    | ok m =>
      simp only [hread] at h
      cases hbuild : m.build with
      | error defect =>
        rw [hbuild] at h
        cases h
      | ok w' =>
        obtain rfl : w' = w := by
          rw [hbuild] at h
          exact Except.ok.inj h
        exact Snapshot.exists_build hbuild

theorem Loaded.wellFormed (h : w.Loaded) : w.WellFormed := by
  obtain ⟨b, root, hbuild⟩ := h.exists_build
  exact Builder.wellFormed_of_build hbuild

/-- A query ends with an answer, and no look-up of a node, a brush or a plane fails on the way: with
    fuel for every node of the arena, and with any more, the search answers the same, and the face
    that it names exists. -/
def Answers {α : Type} [Scalar α] (w : World α) (s : Sweep α) (t : Trace α) : Prop :=
  ∃ c, (∀ fuel, w.nodes.size ≤ fuel →
      w.search? s fuel w.root s.whole Contact.clear = some c) ∧
    w.report? s c = some t

theorem Answers.trace_eq {α : Type} [Scalar α] {w : World α} {s : Sweep α} {t : Trace α}
    (h : w.Answers s t) : w.trace s.start s.finish s.radius = t := by
  obtain ⟨c, hsearch, hreport⟩ := h
  refine trace_eq_of_trace? ?_
  rw [trace?, hsearch _ (le_refl _)]
  exact hreport

theorem WellFormed.exists_answers {α : Type} [Scalar α] {w : World α} (hw : w.WellFormed)
    (s : Sweep α) : ∃ t, w.Answers s t := by
  obtain ⟨p, hp⟩ := hw.exists_holds
  exact ⟨w.report s (p.search w s s.whole Contact.clear), _,
    fun fuel hfuel => (hw.search?_root hp s fuel hfuel).1, (hw.search?_root hp s _ (le_refl _)).2⟩

/-- **Queries always answer.** On a level that is handed out, a sweep, a line of sight and a test
    for a clear position end for all numbers, NaN and the infinities included, and no look-up of
    them fails. -/
theorem Loaded.queries_answer (h : w.Loaded) (start finish : Vec3 Float32) (radius : Float32) :
    (∃ t, w.Answers ⟨start, finish, radius⟩ t ∧ w.trace start finish radius = t) ∧
    (∃ t, w.Answers ⟨start, finish, 0⟩ t ∧
      w.lineOfSight start finish = (!t.startSolid && !decide t.Hit)) ∧
    (∃ t, w.Answers ⟨start, start, radius⟩ t ∧ w.isClear start radius = !t.startSolid) := by
  obtain ⟨t, ht⟩ := h.wellFormed.exists_answers ⟨start, finish, radius⟩
  obtain ⟨line, hline⟩ := h.wellFormed.exists_answers ⟨start, finish, 0⟩
  obtain ⟨rest, hrest⟩ := h.wellFormed.exists_answers ⟨start, start, radius⟩
  refine ⟨⟨t, ht, ht.trace_eq⟩, ⟨line, hline, ?_⟩, ⟨rest, hrest, ?_⟩⟩
  · rw [lineOfSight, show w.trace start finish 0 = line from hline.trace_eq]
  · rw [isClear, show w.trace start start radius = rest from hrest.trace_eq]

end World

/-- Half of space is solid.  The last node, which the root does not reach, is its own child and
    names a plane and a node that do not exist. -/
def halfSolid : Builder Float32 where
  planes := #[⟨⟨0, 0, 1⟩, 0⟩]
  brushes := #[⟨[.ofIndex 0], true⟩]
  nodes := #[.leaf [] .everything, .leaf [.ofIndex 0] .everything,
    .split (.ofIndex 0) (.ofIndex 0) (.ofIndex 1) .everything,
    .split (.ofIndex 7) (.ofIndex 3) (.ofIndex 9) .everything]

theorem halfSolid_build : halfSolid.build (.ofIndex 2) =
    .ok ⟨halfSolid.planes, halfSolid.brushes, halfSolid.nodes, .ofIndex 2⟩ :=
  Builder.build_of_defect?_eq_none (by decide +kernel)

theorem halfSolid_queries_answer :
    ∃ w, halfSolid.build (.ofIndex 2) = .ok w ∧
      (∃ t, w.Answers ⟨⟨0 / 0, 1, 1⟩, ⟨0, 1 / 0, -1⟩, 0 / 0⟩ t ∧
        w.trace ⟨0 / 0, 1, 1⟩ ⟨0, 1 / 0, -1⟩ (0 / 0) = t) ∧
      (∃ t, w.Answers ⟨⟨0 / 0, 1, 1⟩, ⟨0, 1 / 0, -1⟩, 0⟩ t ∧
        w.lineOfSight ⟨0 / 0, 1, 1⟩ ⟨0, 1 / 0, -1⟩ = (!t.startSolid && !decide t.Hit)) ∧
      (∃ t, w.Answers ⟨⟨0 / 0, 1, 1⟩, ⟨0 / 0, 1, 1⟩, 0 / 0⟩ t ∧
        w.isClear ⟨0 / 0, 1, 1⟩ (0 / 0) = !t.startSolid) :=
  ⟨_, halfSolid_build, (World.Loaded.build halfSolid_build).queries_answer _ _ _⟩

end Stride
