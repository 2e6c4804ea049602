import Stride.Proofs.Sweep.Queries

namespace Stride

/-!
# What a report says

The parts of a report fit together, whatever numbers the sweep was asked with: the free fraction is
a number from zero to one, a sweep is cut short by a face or because the sphere is stuck in a solid,
and a face that is named is one of a collidable brush that some leaf lists.

* `Contact.Coherent` — what a search keeps of the best hit.
* `meet_coherent`, `foldl_meet_coherent` — meeting one solid, and a list of them, keeps it.
* `foldl_meet_hit` — the face and the fraction that are reported are those of one solid.
* `Trace.Coherent` — what holds of a report.
* `Loaded.trace_coherent` — it holds of every report.
-/

variable {α : Type}

/-! ### Listed faces -/

/-- A face of a collidable brush that some leaf lists. -/
def World.ListsFace (w : World α) (id : PlaneId) : Prop :=
  ∃ cell, w.HasCell cell ∧ ∃ b ∈ cell.brushes, ∃ brush, w.brush? b = some brush ∧
    brush.collidable = true ∧ id ∈ brush.planes

/-- The faces of a listed solid are listed. -/
theorem World.HasSolid.listsFace {w : World α} {b : BrushId} {faces : List (Face α)} {face : Face α}
    {cell : Cell} (h : w.HasSolid b faces) (hface : face ∈ faces) (hcell : w.HasCell cell)
    (hb : b ∈ cell.brushes) :
    w.ListsFace face.id := by
  obtain ⟨brush, hbrush, hcoll, hfaces⟩ := h
  obtain ⟨id, hid, hlook⟩ := (mem_of_mapM_eq_some hfaces face).1 hface
  obtain ⟨plane, -, rfl⟩ := Option.map_eq_some_iff.1 hlook
  exact ⟨cell, hcell, b, hb, brush, hbrush, hcoll, hid⟩

variable [Scalar α] {s : Sweep α} {c : Contact α} {faces : List (Face α)}
  {met : List (List (Face α))}

namespace Contact

/-! ### The best hit -/

/-- What a search keeps of the best hit. -/
structure Coherent (c : Contact α) : Prop where
  /-- The fraction lies between nothing and the whole sweep. -/
  proper : c.Proper
  /-- A sphere that is inside all the way is inside at the start and does not move. -/
  stuck : c.allSolid = true → c.startSolid = true ∧ c.fraction = 0
  /-- A sweep is cut short by a face, or because the sphere is inside all the way. -/
  lt_one_iff : c.fraction < 1 ↔ c.plane.isSome = true ∨ c.allSolid = true

variable [Scalar.Lawful α]

theorem clear_coherent : (clear : Contact α).Coherent where
  proper := clear_proper
  stuck h := by cases h
  lt_one_iff := by simp [clear, Scalar.lt_irrefl]

/-- An entry that counts has a face. -/
theorem span?_plane_isSome {span : Span α} (h : s.span? faces = some span)
    (hneg : -1 < span.enter) : span.plane.isSome = true := by
  rcases Sweep.span?_plane h with ⟨henter, -⟩ | ⟨face, -, hplane⟩
  · rw [henter] at hneg
    exact absurd hneg (Scalar.lt_irrefl _)
  · rw [hplane]
    rfl

/-- **One solid** keeps the parts of the best hit together. -/
theorem meet_coherent (hc : c.Coherent) (faces : List (Face α)) :
    (c.meet s faces).Coherent := by
  have hproper := meet_proper (s := s) hc.proper faces
  rcases meet_cases s faces with ⟨-, hpass⟩ | ⟨span, -, hspan, hmeet⟩
  · rwa [hpass]
  · rw [hmeet, meetSpan] at hproper ⊢
    split_ifs at hproper ⊢ with hout hin hends
    · -- an entry names its face, and comes before the end of the sweep
      obtain ⟨-, hneg, hlt⟩ := hin
      have hplane : span.plane.isSome = true := span?_plane_isSome hspan hneg
      refine ⟨hproper, fun hall => ?_, iff_of_true ?_ (.inl hplane)⟩
      · -- where the sphere is stuck already, an entry is one before the start
        obtain ⟨hstart, hzero⟩ := hc.stuck hall
        rw [hzero] at hlt
        refine ⟨hstart, (Scalar.maxNum_zero_cases span.enter).elim (fun h => ?_) And.right⟩
        exact absurd h.1 (Scalar.Lawful.not_lt_of_le (Scalar.Lawful.le_of_lt hlt))
      · show Scalar.maxNum span.enter 0 < 1
        rcases Scalar.maxNum_zero_cases span.enter with ⟨-, hmax⟩ | ⟨-, hmax⟩
        · rw [hmax]
          exact Scalar.lt_of_lt_of_le hlt hc.proper.2
        · rw [hmax]
          exact Scalar.Lawful.zero_lt_one
    · exact hc
    · exact ⟨hproper, fun hall => ⟨rfl, (hc.stuck hall).2⟩, hc.lt_one_iff⟩
    · exact ⟨hproper, fun _ => ⟨rfl, rfl⟩,
        iff_of_true Scalar.Lawful.zero_lt_one (.inr rfl)⟩

/-- Meeting solids one after another keeps the parts of the best hit together. -/
theorem foldl_meet_coherent (hc : c.Coherent) : (met.foldl (Contact.meet s) c).Coherent := by
  induction met generalizing c with
  | nil => exact hc
  | cons faces met ih => exact ih (meet_coherent hc faces)

theorem alone_coherent (s : Sweep α) (faces : List (Face α)) : (alone s faces).Coherent :=
  meet_coherent clear_coherent faces

/-! ### Face and fraction -/

/-- Where the sphere is not stuck, face and fraction after a solid are those from before, or both
    the solid's own. -/
theorem meet_hit (hc : c.Proper) (hfree : (c.meet s faces).allSolid = false) :
    ((c.meet s faces).plane = c.plane ∧ (c.meet s faces).fraction = c.fraction) ∨
      ((c.meet s faces).plane = (alone s faces).plane ∧
        (c.meet s faces).fraction = (alone s faces).fraction) := by
  rcases meet_cases s faces with ⟨-, hpass⟩ | ⟨span, -, -, hmeet⟩
  · rw [hpass]
    exact .inl ⟨rfl, rfl⟩
  · rw [alone, hmeet, hmeet]
    rw [hmeet, meetSpan] at hfree
    rw [meetSpan, meetSpan]
    split_ifs at hfree ⊢ with hout hin hin' hends
    · exact .inr ⟨rfl, rfl⟩
    · -- an entry before the best hit is one before the end of the sweep
      exact absurd ⟨hin.1, hin.2.1, Scalar.lt_of_lt_of_le hin.2.2 hc.2⟩ hin'
    all_goals exact .inl ⟨rfl, rfl⟩

/-- **The hit that is reported.** Where the sphere is not stuck, the face that a search ends with
    and its fraction are those that one of the solids gives alone. -/
theorem foldl_meet_hit {id : PlaneId}
    (hfree : (met.foldl (Contact.meet s) Contact.clear).allSolid = false)
    (hplane : (met.foldl (Contact.meet s) Contact.clear).plane = some id) :
    ∃ faces ∈ met, (alone s faces).plane = some id ∧
      (alone s faces).fraction = (met.foldl (Contact.meet s) Contact.clear).fraction := by
  induction met using List.reverseRecOn with
  | nil => cases hplane
  | append_singleton met faces ih =>
    rw [List.foldl_append, List.foldl_cons, List.foldl_nil] at hfree hplane ⊢
    have hproper : (met.foldl (Contact.meet s) Contact.clear).Proper :=
      foldl_meet_proper clear_proper
    -- a sphere that is not stuck after the last solid was not stuck before it
    have hbefore : (met.foldl (Contact.meet s) Contact.clear).allSolid = false := by
      rw [(meet_merges hproper faces).2.2, Bool.or_eq_false_iff] at hfree
      exact hfree.1
    rcases meet_hit hproper hfree with ⟨hsame, hfraction⟩ | ⟨hown, hfraction⟩
    · obtain ⟨faces', hmem, hface, heq⟩ := ih hbefore (hsame ▸ hplane)
      exact ⟨faces', List.mem_append_left _ hmem, hface, heq.trans hfraction.symm⟩
    · exact ⟨faces, by simp, hown ▸ hplane, hfraction.symm⟩

end Contact

/-! ### Reports -/

/-- What holds of a report on a level. -/
structure Trace.Coherent (w : World α) (t : Trace α) : Prop where
  /-- The free fraction is a number from zero to one. -/
  fraction_mem : 0 ≤ t.fraction ∧ t.fraction ≤ 1
  /-- There is a normal iff there is a face. -/
  normal_isSome_iff : t.normal.isSome = true ↔ t.plane.isSome = true
  /-- The normal is that of the face. -/
  normal_eq : ∀ id, t.plane = some id → ∃ plane, w.plane? id = some plane ∧
    t.normal = some plane.normal
  /-- The face is one that a leaf lists. -/
  listed : ∀ id, t.plane = some id → w.ListsFace id
  /-- A sphere that is inside all the way is inside at the start and does not move. -/
  stuck : t.allSolid = true → t.startSolid = true ∧ t.fraction = 0
  /-- A sweep that names a face is cut short. -/
  lt_one_of_plane : t.plane.isSome = true → t.fraction < 1
  /-- A sweep is cut short by a face, or because the sphere is inside all the way. -/
  lt_one_iff : t.fraction < 1 ↔ t.plane.isSome = true ∨ t.allSolid = true

/-- A normal is that of a plane of the level, and the report names the plane. -/
theorem Trace.Coherent.exists_plane {w : World α} {t : Trace α} (h : t.Coherent w) {n : Vec3 α}
    (hn : t.normal = some n) :
    ∃ id plane, t.plane = some id ∧ w.plane? id = some plane ∧ plane.normal = n := by
  have hsome : t.plane.isSome = true := by
    rw [← h.normal_isSome_iff, hn, Option.isSome_some]
  obtain ⟨id, hid⟩ := Option.isSome_iff_exists.1 hsome
  obtain ⟨plane, hplane, hnormal⟩ := h.normal_eq id hid
  exact ⟨id, plane, hid, hplane, Option.some.inj (hnormal.symm.trans hn)⟩

/-- A sweep that reports a normal is cut short. -/
theorem Trace.Coherent.hit_of_normal {w : World α} {t : Trace α} (h : t.Coherent w) {n : Vec3 α}
    (hn : t.normal = some n) : t.Hit := by
  apply h.lt_one_of_plane
  rw [← h.normal_isSome_iff, hn, Option.isSome_some]

/-- A sweep that is cut short has met a surface with a normal, unless the sphere is stuck. -/
theorem Trace.Coherent.exists_normal [Scalar.Lawful α] {w : World α} {t : Trace α}
    (h : t.Coherent w) (hfree : t.allSolid = false) (hnear : ¬ 1 ≤ t.fraction) :
    ∃ n, t.normal = some n := by
  obtain ⟨hzero, hone⟩ := h.fraction_mem
  have hlt : t.fraction < 1 := Scalar.lt_of_not_le (Scalar.Lawful.number_left hone)
    (Scalar.Lawful.number_right hone) hnear
  -- the sphere is not stuck, so the sweep was cut short by a face
  have hplane : t.plane.isSome = true := by
    refine (h.lt_one_iff.1 hlt).resolve_right fun hstuck => ?_
    cases hfree.symm.trans hstuck
  exact Option.isSome_iff_exists.1 (h.normal_isSome_iff.2 hplane)

namespace World

variable {w : World α} {p : Partition}

variable [Scalar.Lawful α]

/-- The report of a coherent hit on a listed face is coherent. -/
theorem report_coherent (w : World α) (s : Sweep α) (hc : c.Coherent)
    (hface : ∀ id, c.plane = some id → (∃ plane, w.plane? id = some plane) ∧ w.ListsFace id) :
    (w.report s c).Coherent w := by
  have hfraction := w.report_fraction s hc.proper
  have hnormal : ∀ id, c.plane = some id → ∃ plane, w.plane? id = some plane ∧
      (w.report s c).normal = some plane.normal := by
    intro id hid
    obtain ⟨plane, hlook⟩ := (hface id hid).1
    exact ⟨plane, hlook, by simp [report, hid, hlook]⟩
  refine ⟨?_, ?_, hnormal, fun id hid => (hface id hid).2, ?_, ?_, ?_⟩
  · rw [hfraction]
    exact ⟨hc.proper.nonneg, hc.proper.2⟩
  · show _ ↔ c.plane.isSome = true
    cases hid : c.plane with
    | none => simp [report, hid]
    | some id =>
      obtain ⟨plane, -, hsome⟩ := hnormal id hid
      simp [hsome]
  · rw [hfraction]
    exact hc.stuck
  · rw [hfraction]
    exact fun h => hc.lt_one_iff.2 (.inl h)
  · rw [hfraction]
    exact hc.lt_one_iff

/-- On a level of the right shape, what a search ends with is coherent, and its face is listed. -/
theorem WellFormed.search_coherent (hw : w.WellFormed) (hp : w.Holds w.root p) (s : Sweep α) :
    (p.search w s s.whole Contact.clear).Coherent ∧
      ∀ id, (p.search w s s.whole Contact.clear).plane = some id →
        (∃ plane, w.plane? id = some plane) ∧ w.ListsFace id := by
  obtain ⟨met, hmet, hsearch⟩ := hw.exists_met hp s s.whole Contact.clear
  refine ⟨?_, fun id hid => ⟨hw.exists_plane_of_search hp hid, ?_⟩⟩
  · rw [hsearch]
    exact Contact.foldl_meet_coherent Contact.clear_coherent
  · rw [hsearch] at hid
    rcases Contact.foldl_meet_plane met Contact.clear with h | h | ⟨faces, hfaces, face, hface, h⟩
    · cases hid.symm.trans h
    · cases hid.symm.trans h
    · obtain ⟨b, hb, hsolid⟩ := hmet faces hfaces
      obtain ⟨cell, hcell, hmem⟩ := Partition.mem_brushes_iff.1 hb
      obtain rfl : face.id = id := Option.some.inj (h.symm.trans hid)
      exact hsolid.listsFace hface ((hasCell_iff_mem_cells hp.unfolds).2 hcell) hmem

/-- On a level of the right shape the answer to a query is the report of a coherent hit, and it is
    coherent. -/
theorem WellFormed.exists_hit (hw : w.WellFormed) (s : Sweep α) :
    ∃ c : Contact α, c.Coherent ∧ w.trace? s = some (w.report s c) ∧
      (w.report s c).Coherent w := by
  obtain ⟨p, hp⟩ := hw.exists_holds
  obtain ⟨hhit, hface⟩ := hw.search_coherent hp s
  exact ⟨_, hhit, hw.trace?_eq_report hp s, w.report_coherent s hhit hface⟩

/-- On a level of the right shape every report is coherent. -/
theorem WellFormed.coherent_trace (hw : w.WellFormed) (start finish : Vec3 α) (radius : α) :
    (w.trace start finish radius).Coherent w := by
  obtain ⟨c, -, htrace, hcoherent⟩ := hw.exists_hit ⟨start, finish, radius⟩
  rw [trace_eq_of_trace? htrace]
  exact hcoherent

/-- A sweep that is not cut short ends where it was bound for. -/
theorem WellFormed.finish_of_not_hit (hw : w.WellFormed) {start finish : Vec3 α} {radius : α}
    (h : ¬ (w.trace start finish radius).Hit) : (w.trace start finish radius).finish = finish := by
  obtain ⟨c, -, htrace, -⟩ := hw.exists_hit ⟨start, finish, radius⟩
  replace htrace := trace_eq_of_trace? htrace
  simp only at htrace
  rw [htrace] at h ⊢
  exact if_neg h

/-- **Every report is coherent.** On a level that is handed out, a sweep between any two points for
    any radius, NaN and the infinities included, has a report whose fraction is a number from zero
    to one and whose parts fit together. -/
theorem Loaded.trace_coherent {w : World Float32} (h : w.Loaded) (start finish : Vec3 Float32)
    (radius : Float32) :
    ∃ t, w.trace? ⟨start, finish, radius⟩ = some t ∧ w.trace start finish radius = t ∧
      t.fraction.isNaN = false ∧ t.Coherent w := by
  obtain ⟨c, -, htrace, hcoh⟩ := h.wellFormed.exists_hit ⟨start, finish, radius⟩
  exact ⟨_, htrace, trace_eq_of_trace? htrace,
    Single.isNaN_eq_false (Scalar.Lawful.number_left hcoh.fraction_mem.2), hcoh⟩

end World

/-- A sphere whose position is no number counts as inside all the way. -/
theorem halfSolid_trace_coherent :
    ∃ w, halfSolid.build (.ofIndex 2) = .ok w ∧
      ∃ t, w.trace? ⟨⟨0 / 0, 1, 1⟩, ⟨0, 1 / 0, -1⟩, 0 / 0⟩ = some t ∧
        w.trace ⟨0 / 0, 1, 1⟩ ⟨0, 1 / 0, -1⟩ (0 / 0) = t ∧
        t.fraction.isNaN = false ∧ t.Coherent w ∧ t.allSolid = true := by
  obtain ⟨t, htrace, heq, hnumber, hcoh⟩ :=
    (World.Loaded.build halfSolid_build).trace_coherent ⟨0 / 0, 1, 1⟩ ⟨0, 1 / 0, -1⟩ (0 / 0)
  refine ⟨_, halfSolid_build, t, htrace, heq, hnumber, hcoh, ?_⟩
  rw [← heq]
  decide +kernel

end Stride
