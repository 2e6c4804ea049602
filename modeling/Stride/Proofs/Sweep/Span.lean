import Stride.Proofs.Sweep.Path
import Stride.Proofs.Sweep.Inside

namespace Stride

/-!
# One solid, exactly

In exact arithmetic the stretch on which a sphere may be inside a solid begins with the last of the
entries and ends with the first of the exits.

* `Span.Describes` — what a stretch says about the faces.
* `span?_describes` — the stretch that is computed says just that.
* `alone_startSolid_iff`, `alone_allSolid_iff` — when a solid reports the sphere inside.
* `alone_eq_of_enters`, `exists_span_of_alone` — the hit on a solid, from its stretch and back.
* `gap_le_of_alone` — where a solid stops the sphere, no face of it is farther than `traceOffset`.
-/

variable {K : Type} [Field K] [LinearOrder K] [HasSqrt K] {s : Sweep K} {span : Span K}
  {face : Face K} {faces : List (Face K)}

/-! ### One face -/

namespace Span

theorem cross_of_misses (h : s.Misses face.plane) : span.cross s face = none := if_pos h

theorem cross_of_behind (hs : s.startGap face.plane ≤ 0) (he : s.endGap face.plane ≤ 0) :
    span.cross s face = some span := by
  simp [cross, hs, he, not_lt.2 hs, not_lt.2 he]

theorem cross_of_enters (h : s.Enters face.plane) :
    span.cross s face = some
      { span with
        startsOut := true
        enter := max span.enter (s.enterAt face.plane)
        plane := if span.enter < s.enterAt face.plane then some face.id else span.plane } := by
  have hlt : s.endGap face.plane < s.startGap face.plane := h.2.trans_lt h.1
  simp only [cross, h.1, not_le.2 h.1, not_lt.2 h.2, hlt, and_false, false_and, if_false, if_true,
    decide_true, decide_false, Bool.or_true, Bool.or_false]
  rw [← Sweep.enterAt]
  split_ifs with henter
  · rw [max_eq_right henter.le]
  · rw [max_eq_left (not_lt.1 henter)]

theorem cross_of_leaves (h : s.Leaves face.plane) :
    span.cross s face = some
      { span with endsOut := true, exit := min span.exit (s.leaveAt face.plane) } := by
  have hlt : ¬ s.endGap face.plane < s.startGap face.plane := not_lt.2 (h.1.trans h.2.le)
  simp only [cross, h.2, not_le.2 h.2, not_lt.2 h.1, hlt, and_false, false_and, if_false,
    decide_true, decide_false, Bool.or_true, Bool.or_false, Scalar.minNum_eq_min]
  rfl

/-! ### All faces -/

/-- What a stretch says about the faces that it was computed from. -/
structure Describes (s : Sweep K) (faces : List (Face K)) (span : Span K) : Prop where
  /-- No face has the whole sweep in front. -/
  not_misses : ∀ face ∈ faces, ¬ s.Misses face.plane
  /-- Some face has the start in front. -/
  startsOut_iff : span.startsOut = true ↔ ∃ face ∈ faces, 0 < s.startGap face.plane
  /-- Some face has the end in front. -/
  endsOut_iff : span.endsOut = true ↔ ∃ face ∈ faces, 0 < s.endGap face.plane
  /-- The stretch begins after every entry. -/
  enterAt_le : ∀ face ∈ faces, s.Enters face.plane → s.enterAt face.plane ≤ span.enter
  /-- It begins at `-1`, or with an entry. -/
  enter_eq : (span.enter = -1 ∧ span.plane = none) ∨ ∃ face ∈ faces, s.Enters face.plane ∧
    span.enter = s.enterAt face.plane ∧ span.plane = some face.id
  /-- It does not begin before `-1`. -/
  neg_one_le : -1 ≤ span.enter
  /-- The stretch ends before every exit. -/
  le_leaveAt : ∀ face ∈ faces, s.Leaves face.plane → span.exit ≤ s.leaveAt face.plane
  /-- It ends with the sweep, or with an exit. -/
  exit_eq : span.exit = 1 ∨ ∃ face ∈ faces, s.Leaves face.plane ∧ span.exit = s.leaveAt face.plane
  /-- It does not end after the sweep. -/
  exit_le : span.exit ≤ 1

theorem describes_all (s : Sweep K) : all.Describes s [] where
  not_misses := by simp
  startsOut_iff := by simp [all]
  endsOut_iff := by simp [all]
  enterAt_le := by simp
  enter_eq := .inl ⟨rfl, rfl⟩
  neg_one_le := le_refl _
  le_leaveAt := by simp
  exit_eq := .inl rfl
  exit_le := le_refl _

/-! ### One more face -/

theorem exists_mem_snoc {β : Type} {l : List β} {last : β} {P : β → Prop} :
    (∃ a ∈ l ++ [last], P a) ↔ (∃ a ∈ l, P a) ∨ P last := by
  simp only [List.mem_append, List.mem_singleton, or_and_right, exists_or, exists_eq_left]

/-- A face that the whole sweep is behind adds nothing. -/
theorem Describes.behind (h : span.Describes s faces) (hstart : s.startGap face.plane ≤ 0)
    (hend : s.endGap face.plane ≤ 0) : span.Describes s (faces ++ [face]) where
  not_misses := List.forall_mem_append.2 ⟨h.not_misses,
    List.forall_mem_singleton.2 fun hm => not_lt.2 hstart hm.1⟩
  startsOut_iff := by rw [exists_mem_snoc, h.startsOut_iff, or_iff_left (not_lt.2 hstart)]
  endsOut_iff := by rw [exists_mem_snoc, h.endsOut_iff, or_iff_left (not_lt.2 hend)]
  enterAt_le := List.forall_mem_append.2 ⟨h.enterAt_le,
    List.forall_mem_singleton.2 fun he => absurd he.1 (not_lt.2 hstart)⟩
  enter_eq := by
    rw [exists_mem_snoc]
    exact h.enter_eq.imp_right .inl
  neg_one_le := h.neg_one_le
  le_leaveAt := List.forall_mem_append.2 ⟨h.le_leaveAt,
    List.forall_mem_singleton.2 fun hl => absurd hl.2 (not_lt.2 hend)⟩
  exit_eq := by
    rw [exists_mem_snoc]
    exact h.exit_eq.imp_right .inl
  exit_le := h.exit_le

/-- An entry moves the beginning of the stretch, and only forward. -/
theorem Describes.entered (h : span.Describes s faces) (henter : s.Enters face.plane) :
    Describes s (faces ++ [face])
      { span with
        startsOut := true
        enter := max span.enter (s.enterAt face.plane)
        plane := if span.enter < s.enterAt face.plane then some face.id else span.plane } where
  not_misses := List.forall_mem_append.2 ⟨h.not_misses,
    List.forall_mem_singleton.2 henter.not_misses⟩
  startsOut_iff := by simp only [exists_mem_snoc, henter.1, or_true]
  endsOut_iff := by rw [exists_mem_snoc, ← h.endsOut_iff, or_iff_left (not_lt.2 henter.2)]
  enterAt_le := List.forall_mem_append.2
    ⟨fun f hf he => (h.enterAt_le f hf he).trans (le_max_left _ _),
      List.forall_mem_singleton.2 fun _ => le_max_right _ _⟩
  enter_eq := by
    rw [exists_mem_snoc]
    by_cases hlt : span.enter < s.enterAt face.plane
    · exact .inr (.inr ⟨henter, max_eq_right hlt.le, if_pos hlt⟩)
    · simp only [max_eq_left (not_lt.1 hlt), if_neg hlt]
      exact h.enter_eq.imp_right .inl
  neg_one_le := h.neg_one_le.trans (le_max_left _ _)
  le_leaveAt := List.forall_mem_append.2 ⟨h.le_leaveAt,
    List.forall_mem_singleton.2 fun hl => absurd henter.1 (not_lt.2 hl.1)⟩
  exit_eq := by
    rw [exists_mem_snoc]
    exact h.exit_eq.imp_right .inl
  exit_le := h.exit_le

/-- An exit moves the end of the stretch, and only backward. -/
theorem Describes.left (h : span.Describes s faces) (hleave : s.Leaves face.plane) :
    Describes s (faces ++ [face])
      { span with endsOut := true, exit := min span.exit (s.leaveAt face.plane) } where
  not_misses := List.forall_mem_append.2 ⟨h.not_misses,
    List.forall_mem_singleton.2 hleave.not_misses⟩
  startsOut_iff := by rw [exists_mem_snoc, ← h.startsOut_iff, or_iff_left (not_lt.2 hleave.1)]
  endsOut_iff := by simp only [exists_mem_snoc, hleave.2, or_true]
  enterAt_le := List.forall_mem_append.2 ⟨h.enterAt_le,
    List.forall_mem_singleton.2 fun he => absurd he.1 (not_lt.2 hleave.1)⟩
  enter_eq := by
    rw [exists_mem_snoc]
    exact h.enter_eq.imp_right .inl
  neg_one_le := h.neg_one_le
  le_leaveAt := List.forall_mem_append.2
    ⟨fun f hf hl => (min_le_left _ _).trans (h.le_leaveAt f hf hl),
      List.forall_mem_singleton.2 fun _ => min_le_right _ _⟩
  exit_eq := by
    rw [exists_mem_snoc]
    rcases min_choice span.exit (s.leaveAt face.plane) with hmin | hmin
    · rw [hmin]
      exact h.exit_eq.imp_right .inl
    · exact .inr (.inr ⟨hleave, hmin⟩)
  exit_le := (min_le_left _ _).trans h.exit_le

/-- **One more face** keeps the description. -/
theorem Describes.cross {span' : Span K} (h : span.Describes s faces)
    (hcross : span.cross s face = some span') : span'.Describes s (faces ++ [face]) := by
  rcases s.crossing_cases face.plane with hmiss | ⟨hstart, hend⟩ | henter | hleave
  · rw [cross_of_misses hmiss] at hcross
    cases hcross
  · rw [cross_of_behind hstart hend, Option.some.injEq] at hcross
    exact hcross ▸ h.behind hstart hend
  · rw [cross_of_enters henter, Option.some.injEq] at hcross
    exact hcross ▸ h.entered henter
  · rw [cross_of_leaves hleave, Option.some.injEq] at hcross
    exact hcross ▸ h.left hleave

end Span

/-- A stretch that is computed describes the faces. -/
theorem Sweep.span?_describes (h : s.span? faces = some span) : span.Describes s faces :=
  span?_induction (P := fun faces span => span.Describes s faces) (Span.describes_all s)
    (fun _ _ _ _ _ hearlier hcross => hearlier.cross hcross) h

/-! ### The hit on one solid -/

namespace Contact

/-- A solid reports the sphere inside at the start iff no face has the start in front. -/
theorem alone_startSolid_iff :
    (alone s faces).startSolid = true ↔
      faces ≠ [] ∧ ∀ face ∈ faces, s.startGap face.plane ≤ 0 := by
  rw [alone_startSolid_iff_forall]
  simp only [not_lt]

/-- A solid reports the sphere inside all the way iff no face has the start or the end in front. -/
theorem alone_allSolid_iff :
    (alone s faces).allSolid = true ↔
      faces ≠ [] ∧ ∀ face ∈ faces, s.startGap face.plane ≤ 0 ∧ s.endGap face.plane ≤ 0 := by
  rcases meet_cases s faces with ⟨-, hpass⟩ | ⟨span, hne, hspan, hmeet⟩
  · refine iff_of_false (by simp [alone, hpass, clear]) fun h => ?_
    -- a solid that is passed over would report the sphere inside at the start
    have hstart := alone_startSolid_iff.2 ⟨h.1, fun face hface => (h.2 face hface).1⟩
    rw [alone, hpass] at hstart
    cases hstart
  · have hdesc := Sweep.span?_describes hspan
    have hin : (∀ face ∈ faces, s.startGap face.plane ≤ 0 ∧ s.endGap face.plane ≤ 0) ↔
        ¬ span.startsOut = true ∧ ¬ span.endsOut = true := by
      simp only [hdesc.startsOut_iff, hdesc.endsOut_iff, not_exists, not_and, not_lt]
      exact ⟨fun h => ⟨fun f hf => (h f hf).1, fun f hf => (h f hf).2⟩,
        fun h f hf => ⟨h.1 f hf, h.2 f hf⟩⟩
    rw [alone, hmeet, hin, meetSpan]
    by_cases h : span.startsOut = true
    · rw [if_pos h]
      split_ifs <;> simp [clear, h]
    · rw [if_neg h]
      split_ifs with hend <;> simp [clear, h, hne, hend]

/-- The fraction at which a solid stops the sphere is that of the stretch inside it, if the sphere
    starts outside, and nothing, if it starts and ends inside. -/
theorem alone_fraction_cases (h : (alone s faces).fraction < 1) :
    ∃ span, s.span? faces = some span ∧
      ((span.startsOut = true ∧ span.enter < span.exit ∧ -1 < span.enter ∧
          (alone s faces).fraction = max span.enter 0) ∨
        (span.startsOut = false ∧ (alone s faces).fraction = 0)) := by
  rcases meet_cases s faces with ⟨-, hpass⟩ | ⟨span, -, hspan, hmeet⟩
  · rw [alone, hpass] at h
    exact absurd h (lt_irrefl _)
  · refine ⟨span, hspan, ?_⟩
    rw [alone, hmeet, meetSpan] at h ⊢
    split_ifs at h ⊢ with hout hin hend
    · exact .inl ⟨hout, hin.1, hin.2.1, Scalar.maxNum_eq_max _ _⟩
    · exact absurd h (lt_irrefl _)
    · exact absurd h (lt_irrefl _)
    · exact .inr ⟨by simpa using hout, rfl⟩

/-- The hit on a solid, where the sphere starts outside and enters before it leaves. -/
theorem alone_eq_of_enters (hspan : s.span? faces = some span) (hout : span.startsOut = true)
    (hexit : span.enter < span.exit) (hneg : -1 < span.enter) :
    alone s faces = ⟨max span.enter 0, span.plane, false, false⟩ := by
  have hlt : span.enter < (Contact.clear : Contact K).fraction :=
    hexit.trans_le (Sweep.span?_describes hspan).exit_le
  rcases meet_cases s faces with ⟨hnil | hnone, -⟩ | ⟨span', -, hspan', hmeet⟩
  · rw [hnil] at hspan
    obtain rfl : Span.all = span := Option.some.inj hspan
    cases hout
  · cases hspan.symm.trans hnone
  · obtain rfl : span = span' := Option.some.inj (hspan.symm.trans hspan')
    rw [alone, hmeet, meetSpan, if_pos hout, if_pos ⟨hexit, hneg, hlt⟩, Scalar.maxNum_eq_max]
    rfl

/-- The fraction at which a solid stops a sphere that starts outside and enters before it leaves. -/
theorem alone_fraction_of_enters {span : Span K} (hspan : s.span? faces = some span)
    (hout : span.startsOut = true) (hexit : span.enter < span.exit) (hneg : -1 < span.enter) :
    (alone s faces).fraction = max span.enter 0 := by
  rw [alone_eq_of_enters hspan hout hexit hneg]

/-- A solid that names a face has a stretch that begins with an entry. -/
theorem exists_span_of_alone {id : PlaneId} (h : (alone s faces).plane = some id) :
    ∃ span, s.span? faces = some span ∧ span.startsOut = true ∧ span.enter < span.exit ∧
      -1 < span.enter := by
  rcases meet_cases s faces with ⟨-, hpass⟩ | ⟨span, -, hspan, hmeet⟩
  · rw [alone, hpass] at h
    cases h
  · rw [alone, hmeet, meetSpan] at h
    split_ifs at h with hout hin
    case pos => exact ⟨span, hspan, hout, hin.1, hin.2.1⟩
    all_goals cases h

variable [IsStrictOrderedRing K]

/-- **Where a solid stops the sphere** it is at most `traceOffset` in front of every face. -/
theorem gap_le_of_alone (h : (alone s faces).fraction < 1) :
    0 ≤ (alone s faces).fraction ∧
      ∀ face ∈ faces, s.gap face.plane (alone s faces).fraction ≤ traceOffset := by
  obtain ⟨span, hspan, hcases⟩ := alone_fraction_cases h
  have hdesc := Sweep.span?_describes hspan
  have hpos := (Sweep.traceOffset_pos (K := K)).le
  rcases hcases with ⟨-, hlt, -, hfraction⟩ | ⟨hin, hfraction⟩
  · have hnonneg : 0 ≤ (alone s faces).fraction := hfraction ▸ le_max_right _ _
    refine ⟨hnonneg, fun face hface => ?_⟩
    rcases s.crossing_cases face.plane with hmiss | ⟨hstart, hend⟩ | henter | hleave
    · exact absurd hmiss (hdesc.not_misses face hface)
    · exact (Sweep.gap_nonpos hstart hend hnonneg h.le).trans hpos
    · -- the stop is not before the entry
      refine henter.enterAt_le_iff.1 ((hdesc.enterAt_le face hface henter).trans ?_)
      exact hfraction ▸ le_max_left _ _
    · -- the stop is before the exit, or at the start, which is behind the face
      rcases le_total span.enter 0 with hle | hle
      · rw [hfraction, max_eq_right hle, Sweep.gap_zero]
        exact hleave.1.trans hpos
      · have hexit := hlt.le.trans (hdesc.le_leaveAt face hface hleave)
        rw [← max_eq_left hle, ← hfraction] at hexit
        exact (hleave.le_leaveAt_iff.1 hexit).trans (by linarith)
  · -- the sphere starts inside, behind every face
    refine ⟨hfraction.ge, fun face hface => ?_⟩
    have hstart : ¬ 0 < s.startGap face.plane := fun hout => by
      rw [hdesc.startsOut_iff.2 ⟨face, hface, hout⟩] at hin
      cases hin
    rw [hfraction, Sweep.gap_zero]
    exact (not_lt.1 hstart).trans hpos

end Contact

end Stride
