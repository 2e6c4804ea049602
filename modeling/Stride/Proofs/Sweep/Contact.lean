import Stride.Sweep.Solid
import Stride.Proofs.Scalar.Order
import Mathlib.Data.List.Induction
import Mathlib.Tactic.SplitIfs

namespace Stride

/-!
# Meeting solids one after another

A search keeps the best hit and lets one solid after another improve it.  What a solid adds does
not depend on what was met before: the fraction after it is the smaller of the fraction before and
of the one that the solid gives alone, and the two flags are joined.  So the order in which solids
are met does not matter for where a sweep stops.

* `Contact.alone` — the hit on one solid by itself.
* `Contact.Proper` — the fractions that a search holds.
* `meet_merges` — what a solid adds.
* `foldl_meet_fraction_le`, `foldl_meet_fraction_eq`, `foldl_meet_solid` — what a list of solids
  adds.
* `Contact.Covers` — comparing hits.
* `foldl_meet_plane` — the face that is reported belongs to a solid that was met.
-/

variable {α : Type} [Scalar α] {s : Sweep α} {c : Contact α} {faces : List (Face α)}
  {met : List (List (Face α))}

/-! ### The face that is reported -/

/-- The stretch inside a solid is built up face by face, and what every face keeps holds of it. -/
theorem Sweep.span?_induction {P : List (Face α) → Span α → Prop} (hnil : P [] Span.all)
    (hcross : ∀ faces face before span, s.span? faces = some before → P faces before →
      before.cross s face = some span → P (faces ++ [face]) span)
    {faces : List (Face α)} {span : Span α} (h : s.span? faces = some span) : P faces span := by
  -- from the last face: the stretch before it is that of the other faces
  rw [span?] at h
  induction faces using List.reverseRecOn generalizing span with
  | nil =>
    obtain rfl : Span.all = span := by simpa using h
    exact hnil
  | append_singleton faces face ih =>
    rw [List.foldlM_append] at h
    obtain ⟨before, hbefore, h⟩ := Option.bind_eq_some_iff.1 h
    exact hcross faces face before span hbefore (ih hbefore) (by simpa using h)

theorem Span.cross_plane {span span' : Span α} {face : Face α}
    (h : span.cross s face = some span') :
    (span'.enter = span.enter ∧ span'.plane = span.plane) ∨ span'.plane = some face.id := by
  simp only [Span.cross] at h
  split_ifs at h <;> cases h <;> simp

/-- The face of an entry is one of the faces, and without a face there is no entry. -/
theorem Sweep.span?_plane {span : Span α} (h : s.span? faces = some span) :
    (span.enter = -1 ∧ span.plane = none) ∨ ∃ face ∈ faces, span.plane = some face.id := by
  refine span?_induction (P := fun faces span => (span.enter = -1 ∧ span.plane = none) ∨
    ∃ face ∈ faces, span.plane = some face.id) (.inl ⟨rfl, rfl⟩) ?_ h
  intro faces face before span _ hearlier hcross
  rcases Span.cross_plane hcross with ⟨henter, hplane⟩ | hplane
  · rcases hearlier with ⟨hneg, hnone⟩ | ⟨face', hface', hsome⟩
    · exact .inl ⟨henter.trans hneg, hplane.trans hnone⟩
    · exact .inr ⟨face', List.mem_append_left _ hface', hplane.trans hsome⟩
  · exact .inr ⟨face, by simp, hplane⟩

namespace Contact

/-- A solid is passed over, or the stretch inside it decides. -/
theorem meet_cases (s : Sweep α) (faces : List (Face α)) :
    ((faces = [] ∨ s.span? faces = none) ∧ ∀ c : Contact α, c.meet s faces = c) ∨
      ∃ span, faces ≠ [] ∧ s.span? faces = some span ∧
        ∀ c : Contact α, c.meet s faces = c.meetSpan span := by
  cases faces with
  | nil => exact .inl ⟨.inl rfl, fun c => rfl⟩
  | cons face faces =>
    cases hspan : s.span? (face :: faces) with
    | none => exact .inl ⟨.inr rfl, fun c => by simp [meet, hspan]⟩
    | some span => exact .inr ⟨span, by simp, rfl, fun c => by simp [meet, hspan]⟩

/-- Solids none of which changes a hit do not change it together. -/
theorem foldl_meet_eq_self {met : List (List (Face α))} (h : ∀ faces ∈ met, c.meet s faces = c) :
    met.foldl (Contact.meet s) c = c := by
  induction met with
  | nil => rfl
  | cons faces met ih =>
    rw [List.foldl_cons, h faces List.mem_cons_self]
    exact ih fun faces' hfaces' => h faces' (List.mem_cons_of_mem _ hfaces')

theorem meet_plane (c : Contact α) (s : Sweep α) (faces : List (Face α)) :
    (c.meet s faces).plane = c.plane ∨ (c.meet s faces).plane = none ∨
      ∃ face ∈ faces, (c.meet s faces).plane = some face.id := by
  rcases meet_cases s faces with ⟨-, hpass⟩ | ⟨span, -, hspan, hmeet⟩
  · rw [hpass]
    exact .inl rfl
  · rw [hmeet, meetSpan]
    split_ifs
    · exact .inr ((Sweep.span?_plane hspan).imp_left And.right)
    all_goals exact .inl rfl

/-- **The reported face** is the one reported before, or belongs to a solid that was met. -/
theorem foldl_meet_plane (met : List (List (Face α))) (c : Contact α) :
    (met.foldl (Contact.meet s) c).plane = c.plane ∨ (met.foldl (Contact.meet s) c).plane = none ∨
      ∃ faces ∈ met, ∃ face ∈ faces, (met.foldl (Contact.meet s) c).plane = some face.id := by
  induction met generalizing c with
  | nil => exact .inl rfl
  | cons faces met ih =>
    rw [List.foldl_cons]
    rcases ih (c.meet s faces) with hsame | hnone | ⟨faces', hfaces', hface'⟩
    · rw [hsame]
      rcases c.meet_plane s faces with h | h | h
      · exact .inl h
      · exact .inr (.inl h)
      · exact .inr (.inr ⟨faces, List.mem_cons_self, h⟩)
    · exact .inr (.inl hnone)
    · exact .inr (.inr ⟨faces', List.mem_cons_of_mem _ hfaces', hface'⟩)

/-! ### What a solid adds -/

/-- The hit on one solid by itself. -/
def alone (s : Sweep α) (faces : List (Face α)) : Contact α := Contact.clear.meet s faces

/-- The fraction lies between nothing and the whole sweep. -/
def Proper (c : Contact α) : Prop := (c.fraction = 0 ∨ 0 < c.fraction) ∧ c.fraction ≤ 1

/-- The fraction after a solid that the sphere does not start in. -/
theorem meetSpan_fraction_of_startsOut {span : Span α} (h : span.startsOut = true) :
    (c.meetSpan span).fraction =
      if span.enter < span.exit ∧ -1 < span.enter ∧ span.enter < c.fraction then
        Scalar.maxNum span.enter 0
      else c.fraction := by
  rw [meetSpan, if_pos h]
  split_ifs <;> rfl

theorem meetSpan_startSolid (c : Contact α) (span : Span α) :
    (c.meetSpan span).startSolid = (c.startSolid || !span.startsOut) := by
  rw [meetSpan]
  split_ifs with hout <;> simp [hout]

theorem meetSpan_allSolid (c : Contact α) (span : Span α) :
    (c.meetSpan span).allSolid = (c.allSolid || (!span.startsOut && !span.endsOut)) := by
  rw [meetSpan]
  split_ifs with hout _ hends <;> simp [*]

variable [Scalar.Lawful α]

theorem Proper.number (h : c.Proper) : Scalar.IsNumber c.fraction := Scalar.Lawful.number_left h.2

theorem Proper.nonneg (h : c.Proper) : 0 ≤ c.fraction := by
  rcases h.1 with hzero | hpos
  · exact hzero ▸ h.number
  · exact Scalar.Lawful.le_of_lt hpos

theorem clear_proper : (Contact.clear : Contact α).Proper :=
  ⟨.inr Scalar.Lawful.zero_lt_one,
    Scalar.Lawful.number_right (Scalar.Lawful.le_of_lt Scalar.Lawful.zero_lt_one)⟩

/-- An entry lowers the fraction to the smaller of what it was and of what it is from the whole
    sweep. -/
theorem meetSpan_fraction_merges_of_startsOut (hc : c.Proper) {span : Span α}
    (hout : span.startsOut = true) :
    (c.meetSpan span).fraction =
      Scalar.minNum (Contact.clear.meetSpan span).fraction c.fraction := by
  have hone : ¬ (Contact.clear : Contact α).fraction < c.fraction :=
    Scalar.Lawful.not_lt_of_le hc.2
  have hclear := Scalar.minNum_of_not_lt hc.number hone
  rw [meetSpan_fraction_of_startsOut hout, meetSpan_fraction_of_startsOut hout]
  by_cases hin : span.enter < span.exit ∧ -1 < span.enter
  · obtain ⟨hexit, hneg⟩ := hin
    have henter : Scalar.IsNumber span.enter :=
      Scalar.Lawful.number_right (Scalar.Lawful.le_of_lt hneg)
    by_cases hlt : span.enter < c.fraction
    · -- an entry before the best hit is one before the end of the sweep
      have hlt1 : span.enter < (Contact.clear : Contact α).fraction :=
        Scalar.lt_of_lt_of_le hlt hc.2
      rw [if_pos ⟨hexit, hneg, hlt⟩, if_pos ⟨hexit, hneg, hlt1⟩,
        Scalar.minNum_maxNum_zero hc.1 hc.number hlt]
    · rw [if_neg fun h => hlt h.2.2]
      split_ifs with h
      · have hnot := Scalar.not_maxNum_zero_lt henter hlt
        exact (Scalar.minNum_of_not_lt hc.number hnot).symm
      · exact hclear.symm
  · rw [if_neg fun h => hin ⟨h.1, h.2.1⟩, if_neg fun h => hin ⟨h.1, h.2.1⟩, hclear]

theorem meetSpan_fraction_merges (hc : c.Proper) (span : Span α) :
    (c.meetSpan span).fraction =
      Scalar.minNum (Contact.clear.meetSpan span).fraction c.fraction := by
  by_cases hout : span.startsOut = true
  · exact meetSpan_fraction_merges_of_startsOut hc hout
  · by_cases hends : span.endsOut = true
    · -- a sphere that starts inside and comes out is not stopped
      have hone : ¬ (1 : α) < c.fraction := Scalar.Lawful.not_lt_of_le hc.2
      simp only [meetSpan, if_neg hout, if_pos hends]
      exact (Scalar.minNum_of_not_lt hc.number hone).symm
    · -- one that stays inside does not move
      simp only [meetSpan, if_neg hout, if_neg hends]
      rcases hc.1 with h | h
      · rw [h]
        exact (Scalar.minNum_of_not_lt (h ▸ hc.number) (Scalar.lt_irrefl 0)).symm
      · exact (Scalar.minNum_of_lt h).symm

/-- **What a solid adds** does not depend on what was met before: the fraction after it is the
    smaller of the one before and the solid's own, and the two flags are joined. -/
theorem meet_merges (hc : c.Proper) (faces : List (Face α)) :
    (c.meet s faces).fraction = Scalar.minNum (alone s faces).fraction c.fraction ∧
      (c.meet s faces).startSolid = (c.startSolid || (alone s faces).startSolid) ∧
      (c.meet s faces).allSolid = (c.allSolid || (alone s faces).allSolid) := by
  rcases meet_cases s faces with ⟨-, hpass⟩ | ⟨span, -, -, hmeet⟩
  · have hone : ¬ (1 : α) < c.fraction := Scalar.Lawful.not_lt_of_le hc.2
    rw [alone, hpass, hpass]
    exact ⟨(Scalar.minNum_of_not_lt hc.number hone).symm, by simp [clear], by simp [clear]⟩
  · rw [alone, hmeet, hmeet]
    refine ⟨meetSpan_fraction_merges hc span, ?_, ?_⟩
    · rw [meetSpan_startSolid, meetSpan_startSolid]
      rfl
    · rw [meetSpan_allSolid, meetSpan_allSolid]
      rfl

theorem alone_proper (s : Sweep α) (faces : List (Face α)) : (alone s faces).Proper := by
  rcases meet_cases s faces with ⟨-, hpass⟩ | ⟨span, -, -, hmeet⟩
  · rw [alone, hpass]
    exact clear_proper
  · have hzero : (0 : α) ≤ 1 := Scalar.Lawful.le_of_lt Scalar.Lawful.zero_lt_one
    rw [alone, hmeet, meetSpan]
    split_ifs with _ h
    · show (_ = 0 ∨ 0 < _) ∧ Scalar.maxNum span.enter 0 ≤ 1
      rcases Scalar.maxNum_zero_cases span.enter with ⟨hpos, hmax⟩ | ⟨-, hmax⟩
      · rw [hmax]
        exact ⟨.inr hpos, Scalar.Lawful.le_of_lt h.2.2⟩
      · rw [hmax]
        exact ⟨.inl rfl, hzero⟩
    · exact clear_proper
    · exact clear_proper
    · exact ⟨.inl rfl, hzero⟩

/-! ### What a list of solids adds -/

theorem meet_proper (hc : c.Proper) (faces : List (Face α)) : (c.meet s faces).Proper := by
  rw [Proper, (meet_merges hc faces).1]
  by_cases h : (alone s faces).fraction < c.fraction
  · rw [Scalar.minNum_of_lt h]
    exact alone_proper s faces
  · rw [Scalar.minNum_of_not_lt hc.number h]
    exact hc

theorem foldl_meet_proper (hc : c.Proper) : (met.foldl (Contact.meet s) c).Proper := by
  induction met generalizing c with
  | nil => exact hc
  | cons faces met ih => exact ih (meet_proper hc faces)

/-- Meeting solids never raises the fraction. -/
theorem foldl_meet_fraction_le_init (hc : c.Proper) :
    (met.foldl (Contact.meet s) c).fraction ≤ c.fraction := by
  induction met generalizing c with
  | nil => exact hc.number
  | cons faces met ih =>
    rw [List.foldl_cons]
    refine Scalar.Lawful.le_trans (ih (meet_proper hc faces)) ?_
    rw [(meet_merges hc faces).1]
    exact Scalar.minNum_le_right hc.number

/-- The fraction is at most that of each solid alone. -/
theorem foldl_meet_fraction_le (hc : c.Proper) (h : faces ∈ met) :
    (met.foldl (Contact.meet s) c).fraction ≤ (alone s faces).fraction := by
  induction met generalizing c with
  | nil => cases h
  | cons first met ih =>
    rw [List.foldl_cons]
    rcases List.mem_cons.1 h with rfl | h
    · refine Scalar.Lawful.le_trans (foldl_meet_fraction_le_init (meet_proper hc faces)) ?_
      rw [(meet_merges hc faces).1]
      exact Scalar.minNum_le_left (alone_proper s faces).number hc.number
    · exact ih (meet_proper hc first) h

/-- **The best hit** is the one before or that of a solid alone. -/
theorem foldl_meet_fraction_eq (hc : c.Proper) :
    (met.foldl (Contact.meet s) c).fraction = c.fraction ∨
      ∃ faces ∈ met, (met.foldl (Contact.meet s) c).fraction = (alone s faces).fraction := by
  induction met generalizing c with
  | nil => exact .inl rfl
  | cons first met ih =>
    rw [List.foldl_cons]
    rcases ih (meet_proper hc first) with hsame | ⟨faces, hfaces, heq⟩
    · rw [hsame, (meet_merges hc first).1]
      by_cases h : (alone s first).fraction < c.fraction
      · exact .inr ⟨first, List.mem_cons_self, Scalar.minNum_of_lt h⟩
      · exact .inl (Scalar.minNum_of_not_lt hc.number h)
    · exact .inr ⟨faces, List.mem_cons_of_mem _ hfaces, heq⟩

/-- The flags are those of any of the solids. -/
theorem foldl_meet_solid (hc : c.Proper) :
    (met.foldl (Contact.meet s) c).startSolid =
        (c.startSolid || met.any fun faces => (alone s faces).startSolid) ∧
      (met.foldl (Contact.meet s) c).allSolid =
        (c.allSolid || met.any fun faces => (alone s faces).allSolid) := by
  induction met generalizing c with
  | nil => simp
  | cons first met ih =>
    obtain ⟨-, hstart, hall⟩ := meet_merges (s := s) hc first
    obtain ⟨ihstart, ihall⟩ := ih (meet_proper (s := s) hc first)
    rw [List.foldl_cons, ihstart, ihall, hstart, hall, List.any_cons, List.any_cons, Bool.or_assoc,
      Bool.or_assoc]
    exact ⟨rfl, rfl⟩

/-- The sphere is reported to start inside iff one of the solids alone has it inside. -/
theorem foldl_meet_startSolid_iff : (met.foldl (Contact.meet s) clear).startSolid = true ↔
    ∃ faces ∈ met, (alone s faces).startSolid = true := by
  rw [(foldl_meet_solid clear_proper).1, clear, Bool.false_or, List.any_eq_true]

/-- The sphere is reported inside all the way iff one of the solids alone has it inside. -/
theorem foldl_meet_allSolid_iff : (met.foldl (Contact.meet s) clear).allSolid = true ↔
    ∃ faces ∈ met, (alone s faces).allSolid = true := by
  rw [(foldl_meet_solid clear_proper).2, clear, Bool.false_or, List.any_eq_true]

/-! ### Comparing hits -/

/-- A hit that is as early as another and reports the sphere inside wherever the other does. -/
structure Covers (c d : Contact α) : Prop where
  /-- It is as early. -/
  fraction_le : c.fraction ≤ d.fraction
  /-- It reports the sphere inside at the start. -/
  startSolid : d.startSolid = true → c.startSolid = true
  /-- It reports the sphere inside all the way. -/
  allSolid : d.allSolid = true → c.allSolid = true

theorem Covers.trans {d e : Contact α} (hcd : c.Covers d) (hde : d.Covers e) : c.Covers e where
  fraction_le := Scalar.Lawful.le_trans hcd.fraction_le hde.fraction_le
  startSolid h := hcd.startSolid (hde.startSolid h)
  allSolid h := hcd.allSolid (hde.allSolid h)

/-- Meeting solids keeps what was found before. -/
theorem foldl_meet_covers_init (hc : c.Proper) : (met.foldl (Contact.meet s) c).Covers c where
  fraction_le := foldl_meet_fraction_le_init hc
  startSolid h := by rw [(foldl_meet_solid hc).1, h, Bool.true_or]
  allSolid h := by rw [(foldl_meet_solid hc).2, h, Bool.true_or]

/-- Meeting solids finds what each of them gives. -/
theorem foldl_meet_covers (hc : c.Proper) (hmem : faces ∈ met) :
    (met.foldl (Contact.meet s) c).Covers (alone s faces) where
  fraction_le := foldl_meet_fraction_le hc hmem
  startSolid h := by
    rw [(foldl_meet_solid hc).1, List.any_eq_true.2 ⟨faces, hmem, h⟩, Bool.or_true]
  allSolid h := by
    rw [(foldl_meet_solid hc).2, List.any_eq_true.2 ⟨faces, hmem, h⟩, Bool.or_true]

/-- Meeting solids finds no more than what they give. -/
theorem Covers.foldl_meet {d : Contact α} (hc : c.Proper) (hd : d.Covers c)
    (hmet : ∀ faces ∈ met, d.Covers (alone s faces)) :
    d.Covers (met.foldl (Contact.meet s) c) where
  fraction_le := by
    rcases foldl_meet_fraction_eq hc with h | ⟨faces, hfaces, h⟩
    · rw [h]
      exact hd.fraction_le
    · rw [h]
      exact (hmet faces hfaces).fraction_le
  startSolid h := by
    rw [(foldl_meet_solid hc).1, Bool.or_eq_true, List.any_eq_true] at h
    rcases h with h | ⟨faces, hfaces, h⟩
    · exact hd.startSolid h
    · exact (hmet faces hfaces).startSolid h
  allSolid h := by
    rw [(foldl_meet_solid hc).2, Bool.or_eq_true, List.any_eq_true] at h
    rcases h with h | ⟨faces, hfaces, h⟩
    · exact hd.allSolid h
    · exact (hmet faces hfaces).allSolid h

end Contact

end Stride
