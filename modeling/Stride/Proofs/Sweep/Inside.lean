import Stride.Proofs.Sweep.Contact

namespace Stride

/-!
# Starting inside a solid

A solid is passed over, or reports the sphere inside, for the signs of its gaps alone.  This holds
of every scalar: a gap that is no number is not positive, and the face does not keep the sphere
outside.

* `span?_eq_none_iff` — a solid is passed over if one face has the whole sweep in front.
* `span?_startsOut` — the stretch inside a solid says whether some face has the start in front.
* `alone_startSolid_iff_forall` — the sphere starts inside a solid if no face has the start in
  front.
-/

variable {α : Type} [Scalar α] {s : Sweep α} {span span' : Span α} {face : Face α}
  {faces : List (Face α)}

/-- A fold that fails at certain members, whatever it holds, fails iff it meets one of them. -/
theorem foldlM_eq_none_iff {β γ : Type} {f : β → γ → Option β} {P : γ → Prop}
    (hf : ∀ b a, f b a = none ↔ P a) (l : List γ) (b : β) :
    l.foldlM f b = none ↔ ∃ a ∈ l, P a := by
  induction l generalizing b with
  | nil => simp
  | cons a l ih =>
    simp only [List.foldlM_cons, List.mem_cons, exists_eq_or_imp, ← hf b a]
    cases f b a with
    | none => simp
    | some b' => simpa using ih b'

theorem Span.cross_eq_none_iff :
    span.cross s face = none ↔ 0 < s.startGap face.plane ∧ 0 < s.endGap face.plane := by
  simp only [cross]
  split_ifs with h <;> simp [h]

theorem Span.cross_startsOut (h : span.cross s face = some span') :
    span'.startsOut = (span.startsOut || decide (0 < s.startGap face.plane)) := by
  simp only [cross] at h
  split_ifs at h <;> cases h <;> rfl

namespace Sweep

/-- A solid is passed over iff some face has the start and the end in front. -/
theorem span?_eq_none_iff :
    s.span? faces = none ↔ ∃ face ∈ faces, 0 < s.startGap face.plane ∧ 0 < s.endGap face.plane :=
  foldlM_eq_none_iff (fun _ _ => Span.cross_eq_none_iff) faces Span.all

/-- The stretch inside a solid says whether some face has the start in front. -/
theorem span?_startsOut (h : s.span? faces = some span) :
    span.startsOut = faces.any fun face => decide (0 < s.startGap face.plane) := by
  refine span?_induction (P := fun faces span =>
    span.startsOut = faces.any fun face => decide (0 < s.startGap face.plane)) rfl ?_ h
  intro faces face before span _ hearlier hcross
  rw [Span.cross_startsOut hcross, hearlier, List.any_append, List.any_cons, List.any_nil,
    Bool.or_false]

end Sweep

/-- **Starting inside.** A solid by itself reports the sphere inside at the start iff it has faces
    and none of them has the start in front, wherever the sweep ends. -/
theorem Contact.alone_startSolid_iff_forall :
    (alone s faces).startSolid = true ↔
      faces ≠ [] ∧ ∀ face ∈ faces, ¬ 0 < s.startGap face.plane := by
  rcases meet_cases s faces with ⟨hnone, hpass⟩ | ⟨span, hne, hspan, hmeet⟩
  · rw [alone, hpass]
    refine iff_of_false (by simp [clear]) ?_
    rintro ⟨hne, hbehind⟩
    obtain ⟨face, hface, hstart, -⟩ :=
      Sweep.span?_eq_none_iff.1 (hnone.resolve_left hne)
    exact hbehind face hface hstart
  · rw [alone, hmeet, meetSpan_startSolid, Sweep.span?_startsOut hspan]
    simp [clear, hne]

end Stride
