import Mathlib.Tactic.SplitIfs
import Stride.Json.Reader

namespace Stride.Json

/-!
# Where a value ends

A number has no mark at its end: it goes on for as long as its characters do.  Within a text it is
followed by a comma, by a closing bracket or by nothing, and none of these could be a part of it, so
that it is read there as it is read on its own.

* `Ends` — what can follow a value.
* `Local` — a reader that is not disturbed by what follows.
* `scanLiteral_local`, `numeric_local` — numbers are read by such readers.
-/

/-- Whether a text can follow a value: it is empty or starts with a comma or a closing bracket. -/
def Ends (rest : List Char) : Prop := ∀ c ∈ rest.head?, c = ',' ∨ c = ']' ∨ c = '\x7d'

theorem Ends.nil : Ends [] := by simp [Ends]

theorem Ends.comma (cs : List Char) : Ends (',' :: cs) := by simp [Ends]

theorem Ends.array (cs : List Char) : Ends (']' :: cs) := by simp [Ends]

theorem Ends.object (cs : List Char) : Ends ('\x7d' :: cs) := by simp [Ends]

/-- A reader that reads the same with anything behind that can follow a value. -/
def Local {β : Type} (r : Reader β) : Prop :=
  ∀ ⦃cs v left rest⦄, r cs = .ok (v, left) → Ends rest → r (cs ++ rest) = .ok (v, left ++ rest)

section

variable {β γ : Type}

/-- What is read one after the other. -/
theorem Local.bind {r : Reader β} {k : β → Reader γ} (hr : Local r) (hk : ∀ v, Local (k v)) :
    Local (fun cs => r cs >>= fun (v, cs) => k v cs) := by
  intro cs v left rest h hrest
  cases hread : r cs with
  | error fault =>
    simp only [hread] at h
    cases h
  | ok read =>
    simp only [hread] at h
    simp only [hr hread hrest]
    exact hk read.1 h hrest

/-- What is worked out from what has been read. -/
theorem Local.value (e : Except Fault β) : Local (fun cs => e >>= fun v => .ok (v, cs)) := by
  intro cs v left rest h _
  cases e with
  | error fault => cases h
  | ok u =>
    cases h
    rfl

theorem Local.pure (v : β) : Local (fun cs => .ok (v, cs)) := .value (.ok v)

end

section

variable {rest : List Char}

/-- What follows a value is no part of a number. -/
theorem Ends.head (h : Ends rest) {c : Char} (hc : c ∈ rest.head?) :
    c.isDigit = false ∧ c ≠ '-' ∧ c ≠ '+' ∧ c ≠ '.' ∧ c ≠ 'e' ∧ c ≠ 'E' := by
  rcases h c hc with rfl | rfl | rfl <;> decide

theorem Ends.takeWhile_isDigit (h : Ends rest) (cs : List Char) :
    (cs ++ rest).takeWhile Char.isDigit = cs.takeWhile Char.isDigit := by
  induction cs with
  | nil =>
    cases rest with
    | nil => rfl
    | cons c rest => simp [(h.head rfl).1]
  | cons c cs ih => simp only [List.cons_append, List.takeWhile_cons, ih]

theorem Ends.dropWhile_isDigit (h : Ends rest) (cs : List Char) :
    (cs ++ rest).dropWhile Char.isDigit = cs.dropWhile Char.isDigit ++ rest := by
  induction cs with
  | nil =>
    cases rest with
    | nil => rfl
    | cons c rest => simp [(h.head rfl).1]
  | cons c cs ih =>
    simp only [List.cons_append, List.dropWhile_cons, ih]
    split_ifs <;> rfl

end

/-- A text that does not only hold blanks starts after its blanks, whatever follows it. -/
theorem skipBlank_append_of_cons {cs left : List Char} {c : Char} (h : skipBlank cs = c :: left)
    (rest : List Char) : skipBlank (cs ++ rest) = c :: left ++ rest := by
  induction cs with
  | nil => cases h
  | cons d cs ih =>
    unfold skipBlank at h ih ⊢
    rw [List.cons_append, List.dropWhile_cons]
    rw [List.dropWhile_cons] at h
    split_ifs at h ⊢
    · exact ih h
    · rw [← List.cons_append, h]

/-! ### Parts of a number -/

theorem someDigits_local (atEnd : Fault) : Local (someDigits atEnd) := by
  intro cs v left rest h hrest
  unfold someDigits at h ⊢
  rw [hrest.takeWhile_isDigit, hrest.dropWhile_isDigit]
  cases hdigits : cs.takeWhile Char.isDigit with
  | nil =>
    rw [hdigits] at h
    cases hleft : cs.dropWhile Char.isDigit <;> rw [hleft] at h <;> cases h
  | cons d ds =>
    rw [hdigits] at h
    cases h
    rfl

theorem wholeDigits_local (atEnd : Fault) : Local (wholeDigits atEnd) := by
  intro cs v left rest h hrest
  by_cases hzero : ∃ tail, cs = '0' :: tail
  · obtain ⟨tail, rfl⟩ := hzero
    have hnext : (tail ++ rest).head?.any Char.isDigit = tail.head?.any Char.isDigit := by
      cases tail with
      | nil =>
        cases rest with
        | nil => rfl
        | cons c rest => simp [(hrest.head rfl).1]
      | cons d tail => rfl
    simp only [wholeDigits, List.cons_append, hnext] at h ⊢
    split_ifs at h ⊢
    cases h
    rfl
  · -- without a leading zero any digits will do
    have hsame (ds : List Char) (hds : ¬ ∃ tail, ds = '0' :: tail) :
        wholeDigits atEnd ds = someDigits atEnd ds := by
      unfold wholeDigits
      split
      · exact absurd ⟨_, rfl⟩ hds
      · rfl
    rw [hsame cs hzero] at h
    have happend : ¬ ∃ tail, cs ++ rest = '0' :: tail := by
      rintro ⟨tail, htail⟩
      cases cs with
      | nil => cases h
      | cons c cs =>
        rw [List.cons_append, List.cons.injEq] at htail
        exact hzero ⟨cs, by rw [htail.1]⟩
    rw [hsame _ happend]
    exact someDigits_local atEnd h hrest

theorem fractionDigits_local (atEnd : Fault) : Local (fractionDigits atEnd) := by
  intro cs v left rest h hrest
  have hnone (ds : List Char) (hds : ¬ ∃ tail, ds = '.' :: tail) :
      fractionDigits atEnd ds = .ok ([], ds) := by
    unfold fractionDigits
    split
    · exact absurd ⟨_, rfl⟩ hds
    · rfl
  cases cs with
  | nil =>
    cases h
    refine hnone rest ?_
    rintro ⟨tail, rfl⟩
    exact (hrest.head rfl).2.2.2.1 rfl
  | cons c cs =>
    by_cases hpoint : c = '.'
    · subst hpoint
      exact someDigits_local atEnd h hrest
    · rw [hnone _ fun ⟨_, hcs⟩ => hpoint (List.cons.inj hcs).1] at h
      cases h
      exact hnone _ fun ⟨_, hcs⟩ => hpoint (List.cons.inj hcs).1

theorem exponentSign_append {cs rest : List Char} (hrest : Ends rest) :
    exponentSign (cs ++ rest) = ((exponentSign cs).1, (exponentSign cs).2 ++ rest) := by
  cases cs with
  | nil =>
    cases rest with
    | nil => rfl
    | cons c rest =>
      obtain ⟨-, hminus, hplus, -⟩ := hrest.head rfl
      simp [exponentSign, hminus, hplus]
  | cons c cs =>
    by_cases hplus : c = '+'
    · subst hplus
      rfl
    · by_cases hminus : c = '-'
      · subst hminus
        rfl
      · simp [exponentSign, hminus, hplus]

theorem exponentDigits_local (atEnd : Fault) : Local (exponentDigits atEnd) := by
  intro cs v left rest h hrest
  cases cs with
  | nil =>
    cases h
    cases rest with
    | nil => rfl
    | cons c rest =>
      obtain ⟨-, -, -, -, hsmall, hcapital⟩ := hrest.head rfl
      simp [exponentDigits, hsmall, hcapital]
  | cons c cs =>
    simp only [exponentDigits, List.cons_append] at h ⊢
    split_ifs at h ⊢
    · rw [exponentSign_append hrest]
      exact (someDigits_local atEnd).bind (fun ds => .pure (some ((exponentSign cs).1, ds))) h hrest
    · cases h
      rfl

theorem literalSign_append {cs rest : List Char} (hrest : Ends rest) :
    literalSign (cs ++ rest) = ((literalSign cs).1, (literalSign cs).2 ++ rest) := by
  cases cs with
  | nil =>
    cases rest with
    | nil => rfl
    | cons c rest => simp [literalSign, (hrest.head rfl).2.1]
  | cons c cs =>
    by_cases hminus : c = '-'
    · subst hminus
      rfl
    · simp [literalSign, hminus]

/-! ### Numbers -/

theorem scanLiteral_local (atEnd : Fault) : Local (scanLiteral atEnd) := by
  intro cs v left rest h hrest
  have hafterSign (negative : Bool) :=
    (wholeDigits_local atEnd).bind fun whole => (fractionDigits_local atEnd).bind fun fraction =>
      (exponentDigits_local atEnd).bind fun exponent =>
        .pure (Literal.mk negative whole fraction exponent)
  rw [scanLiteral, literalSign_append hrest]
  exact hafterSign (literalSign cs).1 h hrest

theorem scanNumber_local : Local scanNumber :=
  (scanLiteral_local .truncated).bind fun literal => .value literal.number

/-- **Numbers** are read as they are read on their own. -/
theorem numeric_local {β : Type} (expected : String) (value : Number → Except Fault β) :
    Local (numeric expected value) := by
  intro cs v left rest h hrest
  unfold numeric at h ⊢
  cases hstart : skipBlank cs with
  | nil =>
    rw [hstart] at h
    cases h
  | cons c tail =>
    rw [skipBlank_append_of_cons hstart]
    rw [hstart] at h
    simp only [List.cons_append] at h ⊢
    split_ifs at h ⊢
    exact scanNumber_local.bind (fun n => .value (value n)) h hrest

end Stride.Json
