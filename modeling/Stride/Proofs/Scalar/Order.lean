import Stride.Scalar

namespace Stride

/-!
# The order of a scalar

Comparisons of scalars are those of a linear order, except that a value that is no number compares
with nothing.  What holds of every such order holds in single precision, NaNs included, and in
exact arithmetic alike.

* `Scalar.IsNumber` — a value that can be compared.
* `Scalar.Lawful` — scalars whose comparisons are lawful.
* `le_of_not_lt`, `lt_of_not_le` — numbers are linearly ordered.
* `minNum_le_left`, `minNum_le_right` — the smaller of two numbers.
* `maxNum_zero_cases` — a value that is raised to zero.
-/

namespace Scalar

variable {α : Type} [Scalar α]

/-- A value is a number when it is equal to itself, which a NaN is not. -/
def IsNumber (a : α) : Prop := a ≤ a

theorem minNum_of_lt {a b : α} (h : a < b) : minNum a b = a := if_pos h

theorem minNum_of_not_lt {a b : α} (hb : IsNumber b) (h : ¬ a < b) : minNum a b = b := by
  rw [minNum, if_neg h]
  exact if_pos hb

/-- Scalars whose comparisons are those of a linear order on the numbers, and never hold of a value
    that is no number. -/
class Lawful (α : Type) [Scalar α] : Prop where
  /-- The weak order contains the strict one. -/
  le_of_lt {a b : α} : a < b → a ≤ b
  /-- The two orders exclude each other. -/
  not_lt_of_le {a b : α} : a ≤ b → ¬ b < a
  /-- The weak order is transitive. -/
  le_trans {a b c : α} : a ≤ b → b ≤ c → a ≤ c
  /-- Numbers are comparable. -/
  lt_or_le {a b : α} : IsNumber a → IsNumber b → a < b ∨ b ≤ a
  /-- What is compared is a number. -/
  number_left {a b : α} : a ≤ b → IsNumber a
  /-- What is compared is a number. -/
  number_right {a b : α} : a ≤ b → IsNumber b
  /-- The least entry that is none lies before the start of a sweep. -/
  neg_one_lt_zero : (-1 : α) < 0
  /-- A sweep starts before it ends. -/
  zero_lt_one : (0 : α) < 1

variable [Lawful α] {a b c : α}

protected theorem not_le_of_lt (h : a < b) : ¬ b ≤ a := fun hle => Lawful.not_lt_of_le hle h

protected theorem lt_irrefl (a : α) : ¬ a < a := fun h => Lawful.not_lt_of_le (Lawful.le_of_lt h) h

protected theorem le_of_not_lt (ha : IsNumber a) (hb : IsNumber b) (h : ¬ a < b) : b ≤ a :=
  (Lawful.lt_or_le ha hb).resolve_left h

protected theorem lt_of_not_le (ha : IsNumber a) (hb : IsNumber b) (h : ¬ b ≤ a) : a < b :=
  (Lawful.lt_or_le ha hb).resolve_right h

protected theorem not_lt_iff (ha : IsNumber a) (hb : IsNumber b) : ¬ a < b ↔ b ≤ a :=
  ⟨Scalar.le_of_not_lt ha hb, Lawful.not_lt_of_le⟩

protected theorem lt_of_lt_of_le (hab : a < b) (hbc : b ≤ c) : a < c := by
  have hle := Lawful.le_of_lt hab
  refine Scalar.lt_of_not_le (Lawful.number_left hle) (Lawful.number_right hbc) fun hca => ?_
  exact Lawful.not_lt_of_le (Lawful.le_trans hbc hca) hab

protected theorem lt_of_le_of_lt (hab : a ≤ b) (hbc : b < c) : a < c := by
  have hle := Lawful.le_of_lt hbc
  refine Scalar.lt_of_not_le (Lawful.number_left hab) (Lawful.number_right hle) fun hca => ?_
  exact Lawful.not_lt_of_le (Lawful.le_trans hca hab) hbc

/-! ### Extrema -/

theorem minNum_le_right (hb : IsNumber b) : minNum a b ≤ b := by
  by_cases h : a < b
  · rw [minNum_of_lt h]
    exact Lawful.le_of_lt h
  · rw [minNum_of_not_lt hb h]
    exact hb

theorem minNum_le_left (ha : IsNumber a) (hb : IsNumber b) : minNum a b ≤ a := by
  by_cases h : a < b
  · rw [minNum_of_lt h]
    exact ha
  · rw [minNum_of_not_lt hb h]
    exact Scalar.le_of_not_lt ha hb h

/-- The greater of a value and zero is the value if that is positive, and otherwise zero, also where
    the value is no number. -/
theorem maxNum_zero_cases (a : α) :
    (0 < a ∧ maxNum a 0 = a) ∨ (¬ 0 < a ∧ maxNum a 0 = 0) := by
  by_cases h : 0 < a
  · exact .inl ⟨h, if_pos h⟩
  · have hzero : (0 : α) ≤ 0 := Lawful.number_left (Lawful.le_of_lt Lawful.zero_lt_one)
    exact .inr ⟨h, by rw [maxNum, if_neg h, if_pos hzero]⟩

/-- A value below a number that is not negative stays the smaller one when it is raised to zero. -/
theorem minNum_maxNum_zero {a f : α} (hf : f = 0 ∨ 0 < f) (hnum : IsNumber f) (h : a < f) :
    minNum (maxNum a 0) f = maxNum a 0 := by
  rcases maxNum_zero_cases a with ⟨-, hmax⟩ | ⟨-, hmax⟩
  · rw [hmax, minNum_of_lt h]
  · rw [hmax]
    rcases hf with rfl | hf
    · rw [minNum_of_not_lt hnum (Scalar.lt_irrefl 0)]
    · rw [minNum_of_lt hf]

/-- A number that is not below another is not below it when it is raised to zero. -/
theorem not_maxNum_zero_lt {a f : α} (ha : IsNumber a) (h : ¬ a < f) : ¬ maxNum a 0 < f := by
  rcases maxNum_zero_cases a with ⟨-, hmax⟩ | ⟨hpos, hmax⟩
  · rwa [hmax]
  · rw [hmax]
    intro hlt
    have hle := Scalar.le_of_not_lt (Lawful.number_left (Lawful.le_of_lt hlt)) ha hpos
    exact h (Scalar.lt_of_le_of_lt hle hlt)

end Scalar

end Stride
