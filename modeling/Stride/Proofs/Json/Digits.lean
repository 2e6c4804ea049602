import Mathlib.Data.List.TakeWhile
import Stride.Json.Writer
import Stride.Proofs.Json.Ends

namespace Stride.Json

/-!
# Integers in texts

An integer is written with its decimal digits and no others, so that reading it takes all of its
text and gives it back, as long as it has a place among the 64-bit integers.  A single is written
as a number as well, and only if it is finite.

* `scanNumber_writeInt`, `integer_writeInt` — integers read back.
* `ReadsBack` — a single that does.
* `writeSingle_of_isFinite`, `writeSingle_of_not_isFinite` — the texts of singles.
-/

/-! ### Digits -/

/-- Digits that make up a number below `2 ^ 64` are taken in to the last. -/
theorem absorb_eq {ds : List Char} {value : Nat} (h : Nat.ofDigitChars 10 ds value < UInt64.size) :
    absorb value ds = (Nat.ofDigitChars 10 ds value, []) := by
  induction ds generalizing value with
  | nil => rfl
  | cons c cs ih =>
    rw [Nat.ofDigitChars_cons] at h ⊢
    -- further digits only make the number greater, so that it has been in range all along
    have hgrows : 10 * value + digitValue c ≤
        Nat.ofDigitChars 10 cs (10 * value + digitValue c) := by
      rw [Nat.ofDigitChars_eq_ofDigitChars_zero]
      exact (Nat.le_mul_of_pos_left _ (Nat.pow_pos (by decide))).trans (Nat.le_add_right _ _)
    rw [absorb, if_pos (hgrows.trans_lt h)]
    exact ih h

theorem toDigits_all_isDigit (n : Nat) : ∀ c ∈ Nat.toDigits 10 n, c.isDigit = true :=
  fun _ hc => Nat.isDigit_of_mem_toDigits (by decide) (by decide) hc

/-- A number has at least one digit. -/
theorem toDigits_eq_cons (n : Nat) : ∃ c cs, Nat.toDigits 10 n = c :: cs ∧ c.isDigit = true := by
  obtain ⟨c, cs, hcs⟩ := List.exists_cons_of_ne_nil (Nat.toDigits_ne_nil (n := n) (b := 10))
  exact ⟨c, cs, hcs, toDigits_all_isDigit n c (hcs ▸ List.mem_cons_self)⟩

/-- No number but zero starts with the digit zero. -/
theorem toDigits_eq_zero_cons {n : Nat} {ds : List Char} (h : Nat.toDigits 10 n = '0' :: ds) :
    ds = [] := by
  induction n using Nat.strongRecOn generalizing ds with
  | _ n ih =>
    rcases Nat.lt_or_ge n 10 with hlt | hge
    · rw [Nat.toDigits_of_lt_base hlt] at h
      exact (List.cons.inj h).2.symm
    · rw [Nat.toDigits_of_base_le (by decide) hge] at h
      obtain ⟨c, cs, hcs, -⟩ := toDigits_eq_cons (n / 10)
      rw [hcs, List.cons_append, List.cons.injEq] at h
      obtain ⟨rfl, -⟩ := h
      obtain rfl := ih (n / 10) (by omega) hcs
      -- then the digits before the last are those of zero
      have hzero : n / 10 = 0 := by
        rw [← Nat.ofDigitChars_ten_toDigits (n := n / 10), hcs]
        rfl
      omega

theorem someDigits_of_isDigit (atEnd : Fault) {ds : List Char} (hne : ds ≠ [])
    (h : ∀ c ∈ ds, c.isDigit = true) : someDigits atEnd ds = .ok (ds, []) := by
  rw [someDigits, List.takeWhile_eq_self_iff.2 h, List.dropWhile_eq_nil_iff.2 h]
  cases ds with
  | nil => exact absurd rfl hne
  | cons c cs => rfl

theorem wholeDigits_toDigits (atEnd : Fault) (n : Nat) :
    wholeDigits atEnd (Nat.toDigits 10 n) = .ok (Nat.toDigits 10 n, []) := by
  unfold wholeDigits
  split
  · next cs hcs =>
    obtain rfl := toDigits_eq_zero_cons hcs
    rw [hcs]
    rfl
  · exact someDigits_of_isDigit atEnd Nat.toDigits_ne_nil (toDigits_all_isDigit n)

/-! ### Integers -/

theorem literalSign_of_isDigit {c : Char} (h : c.isDigit = true) (cs : List Char) :
    literalSign (c :: cs) = (false, c :: cs) := by
  have hminus : c ≠ '-' := by
    rintro rfl
    exact absurd h (by decide)
  simp [literalSign, hminus]

theorem literalSign_writeInt (n : Int) :
    literalSign (writeInt n) = (decide (n < 0), Nat.toDigits 10 n.natAbs) := by
  unfold writeInt Decimal.writeInt
  split_ifs with hneg
  · simp [literalSign, hneg]
  · obtain ⟨c, cs, hcs, hdigit⟩ := toDigits_eq_cons n.natAbs
    rw [hcs, literalSign_of_isDigit hdigit, decide_eq_false hneg]

/-- The sign and the digits of an integer are scanned. -/
theorem scanLiteral_writeInt (n : Int) : scanLiteral .truncated (writeInt n) =
    .ok (⟨decide (n < 0), Nat.toDigits 10 n.natAbs, [], none⟩, []) := by
  rw [scanLiteral, literalSign_writeInt]
  simp only [wholeDigits_toDigits]
  rfl

/-- An integer is made of its sign and its size, if it is negative with a place among the signed
    ones of 64 bits, or not negative. -/
theorem ofWhole_natAbs {n : Int} (hlo : Int64.minValue.toInt ≤ n) :
    Number.ofWhole (decide (n < 0)) n.natAbs = .integer n := by
  have hmin : Int64.minValue.toInt = -(Int64.maxValue.toInt + 1) := rfl
  unfold Number.ofWhole
  by_cases hneg : n < 0
  · have hplace : ¬ (n.natAbs = 0 ∨ Int64.maxValue.toInt + 1 < n.natAbs) := by omega
    rw [decide_eq_true hneg, if_pos rfl, if_neg hplace]
    congr 1
    omega
  · rw [decide_eq_false hneg, if_neg Bool.false_ne_true]
    congr 1
    omega

/-- An integer with a place among the signed or the unsigned ones of 64 bits reads back. -/
theorem scanNumber_writeInt {n : Int} (hlo : Int64.minValue.toInt ≤ n) (hhi : n < UInt64.size) :
    scanNumber (writeInt n) = .ok (.integer n, []) := by
  have hmin : Int64.minValue.toInt = -(Int64.maxValue.toInt + 1) := rfl
  have hmax : Int64.maxValue.toInt + 1 < UInt64.size := by decide
  have hsize : n.natAbs < UInt64.size := by omega
  have habsorb : absorb 0 (Nat.toDigits 10 n.natAbs) = (n.natAbs, []) := by
    have hvalue := Nat.ofDigitChars_ten_toDigits (n := n.natAbs)
    rw [absorb_eq (hvalue.symm ▸ hsize), hvalue]
  have hnumber : Literal.number ⟨decide (n < 0), Nat.toDigits 10 n.natAbs, [], none⟩ =
      .ok (.integer n) := by
    rw [← ofWhole_natAbs hlo]
    simp only [Literal.number, habsorb]
    rfl
  rw [scanNumber, scanLiteral_writeInt]
  show (Literal.number _ >>= fun n => .ok (n, [])) = _
  rw [hnumber]
  rfl

/-- The text of an integer starts with a minus sign or a digit. -/
theorem writeInt_eq_cons (n : Int) : ∃ c cs, writeInt n = c :: cs ∧ startsNumber c = true := by
  unfold writeInt Decimal.writeInt
  split_ifs
  · exact ⟨_, _, rfl, rfl⟩
  · obtain ⟨c, cs, hcs, hdigit⟩ := toDigits_eq_cons n.natAbs
    exact ⟨c, cs, hcs, by simp [startsNumber, hdigit]⟩

theorem isBlank_of_startsNumber {c : Char} (h : startsNumber c = true) : isBlank c = false := by
  by_contra hblank
  simp only [isBlank, Bool.not_eq_false, Bool.or_eq_true, beq_iff_eq] at hblank
  rcases hblank with ((rfl | rfl) | rfl) | rfl <;> cases h

theorem numeric_writeInt {β : Type} (expected : String) (value : Number → Except Fault β) {n : Int}
    (hlo : Int64.minValue.toInt ≤ n) (hhi : n < UInt64.size) :
    numeric expected value (writeInt n) = (value (.integer n)).map fun v => (v, []) := by
  obtain ⟨c, cs, htext, hstarts⟩ := writeInt_eq_cons n
  have hscan := scanNumber_writeInt hlo hhi
  rw [htext] at hscan ⊢
  unfold numeric
  rw [skipBlank_cons (isBlank_of_startsNumber hstarts)]
  simp only [hstarts, if_true, hscan]
  show (value (.integer n) >>= fun v => .ok (v, [])) = _
  cases value (.integer n) <;> rfl

/-- **An integer** within the bounds of a reader reads back. -/
theorem integer_writeInt (expected : String) {lo hi n : Int} (hlo : lo ≤ n) (hhi : n ≤ hi)
    (hmin : Int64.minValue.toInt ≤ lo) (hmax : hi < UInt64.size) :
    integer expected lo hi (writeInt n) = .ok (n, []) := by
  rw [integer, numeric_writeInt expected _ (by omega) (by omega)]
  simp only [hlo, hhi, and_self, if_true]
  rfl

/-! ### Singles -/

/-- The text of a single, on its own, reads back as the same single. -/
def ReadsBack (a : Float32) : Prop := single (writeSingle a) = .ok (a, [])

instance (a : Float32) : Decidable (ReadsBack a) :=
  decidable_of_iff ((single (writeSingle a)).toOption = some (a, [])) (by
    unfold ReadsBack
    cases single (writeSingle a) <;> simp [Except.toOption])

/-- A decimal starts with a digit. -/
theorem Decimal.write_eq_cons (l : Decimal.Layout) (d : Decimal) :
    ∃ c cs, d.write l = c :: cs ∧ c.isDigit = true := by
  obtain ⟨c, cs, hcs, hdigit⟩ := toDigits_eq_cons d.digits
  unfold Decimal.write Decimal.writePlain Decimal.writeScientific
  rw [hcs]
  split_ifs
  all_goals first
    | exact ⟨c, _, rfl, hdigit⟩
    | exact ⟨'0', _, rfl, rfl⟩

/-- **A finite single** has a text, which starts with a minus sign or a digit. -/
theorem writeSingle_of_isFinite {a : Float32} (h : a.isFinite = true) :
    ∃ c cs, writeSingle a = c :: cs ∧ startsNumber c = true := by
  have hsigned (negative : Bool) {text : List Char}
      (htext : ∃ c cs, text = c :: cs ∧ c.isDigit = true) :
      ∃ c cs, Numeral.signed negative text = c :: cs ∧ startsNumber c = true := by
    obtain ⟨c, cs, rfl, hdigit⟩ := htext
    cases negative
    · exact ⟨c, cs, rfl, by simp [startsNumber, hdigit]⟩
    · exact ⟨'-', c :: cs, rfl, rfl⟩
  replace h : a.toModel.unpack.isFinite = true := h
  unfold writeSingle Numeral.json? Numeral.ofSingle
  cases hu : a.toModel.unpack with
  | notANumber | infinity => simp [hu] at h; cases h
  | zero sign => exact hsigned _ ⟨'0', _, rfl, rfl⟩
  | finite => exact hsigned _ (Decimal.write_eq_cons _ _)

/-- **A single that is not finite** is written as no value. -/
theorem writeSingle_of_not_isFinite {a : Float32} (h : a.isFinite = false) :
    writeSingle a = writeNull := by
  replace h : a.toModel.unpack.isFinite = false := h
  unfold writeSingle Numeral.json? Numeral.ofSingle
  cases hu : a.toModel.unpack with
  | notANumber | infinity => rfl
  | zero | finite =>
    rw [hu] at h
    cases h

end Stride.Json
