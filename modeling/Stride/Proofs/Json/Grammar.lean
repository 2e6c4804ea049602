import Stride.Proofs.Json.Nested
import Stride.Json.Skip

namespace Stride.Json

/-!
# The grammar of values

What a value looks like as a text, said without a reader: words, numbers, strings, arrays and
objects, with white space between their parts.  Numbers may have any size, the halves of the pairs
in a string need not match, and brackets may be nested to any depth.

* `Gap`, `Stops` — white space, and what can follow a value.
* `IsNumeral`, `IsStringBody` — numbers, and what stands between the quotes of a string.
* `Item`, `Member`, `arrayText`, `objectText` — what brackets hold.
* `IsValue` — a value.
* `IsNumeral.scan`, `IsStringBody.skip` — the parts without brackets are read to their ends.
* `isNumeral_of_scanLiteral`, `body_of_skipString` — and nothing else is read as one of them.
-/

/-! ### White space -/

/-- White space between the parts of a text. -/
structure Gap where
  /-- The white space. -/
  text : List Char
  /-- All of it is blank. -/
  blank : ∀ c ∈ text, isBlank c = true

/-- No white space. -/
def Gap.none : Gap := ⟨[], by simp⟩

@[simp] theorem Gap.text_none : Gap.none.text = [] := rfl

/-- White space and more white space. -/
def Gap.append (g h : Gap) : Gap where
  text := g.text ++ h.text
  blank c hc := (List.mem_append.1 hc).elim (g.blank c) (h.blank c)

@[simp] theorem Gap.text_append (g h : Gap) : (g.append h).text = g.text ++ h.text := rfl

@[simp] theorem Gap.skipBlank (g : Gap) (cs : List Char) :
    skipBlank (g.text ++ cs) = skipBlank cs :=
  skipBlank_append g.blank cs

/-- White space is all that is taken away from the front of a text. -/
theorem exists_gap (cs : List Char) : ∃ g : Gap, cs = g.text ++ skipBlank cs := by
  refine ⟨⟨cs.takeWhile isBlank, fun c hc => List.mem_takeWhile_imp hc⟩, ?_⟩
  exact List.takeWhile_append_dropWhile.symm

/-- Whether a text can follow a value, possibly after white space. -/
def Stops (rest : List Char) : Prop := Ends (skipBlank rest)

theorem Stops.nil : Stops [] := Ends.nil

@[simp] theorem stops_gap (g : Gap) (rest : List Char) : Stops (g.text ++ rest) ↔ Stops rest := by
  rw [Stops, Stops, g.skipBlank]

theorem stops_of_ends {rest : List Char} (h : Ends rest) : Stops rest := by
  cases rest with
  | nil => exact .nil
  | cons c rest =>
    have hblank : isBlank c = false := by
      rcases h c rfl with rfl | rfl | rfl <;> rfl
    rwa [Stops, skipBlank_cons hblank]

/-- What can follow a value is no part of a number. -/
theorem Stops.head {rest : List Char} (h : Stops rest) {c : Char} (hc : c ∈ rest.head?) :
    c.isDigit = false ∧ c ≠ '.' ∧ c ≠ 'e' ∧ c ≠ 'E' := by
  cases hblank : isBlank c with
  | true =>
    simp only [isBlank, Bool.or_eq_true, beq_iff_eq] at hblank
    rcases hblank with ((rfl | rfl) | rfl) | rfl <;> decide
  | false =>
    cases rest with
    | nil => cases hc
    | cons d rest =>
      obtain rfl : d = c := by simpa using hc
      rw [Stops, skipBlank_cons hblank] at h
      obtain ⟨hdigit, -, -, hpoint, hsmall, hcapital⟩ := h.head (c := d) rfl
      exact ⟨hdigit, hpoint, hsmall, hcapital⟩

/-! ### Numbers -/

/-- At least one digit. -/
structure IsDigits (ds : List Char) : Prop where
  /-- There is a digit. -/
  ne_nil : ds ≠ []
  /-- There is nothing else. -/
  isDigit : ∀ c ∈ ds, c.isDigit = true

/-- The digits before the point, of which the first is a zero only if there is no other. -/
structure IsWhole (ds : List Char) : Prop extends IsDigits ds where
  /-- No digit follows a zero in front. -/
  zero : ∀ tail, ds = '0' :: tail → tail = []

/-- A point and the digits after it, or nothing. -/
inductive IsFraction : List Char → Prop
  /-- There is no point. -/
  | none : IsFraction []
  /-- There are digits after a point. -/
  | point {ds} (digits : IsDigits ds) : IsFraction ('.' :: ds)

/-- A power of ten, or nothing. -/
inductive IsExponent : List Char → Prop
  /-- There is no power. -/
  | none : IsExponent []
  /-- There are digits after a letter and maybe a sign. -/
  | power {e sign ds} (letter : e = 'e' ∨ e = 'E')
      (sign_eq : sign = [] ∨ sign = ['+'] ∨ sign = ['-']) (digits : IsDigits ds) :
      IsExponent (e :: (sign ++ ds))

/-- A number. -/
inductive IsNumeral : List Char → Prop
  /-- All parts of a number. -/
  | mk {sign ds places power} (sign_eq : sign = [] ∨ sign = ['-']) (whole : IsWhole ds)
      (fraction : IsFraction places) (exponent : IsExponent power) :
      IsNumeral (sign ++ (ds ++ (places ++ power)))

/-- Whether a text starts with something else than a digit. -/
def NoDigit (rest : List Char) : Prop := ∀ c ∈ rest.head?, c.isDigit = false

theorem noDigit_of_cons {c : Char} (h : c.isDigit = false) (cs : List Char) :
    NoDigit (c :: cs) := by
  rintro d ⟨⟩
  exact h

theorem Stops.noDigit {rest : List Char} (h : Stops rest) : NoDigit rest :=
  fun _ hc => (h.head hc).1

theorem IsDigits.scan {ds rest : List Char} (h : IsDigits ds) (hrest : NoDigit rest)
    (atEnd : Fault) : someDigits atEnd (ds ++ rest) = .ok (ds, rest) := by
  have hnone : rest.takeWhile Char.isDigit = [] ∧ rest.dropWhile Char.isDigit = rest := by
    cases rest with
    | nil => exact ⟨rfl, rfl⟩
    | cons c rest => simp [hrest c rfl]
  rw [someDigits, List.takeWhile_append_of_pos h.isDigit, List.dropWhile_append_of_pos h.isDigit,
    hnone.1, hnone.2, List.append_nil]
  cases ds with
  | nil => exact absurd rfl h.ne_nil
  | cons d ds => rfl

theorem isDigits_of_someDigits {atEnd : Fault} {cs ds left : List Char}
    (h : someDigits atEnd cs = .ok (ds, left)) : IsDigits ds ∧ cs = ds ++ left ∧ NoDigit left := by
  have hsplit := List.takeWhile_append_dropWhile (p := Char.isDigit) (l := cs)
  have hdigits (c : Char) (hc : c ∈ cs.takeWhile Char.isDigit) : c.isDigit = true :=
    List.mem_takeWhile_imp hc
  have hstop : NoDigit (cs.dropWhile Char.isDigit) := fun c hc => by
    have hhead := List.head?_dropWhile_not Char.isDigit cs
    rw [Option.mem_def.1 hc] at hhead
    simpa using hhead
  unfold someDigits at h
  cases htake : cs.takeWhile Char.isDigit with
  | nil =>
    rw [htake] at h
    cases hdrop : cs.dropWhile Char.isDigit <;> rw [hdrop] at h <;> cases h
  | cons d ds =>
    rw [htake] at h hsplit hdigits
    cases h
    exact ⟨⟨List.cons_ne_nil d ds, hdigits⟩, hsplit.symm, hstop⟩

theorem IsWhole.scan {ds rest : List Char} (h : IsWhole ds) (hrest : NoDigit rest)
    (atEnd : Fault) : wholeDigits atEnd (ds ++ rest) = .ok (ds, rest) := by
  unfold wholeDigits
  split
  · next cs hcs =>
    -- a zero in front is the only digit, so that what follows is no digit
    cases ds with
    | nil => exact absurd rfl h.ne_nil
    | cons d ds =>
      rw [List.cons_append, List.cons.injEq] at hcs
      obtain ⟨rfl, rfl⟩ := hcs
      obtain rfl := h.zero ds rfl
      have hnext : ([] ++ rest).head?.any Char.isDigit = false := by
        rw [List.nil_append]
        cases rest with
        | nil => rfl
        | cons c rest => exact hrest c rfl
      rw [hnext]
      rfl
  · exact h.toIsDigits.scan hrest atEnd

theorem isWhole_of_wholeDigits {atEnd : Fault} {cs ds left : List Char}
    (h : wholeDigits atEnd cs = .ok (ds, left)) : IsWhole ds ∧ cs = ds ++ left ∧ NoDigit left := by
  unfold wholeDigits at h
  split at h
  · next tail =>
    split_ifs at h with hnext
    cases h
    refine ⟨⟨⟨List.cons_ne_nil _ _, by simp⟩, ?_⟩, rfl, ?_⟩
    · rintro _ ⟨⟩
      rfl
    · intro c hc
      rw [Option.mem_def.1 hc] at hnext
      simpa using hnext
  · next hzero =>
    obtain ⟨hdigits, rfl, hleft⟩ := isDigits_of_someDigits h
    refine ⟨⟨hdigits, ?_⟩, rfl, hleft⟩
    rintro tail rfl
    exact absurd rfl (hzero _)

theorem IsFraction.scan {places : List Char} (h : IsFraction places) :
    ∃ ds, ∀ atEnd ⦃rest⦄, NoDigit rest → (∀ c ∈ rest.head?, c ≠ '.') →
      fractionDigits atEnd (places ++ rest) = .ok (ds, rest) := by
  cases h with
  | none =>
    refine ⟨[], fun atEnd rest _ hpoint => ?_⟩
    rw [List.nil_append]
    unfold fractionDigits
    split
    · exact absurd rfl (hpoint _ rfl)
    · rfl
  | point digits => exact ⟨_, fun atEnd _ hrest _ => digits.scan hrest atEnd⟩

theorem isFraction_of_fractionDigits {atEnd : Fault} {cs ds left : List Char}
    (h : fractionDigits atEnd cs = .ok (ds, left)) :
    ∃ places, IsFraction places ∧ cs = places ++ left := by
  unfold fractionDigits at h
  split at h
  · obtain ⟨hdigits, rfl, -⟩ := isDigits_of_someDigits h
    exact ⟨_, .point hdigits, rfl⟩
  · cases h
    exact ⟨[], .none, rfl⟩

theorem IsDigits.exponentSign {ds : List Char} (h : IsDigits ds) (rest : List Char) :
    exponentSign (ds ++ rest) = (false, ds ++ rest) := by
  cases ds with
  | nil => exact absurd rfl h.ne_nil
  | cons d ds =>
    have hdigit := h.isDigit d List.mem_cons_self
    unfold Json.exponentSign
    split
    · next hd => cases hd; cases hdigit
    · next hd => cases hd; cases hdigit
    · rfl

theorem IsExponent.scan {power : List Char} (h : IsExponent power) :
    ∃ e, ∀ atEnd ⦃rest⦄, Stops rest → exponentDigits atEnd (power ++ rest) = .ok (e, rest) := by
  cases h with
  | none =>
    refine ⟨.none, fun atEnd rest hrest => ?_⟩
    cases rest with
    | nil => rfl
    | cons c rest =>
      obtain ⟨-, -, hsmall, hcapital⟩ := hrest.head rfl
      simp [exponentDigits, hsmall, hcapital]
  | @power e sign ds letter sign_eq digits =>
    have hsign : ∃ negative, ∀ rest, exponentSign (sign ++ (ds ++ rest)) =
        (negative, ds ++ rest) := by
      rcases sign_eq with rfl | rfl | rfl
      · exact ⟨_, digits.exponentSign⟩
      · exact ⟨_, fun _ => rfl⟩
      · exact ⟨_, fun _ => rfl⟩
    obtain ⟨negative, hsign⟩ := hsign
    refine ⟨some (negative, ds), fun atEnd rest hrest => ?_⟩
    rw [List.cons_append, List.append_assoc, exponentDigits, if_pos letter, hsign]
    show (someDigits atEnd (ds ++ rest) >>= fun found =>
      .ok (some (negative, found.1), found.2)) = _
    rw [digits.scan hrest.noDigit]
    rfl

theorem isExponent_of_exponentDigits {atEnd : Fault} {cs left : List Char}
    {e : Option (Bool × List Char)} (h : exponentDigits atEnd cs = .ok (e, left)) :
    ∃ power, IsExponent power ∧ cs = power ++ left := by
  unfold exponentDigits at h
  split at h
  · cases h
    exact ⟨[], .none, rfl⟩
  · next c tail =>
    split_ifs at h with hletter
    · have hsign : ∃ sign, (sign = [] ∨ sign = ['+'] ∨ sign = ['-']) ∧
          tail = sign ++ (exponentSign tail).2 := by
        unfold exponentSign
        split
        · exact ⟨['+'], by simp, rfl⟩
        · exact ⟨['-'], by simp, rfl⟩
        · exact ⟨[], by simp, rfl⟩
      obtain ⟨sign, hsign, htail⟩ := hsign
      cases hdigits : someDigits atEnd (exponentSign tail).2 with
      | error fault => simp [hdigits, bind, Except.bind] at h
      | ok found =>
        obtain ⟨ds, left'⟩ := found
        simp only [hdigits, bind, Except.bind] at h
        cases h
        obtain ⟨hds, happend, -⟩ := isDigits_of_someDigits hdigits
        refine ⟨_, .power hletter hsign hds, ?_⟩
        rw [htail, happend]
        simp
    · cases h
      exact ⟨[], .none, rfl⟩

/-- **A number** is read to its end, and it is the same number whatever follows. -/
theorem IsNumeral.scan {t : List Char} (h : IsNumeral t) :
    ∃ l, ∀ atEnd ⦃rest⦄, Stops rest → scanLiteral atEnd (t ++ rest) = .ok (l, rest) := by
  obtain @⟨sign, ds, places, power, sign_eq, whole, fraction, exponent⟩ := h
  -- no part starts with a character that the part before it could go on with
  have hpower {rest : List Char} (hrest : Stops rest) :
      NoDigit (power ++ rest) ∧ ∀ c ∈ (power ++ rest).head?, c ≠ '.' := by
    cases exponent with
    | none => exact ⟨hrest.noDigit, fun c hc => (hrest.head hc).2.1⟩
    | power letter =>
      refine ⟨noDigit_of_cons ?_ _, ?_⟩
      · rcases letter with rfl | rfl <;> rfl
      · rintro c ⟨⟩
        rcases letter with rfl | rfl <;> decide
  have hplaces {rest : List Char} (hrest : Stops rest) : NoDigit (places ++ (power ++ rest)) := by
    cases fraction with
    | none => exact (hpower hrest).1
    | point => exact noDigit_of_cons rfl _
  obtain ⟨es, hes⟩ := exponent.scan
  obtain ⟨fs, hfs⟩ := fraction.scan
  have hsign : ∃ negative, ∀ rest, literalSign (sign ++ (ds ++ rest)) = (negative, ds ++ rest) := by
    rcases sign_eq with rfl | rfl
    · obtain ⟨d, ds, rfl⟩ := List.exists_cons_of_ne_nil whole.ne_nil
      exact ⟨false, fun _ => literalSign_of_isDigit (whole.isDigit d List.mem_cons_self) _⟩
    · exact ⟨true, fun _ => rfl⟩
  obtain ⟨negative, hsign⟩ := hsign
  refine ⟨⟨negative, ds, fs, es⟩, fun atEnd rest hrest => ?_⟩
  simp only [List.append_assoc, scanLiteral, hsign, whole.scan (hplaces hrest),
    hfs atEnd (hpower hrest).1 (hpower hrest).2, hes atEnd hrest, bind, Except.bind, pure,
    Except.pure]

/-- Nothing but a number is read as a number. -/
theorem isNumeral_of_scanLiteral {atEnd : Fault} {cs left : List Char} {l : Literal}
    (h : scanLiteral atEnd cs = .ok (l, left)) : ∃ t, IsNumeral t ∧ cs = t ++ left := by
  have hsign : ∃ sign, (sign = [] ∨ sign = ['-']) ∧ cs = sign ++ (literalSign cs).2 := by
    unfold literalSign
    split
    · exact ⟨['-'], by simp, rfl⟩
    · exact ⟨[], by simp, rfl⟩
  obtain ⟨sign, hsign, hcs⟩ := hsign
  unfold scanLiteral at h
  simp only [bind, Except.bind] at h
  split at h
  · cases h
  next whole hwhole =>
  split at h
  · cases h
  next fraction hfraction =>
  split at h
  · cases h
  next exponent hexponent =>
  cases h
  obtain ⟨hds, hcs₁, -⟩ := isWhole_of_wholeDigits hwhole
  obtain ⟨places, hplaces, hcs₂⟩ := isFraction_of_fractionDigits hfraction
  obtain ⟨power, hpower, hcs₃⟩ := isExponent_of_exponentDigits hexponent
  refine ⟨_, .mk hsign hds hplaces hpower, ?_⟩
  rw [hcs, hcs₁, hcs₂, hcs₃]
  simp

theorem IsNumeral.starts {t : List Char} (h : IsNumeral t) :
    ∃ c cs, t = c :: cs ∧ startsNumber c = true := by
  obtain @⟨sign, ds, places, power, sign_eq, whole, -, -⟩ := h
  rcases sign_eq with rfl | rfl
  · obtain ⟨d, ds, rfl⟩ := List.exists_cons_of_ne_nil whole.ne_nil
    exact ⟨d, _, rfl, by simp [startsNumber, whole.isDigit d List.mem_cons_self]⟩
  · exact ⟨'-', _, rfl, rfl⟩

theorem ne_of_startsNumber {c d : Char} (hc : startsNumber c = true)
    (hd : startsNumber d = false) : c ≠ d := by
  rintro rfl
  rw [hc] at hd
  cases hd

/-! ### Strings -/

/-- What may stand between the quotes of a string. -/
inductive IsStringBody : List Char → Prop
  /-- Nothing at all. -/
  | nil : IsStringBody []
  /-- A character that stands for itself. -/
  | plain {c raw} (char : isPlain c = true) (rest : IsStringBody raw) : IsStringBody (c :: raw)
  /-- An escape of one letter. -/
  | escape {c raw} (letter : (escaped? c).isSome = true) (rest : IsStringBody raw) :
      IsStringBody ('\\' :: c :: raw)
  /-- A numeric escape. -/
  | code {a b c d raw} (digits : ∀ x ∈ [a, b, c, d], (hexDigit? x).isSome = true)
      (rest : IsStringBody raw) : IsStringBody ('\\' :: 'u' :: a :: b :: c :: d :: raw)

/-- A string without escapes. -/
theorem IsStringBody.of_plain {raw : List Char} (h : raw.all isPlain = true) :
    IsStringBody raw := by
  induction raw with
  | nil => exact .nil
  | cons c raw ih =>
    rw [List.all_cons, Bool.and_eq_true] at h
    exact .plain h.1 (ih h.2)

/-- **A string** is passed over to its closing quote. -/
theorem IsStringBody.skip {raw : List Char} (h : IsStringBody raw) (rest : List Char) :
    skipString (raw ++ '"' :: rest) = .ok rest := by
  induction h with
  | nil => rfl
  | plain char h ih =>
    rename_i c raw
    obtain ⟨hquote, hslash, hcontrol⟩ : c ≠ '"' ∧ c ≠ '\\' ∧ isControl c = false := by
      simpa [isPlain, and_assoc] using char
    rw [← ih]
    simp [skipString, skipStringFrom, hquote, hslash, hcontrol]
  | escape letter h ih =>
    rename_i c raw
    have hcode : c ≠ 'u' := by
      rintro rfl
      cases letter
    rw [← ih]
    simp [skipString, skipStringFrom, hcode, letter]
  | code digits h ih =>
    rename_i a b c d raw
    have hdigit (x : Char) (hx : x ∈ [a, b, c, d]) : hexDigit? x ≠ none :=
      Option.isSome_iff_ne_none.1 (digits x hx)
    rw [← ih]
    simp [skipString, skipStringFrom, hdigit]

/-- One digit of a numeric escape. -/
theorem digit_of_skipStringFrom {count : Nat} {cs left : List Char}
    (h : skipStringFrom (.code count) cs = .ok left) :
    ∃ c tail, cs = c :: tail ∧ (hexDigit? c).isSome = true ∧
      skipStringFrom (if count < 3 then .code (count + 1) else .plain) tail = .ok left := by
  cases cs with
  | nil => cases h
  | cons c tail =>
    unfold skipStringFrom at h
    split_ifs at h with hnone hcount
    all_goals
      refine ⟨c, tail, rfl, by simpa [Option.isSome_iff_ne_none] using hnone, ?_⟩
      simpa only [hcount, if_true, if_false] using h

/-- Nothing but a string is passed over as a string. -/
theorem body_of_skipString {cs left : List Char} (h : skipString cs = .ok left) :
    ∃ raw, IsStringBody raw ∧ cs = raw ++ '"' :: left := by
  induction hlength : cs.length using Nat.strongRecOn generalizing cs with
  | _ n ih =>
    -- what follows a character or an escape is shorter, and is passed over as a string again
    have hrest {tail : List Char} (htail : tail.length < cs.length)
        (hskip : skipStringFrom .plain tail = .ok left) :
        ∃ raw, IsStringBody raw ∧ tail = raw ++ '"' :: left :=
      ih tail.length (hlength ▸ htail) hskip rfl
    cases cs with
    | nil => cases h
    | cons c cs =>
      unfold skipString skipStringFrom at h
      split_ifs at h with hquote hslash hcontrol
      · cases h
        exact ⟨[], .nil, by rw [hquote]; rfl⟩
      · subst hslash
        cases cs with
        | nil => cases h
        | cons c cs =>
          unfold skipStringFrom at h
          split_ifs at h with hcode hletter
          · subst hcode
            obtain ⟨w, cs₁, rfl, hw, h⟩ := digit_of_skipStringFrom h
            obtain ⟨x, cs₂, rfl, hx, h⟩ := digit_of_skipStringFrom h
            obtain ⟨y, cs₃, rfl, hy, h⟩ := digit_of_skipStringFrom h
            obtain ⟨z, cs₄, rfl, hz, h⟩ := digit_of_skipStringFrom h
            obtain ⟨raw, hraw, rfl⟩ := hrest (by simp only [List.length_cons]; omega) h
            exact ⟨_, .code (by simp [hw, hx, hy, hz]) hraw, rfl⟩
          · obtain ⟨raw, hraw, rfl⟩ := hrest (by simp only [List.length_cons]; omega) h
            exact ⟨_, .escape hletter hraw, rfl⟩
      · obtain ⟨raw, hraw, rfl⟩ := hrest (by simp) h
        exact ⟨_, .plain (by simp [isPlain, hquote, hslash, hcontrol]) hraw, rfl⟩

/-! ### Values -/

/-- A value within a bracket. -/
structure Item where
  /-- The white space in front of it. -/
  lead : Gap
  /-- The value. -/
  value : List Char
  /-- The white space behind it. -/
  trail : Gap

/-- The text of a value within a bracket. -/
def Item.text (i : Item) : List Char := i.lead.text ++ (i.value ++ i.trail.text)

/-- A member of an object. -/
structure Member where
  /-- The white space in front of the key. -/
  lead : Gap
  /-- What stands between the quotes of the key. -/
  key : List Char
  /-- The white space between the key and the colon. -/
  gap : Gap
  /-- The value behind the colon. -/
  item : Item

/-- The text of a member. -/
def Member.text (m : Member) : List Char :=
  m.lead.text ++ '"' :: (m.key ++ '"' :: (m.gap.text ++ ':' :: m.item.text))

/-- The text of an array, with white space in front of its closing bracket. -/
def arrayText (items : List Item) (gap : Gap) : List Char :=
  '[' :: (joined true (items.map Item.text) ++ (gap.text ++ [']']))

/-- The text of an object, with white space in front of its closing bracket. -/
def objectText (members : List Member) (gap : Gap) : List Char :=
  '\x7b' :: (joined true (members.map Member.text) ++ (gap.text ++ ['\x7d']))

/-- A value. -/
inductive IsValue : List Char → Prop
  /-- The word `null`. -/
  | null : IsValue ['n', 'u', 'l', 'l']
  /-- The word `true`. -/
  | yes : IsValue ['t', 'r', 'u', 'e']
  /-- The word `false`. -/
  | no : IsValue ['f', 'a', 'l', 's', 'e']
  /-- A number. -/
  | number {t} (numeral : IsNumeral t) : IsValue t
  /-- A string. -/
  | string {raw} (body : IsStringBody raw) : IsValue ('"' :: (raw ++ ['"']))
  /-- An array. -/
  | array {items} (values : ∀ i ∈ items, IsValue i.value) (gap : Gap) :
      IsValue (arrayText items gap)
  /-- An object. -/
  | object {members} (keys : ∀ m ∈ members, IsStringBody m.key)
      (values : ∀ m ∈ members, IsValue m.item.value) (gap : Gap) :
      IsValue (objectText members gap)

/-- The text of a value starts as that of a value does. -/
theorem IsValue.opens {t : List Char} (h : IsValue t) : Opens t := by
  cases h with
  | number numeral => exact opens_of_startsNumber numeral.starts
  | _ => exact ⟨_, _, rfl, rfl, by decide⟩

/-- A member that is well formed. -/
structure Member.IsSound (m : Member) : Prop where
  /-- The key is a string. -/
  key : IsStringBody m.key
  /-- The value is one. -/
  value : IsValue m.item.value

theorem forall_isSound_cons {m : Member} {ms : List Member} (hm : m.IsSound)
    (hms : ∀ n ∈ ms, n.IsSound) : ∀ n ∈ m :: ms, n.IsSound :=
  List.forall_mem_cons.2 ⟨hm, hms⟩

/-- A member without white space. -/
def Member.plain (name : String) (value : List Char) : Member :=
  ⟨.none, name.toList, .none, ⟨.none, value, .none⟩⟩

theorem Member.isSound_plain {name : String} (hname : name.toList.all isPlain = true)
    {value : List Char} (hvalue : IsValue value) : (Member.plain name value).IsSound :=
  ⟨.of_plain hname, hvalue⟩

theorem isValue_object {ms : List Member} (hms : ∀ m ∈ ms, m.IsSound) (gap : Gap) :
    IsValue (objectText ms gap) :=
  .object (fun m hm => (hms m hm).key) (fun m hm => (hms m hm).value) gap

end Stride.Json
