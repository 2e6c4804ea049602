import Stride.Proofs.Json.Members

namespace Stride.Json

/-!
# Only values are read

Whatever a reader accepts is a value of the grammar, with white space in front of it at most: a
reader may refuse a well-formed text, but it never takes a text that is not well formed.

* `Grounded` — a reader that reads nothing but values.
* `numeric_grounded`, `boolean_grounded`, `nullable_grounded` — values without brackets.
* `list_grounded`, `triple_grounded`, `Schema.record_grounded` — arrays and records.
* `Regular` — a reader that is grounded and framed.
-/

variable {β γ : Type}

/-- A reader that reads nothing but values of the grammar. -/
def Grounded (r : Reader β) : Prop :=
  ∀ ⦃cs v left⦄, r cs = .ok (v, left) →
    ∃ (lead : Gap) (t : List Char), IsValue t ∧ cs = lead.text ++ (t ++ left)

/-- A text that goes on with a value and nothing else. -/
theorem Continues.exists_value {cs left : List Char} (h : Continues false [] cs left) :
    ∃ (lead : Gap) (t : List Char), IsValue t ∧ cs = lead.text ++ (t ++ left) := by
  obtain ⟨lead, t, more, ht, hcs, rfl⟩ := h
  exact ⟨lead, t, ht, hcs⟩

theorem exists_value_of_skipBlank {cs t left : List Char} (ht : IsValue t)
    (h : skipBlank cs = t ++ left) :
    ∃ (lead : Gap) (t : List Char), IsValue t ∧ cs = lead.text ++ (t ++ left) := by
  obtain ⟨lead, hlead⟩ := exists_gap cs
  exact ⟨lead, t, ht, h ▸ hlead⟩

theorem Grounded.map {r : Reader β} (h : Grounded r) (f : β → γ) : Grounded (r.map f) := by
  intro cs v left hread
  unfold Reader.map at hread
  cases hr : r cs with
  | error fault =>
    rw [hr] at hread
    cases hread
  | ok found =>
    rw [hr] at hread
    cases hread
    exact h hr

/-! ### Values without brackets -/

theorem numeric_grounded (expected : String) (value : Number → Except Fault β) :
    Grounded (numeric expected value) := by
  intro cs v left h
  unfold numeric at h
  split at h
  · cases h
  · next c ds hnext =>
    split_ifs at h
    obtain ⟨⟨n, rest⟩, hscan, h⟩ := bind_eq_ok_iff.1 h
    obtain ⟨w, -, h⟩ := bind_eq_ok_iff.1 h
    cases h
    obtain ⟨⟨l, rest⟩, hliteral, hscan⟩ := bind_eq_ok_iff.1 hscan
    obtain ⟨n, -, hscan⟩ := bind_eq_ok_iff.1 hscan
    cases hscan
    obtain ⟨t, ht, happend⟩ := isNumeral_of_scanLiteral hliteral
    exact exists_value_of_skipBlank (.number ht) (hnext.trans happend)

theorem boolean_grounded : Grounded boolean := by
  intro cs v left h
  unfold boolean at h
  split at h
  · cases h
  · next c ds hnext =>
    split_ifs at h with htrue hfalse
    · obtain ⟨rest, hword, h⟩ := bind_eq_ok_iff.1 h
      cases h
      exact exists_value_of_skipBlank .yes (by rw [hnext, htrue, word_eq_ok hword]; rfl)
    · obtain ⟨rest, hword, h⟩ := bind_eq_ok_iff.1 h
      cases h
      exact exists_value_of_skipBlank .no (by rw [hnext, hfalse, word_eq_ok hword]; rfl)

theorem nullable_grounded {r : Reader β} (hr : Grounded r) : Grounded (nullable r) := by
  intro cs v left h
  unfold nullable at h
  split at h
  · cases h
  · next c ds hnext =>
    split_ifs at h with hnull
    · obtain ⟨rest, hword, h⟩ := bind_eq_ok_iff.1 h
      cases h
      exact exists_value_of_skipBlank .null (by rw [hnext, hnull, word_eq_ok hword]; rfl)
    · obtain ⟨lead, t, ht, happend⟩ := hr.map some h
      obtain ⟨outer, houter⟩ := exists_gap cs
      refine ⟨outer.append lead, t, ht, ?_⟩
      rw [houter, hnext, happend]
      simp

/-! ### Brackets -/

/-- What a text has to go on with behind a bracket, or behind a value within it. -/
def Ahead (b : Bracket) : (first : Bool) → List Char → (left : List Char) → Prop
  | false, cs, left => Closes [b] cs left
  | true, cs, left => ∀ ⦃c ds⦄, Bracket.opened? c = some b → skipBlank ds = c :: cs →
      Continues false [] ds left

theorem ahead_close {b : Bracket} (first : Bool) {cs left : List Char}
    (next : skipBlank cs = b.close :: left) : Ahead b first cs left := by
  cases first with
  | true => exact fun c ds hc hds => Continues.empty hds hc next rfl
  | false => exact Closes.close next rfl

/-- What is left in front of the next value within a bracket, or behind the bracket. -/
def entered (b : Bracket) : (first : Bool) → List Char → List Char → Prop
  | true, cs, es => b.enter (skipBlank cs) = .ok es
  | false, cs, es => ∃ ds, skipBlank cs = ',' :: ds ∧ b.enter ds = .ok es

theorem ahead_enter {b : Bracket} {first : Bool} {cs t more left : List Char} {g : Gap}
    (enter : entered b first cs (g.text ++ (t ++ more))) (ht : IsValue t)
    (h : Closes [b] more left) : Ahead b first cs left := by
  cases first with
  | true => exact fun c ds hc hds => Continues.enter hds hc enter ht h
  | false =>
    obtain ⟨ds, next, enter⟩ := enter
    exact Closes.comma next enter ht h

theorem closing_eq_ok {b : Bracket} {cs left : List Char} (h : closing b cs = .ok left) :
    skipBlank cs = b.close :: left := by
  unfold closing at h
  split at h
  · cases h
  · next hnext =>
    split_ifs at h with hclose
    cases h
    rw [hnext, hclose]

/-! ### Arrays -/

theorem nextElement_eq_none {first : Bool} {cs : List Char}
    (h : nextElement first cs = .ok none) : ∃ ds, skipBlank cs = ']' :: ds := by
  unfold nextElement at h
  split at h
  · cases h
  · next c ds hnext =>
    split_ifs at h with hclose
    · exact ⟨ds, hclose ▸ hnext⟩
    · cases h
    · split at h
      · cases h
      · split_ifs at h
        cases h

theorem nextElement_eq_some {first : Bool} {cs es : List Char}
    (h : nextElement first cs = .ok (some es)) :
    ∃ g : Gap, entered .array first cs (g.text ++ es) := by
  unfold nextElement at h
  split at h
  · cases h
  · next c ds hnext =>
    split_ifs at h with hclose hfirst hcomma
    · cases h
    · cases h
      rw [hfirst]
      exact ⟨.none, congrArg _ hnext⟩
    · split at h
      · cases h
      · next hds =>
        split_ifs at h
        cases h
        obtain ⟨g, hg⟩ := exists_gap ds
        rw [Bool.not_eq_true] at hfirst
        rw [hfirst, ← hds]
        exact ⟨g, ds, hcomma ▸ hnext, congrArg _ hg⟩

/-- An element that is read, and what is left of the array behind it. -/
theorem ahead_element {element : Reader β} (hr : Grounded element) {first : Bool}
    {cs es more left : List Char} {v : β} (next : nextElement first cs = .ok (some es))
    (hread : element es = .ok (v, more)) (h : Closes [.array] more left) :
    Ahead .array first cs left := by
  obtain ⟨g, henter⟩ := nextElement_eq_some next
  obtain ⟨lead, t, ht, rfl⟩ := hr hread
  have hlead : g.text ++ (lead.text ++ (t ++ more)) = (g.append lead).text ++ (t ++ more) := by simp
  exact ahead_enter (hlead ▸ henter) ht h

theorem elements_ahead {element : Reader β} (hr : Grounded element) {fuel cs left : List Char}
    (read : List β) {vs : List β} (h : elements element fuel read cs = .ok (vs, left)) :
    Ahead .array read.isEmpty cs left := by
  induction fuel generalizing read cs with
  | nil => cases h
  | cons _ fuel ih =>
    rw [elements] at h
    obtain ⟨next, hnext, h⟩ := bind_eq_ok_iff.1 h
    cases next with
    | none =>
      obtain ⟨ds, hclosing, h⟩ := bind_eq_ok_iff.1 h
      cases h
      exact ahead_close _ (closing_eq_ok hclosing)
    | some es =>
      obtain ⟨⟨v, more⟩, hread, h⟩ := bind_eq_ok_iff.1 h
      exact ahead_element hr hnext hread (ih (v :: read) h)

theorem elementAt_ahead {expected : String} {element : Reader β} (hr : Grounded element)
    (index : Nat) {cs more left : List Char} {v : β}
    (hread : elementAt expected element index cs = .ok (v, more)) (h : Closes [.array] more left) :
    Ahead .array (index == 0) cs left := by
  rw [elementAt] at hread
  obtain ⟨next, hnext, hread⟩ := bind_eq_ok_iff.1 hread
  cases next with
  | none => cases hread
  | some es => exact ahead_element hr hnext hread h

theorem insideArray_grounded {expected : String} {inside : Decoder β}
    (h : ∀ {room cs v left}, inside room cs = .ok (v, left) → Ahead .array true cs left)
    (room : Nat) : Grounded (insideArray expected inside room) := by
  intro cs v left hread
  unfold insideArray at hread
  split at hread
  · cases hread
  · next c ds hnext =>
    split_ifs at hread with hopen
    cases room with
    | zero => cases hread
    | succ room => exact (h hread rfl (hopen ▸ hnext)).exists_value

theorem list_grounded {element : Decoder β} (h : ∀ room, Grounded (element room)) (room : Nat) :
    Grounded (list element room) :=
  insideArray_grounded (fun {room _ _ _} hread => elements_ahead (h room) [] hread) room

theorem triple_grounded {element : Reader β} (h : Grounded element) (expected : String)
    (room : Nat) : Grounded (triple expected element room) := by
  refine insideArray_grounded (fun {_ cs v left} hread => ?_) room
  obtain ⟨⟨x, cs₁⟩, hx, hread⟩ := bind_eq_ok_iff.1 hread
  obtain ⟨⟨y, cs₂⟩, hy, hread⟩ := bind_eq_ok_iff.1 hread
  obtain ⟨⟨z, cs₃⟩, hz, hread⟩ := bind_eq_ok_iff.1 hread
  obtain ⟨cs₄, hclosing, hread⟩ := bind_eq_ok_iff.1 hread
  cases hread
  have hend : Closes [.array] cs₃ left := Closes.close (closing_eq_ok hclosing) rfl
  exact elementAt_ahead h 0 hx (elementAt_ahead h 1 hy (elementAt_ahead h 2 hz hend))

/-! ### Records -/

/-- The states of the passing over of a string that go with those of its reading. -/
def StringState.skipped : StringState → SkipState
  | .plain | .half _ => .plain
  | .escape | .halfEscape _ => .escape
  | .code _ count _ => .code count

/-- A string that is read is one that is passed over. -/
theorem skipStringFrom_of_scanString {state : StringState} {read cs s left : List Char}
    (h : scanString state read cs = .ok (s, left)) :
    skipStringFrom state.skipped cs = .ok left := by
  fun_induction scanString state read cs with
  | case2 =>
    cases h
    rfl
  | case3 _ _ _ ih => exact ih h
  | case5 _ _ _ hquote hslash hcontrol ih =>
    rw [← ih h]
    simp [StringState.skipped, skipStringFrom, hquote, hslash, hcontrol]
  | case6 _ _ ih => exact ih h
  | case7 _ _ _ hcode d hescape ih =>
    rw [← ih h]
    simp [StringState.skipped, skipStringFrom, hcode, hescape]
  | case10 _ _ _ _ _ _ _ hdigit _ hcount ih =>
    rw [← ih h]
    simp [StringState.skipped, skipStringFrom, hdigit, hcount]
  | case11 _ _ _ _ _ _ _ hdigit _ hcount _ _ ih =>
    rw [← ih h]
    simp [StringState.skipped, skipStringFrom, hdigit, hcount]
  | case12 _ _ _ _ _ _ _ hdigit _ hcount _ _ ih =>
    rw [← ih h]
    simp [StringState.skipped, skipStringFrom, hdigit, hcount]
  | case14 _ _ _ ih => exact ih h
  | case16 _ _ _ ih => exact ih h
  | _ => cases h

theorem skipString_of_stringRest {cs s left : List Char} (h : stringRest cs = .ok (s, left)) :
    skipString cs = .ok left :=
  skipStringFrom_of_scanString h

namespace Schema

/-- The key of the next member of an object stands between quotes. -/
theorem nextKey_eq_some {first : Bool} {cs key es fs : List Char}
    (h : nextKey first cs = .ok (some key, es)) (hcolon : colon es = .ok fs) :
    entered .object first cs fs := by
  have henter {ds gs : List Char} (hquote : skipBlank ds = '"' :: gs)
      (hstring : (stringRest gs >>= fun found => .ok (some found.1, found.2)) =
        .ok (some key, es)) : Bracket.object.enter ds = .ok fs := by
    obtain ⟨⟨s, left⟩, hrest, hstring⟩ := bind_eq_ok_iff.1 hstring
    cases hstring
    rw [Bracket.enter, hquote]
    simp only [skipString_of_stringRest hrest, if_true]
    exact hcolon
  unfold nextKey at h
  split at h
  · cases h
  · next c ds hnext =>
    split_ifs at h with hclose hfirst hquote hcomma
    · cases h
    · rw [hfirst]
      refine henter ?_ h
      rw [hnext, hquote, skipBlank_cons rfl]
    · split at h
      · cases h
      · next d gs hds =>
        split_ifs at h with hquote
        rw [Bool.not_eq_true] at hfirst
        rw [hfirst]
        exact ⟨ds, hcomma ▸ hnext, henter (hquote ▸ hds) h⟩

theorem nextKey_eq_none {first : Bool} {cs left : List Char}
    (h : nextKey first cs = .ok (none, left)) : skipBlank cs = '\x7d' :: left := by
  unfold nextKey at h
  split at h
  · cases h
  · next c ds hnext =>
    split_ifs at h with hclose hfirst hquote hcomma
    · cases h
      rw [hnext, hclose]
    · obtain ⟨_, _, h⟩ := bind_eq_ok_iff.1 h
      cases h
    · split at h
      · cases h
      · split_ifs at h
        obtain ⟨_, _, h⟩ := bind_eq_ok_iff.1 h
        cases h

variable {ι : Type} [DecidableEq ι] {V : ι → Type} {s : Schema ι V} {value : (k : ι) → Reader (V k)}

/-- A member that is read is passed over with its colon and its value. -/
theorem member_eq_ok (hr : ∀ k, Grounded (value k)) {key cs left : List Char} {p q : Partial V}
    (h : s.member value key p cs = .ok (q, left)) :
    ∃ (lead : Gap) (t : List Char), IsValue t ∧ colon cs = .ok (lead.text ++ (t ++ left)) := by
  unfold member at h
  split at h
  · obtain ⟨ds, hcolon, h⟩ := bind_eq_ok_iff.1 h
    obtain ⟨es, hskip, h⟩ := bind_eq_ok_iff.1 h
    cases h
    obtain ⟨lead, t, ht, rfl⟩ := exists_value_of_skipValue hskip
    exact ⟨lead, t, ht, hcolon⟩
  · split_ifs at h
    obtain ⟨ds, hcolon, h⟩ := bind_eq_ok_iff.1 h
    obtain ⟨⟨v, es⟩, hread, h⟩ := bind_eq_ok_iff.1 h
    cases h
    obtain ⟨lead, t, ht, rfl⟩ := hr _ hread
    exact ⟨lead, t, ht, hcolon⟩

theorem members_ahead (hr : ∀ k, Grounded (value k)) {fuel cs left : List Char} (first : Bool)
    {p q : Partial V} (h : s.members value fuel first p cs = .ok (q, left)) :
    Ahead .object first cs left := by
  induction fuel generalizing first p cs with
  | nil => cases h
  | cons _ fuel ih =>
    rw [members] at h
    obtain ⟨⟨key?, es⟩, hkey, h⟩ := bind_eq_ok_iff.1 h
    cases key? with
    | none =>
      cases h
      exact ahead_close _ (nextKey_eq_none hkey)
    | some key =>
      obtain ⟨⟨p', more⟩, hmember, h⟩ := bind_eq_ok_iff.1 h
      obtain ⟨lead, t, ht, hcolon⟩ := member_eq_ok hr hmember
      exact ahead_enter (nextKey_eq_some hkey hcolon) ht (ih false h)

/-- At the end of an array nothing is taken for the positions that are left. -/
theorem positions_closed {ks : List ι} {index : Nat} {p q : Partial V} {cs ds more : List Char}
    (hclosed : skipBlank cs = ']' :: ds) (h : s.positions value index ks p cs = .ok (q, more)) :
    more = cs := by
  induction ks generalizing index p with
  | nil =>
    cases h
    rfl
  | cons k ks ih =>
    have hnext : nextElement (index == 0) cs = .ok none := by
      rw [nextElement, hclosed]
      rfl
    cases hcut : s.cut k with
    | none =>
      rw [positions_short hnext hcut] at h
      cases h
    | some v =>
      rw [positions_cut hnext hcut] at h
      exact ih h

/-- The positions of an array, if the array ends behind them. -/
theorem positions_ahead (hr : ∀ k, Grounded (value k)) {ks : List ι} {index : Nat} {p q : Partial V}
    {cs more left : List Char} (h : s.positions value index ks p cs = .ok (q, more))
    (hend : skipBlank more = ']' :: left) : Ahead .array (index == 0) cs left := by
  induction ks generalizing index p cs with
  | nil =>
    cases h
    exact ahead_close _ hend
  | cons k ks ih =>
    rw [positions] at h
    obtain ⟨next, hnext, h⟩ := bind_eq_ok_iff.1 h
    cases next with
    | none =>
      -- the array ends early, and what the other fields have then takes nothing from the text
      obtain ⟨ds, hclosed⟩ := nextElement_eq_none hnext
      have hmore : more = cs := by
        cases hcut : s.cut k with
        | none =>
          simp only [hcut] at h
          cases h
        | some v =>
          simp only [hcut] at h
          exact positions_closed hclosed h
      exact ahead_close _ (hmore ▸ hend)
    | some es =>
      obtain ⟨⟨v, ds⟩, hread, h⟩ := bind_eq_ok_iff.1 h
      exact ahead_element (hr k) hnext hread (ih h)

/-- **A record** that is read is a value. -/
theorem record_grounded {value : Option ((k : ι) → Reader (V k))}
    (h : ∀ readers ∈ value, ∀ k, Grounded (readers k)) : Grounded (s.record value) := by
  intro cs v left hread
  unfold record at hread
  split at hread
  · cases hread
  · next c ds hnext =>
    split_ifs at hread with hsquare hcurly
    · cases value with
      | none => cases hread
      | some readers =>
        obtain ⟨⟨q, more⟩, hpositions, hread⟩ := bind_eq_ok_iff.1 hread
        obtain ⟨w, -, hread⟩ := bind_eq_ok_iff.1 hread
        obtain ⟨es, hclosing, hread⟩ := bind_eq_ok_iff.1 hread
        cases hread
        have hahead := positions_ahead (h readers rfl) hpositions (closing_eq_ok hclosing)
        exact (hahead rfl (hsquare ▸ hnext)).exists_value
    · cases value with
      | none => cases hread
      | some readers =>
        obtain ⟨⟨q, more⟩, hmembers, hread⟩ := bind_eq_ok_iff.1 hread
        obtain ⟨w, -, hread⟩ := bind_eq_ok_iff.1 hread
        cases hread
        have hahead := members_ahead (h readers rfl) true hmembers
        exact (hahead rfl (hcurly ▸ hnext)).exists_value

end Schema

/-! ### Both together -/

/-- A reader that reads values of the grammar and nothing else, each as it reads it alone. -/
structure Regular (r : Reader β) : Prop where
  /-- What stands around a value does not matter. -/
  framed : Framed r
  /-- Only values are read. -/
  grounded : Grounded r

namespace Regular

theorem numeric (expected : String) (value : Number → Except Fault β) :
    Regular (numeric expected value) :=
  ⟨numeric_framed expected value, numeric_grounded expected value⟩

theorem boolean : Regular boolean := ⟨boolean_framed, boolean_grounded⟩

theorem map {r : Reader β} (h : Regular r) (f : β → γ) : Regular (r.map f) :=
  ⟨h.framed.map f, h.grounded.map f⟩

theorem nullable {r : Reader β} (h : Regular r) : Regular (nullable r) :=
  ⟨nullable_framed h.framed, nullable_grounded h.grounded⟩

theorem list {element : Decoder β} (h : ∀ room, Regular (element room)) (room : Nat) :
    Regular (list element room) :=
  ⟨list_framed (fun room => (h room).framed) room,
    list_grounded (fun room => (h room).grounded) room⟩

theorem triple {element : Reader β} (h : Regular element) (expected : String) (room : Nat) :
    Regular (triple expected element room) :=
  ⟨triple_framed h.framed expected room, triple_grounded h.grounded expected room⟩

variable {ι : Type} [DecidableEq ι] {V : ι → Type} {s : Schema ι V}

theorem record {value : (k : ι) → Reader (V k)} (h : ∀ k, Regular (value k)) :
    Regular (s.record (some value)) :=
  ⟨Schema.record_framed fun _ hsome k => Option.some.inj hsome ▸ (h k).framed,
    Schema.record_grounded fun _ hsome k => Option.some.inj hsome ▸ (h k).grounded⟩

/-- A record for whose bracket there is no room. -/
theorem record_full (s : Schema ι V) : Regular (s.record none) :=
  ⟨Schema.record_framed (fun _ hnone => nomatch hnone),
    Schema.record_grounded (fun _ hnone => nomatch hnone)⟩

theorem decode {value : (k : ι) → Decoder (V k)} (h : ∀ k room, Regular (value k room))
    (room : Nat) : Regular (s.decode value room) := by
  cases room with
  | zero => exact record_full s
  | succ room => exact record fun k => h k room

end Regular

end Stride.Json
