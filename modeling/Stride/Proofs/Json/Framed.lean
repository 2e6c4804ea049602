import Stride.Proofs.Json.Skipped
import Stride.Saved.Basic

namespace Stride.Json

/-!
# Values within a text

A reader makes of a value of the grammar what it makes of the value alone: what stands around the
value within a text changes neither the result nor the fault, and the reader leaves all that stands
behind the value.

* `alone` — what a reader makes of a text that is a value.
* `Framed` — a reader that makes the same of it within any text.
* `keyName` — the name that a key stands for.
* `numeric_framed`, `boolean_framed`, `nullable_framed` — values without brackets.
* `list_framed`, `triple_framed` — arrays.
-/

variable {β γ : Type} {t rest : List Char}

/-- What a reader makes of a text, without what it leaves of it. -/
def alone (r : Reader β) (t : List Char) : Except Fault β := (r t).map (·.1)

/-- A reader that reads a value within any text as it reads it alone. -/
def Framed (r : Reader β) : Prop :=
  ∀ ⦃t⦄, IsValue t → ∀ (lead : Gap) ⦃rest⦄, Stops rest →
    r (lead.text ++ (t ++ rest)) = (alone r t).map fun v => (v, rest)

/-- It does not matter what the reader makes of a value as long as it is always the same. -/
theorem Framed.of_exists {r : Reader β}
    (h : ∀ ⦃t⦄, IsValue t → ∃ e : Except Fault β, ∀ (lead : Gap) ⦃rest⦄, Stops rest →
      r (lead.text ++ (t ++ rest)) = e.map fun v => (v, rest)) : Framed r := by
  intro t ht lead rest hrest
  obtain ⟨e, he⟩ := h ht
  have halone : alone r t = e := by
    have hreads := he .none Stops.nil
    rw [Gap.text_none, List.nil_append, List.append_nil] at hreads
    rw [alone, hreads]
    cases e <;> rfl
  rw [halone]
  exact he lead hrest

namespace Framed

variable {r : Reader β}

/-- A value without white space in front of it. -/
theorem reads (h : Framed r) (ht : IsValue t) (hrest : Stops rest) :
    r (t ++ rest) = (alone r t).map fun v => (v, rest) :=
  h ht .none hrest

theorem map (h : Framed r) (f : β → γ) : Framed (r.map f) :=
  .of_exists fun t ht => ⟨(alone r t).map f, fun lead rest hrest => by
    rw [Reader.map, h ht lead hrest]
    cases alone r t <;> rfl⟩

theorem alone_map (r : Reader β) (f : β → γ) (t : List Char) :
    alone (r.map f) t = (alone r t).map f := by
  unfold alone Reader.map
  cases r t <;> rfl

end Framed

/-! ### Strings -/

/-- The digits of a numeric escape. -/
theorem exists_code_of_digits {a b c d : Char} (h : ∀ x ∈ [a, b, c, d], (hexDigit? x).isSome = true)
    (first : Option Nat) : ∃ code, ∀ read cs,
      scanString (.code first 0 0) read (a :: b :: c :: d :: cs) =
      match Code.ofValue first code with
      | .char e => scanString .plain (e :: read) cs
      | .firstHalf half => scanString (.half half) read cs
      | .lone => .error .malformed := by
  obtain ⟨w, hw⟩ := Option.isSome_iff_exists.1 (h a (by simp))
  obtain ⟨x, hx⟩ := Option.isSome_iff_exists.1 (h b (by simp))
  obtain ⟨y, hy⟩ := Option.isSome_iff_exists.1 (h c (by simp))
  obtain ⟨z, hz⟩ := Option.isSome_iff_exists.1 (h d (by simp))
  refine ⟨16 * (16 * (16 * (16 * 0 + w) + x) + y) + z, fun read cs => ?_⟩
  cases hcode : Code.ofValue first (16 * (16 * (16 * (16 * 0 + w) + x) + y) + z) <;>
    simp only [scanString, hw, hx, hy, hz, hcode, Nat.reduceAdd, Nat.reduceLT, if_true, if_false]

theorem IsStringBody.scan {raw : List Char} (h : IsStringBody raw) (read : List Char) :
    (∃ e : Except Fault (List Char), ∀ rest,
        scanString .plain read (raw ++ '"' :: rest) = e.map fun s => (s, rest)) ∧
      ∀ half, ∃ e : Except Fault (List Char), ∀ rest,
        scanString (.half half) read (raw ++ '"' :: rest) = e.map fun s => (s, rest) := by
  -- a numeric escape may be the first half of a pair, whose second half is then due
  induction h generalizing read with
  | nil => exact ⟨⟨.ok read.reverse, fun _ => rfl⟩, fun _ => ⟨.error .malformed, fun _ => rfl⟩⟩
  | @plain c raw char rest ih =>
    obtain ⟨hquote, hslash, hcontrol⟩ : c ≠ '"' ∧ c ≠ '\\' ∧ isControl c = false := by
      simpa [isPlain, and_assoc] using char
    refine ⟨?_, fun half => ⟨.error .malformed, fun rest => ?_⟩⟩
    · obtain ⟨e, he⟩ := (ih (c :: read)).1
      refine ⟨e, fun rest => ?_⟩
      rw [← he]
      simp [scanString, hquote, hslash, hcontrol]
    · simp [scanString, hslash, Except.map]
  | @escape c raw letter rest ih =>
    have hcode : c ≠ 'u' := by
      rintro rfl
      cases letter
    obtain ⟨d, hd⟩ := Option.isSome_iff_exists.1 letter
    refine ⟨?_, fun half => ⟨.error .malformed, fun rest => ?_⟩⟩
    · obtain ⟨e, he⟩ := (ih (d :: read)).1
      refine ⟨e, fun rest => ?_⟩
      rw [← he]
      simp [scanString, hcode, hd]
    · simp [scanString, hcode, Except.map]
  | @code a b c d raw digits rest ih =>
    have hafter (first : Option Nat) : ∃ e : Except Fault (List Char), ∀ rest,
        scanString (.code first 0 0) read (a :: b :: c :: d :: (raw ++ '"' :: rest)) =
          e.map fun s => (s, rest) := by
      obtain ⟨code, hcode⟩ := exists_code_of_digits digits first
      simp only [hcode]
      cases Code.ofValue first code with
      | char e => exact (ih (e :: read)).1
      | firstHalf half => exact (ih read).2 half
      | lone => exact ⟨.error .malformed, fun _ => rfl⟩
    refine ⟨?_, fun half => ?_⟩
    · obtain ⟨e, he⟩ := hafter none
      exact ⟨e, he⟩
    · obtain ⟨e, he⟩ := hafter (some half)
      exact ⟨e, he⟩

/-- The name that a key stands for, if it stands for one: a half of a pair stands for none. -/
def keyName (raw : List Char) : Except Fault (List Char) := alone stringRest (raw ++ ['"'])

theorem stringRest_body {raw : List Char} (h : IsStringBody raw) (rest : List Char) :
    stringRest (raw ++ '"' :: rest) = (keyName raw).map fun s => (s, rest) := by
  obtain ⟨e, he⟩ := (h.scan []).1
  have hname : keyName raw = e := by
    rw [keyName, alone, stringRest, he []]
    cases e <;> rfl
  rw [hname]
  exact he rest

/-! ### Values of the wrong kind -/

theorem IsNumeral.scanNumber (h : IsNumeral t) : ∃ e : Except Fault Number, ∀ ⦃rest⦄, Stops rest →
    scanNumber (t ++ rest) = e.map fun n => (n, rest) := by
  obtain ⟨l, hl⟩ := h.scan
  refine ⟨l.number, fun rest hrest => ?_⟩
  rw [Json.scanNumber, hl .truncated hrest]
  show (l.number >>= fun n => .ok (n, rest)) = _
  cases l.number <;> rfl

/-- What a value is found to be does not depend on what follows it. -/
theorem IsValue.exists_found (h : IsValue t) :
    ∃ e, ∀ ⦃rest⦄, Stops rest → found (t ++ rest) = e := by
  cases h with
  | null => exact ⟨.ok .null, fun _ _ => rfl⟩
  | yes => exact ⟨.ok (.boolean true), fun _ _ => rfl⟩
  | no => exact ⟨.ok (.boolean false), fun _ _ => rfl⟩
  | number numeral =>
    obtain ⟨e, he⟩ := numeral.scanNumber
    obtain ⟨c, cs, rfl, hc⟩ := numeral.starts
    have hother {d : Char} (hd : startsNumber d = false) : c ≠ d := ne_of_startsNumber hc hd
    refine ⟨e.map Number.found, fun rest hrest => ?_⟩
    have hfound : found (c :: cs ++ rest) =
        scanNumber (c :: cs ++ rest) >>= fun found => .ok found.1.found := by
      rw [List.cons_append, found]
      simp only [hother (d := 'n') rfl, hother (d := 't') rfl, hother (d := 'f') rfl,
        hother (d := '"') rfl, hc, if_true, if_false]
      rfl
    rw [hfound, he hrest]
    cases e <;> rfl
  | @string raw body =>
    refine ⟨(keyName raw).map Found.string, fun rest _ => ?_⟩
    rw [List.cons_append, List.append_assoc]
    show (stringRest (raw ++ '"' :: rest) >>= fun found => .ok (Found.string found.1)) = _
    rw [stringRest_body body]
    cases keyName raw <;> rfl
  | array => exact ⟨.ok .sequence, fun _ _ => rfl⟩
  | object => exact ⟨.ok .map, fun _ _ => rfl⟩

/-- A value of the wrong kind is refused in the same way whatever follows it. -/
theorem IsValue.mismatch_append (h : IsValue t) (expected : String) (hrest : Stops rest) :
    mismatch expected (t ++ rest) = mismatch expected t := by
  obtain ⟨e, he⟩ := h.exists_found
  have halone := he Stops.nil
  rw [List.append_nil] at halone
  rw [mismatch, mismatch, he hrest, halone]

/-- A reader that takes the values that start with certain characters, and refuses all others by
    what they are. -/
theorem Framed.of_takes {r : Reader β} (takes : Char → Prop) [DecidablePred takes]
    (expected : String) (hlead : ∀ (lead : Gap) cs, r (lead.text ++ cs) = r cs)
    (hother : ∀ c cs, isBlank c = false → ¬ takes c →
      r (c :: cs) = .error (mismatch expected (c :: cs)))
    (hown : ∀ c cs, IsValue (c :: cs) → takes c → ∃ e : Except Fault β, ∀ ⦃rest⦄, Stops rest →
      r (c :: cs ++ rest) = e.map fun v => (v, rest)) : Framed r := by
  refine .of_exists fun t ht => ?_
  obtain ⟨c, cs, rfl, hblank, -⟩ := ht.opens
  by_cases hc : takes c
  · obtain ⟨e, he⟩ := hown c cs ht hc
    exact ⟨e, fun lead rest hrest => (hlead lead _).trans (he hrest)⟩
  · refine ⟨.error (mismatch expected (c :: cs)), fun lead rest hrest => ?_⟩
    rw [hlead, List.cons_append, hother c _ hblank hc, ← List.cons_append,
      ht.mismatch_append expected hrest]
    rfl

/-! ### Values without brackets -/

/-- A value that starts as a number is one. -/
theorem IsValue.numeral {c : Char} {cs : List Char} (h : IsValue (c :: cs))
    (hc : startsNumber c = true) : IsNumeral (c :: cs) := by
  generalize ht : c :: cs = t at h
  cases h with
  | number numeral => exact numeral
  | _ => cases ht; cases hc

theorem numeric_framed (expected : String) (value : Number → Except Fault β) :
    Framed (numeric expected value) := by
  refine .of_takes (fun c => startsNumber c = true) expected ?_ ?_ ?_
  · intro lead cs
    rw [numeric, numeric, lead.skipBlank]
  · intro c cs hblank hc
    simp only [numeric, skipBlank_cons hblank, hc]
    rfl
  · intro c cs hvalue hc
    obtain ⟨e, he⟩ := (hvalue.numeral hc).scanNumber
    refine ⟨e >>= value, fun rest hrest => ?_⟩
    rw [numeric, List.cons_append, skipBlank_cons (isBlank_of_startsNumber hc)]
    simp only [hc, if_true]
    rw [← List.cons_append, he hrest]
    cases e with
    | error fault => rfl
    | ok n =>
      show (value n >>= fun v => .ok (v, rest)) = (value n).map fun v => (v, rest)
      cases value n <;> rfl

/-- A value that starts as a word is that word. -/
theorem IsValue.word {c : Char} {cs : List Char} (h : IsValue (c :: cs)) :
    (c = 'n' → cs = ['u', 'l', 'l']) ∧ (c = 't' → cs = ['r', 'u', 'e']) ∧
      (c = 'f' → cs = ['a', 'l', 's', 'e']) := by
  generalize ht : c :: cs = t at h
  cases h with
  | number numeral =>
    obtain ⟨d, ds, rfl, hd⟩ := numeral.starts
    cases ht
    exact ⟨fun h => absurd h (ne_of_startsNumber hd rfl),
      fun h => absurd h (ne_of_startsNumber hd rfl), fun h => absurd h (ne_of_startsNumber hd rfl)⟩
  | _ => cases ht; simp

theorem boolean_framed : Framed boolean := by
  refine .of_takes (fun c => c = 't' ∨ c = 'f') "a boolean" ?_ ?_ ?_
  · intro lead cs
    rw [boolean, boolean, lead.skipBlank]
  · intro c cs hblank hc
    rw [not_or] at hc
    simp only [boolean, skipBlank_cons hblank, hc.1, hc.2, if_false]
  · rintro c cs hvalue (rfl | rfl)
    · obtain rfl := hvalue.word.2.1 rfl
      exact ⟨.ok true, fun _ _ => rfl⟩
    · obtain rfl := hvalue.word.2.2 rfl
      exact ⟨.ok false, fun _ _ => rfl⟩

theorem nullable_framed {r : Reader β} (h : Framed r) : Framed (nullable r) := by
  refine .of_exists fun t ht => ?_
  obtain ⟨c, cs, rfl, hblank, -⟩ := ht.opens
  by_cases hnull : c = 'n'
  · subst hnull
    obtain rfl := ht.word.1 rfl
    refine ⟨.ok none, fun lead rest _ => ?_⟩
    rw [nullable, lead.skipBlank]
    rfl
  · refine ⟨alone (r.map some) (c :: cs), fun lead rest hrest => ?_⟩
    rw [← (h.map some).reads ht hrest, nullable, lead.skipBlank, List.cons_append,
      skipBlank_cons hblank]
    simp only [hnull, if_false]

/-! ### Arrays -/

/-- What stands behind the bracket of an array, or behind one of its elements. -/
def behind (first : Bool) (items : List Item) (gap : Gap) (rest : List Char) : List Char :=
  joined first (items.map Item.text) ++ (gap.text ++ ']' :: rest)

theorem stops_behind (items : List Item) (gap : Gap) (rest : List Char) :
    Stops (behind false items gap rest) :=
  stops_joined .array _ gap rest

theorem nextElement_gap (first : Bool) (g : Gap) (cs : List Char) :
    nextElement first (g.text ++ cs) = nextElement first cs := by
  rw [nextElement, nextElement, g.skipBlank]

theorem nextElement_behind_nil (first : Bool) (gap : Gap) (rest : List Char) :
    nextElement first (behind first [] gap rest) = .ok none := by
  rw [behind, List.map_nil, joined, List.nil_append, nextElement_gap, nextElement_close]

theorem nextElement_behind_cons (first : Bool) {i : Item} (hi : IsValue i.value)
    (items : List Item) (gap : Gap) (rest : List Char) :
    nextElement first (behind first (i :: items) gap rest) =
      .ok (some (i.value ++ (i.trail.text ++ behind false items gap rest))) := by
  obtain ⟨c, cs, hvalue, hblank, hclose⟩ := hi.opens
  have hskip (more : List Char) :
      skipBlank (i.text ++ more) = c :: (cs ++ (i.trail.text ++ more)) := by
    rw [Item.text, hvalue, List.append_assoc, i.lead.skipBlank, List.append_assoc, List.cons_append,
      skipBlank_cons hblank]
  cases first with
  | true =>
    rw [behind, List.map_cons, joined, List.append_assoc, nextElement, hskip]
    simp [hvalue, hclose, behind]
  | false =>
    rw [behind, List.map_cons, joined, List.cons_append, List.cons_append, List.append_assoc,
      nextElement, skipBlank_cons rfl]
    simp only [hskip]
    simp [hvalue, hclose, behind]

theorem closing_gap (b : Bracket) (g : Gap) (cs : List Char) :
    closing b (g.text ++ cs) = closing b cs := by
  rw [closing, closing, g.skipBlank]

/-- An array ends where no element is left. -/
theorem closing_behind (first : Bool) {items : List Item} (h : ∀ i ∈ items, IsValue i.value)
    (gap : Gap) (rest : List Char) :
    closing .array (behind first items gap rest) =
      if items.isEmpty then .ok rest else .error .malformed := by
  cases items with
  | nil =>
    rw [behind, List.map_nil, joined, List.nil_append, closing_gap]
    rfl
  | cons i items =>
    obtain ⟨c, cs, hvalue, hblank, hclose⟩ := (h i List.mem_cons_self).opens
    cases first with
    | true =>
      rw [behind, List.map_cons, joined, Item.text, hvalue, List.append_assoc, List.append_assoc,
        closing_gap, List.append_assoc, List.cons_append, closing, skipBlank_cons hblank]
      simp [Bracket.close, hclose]
    | false => rfl

/-- The elements of an array, after white space and those that have been read. -/
theorem elements_behind {element : Reader β} (h : Framed element) {items : List Item}
    (values : ∀ i ∈ items, IsValue i.value) {fuel : List Char} (hfuel : items.length < fuel.length)
    (read : List β) (lead gap : Gap) (rest : List Char) :
    elements element fuel read (lead.text ++ behind read.isEmpty items gap rest) =
      (items.mapM fun i => alone element i.value).map fun vs => (read.reverse ++ vs, rest) := by
  induction items generalizing fuel read lead with
  | nil =>
    cases fuel with
    | nil => cases hfuel
    | cons _ fuel =>
      rw [elements, nextElement_gap, nextElement_behind_nil]
      show (closing .array (lead.text ++ behind read.isEmpty [] gap rest) >>= fun cs =>
        .ok (read.reverse, cs)) = _
      rw [closing_gap, closing_behind _ values]
      simp [Except.map, pure, Except.pure, bind, Except.bind]
  | cons i items ih =>
    cases fuel with
    | nil => cases hfuel
    | cons _ fuel =>
      have hi := values i List.mem_cons_self
      -- the element stops where its item does, so what follows does not matter to it
      have hreads := h.reads hi ((stops_gap i.trail _).2 (stops_behind items gap rest))
      rw [elements, nextElement_gap, nextElement_behind_cons _ hi]
      show (element (i.value ++ (i.trail.text ++ behind false items gap rest)) >>= fun found =>
        elements element fuel (found.1 :: read) found.2) = _
      rw [hreads, List.mapM_cons]
      cases alone element i.value with
      | error fault => rfl
      | ok v =>
        have hrest := ih (fun j hj => values j (List.mem_cons_of_mem i hj))
          (Nat.lt_of_succ_lt_succ hfuel) (v :: read) i.trail
        rw [List.isEmpty_cons] at hrest
        show elements element fuel (v :: read) (i.trail.text ++ behind false items gap rest) = _
        rw [hrest]
        show _ = (items.mapM (fun i => alone element i.value) >>= fun vs => .ok (v :: vs)).map _
        cases items.mapM fun i => alone element i.value with
        | error fault => rfl
        | ok vs => simp [Except.map, bind, Except.bind]

/-- A value that starts as an array is one. -/
theorem IsValue.exists_items {cs : List Char} (h : IsValue ('[' :: cs)) :
    ∃ (items : List Item) (gap : Gap), (∀ i ∈ items, IsValue i.value) ∧
      ∀ rest, cs ++ rest = behind true items gap rest := by
  generalize ht : '[' :: cs = t at h
  cases h with
  | number numeral =>
    obtain ⟨d, ds, rfl, hd⟩ := numeral.starts
    cases ht
    cases hd
  | @array items values gap =>
    cases ht
    exact ⟨items, gap, values, fun rest => by simp [behind]⟩
  | _ => cases ht

/-- A reader of what is left of an array that makes the same of its elements whatever stands around
    them and behind the array. -/
def Settled (first : Bool) (r : Reader β) : Prop :=
  ∀ ⦃items⦄, (∀ i ∈ items, IsValue i.value) → ∃ e : Except Fault β, ∀ (lead gap : Gap) rest,
    r (lead.text ++ behind first items gap rest) = e.map fun v => (v, rest)

/-- An element of an array is read, and then what is left of the array. -/
theorem Settled.of_next {first : Bool} {i : Item} {items : List Item} {f : Reader γ}
    {a : Except Fault β} {r : β → Reader γ}
    (hnext : ∀ (lead gap : Gap) rest, f (lead.text ++ behind first (i :: items) gap rest) =
      a >>= fun v => r v (i.trail.text ++ behind false items gap rest))
    (hr : ∀ v, Settled false (r v)) (values : ∀ j ∈ items, IsValue j.value) :
    ∃ e : Except Fault γ, ∀ (lead gap : Gap) rest,
      f (lead.text ++ behind first (i :: items) gap rest) = e.map fun v => (v, rest) := by
  cases a with
  | error fault => exact ⟨.error fault, fun lead gap rest => hnext lead gap rest⟩
  | ok v =>
    obtain ⟨e, he⟩ := hr v values
    exact ⟨e, fun lead gap rest => (hnext lead gap rest).trans (he i.trail gap rest)⟩

theorem insideArray_framed {expected : String} {inside : Decoder β}
    (h : ∀ room, Settled true (inside room)) (room : Nat) :
    Framed (insideArray expected inside room) := by
  refine .of_takes (fun c => c = '[') expected ?_ ?_ ?_
  · intro lead cs
    rw [insideArray, insideArray, lead.skipBlank]
  · intro c cs hblank hc
    simp only [insideArray, skipBlank_cons hblank, hc, if_false]
  · rintro c cs hvalue rfl
    obtain ⟨items, gap, values, hcs⟩ := hvalue.exists_items
    cases room with
    | zero => exact ⟨.error .malformed, fun _ _ => rfl⟩
    | succ room =>
      obtain ⟨e, he⟩ := h room values
      refine ⟨e, fun rest _ => ?_⟩
      rw [List.cons_append, hcs]
      exact he .none gap rest

theorem length_lt_behind {items : List Item} (values : ∀ i ∈ items, IsValue i.value) (gap : Gap)
    (rest : List Char) : items.length < (behind true items gap rest).length := by
  have hne : ∀ text ∈ items.map Item.text, text ≠ [] := by
    intro text htext
    obtain ⟨i, hi, rfl⟩ := List.mem_map.1 htext
    have hvalue := (values i hi).opens.ne_nil
    simp [Item.text, hvalue]
  have hle := length_le_joined hne true
  rw [List.length_map] at hle
  simp only [behind, List.length_append, List.length_cons]
  omega

/-- **A list** is read element by element. -/
theorem elements_array {element : Reader β} (h : Framed element) {items : List Item}
    (values : ∀ i ∈ items, IsValue i.value) (lead gap : Gap) (rest : List Char) :
    let cs := lead.text ++ behind true items gap rest
    elements element cs [] cs =
      (items.mapM fun i => alone element i.value).map fun vs => (vs, rest) := by
  have hlength := length_lt_behind values gap rest
  exact elements_behind h values (by rw [List.length_append]; omega) [] lead gap rest

theorem list_framed {element : Decoder β} (h : ∀ room, Framed (element room)) (room : Nat) :
    Framed (list element room) :=
  insideArray_framed (fun room _ values => ⟨_, elements_array (h room) values⟩) room

theorem alone_list {element : Decoder β} {room : Nat} (h : Framed (element room))
    {items : List Item} (values : ∀ i ∈ items, IsValue i.value) (gap : Gap) :
    alone (list element (room + 1)) (arrayText items gap) =
      items.mapM fun i => alone (element room) i.value := by
  have hreads : list element (room + 1) (arrayText items gap) =
      (items.mapM fun i => alone (element room) i.value).map fun vs => (vs, []) :=
    elements_array h values .none gap []
  rw [alone, hreads]
  cases items.mapM fun i => alone (element room) i.value <;> rfl

/-- What remains to be done after the element at a position. -/
theorem elementAt_settled {element : Reader β} (h : Framed element) (expected : String)
    (index : Nat) {r : β → Reader γ} (hr : ∀ v, Settled false (r v)) :
    Settled (index == 0) fun cs => elementAt expected element index cs >>= fun v => r v.1 v.2 := by
  intro items values
  cases items with
  | nil =>
    refine ⟨.error (.mismatch (.invalidLength index expected)), fun lead gap rest => ?_⟩
    have hat : elementAt expected element index (lead.text ++ behind (index == 0) [] gap rest) =
        .error (.mismatch (.invalidLength index expected)) := by
      rw [elementAt, nextElement_gap, nextElement_behind_nil]
      rfl
    simp only [hat]
    rfl
  | cons i items =>
    have hi := values i List.mem_cons_self
    refine Settled.of_next
      (f := fun cs => elementAt expected element index cs >>= fun v => r v.1 v.2)
      (a := alone element i.value) (fun lead gap rest => ?_) hr
      fun j hj => values j (List.mem_cons_of_mem i hj)
    have hat : elementAt expected element index
        (lead.text ++ behind (index == 0) (i :: items) gap rest) =
          (alone element i.value).map fun v =>
            (v, i.trail.text ++ behind false items gap rest) := by
      rw [elementAt, nextElement_gap, nextElement_behind_cons _ hi]
      exact h.reads hi ((stops_gap i.trail _).2 (stops_behind items gap rest))
    simp only [hat]
    cases alone element i.value <;> rfl

theorem closing_settled (first : Bool) (v : β) :
    Settled first (fun cs => closing .array cs >>= fun cs => .ok (v, cs)) := by
  intro items values
  refine ⟨if items.isEmpty then .ok v else .error .malformed, fun lead gap rest => ?_⟩
  simp only [closing_gap, closing_behind first values]
  cases items <;> rfl

/-- **A triple** is read coordinate by coordinate. -/
theorem triple_framed {element : Reader β} (h : Framed element) (expected : String) (room : Nat) :
    Framed (triple expected element room) := by
  have hend (x y z : β) : Settled false fun cs =>
      closing .array cs >>= fun cs => .ok (Vec3.mk x y z, cs) :=
    closing_settled false (Vec3.mk x y z)
  have hz (x y : β) : Settled false fun cs => elementAt expected element 2 cs >>= fun z =>
      closing .array z.2 >>= fun cs => .ok (Vec3.mk x y z.1, cs) :=
    elementAt_settled h expected 2 (hend x y)
  have hy (x : β) : Settled false fun cs => elementAt expected element 1 cs >>= fun y =>
      elementAt expected element 2 y.2 >>= fun z =>
        closing .array z.2 >>= fun cs => .ok (Vec3.mk x y.1 z.1, cs) :=
    elementAt_settled h expected 1 (hz x)
  exact insideArray_framed (fun _ => elementAt_settled h expected 0 hy) room

end Stride.Json
