import Stride.Proofs.Json.Grammar

namespace Stride.Json

/-!
# Values passed over

The passing over of a value takes a value of the grammar, whole, and nothing else.  The loop that
does it keeps the open brackets on a stack and runs on a fuel; what it does is first said without
the fuel.

* `Passes` — the loop without its fuel.
* `skipValue_eq_ok_iff` — the two agree.
* `IsValue.skip` — a value is passed over.
* `exists_value_of_skipValue` — whatever is passed over is a value.
-/

/-- What the passing over of values leaves of a text, within the brackets of a stack. -/
inductive Passes : (done : Bool) → (stack : List Bracket) → List Char → (left : List Char) → Prop
  /-- Nothing is open any more. -/
  | finished {cs} : Passes true [] cs cs
  /-- The innermost bracket is closed. -/
  | close {top stack cs ds left} (next : skipBlank cs = top.close :: ds)
      (rest : Passes true stack ds left) : Passes true (top :: stack) cs left
  /-- Another value follows within the innermost bracket. -/
  | comma {top stack cs ds es left} (next : skipBlank cs = ',' :: ds)
      (enter : top.enter ds = .ok es) (rest : Passes false (top :: stack) es left) :
      Passes true (top :: stack) cs left
  /-- A value without brackets. -/
  | plain {stack c cs ds es left} (next : skipBlank cs = c :: ds)
      (opened : Bracket.opened? c = none) (value : skipPlain c ds = .ok es)
      (rest : Passes true stack es left) : Passes false stack cs left
  /-- A bracket that is closed at once. -/
  | empty {top stack c cs ds es left} (next : skipBlank cs = c :: ds)
      (opened : Bracket.opened? c = some top) (closed : skipBlank ds = top.close :: es)
      (rest : Passes true stack es left) : Passes false stack cs left
  /-- A bracket with a value in it. -/
  | enter {top stack c d cs ds es fs left} (next : skipBlank cs = c :: ds)
      (opened : Bracket.opened? c = some top) (first : skipBlank ds = d :: es)
      (other : d ≠ top.close) (enter : top.enter (d :: es) = .ok fs)
      (rest : Passes false (top :: stack) fs left) : Passes false stack cs left

/-! ### The fuel -/

/-- What is read by two readers, one after the other. -/
theorem bind_eq_ok_iff {β γ : Type} {a : Except Fault β} {k : β → Except Fault γ} {w : γ} :
    a >>= k = .ok w ↔ ∃ v, a = .ok v ∧ k v = .ok w := by
  cases a with
  | error fault => exact ⟨fun h => (by cases h), fun ⟨_, h, _⟩ => (by cases h)⟩
  | ok v => exact ⟨fun h => ⟨v, rfl, h⟩, fun ⟨_, h, hk⟩ => Except.ok.inj h ▸ hk⟩

theorem passes_of_skipNested {fuel : List Char} {done : Bool} {stack : List Bracket}
    {cs left : List Char} (h : skipNested fuel done stack cs = .ok left) :
    Passes done stack cs left := by
  fun_induction skipNested fuel done stack cs with
  | case1 =>
    cases h
    exact .finished
  | case4 _ _ _ _ _ _ next ih => exact .close next (ih h)
  | case5 _ _ _ _ _ _ next _ ih =>
    obtain ⟨es, henter, h⟩ := bind_eq_ok_iff.1 h
    exact .comma next henter (ih es h)
  | case8 _ _ _ _ _ _ next opened ih =>
    obtain ⟨es, hvalue, h⟩ := bind_eq_ok_iff.1 h
    exact .plain next opened hvalue (ih es h)
  | case10 _ _ _ _ _ _ next _ opened _ closed ih => exact .empty next opened closed (ih h)
  | case11 _ _ _ _ _ _ next _ opened _ _ first other ih =>
    obtain ⟨fs, henter, h⟩ := bind_eq_ok_iff.1 h
    exact .enter next opened first other henter (ih fs h)
  | _ => cases h

theorem skipBlank_length_le (cs : List Char) : (skipBlank cs).length ≤ cs.length :=
  (List.dropWhile_sublist isBlank).length_le

theorem length_lt_of_skipBlank {cs ds : List Char} {c : Char} (h : skipBlank cs = c :: ds) :
    ds.length < cs.length := by
  have hle := skipBlank_length_le cs
  rw [h, List.length_cons] at hle
  omega

theorem colon_eq_ok {cs left : List Char} (h : colon cs = .ok left) :
    skipBlank cs = ':' :: left := by
  unfold colon at h
  split at h
  · cases h
  · next hnext =>
    split_ifs at h with hcolon
    cases h
    rw [hnext, hcolon]

/-- A key and its colon. -/
theorem enter_object_eq_ok {cs left : List Char} (h : Bracket.object.enter cs = .ok left) :
    ∃ ds es, skipBlank cs = '"' :: ds ∧ skipString ds = .ok es ∧ skipBlank es = ':' :: left := by
  simp only [Bracket.enter] at h
  split at h
  · cases h
  · next hnext =>
    split_ifs at h with hquote
    obtain ⟨es, hskip, h⟩ := bind_eq_ok_iff.1 h
    exact ⟨_, es, hquote ▸ hnext, hskip, colon_eq_ok h⟩

theorem enter_length_le {b : Bracket} {cs left : List Char} (h : b.enter cs = .ok left) :
    left.length ≤ cs.length := by
  cases b with
  | array =>
    cases h
    exact le_rfl
  | object =>
    obtain ⟨ds, es, hquote, hskip, hcolon⟩ := enter_object_eq_ok h
    obtain ⟨raw, -, rfl⟩ := body_of_skipString hskip
    have hds := length_lt_of_skipBlank hquote
    have hleft := length_lt_of_skipBlank hcolon
    simp only [List.length_append, List.length_cons] at hds
    omega

theorem word_eq_ok {ws cs left : List Char} (h : word ws cs = .ok left) : cs = ws ++ left := by
  induction ws generalizing cs with
  | nil =>
    cases h
    rfl
  | cons w ws ih =>
    cases cs with
    | nil => cases h
    | cons c cs =>
      rw [word] at h
      split_ifs at h with hc
      rw [hc, ih h]
      rfl

/-- A value without brackets is one of the grammar. -/
theorem isValue_of_skipPlain {c : Char} {cs left : List Char} (h : skipPlain c cs = .ok left) :
    ∃ t, IsValue t ∧ c :: cs = t ++ left := by
  unfold skipPlain at h
  split_ifs at h with hnull htrue hfalse hquote hnumber
  · exact ⟨_, .null, by rw [hnull, word_eq_ok h]; rfl⟩
  · exact ⟨_, .yes, by rw [htrue, word_eq_ok h]; rfl⟩
  · exact ⟨_, .no, by rw [hfalse, word_eq_ok h]; rfl⟩
  · obtain ⟨raw, hraw, rfl⟩ := body_of_skipString h
    exact ⟨_, .string hraw, by simp [hquote]⟩
  · cases hscan : scanLiteral .malformed (c :: cs) with
    | error fault =>
      rw [hscan] at h
      cases h
    | ok found =>
      rw [hscan] at h
      cases h
      obtain ⟨t, ht, happend⟩ := isNumeral_of_scanLiteral hscan
      exact ⟨t, .number ht, happend⟩

theorem skipPlain_length_le {c : Char} {cs left : List Char} (h : skipPlain c cs = .ok left) :
    left.length ≤ cs.length := by
  obtain ⟨t, ht, happend⟩ := isValue_of_skipPlain h
  obtain ⟨_, _, rfl, -⟩ := ht.opens
  have hlength := congrArg List.length happend
  simp only [List.length_cons, List.length_append] at hlength
  omega

/-- Every step takes a character, so that there is fuel for it. -/
theorem exists_fuel {fuel cs ds : List Char} {c : Char} (hfuel : cs.length ≤ fuel.length)
    (next : skipBlank cs = c :: ds) : ∃ f fs, fuel = f :: fs ∧ ds.length ≤ fs.length := by
  have hlt := length_lt_of_skipBlank next
  cases fuel with
  | nil =>
    rw [List.length_nil] at hfuel
    omega
  | cons f fs =>
    rw [List.length_cons] at hfuel
    exact ⟨f, fs, rfl, by omega⟩

theorem Passes.skipNested_eq {done : Bool} {stack : List Bracket} {cs left : List Char}
    (h : Passes done stack cs left) {fuel : List Char} (hfuel : cs.length ≤ fuel.length) :
    skipNested fuel done stack cs = .ok left := by
  -- induction on what is passed over; each step takes a character of the text and one of the fuel
  induction h generalizing fuel with
  | finished => cases fuel <;> rfl
  | close next rest ih =>
    obtain ⟨f, fs, rfl, hds⟩ := exists_fuel hfuel next
    simp only [skipNested, next, if_true]
    exact ih hds
  | comma next enter rest ih =>
    obtain ⟨f, fs, rfl, hds⟩ := exists_fuel hfuel next
    rename_i top stack cs ds es left
    have hcomma : ',' ≠ top.close := by cases top <;> decide
    simp only [skipNested, next, hcomma, if_true, if_false, enter]
    exact ih ((enter_length_le enter).trans hds)
  | plain next opened value rest ih =>
    obtain ⟨f, fs, rfl, hds⟩ := exists_fuel hfuel next
    simp only [skipNested, next, opened, value]
    exact ih ((skipPlain_length_le value).trans hds)
  | empty next opened closed rest ih =>
    obtain ⟨f, fs, rfl, hds⟩ := exists_fuel hfuel next
    simp only [skipNested, next, opened, closed, if_true]
    exact ih ((length_lt_of_skipBlank closed).le.trans hds)
  | enter next opened first other enter rest ih =>
    obtain ⟨f, fs, rfl, hds⟩ := exists_fuel hfuel next
    rename_i top stack c d cs ds es gs left
    have hgs : gs.length ≤ ds.length := by
      have hle := skipBlank_length_le ds
      rw [first] at hle
      exact (enter_length_le enter).trans hle
    simp only [skipNested, next, opened, first, other, if_false, enter]
    exact ih (hgs.trans hds)

/-- **The fuel** of the loop never runs out. -/
theorem skipValue_eq_ok_iff {cs left : List Char} :
    skipValue cs = .ok left ↔ Passes false [] cs left :=
  ⟨passes_of_skipNested, fun h => h.skipNested_eq le_rfl⟩

/-! ### Values are passed over -/

/-- White space in front of a value is passed over. -/
theorem Passes.lead {stack : List Bracket} {cs left : List Char} (h : Passes false stack cs left)
    (g : Gap) : Passes false stack (g.text ++ cs) left := by
  cases h with
  | plain next => exact .plain ((g.skipBlank cs).trans next) ‹_› ‹_› ‹_›
  | empty next => exact .empty ((g.skipBlank cs).trans next) ‹_› ‹_› ‹_›
  | enter next => exact .enter ((g.skipBlank cs).trans next) ‹_› ‹_› ‹_› ‹_› ‹_›

/-- White space behind a value is passed over. -/
theorem Passes.trail {top : Bracket} {stack : List Bracket} {cs left : List Char}
    (h : Passes true (top :: stack) cs left) (g : Gap) :
    Passes true (top :: stack) (g.text ++ cs) left := by
  cases h with
  | close next rest => exact .close ((g.skipBlank cs).trans next) rest
  | comma next enter rest => exact .comma ((g.skipBlank cs).trans next) enter rest

/-- A text that a bracket can hold: it is passed over together with the white space in front. -/
structure Bracket.Enters (b : Bracket) (text : List Char) : Prop where
  /-- What it starts with. -/
  starts : ∃ (lead : Gap) (c : Char) (cs : List Char),
    text = lead.text ++ c :: cs ∧ isBlank c = false ∧ c ≠ b.close ∧
      ∀ {stack more left}, Stops more → Passes true (b :: stack) more left →
        ∃ es, b.enter (c :: (cs ++ more)) = .ok es ∧ Passes false (b :: stack) es left

/-- What stands between the first text in a bracket and the bracket's end. -/
theorem stops_joined (b : Bracket) (texts : List (List Char)) (gap : Gap) (rest : List Char) :
    Stops (joined false texts ++ (gap.text ++ b.close :: rest)) := by
  cases texts with
  | nil =>
    rw [joined, List.nil_append, stops_gap]
    cases b with
    | array => exact stops_of_ends (.array rest)
    | object => exact stops_of_ends (.object rest)
  | cons text texts => exact stops_of_ends (.comma _)

theorem passes_joined {b : Bracket} {texts : List (List Char)} (h : ∀ t ∈ texts, b.Enters t)
    (gap : Gap) {stack : List Bracket} {rest left : List Char}
    (hrest : Passes true stack rest left) :
    Passes true (b :: stack) (joined false texts ++ (gap.text ++ b.close :: rest)) left := by
  have hblank : isBlank b.close = false := by cases b <;> rfl
  induction texts with
  | nil =>
    refine .close ?_ hrest
    rw [joined, List.nil_append, gap.skipBlank, skipBlank_cons hblank]
  | cons text texts ih =>
    have htexts := ih fun t ht => h t (List.mem_cons_of_mem text ht)
    obtain ⟨lead, c, cs, rfl, hc, -, hpass⟩ := (h _ List.mem_cons_self).starts
    obtain ⟨es, henter, hes⟩ := hpass (stops_joined b texts gap rest) htexts
    have hcomma : skipBlank (joined false ((lead.text ++ c :: cs) :: texts) ++
        (gap.text ++ b.close :: rest)) = ',' :: (lead.text ++ c :: (cs ++
          (joined false texts ++ (gap.text ++ b.close :: rest)))) := by
      rw [joined, List.cons_append, List.cons_append, skipBlank_cons rfl]
      simp
    cases b with
    | array =>
      cases henter
      exact .comma hcomma rfl (hes.lead lead)
    | object =>
      refine .comma hcomma ?_ hes
      simpa only [Bracket.enter, lead.skipBlank] using henter

/-- A bracket is passed over with all that it holds. -/
theorem passes_bracket {b : Bracket} {c : Char} (hc : Bracket.opened? c = some b)
    {texts : List (List Char)} (h : ∀ t ∈ texts, b.Enters t) (gap : Gap) {stack : List Bracket}
    {rest left : List Char} (hrest : Passes true stack rest left) :
    Passes false stack (c :: (joined true texts ++ (gap.text ++ b.close :: rest))) left := by
  have hblank : isBlank b.close = false := by cases b <;> rfl
  have hopen : isBlank c = false := by
    unfold Bracket.opened? at hc
    split_ifs at hc with hsquare hcurly
    · rw [hsquare]; rfl
    · rw [hcurly]; rfl
  cases texts with
  | nil =>
    refine .empty (skipBlank_cons hopen _) hc ?_ hrest
    rw [joined, List.nil_append, gap.skipBlank, skipBlank_cons hblank]
  | cons text texts =>
    have htexts := passes_joined (fun t ht => h t (List.mem_cons_of_mem text ht)) gap hrest
    obtain ⟨lead, d, ds, rfl, hd, hclose, hpass⟩ := (h _ List.mem_cons_self).starts
    obtain ⟨es, henter, hes⟩ := hpass (stops_joined b texts gap rest) htexts
    refine .enter (skipBlank_cons hopen _) hc ?_ hclose henter hes
    rw [joined, List.append_assoc, List.append_assoc, lead.skipBlank, List.cons_append,
      skipBlank_cons hd]

/-- Whether a text is passed over as a value, whatever can follow it. -/
def IsPassed (t : List Char) : Prop :=
  ∀ {stack rest left}, Stops rest → Passes true stack rest left →
    Passes false stack (t ++ rest) left

theorem Item.enters {i : Item} (hvalue : IsValue i.value) (hpassed : IsPassed i.value) :
    Bracket.array.Enters i.text := by
  obtain ⟨c, cs, htext, hblank, hclose⟩ := hvalue.opens
  refine ⟨i.lead, c, cs ++ i.trail.text, ?_, hblank, hclose,
    fun {stack more left} hmore hrest => ?_⟩
  · rw [Item.text, htext, List.cons_append]
  · have hpass := hpassed ((stops_gap i.trail more).2 hmore) (hrest.trail i.trail)
    refine ⟨_, rfl, ?_⟩
    rwa [htext, List.cons_append, ← List.append_assoc] at hpass

theorem colon_gap (g : Gap) (cs : List Char) : colon (g.text ++ ':' :: cs) = .ok cs := by
  rw [colon, g.skipBlank, skipBlank_cons rfl]
  rfl

theorem Member.enters {m : Member} (hkey : IsStringBody m.key) (hpassed : IsPassed m.item.value) :
    Bracket.object.Enters m.text := by
  refine ⟨m.lead, '"', m.key ++ '"' :: (m.gap.text ++ ':' :: m.item.text), rfl, rfl, by decide,
    fun {stack more left} hmore hrest => ?_⟩
  have hpass := hpassed ((stops_gap m.item.trail more).2 hmore) (hrest.trail m.item.trail)
  refine ⟨_, ?_, hpass.lead m.item.lead⟩
  rw [Bracket.enter, skipBlank_cons rfl]
  simp only [if_true, List.append_assoc, List.cons_append, hkey.skip]
  rw [← List.append_assoc, ← List.append_assoc, List.append_assoc m.item.lead.text]
  exact colon_gap m.gap (m.item.text ++ more)

theorem IsNumeral.passed {t : List Char} (h : IsNumeral t) : IsPassed t := by
  intro stack rest left hstops hrest
  obtain ⟨l, hl⟩ := h.scan
  obtain ⟨c, cs, rfl, hc⟩ := h.starts
  have hother {d : Char} (hd : startsNumber d = false) : c ≠ d := ne_of_startsNumber hc hd
  have hopened : Bracket.opened? c = none := by
    rw [Bracket.opened?, if_neg (hother rfl), if_neg (hother rfl)]
  have hskip : skipPlain c (cs ++ rest) = .ok rest := by
    rw [skipPlain, if_neg (hother rfl), if_neg (hother rfl), if_neg (hother rfl),
      if_neg (hother rfl), if_pos hc, ← List.cons_append, hl .malformed hstops]
    rfl
  exact .plain (skipBlank_cons (isBlank_of_startsNumber hc) _) hopened hskip hrest

theorem IsValue.passed {t : List Char} (h : IsValue t) : IsPassed t := by
  induction h with
  | null => exact fun _ hrest => .plain (c := 'n') (skipBlank_cons rfl _) rfl rfl hrest
  | yes => exact fun _ hrest => .plain (c := 't') (skipBlank_cons rfl _) rfl rfl hrest
  | no => exact fun _ hrest => .plain (c := 'f') (skipBlank_cons rfl _) rfl rfl hrest
  | number numeral => exact numeral.passed
  | string body =>
    intro stack rest left _ hrest
    rw [List.cons_append, List.append_assoc]
    exact .plain (skipBlank_cons rfl _) rfl (body.skip rest) hrest
  | @array items values gap ih =>
    intro stack rest left _ hrest
    have henters : ∀ t ∈ items.map Item.text, Bracket.array.Enters t := by
      intro t ht
      obtain ⟨i, hi, rfl⟩ := List.mem_map.1 ht
      exact i.enters (values i hi) (ih i hi)
    rw [arrayText, List.cons_append, List.append_assoc, List.append_assoc]
    exact passes_bracket rfl henters gap hrest
  | @object members keys values gap ih =>
    intro stack rest left _ hrest
    have henters : ∀ t ∈ members.map Member.text, Bracket.object.Enters t := by
      intro t ht
      obtain ⟨m, hm, rfl⟩ := List.mem_map.1 ht
      exact m.enters (keys m hm) (ih m hm)
    rw [objectText, List.cons_append, List.append_assoc, List.append_assoc]
    exact passes_bracket rfl henters gap hrest

/-- **A value** of the grammar is passed over. -/
theorem IsValue.skip {t : List Char} (h : IsValue t) (lead : Gap) {rest : List Char}
    (hrest : Stops rest) : skipValue (lead.text ++ (t ++ rest)) = .ok rest :=
  skipValue_eq_ok_iff.2 ((h.passed hrest .finished).lead lead)

/-! ### Nothing else is passed over -/

/-- The texts that can stand between a bracket and its end. -/
inductive Bracket.Holds : Bracket → List (List Char) → Prop
  /-- Values. -/
  | array {items : List Item} (values : ∀ i ∈ items, IsValue i.value) :
      Holds .array (items.map Item.text)
  /-- Members. -/
  | object {members : List Member} (sound : ∀ m ∈ members, m.IsSound) :
      Holds .object (members.map Member.text)

theorem Bracket.holds_nil (b : Bracket) : b.Holds [] := by
  cases b with
  | array => exact @Holds.array [] (by simp)
  | object => exact @Holds.object [] (by simp)

/-- A bracket with what it holds is a value. -/
theorem Bracket.Holds.isValue {b : Bracket} {texts : List (List Char)} (h : b.Holds texts)
    {c : Char} (hc : Bracket.opened? c = some b) (gap : Gap) :
    IsValue (c :: (joined true texts ++ (gap.text ++ [b.close]))) := by
  unfold Bracket.opened? at hc
  split_ifs at hc with hsquare hcurly
  · cases hc
    cases h with
    | array values => exact hsquare ▸ .array values gap
  · cases hc
    cases h with
    | object sound =>
      exact hcurly ▸ isValue_object sound gap

/-- A value that a bracket is entered for is in one of the texts that the bracket holds. -/
theorem holds_of_enter {b : Bracket} {ds more t : List Char} {g : Gap}
    (henter : b.enter ds = .ok (g.text ++ (t ++ more))) (ht : IsValue t) :
    ∃ front, ds = front ++ more ∧ ∀ (outer trail : Gap) {texts}, b.Holds texts →
      b.Holds ((outer.text ++ (front ++ trail.text)) :: texts) := by
  cases b with
  | array =>
    cases henter
    refine ⟨g.text ++ t, by simp, fun outer trail texts htexts => ?_⟩
    cases htexts with
    | @array items values =>
      have hitems : ∀ i ∈ (⟨outer.append g, t, trail⟩ : Item) :: items, IsValue i.value := by
        simpa using ⟨ht, values⟩
      simpa [Item.text] using Bracket.Holds.array hitems
  | object =>
    -- in front of the value stand a key and a colon, with white space around them
    obtain ⟨es, fs, hquote, hskip, hcolon⟩ := enter_object_eq_ok henter
    obtain ⟨key, hkey, rfl⟩ := body_of_skipString hskip
    obtain ⟨lead, hlead⟩ := exists_gap ds
    obtain ⟨gap, hgap⟩ := exists_gap fs
    rw [hquote] at hlead
    rw [hcolon] at hgap
    refine ⟨lead.text ++ '"' :: (key ++ '"' :: (gap.text ++ ':' :: (g.text ++ t))), ?_,
      fun outer trail texts htexts => ?_⟩
    · rw [hlead, hgap]
      simp
    · cases htexts with
      | @object members sound =>
        have hmembers : ∀ m ∈ (⟨outer.append lead, key, gap, ⟨g, t, trail⟩⟩ : Member) :: members,
            m.IsSound := by
          simpa using ⟨⟨hkey, ht⟩, sound⟩
        simpa [Member.text, Item.text] using Bracket.Holds.object hmembers

/-- What a text has to go on with after a value, if the brackets of a stack are open. -/
def Closes : (stack : List Bracket) → List Char → (left : List Char) → Prop
  | [], cs, left => cs = left
  | b :: stack, cs, left =>
    ∃ (trail : Gap) (texts : List (List Char)) (gap : Gap) (more : List Char),
      b.Holds texts ∧ cs = trail.text ++ (joined false texts ++ (gap.text ++ b.close :: more)) ∧
        Closes stack more left

/-- What a text has to go on with, before a value or after it. -/
def Continues : (done : Bool) → (stack : List Bracket) → List Char → (left : List Char) → Prop
  | true, stack, cs, left => Closes stack cs left
  | false, stack, cs, left => ∃ (lead : Gap) (t more : List Char),
      IsValue t ∧ cs = lead.text ++ (t ++ more) ∧ Closes stack more left

theorem Closes.close {b : Bracket} {stack : List Bracket} {cs ds left : List Char}
    (next : skipBlank cs = b.close :: ds) (h : Closes stack ds left) :
    Closes (b :: stack) cs left := by
  obtain ⟨gap, hgap⟩ := exists_gap cs
  refine ⟨.none, [], gap, ds, b.holds_nil, ?_, h⟩
  rw [← next]
  simpa [joined] using hgap

theorem Closes.comma {b : Bracket} {stack : List Bracket} {cs ds t more left : List Char} {g : Gap}
    (next : skipBlank cs = ',' :: ds) (enter : b.enter ds = .ok (g.text ++ (t ++ more)))
    (ht : IsValue t) (h : Closes (b :: stack) more left) : Closes (b :: stack) cs left := by
  obtain ⟨trail, texts, gap, rest, htexts, rfl, hcloses⟩ := h
  obtain ⟨front, rfl, hfront⟩ := holds_of_enter enter ht
  obtain ⟨outer, houter⟩ := exists_gap cs
  refine ⟨outer, _, gap, rest, hfront .none trail htexts, ?_, hcloses⟩
  rw [houter, next]
  simp [joined]

theorem Continues.empty {b : Bracket} {stack : List Bracket} {c : Char} {cs ds es left : List Char}
    (next : skipBlank cs = c :: ds) (opened : Bracket.opened? c = some b)
    (closed : skipBlank ds = b.close :: es) (h : Closes stack es left) :
    Continues false stack cs left := by
  obtain ⟨lead, hlead⟩ := exists_gap cs
  obtain ⟨gap, hgap⟩ := exists_gap ds
  refine ⟨lead, _, es, b.holds_nil.isValue opened gap, ?_, h⟩
  rw [hlead, next, hgap, closed]
  simp [joined]

theorem Continues.enter {b : Bracket} {stack : List Bracket} {c : Char}
    {cs ds t more left : List Char} {g : Gap} (next : skipBlank cs = c :: ds)
    (opened : Bracket.opened? c = some b)
    (enter : b.enter (skipBlank ds) = .ok (g.text ++ (t ++ more))) (ht : IsValue t)
    (h : Closes (b :: stack) more left) : Continues false stack cs left := by
  obtain ⟨trail, texts, gap, rest, htexts, rfl, hcloses⟩ := h
  obtain ⟨front, hfront, hholds⟩ := holds_of_enter enter ht
  obtain ⟨outer, houter⟩ := exists_gap cs
  obtain ⟨inner, hinner⟩ := exists_gap ds
  refine ⟨outer, _, rest, (hholds inner trail htexts).isValue opened gap, ?_, hcloses⟩
  rw [houter, next, hinner, hfront]
  simp [joined]

theorem Passes.continues {done : Bool} {stack : List Bracket} {cs left : List Char}
    (h : Passes done stack cs left) : Continues done stack cs left := by
  induction h with
  | finished => rfl
  | close next _ ih => exact Closes.close next ih
  | comma next enter _ ih =>
    obtain ⟨_, _, _, ht, rfl, hcloses⟩ := ih
    exact Closes.comma next enter ht hcloses
  | @plain stack c cs ds es left next opened value _ ih =>
    obtain ⟨t, ht, happend⟩ := isValue_of_skipPlain value
    obtain ⟨lead, hlead⟩ := exists_gap cs
    exact ⟨lead, t, es, ht, by rw [hlead, next, happend], ih⟩
  | empty next opened closed _ ih => exact Continues.empty next opened closed ih
  | enter next opened first _ enter _ ih =>
    obtain ⟨_, _, _, ht, rfl, hcloses⟩ := ih
    exact Continues.enter next opened (first ▸ enter) ht hcloses

/-- **Nothing but a value** of the grammar is passed over. -/
theorem exists_value_of_skipValue {cs left : List Char} (h : skipValue cs = .ok left) :
    ∃ (lead : Gap) (t : List Char), IsValue t ∧ cs = lead.text ++ (t ++ left) := by
  obtain ⟨lead, t, more, ht, hcs, hcloses⟩ := (skipValue_eq_ok_iff.1 h).continues
  exact ⟨lead, t, ht, hcloses ▸ hcs⟩

end Stride.Json
