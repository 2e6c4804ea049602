import Stride.Proofs.Json.Members

namespace Stride.Json

/-!
# Texts spelled otherwise

Two texts of a record mean the same if one is the other with its members in another order, with
members added that no field goes by, with a field called by another of its names, or without a
member that gives a field its default; and likewise if a value within it is spelled otherwise.  A
second member for a field, on the other hand, is refused at once, whatever its value is.

* `Usage` — the names and defaults that a text may count on.
* `Change` — what may be done to the members of an object.
* `Obeys` — a reader that does not mind, but refuses a field that is given twice.
* `obeys_record`, `obeys_list` — records and lists.
-/

/-- A relation between the texts of two values: the second is the first after a change.  If the
    change gives a field a second time, then it comes with the name of that field. -/
abbrev Rewriting := (twice : Option String) → List Char → List Char → Prop

/-- Nothing is changed. -/
def Rewriting.none : Rewriting := fun _ _ _ => False

/-- What a text of a record may count on. -/
structure Usage (ι : Type) (V : ι → Type) where
  /-- The names that a field goes by. -/
  names : ι → List (List Char)
  /-- The values that a field may have when it is left out. -/
  IsDefault : (k : ι) → V k → Prop

section

variable {ι : Type} {V : ι → Type}

/-- A schema whose fields go by these names and no others, and have these defaults. -/
structure Schema.Honours (s : Schema ι V) (u : Usage ι V) : Prop where
  /-- A field is found by its names. -/
  field?_eq_some_iff : ∀ {name k}, s.field? name = some k ↔ name ∈ u.names k
  /-- A field that is left out has its default. -/
  missing : ∀ {k v}, u.IsDefault k v → s.missing k = some v

namespace Usage

variable (u : Usage ι V)

/-- The key of a member is a name of a field. -/
def Gives (m : Member) (k : ι) : Prop := ∃ name, keyName m.key = .ok name ∧ name ∈ u.names k

/-- The key of a member is not the name of any field. -/
def Unknown (m : Member) : Prop := ∃ name, keyName m.key = .ok name ∧ ∀ k, name ∉ u.names k

end Usage

/-- A member with another value. -/
def Member.withValue (m : Member) (t : List Char) : Member :=
  { m with item := { m.item with value := t } }

/-- A member with another key. -/
def Member.withKey (m : Member) (key : List Char) : Member := { m with key }

/-- One change to the members of an object, where the value of the field `k` may be changed as
    `inner k` says. -/
inductive Change (s : Schema ι V) (u : Usage ι V) (value : (k : ι) → Reader (V k))
    (inner : ι → Rewriting) : (twice : Option String) → List Member → List Member → Prop
  /-- The members are put in another order. -/
  | permute {ms ms'} (perm : ms.Perm ms') : Change s u value inner none ms ms'
  /-- A member is added whose key is unknown and whose value is any value at all. -/
  | add {before after m} (sound : m.IsSound) (unknown : u.Unknown m) :
      Change s u value inner none (before ++ after) (before ++ m :: after)
  /-- A field is called by another name. -/
  | rename {before after m k key} (gives : u.Gives m k) (sound : IsStringBody key)
      (renamed : u.Gives (m.withKey key) k) :
      Change s u value inner none (before ++ m :: after) (before ++ m.withKey key :: after)
  /-- A member is dropped that gives a field its default. -/
  | drop {before after m k v} (gives : u.Gives m k) (reads : alone (value k) m.item.value = .ok v)
      (default : u.IsDefault k v) :
      Change s u value inner none (before ++ m :: after) (before ++ after)
  /-- A field is given a second time, anywhere behind the first and with any value at all. -/
  | again {before between after m n k} (first : u.Gives m k) (second : u.Gives n k)
      (sound : n.IsSound) :
      Change s u value inner (some (s.key k)) (before ++ m :: (between ++ after))
        (before ++ m :: (between ++ n :: after))
  /-- The value of a field is changed. -/
  | value {twice before after m k t} (gives : u.Gives m k)
      (changed : inner k twice m.item.value t) :
      Change s u value inner twice (before ++ m :: after) (before ++ m.withValue t :: after)

/-- An object whose members are changed. -/
inductive OnMembers (R : Option String → List Member → List Member → Prop) : Rewriting
  /-- The white space in front of the closing bracket stays. -/
  | mk {twice ms ms'} (sound : ∀ m ∈ ms, m.IsSound) (changed : R twice ms ms') (gap : Gap) :
      OnMembers R twice (objectText ms gap) (objectText ms' gap)

/-- An array of which one element is changed. -/
inductive OnElement (R : Rewriting) : Rewriting
  /-- All other elements stay. -/
  | mk {twice before after i t} (sound : ∀ j ∈ before ++ i :: after, IsValue j.value)
      (changed : R twice i.value t) (gap : Gap) :
      OnElement R twice (arrayText (before ++ i :: after) gap)
        (arrayText (before ++ { i with value := t } :: after) gap)

end

/-- What is read after a change: the same value as before, unless a field is given twice. -/
def verdict {β : Type} (v : β) : (twice : Option String) → Except Fault β
  | none => .ok v
  | some name => .error (.mismatch (.duplicateField name))

/-- A reader that does not mind a change to its texts, but refuses a field that is given twice. -/
def Obeys {β : Type} (r : Reader β) (R : Rewriting) : Prop :=
  ∀ ⦃twice t t'⦄, R twice t t' →
    IsValue t ∧ IsValue t' ∧ ∀ ⦃v⦄, alone r t = .ok v → alone r t' = verdict v twice

theorem obeys_none {β : Type} (r : Reader β) : Obeys r .none := fun _ _ _ h => h.elim

/-! ### Members -/

namespace Schema

variable {ι : Type} [DecidableEq ι] {V : ι → Type} {s : Schema ι V} {value : (k : ι) → Reader (V k)}
  {p q : Partial V} {m : Member}

/-- A member that gives a value to a field is refused if the field has one, and read otherwise. -/
theorem take_gives {u : Usage ι V} (hu : s.Honours u) {k : ι} (hm : u.Gives m k) :
    s.take value p m =
      if (p k).isSome then .error (.mismatch (.duplicateField (s.key k)))
      else (alone (value k) m.item.value).map fun v => p.set k v := by
  obtain ⟨name, hname, hknown⟩ := hm
  rw [take, hname]
  show s.give value p name m.item.value = _
  rw [give, hu.field?_eq_some_iff.2 hknown]

theorem take_eq_ok {u : Usage ι V} (hu : s.Honours u) {k : ι} (hm : u.Gives m k) :
    s.take value p m = .ok q ↔
      p k = none ∧ ∃ v, alone (value k) m.item.value = .ok v ∧ q = p.set k v := by
  rw [take_gives hu hm]
  cases hp : p k with
  | some v => simp
  | none =>
    cases hv : alone (value k) m.item.value with
    | error fault => simp [Except.map]
    | ok v => simp [Except.map, eq_comm]

theorem take_unknown {u : Usage ι V} (hu : s.Honours u) (hm : u.Unknown m) (p : Partial V) :
    s.take value p m = .ok p := by
  obtain ⟨name, hname, hunknown⟩ := hm
  refine take_eq_ok_iff.2 ⟨name, hname, .inl ⟨?_, rfl⟩⟩
  rw [Option.eq_none_iff_forall_ne_some]
  intro k hk
  exact hunknown k (hu.field?_eq_some_iff.1 hk)

/-- A second member for a field is refused before its value is looked at. -/
theorem take_again {u : Usage ι V} (hu : s.Honours u) {k : ι} (hm : u.Gives m k)
    (hp : (p k).isSome = true) :
    s.take value p m = .error (.mismatch (.duplicateField (s.key k))) := by
  rw [take_gives hu hm]
  exact if_pos hp

theorem ofMembers_add {u : Usage ι V} (hu : s.Honours u) (hm : u.Unknown m)
    {before after : List Member} {v : (k : ι) → V k}
    (hv : s.ofMembers value (before ++ after) = .ok v) :
    s.ofMembers value (before ++ m :: after) = .ok v := by
  obtain ⟨q, hq, hcomplete⟩ := ofMembers_eq_ok_iff.1 hv
  rw [List.foldlM_append] at hq
  obtain ⟨p, hbefore, hafter⟩ := bind_eq_ok_iff.1 hq
  exact ofMembers_eq_ok_iff.2
    ⟨q, takes_middle.2 ⟨p, p, hbefore, take_unknown hu hm p, hafter⟩, hcomplete⟩

theorem ofMembers_drop {u : Usage ι V} (hu : s.Honours u) {k : ι} (hm : u.Gives m k) {d : V k}
    (hd : alone (value k) m.item.value = .ok d) (hdefault : u.IsDefault k d)
    {before after : List Member} {v : (k : ι) → V k}
    (hv : s.ofMembers value (before ++ m :: after) = .ok v) :
    s.ofMembers value (before ++ after) = .ok v := by
  -- the member may as well be the last
  have hlast : (before ++ m :: after).Perm (before ++ after ++ [m]) :=
    List.perm_middle.trans (List.perm_append_singleton m _).symm
  obtain ⟨q, hq, hcomplete⟩ := ofMembers_eq_ok_iff.1 (ofMembers_perm hlast hv)
  obtain ⟨p, q', hp, htake, hnil⟩ := takes_middle.1 hq
  obtain rfl : q' = q := Except.ok.inj hnil
  obtain ⟨hnone, d', hd', rfl⟩ := (take_eq_ok hu hm).1 htake
  obtain rfl : d = d' := Except.ok.inj (hd.symm.trans hd')
  refine ofMembers_eq_ok_iff.2 ⟨p, hp, fun j => ?_⟩
  rw [← hcomplete j]
  by_cases hj : k = j
  · subst hj
    simp [Partial.orElse, hnone, hu.missing hdefault]
  · simp [Partial.orElse, p.set_of_ne hj]

/-- The first member that is refused decides the fault. -/
theorem ofMembers_error {before after : List Member} {fault : Fault}
    (hbefore : before.foldlM (s.take value) .none = .ok p)
    (htake : s.take value p m = .error fault) :
    s.ofMembers value (before ++ m :: after) = .error fault := by
  rw [ofMembers, List.foldlM_append, hbefore]
  show ((m :: after).foldlM (s.take value) p >>= _) = _
  rw [List.foldlM_cons, htake]
  rfl

/-- **A second member** for a field is refused, wherever it stands behind the first. -/
theorem ofMembers_twice {u : Usage ι V} (hu : s.Honours u) {n : Member} {k : ι}
    (hm : u.Gives m k) (hn : u.Gives n k) {before between after : List Member}
    {v : (k : ι) → V k} (hv : s.ofMembers value (before ++ m :: (between ++ after)) = .ok v) :
    s.ofMembers value (before ++ m :: (between ++ n :: after)) =
      .error (.mismatch (.duplicateField (s.key k))) := by
  obtain ⟨q, hq, -⟩ := ofMembers_eq_ok_iff.1 hv
  obtain ⟨p₁, p₂, hbefore, htake, hrest⟩ := takes_middle.1 hq
  rw [List.foldlM_append] at hrest
  obtain ⟨p₃, hbetween, -⟩ := bind_eq_ok_iff.1 hrest
  have hp₂ : (p₂ k).isSome = true := by
    obtain ⟨-, d, -, rfl⟩ := (take_eq_ok hu hm).1 htake
    rw [p₁.set_same]
    rfl
  have hfirst : (before ++ m :: between).foldlM (s.take value) .none = .ok p₃ :=
    takes_middle.2 ⟨p₁, p₂, hbefore, htake, hbetween⟩
  have htwice : s.ofMembers value (before ++ m :: between ++ n :: after) = _ :=
    ofMembers_error hfirst (take_again hu hn (isSome_takes hbetween hp₂))
  rwa [List.append_assoc, List.cons_append] at htwice

/-- A member whose value is refused. -/
theorem take_error {u : Usage ι V} (hu : s.Honours u) {k : ι} (hm : u.Gives m k) (hp : p k = none)
    {fault : Fault} (hvalue : alone (value k) m.item.value = .error fault) :
    s.take value p m = .error fault := by
  rw [take_gives hu hm, hp, hvalue]
  rfl

end Schema

/-! ### Records -/

/-- Members that are sound, with another in the place of one of them. -/
theorem forall_isSound_replace {before after : List Member} {m n : Member}
    (h : ∀ o ∈ before ++ m :: after, o.IsSound) (hn : m.IsSound → n.IsSound) :
    ∀ o ∈ before ++ n :: after, o.IsSound := by
  simp only [List.mem_append, List.mem_cons, or_imp, forall_and, forall_eq] at h ⊢
  exact ⟨h.1, hn h.2.1, h.2.2⟩

section

variable {ι : Type} {V : ι → Type} {s : Schema ι V} {u : Usage ι V}
  {value : (k : ι) → Reader (V k)} {inner : ι → Rewriting} {twice : Option String}
  {ms ms' : List Member}

/-- The members are still well formed. -/
theorem Change.sound (hinner : ∀ k, Obeys (value k) (inner k))
    (h : Change s u value inner twice ms ms') (hms : ∀ m ∈ ms, m.IsSound) :
    ∀ m ∈ ms', m.IsSound := by
  cases h with
  | permute perm => exact fun m hm => hms m (perm.mem_iff.2 hm)
  | rename _ sound _ => exact forall_isSound_replace hms fun hm => ⟨sound, hm.value⟩
  | value _ changed =>
    exact forall_isSound_replace hms fun hm => ⟨hm.key, (hinner _ changed).2.1⟩
  | add sound _ =>
    simp only [List.mem_append, List.mem_cons, or_imp, forall_and, forall_eq] at hms ⊢
    exact ⟨hms.1, sound, hms.2⟩
  | drop _ _ _ =>
    simp only [List.mem_append, List.mem_cons, or_imp, forall_and, forall_eq] at hms ⊢
    exact ⟨hms.1, hms.2.2⟩
  | again _ _ sound =>
    simp only [List.mem_append, List.mem_cons, or_imp, forall_and, forall_eq] at hms ⊢
    exact ⟨hms.1, hms.2.1, hms.2.2.1, sound, hms.2.2.2⟩

variable [DecidableEq ι]

/-- **One change** to the members keeps the record, unless it gives a field twice. -/
theorem Change.ofMembers (hu : s.Honours u) (hinner : ∀ k, Obeys (value k) (inner k))
    (h : Change s u value inner twice ms ms') {v : (k : ι) → V k}
    (hv : s.ofMembers value ms = .ok v) : s.ofMembers value ms' = verdict v twice := by
  cases h with
  | permute perm => exact Schema.ofMembers_perm perm hv
  | add _ unknown => exact Schema.ofMembers_add hu unknown hv
  | rename gives _ renamed =>
    refine Schema.ofMembers_replace (fun p q htake => ?_) hv
    exact (Schema.take_eq_ok hu renamed).2 ((Schema.take_eq_ok hu gives).1 htake)
  | drop gives reads default => exact Schema.ofMembers_drop hu gives reads default hv
  | again first second _ => exact Schema.ofMembers_twice hu first second hv
  | @value twice before after m k t gives changed =>
    -- the new value reads as the old one, or in such a way that the record gives a field twice
    have hgives : u.Gives (m.withValue t) k := gives
    have hvalue := (hinner k changed).2.2
    cases twice with
    | none =>
      refine Schema.ofMembers_replace (fun p q htake => ?_) hv
      obtain ⟨hp, w, hw, hq⟩ := (Schema.take_eq_ok hu gives).1 htake
      exact (Schema.take_eq_ok hu hgives).2 ⟨hp, w, hvalue hw, hq⟩
    | some name =>
      obtain ⟨q, hq, -⟩ := Schema.ofMembers_eq_ok_iff.1 hv
      obtain ⟨p, p', hbefore, htake, -⟩ := Schema.takes_middle.1 hq
      obtain ⟨hp, w, hw, -⟩ := (Schema.take_eq_ok hu gives).1 htake
      exact Schema.ofMembers_error hbefore (Schema.take_error hu hgives hp (hvalue hw))

/-- **A record** may be changed in its members. -/
theorem obeys_record (hs : ∀ k, Framed (value k)) (hu : s.Honours u)
    (hinner : ∀ k, Obeys (value k) (inner k)) :
    Obeys (s.record (some value)) (OnMembers (Change s u value inner)) := by
  rintro twice _ _ ⟨hms, hchange, gap⟩
  have hms' := hchange.sound hinner hms
  refine ⟨isValue_object hms gap, isValue_object hms' gap, fun v hv => ?_⟩
  rw [Schema.alone_record hs hms] at hv
  rw [Schema.alone_record hs hms']
  exact hchange.ofMembers hu hinner hv

end

/-! ### Lists and other values -/

section

variable {β γ : Type}

theorem Obeys.map {r : Reader β} {R : Rewriting} (h : Obeys r R) (f : β → γ) :
    Obeys (r.map f) R := by
  intro twice t t' ht
  obtain ⟨hvalue, hvalue', hreads⟩ := h ht
  refine ⟨hvalue, hvalue', fun v hv => ?_⟩
  rw [Framed.alone_map] at hv ⊢
  cases ht₀ : alone r t with
  | error fault =>
    rw [ht₀] at hv
    cases hv
  | ok w =>
    rw [ht₀] at hv
    cases hv
    rw [hreads ht₀]
    cases twice <;> rfl

theorem mapM_middle {f : β → Except Fault γ} {before after : List β} {b : β} {vs : List γ} :
    (before ++ b :: after).mapM f = .ok vs ↔ ∃ us v ws,
      before.mapM f = .ok us ∧ f b = .ok v ∧ after.mapM f = .ok ws ∧ vs = us ++ v :: ws := by
  simp only [List.mapM_append, List.mapM_cons, bind_eq_ok_iff, pure, Except.pure,
    Except.ok.injEq]
  constructor
  · rintro ⟨us, hus, _, ⟨v, hv, ws, hws, rfl⟩, rfl⟩
    exact ⟨us, v, ws, hus, hv, hws, rfl⟩
  · rintro ⟨us, v, ws, hus, hv, hws, rfl⟩
    exact ⟨us, hus, _, ⟨v, hv, ws, hws, rfl⟩, rfl⟩

theorem mapM_error {f : β → Except Fault γ} {before after : List β} {b : β} {us : List γ}
    {fault : Fault} (hbefore : before.mapM f = .ok us) (hb : f b = .error fault) :
    (before ++ b :: after).mapM f = .error fault := by
  rw [List.mapM_append, hbefore]
  show ((b :: after).mapM f >>= fun ws => .ok (us ++ ws)) = _
  rw [List.mapM_cons, hb]
  rfl

theorem forall_isValue_replace {before after : List Item} {i : Item} {t : List Char}
    (h : ∀ j ∈ before ++ i :: after, IsValue j.value) (ht : IsValue t) :
    ∀ j ∈ before ++ { i with value := t } :: after, IsValue j.value := by
  simp only [List.mem_append, List.mem_cons, or_imp, forall_and, forall_eq] at h ⊢
  exact ⟨h.1, ht, h.2.2⟩

/-- **A list** may be changed in one of its elements. -/
theorem obeys_list {element : Decoder β} {room : Nat} (hs : Framed (element room)) {R : Rewriting}
    (h : Obeys (element room) R) : Obeys (list element (room + 1)) (OnElement R) := by
  rintro twice _ _ ⟨hitems, hchanged, gap⟩
  obtain ⟨-, ht, hreads⟩ := h hchanged
  have hitems' := forall_isValue_replace hitems ht
  refine ⟨.array hitems gap, .array hitems' gap, fun vs hvs => ?_⟩
  rw [alone_list hs hitems] at hvs
  rw [alone_list hs hitems']
  obtain ⟨us, v, ws, hus, hv, hws, rfl⟩ := mapM_middle.1 hvs
  have hvalue := hreads hv
  cases twice with
  | none => exact mapM_middle.2 ⟨us, v, ws, hus, hvalue, hws, rfl⟩
  | some name => exact mapM_error hus hvalue

/-- A record that may also be null may be changed as the record is. -/
theorem obeys_nullable {r : Reader β} {R : Option String → List Member → List Member → Prop}
    (h : Obeys r (OnMembers R)) : Obeys (nullable r) (OnMembers R) := by
  -- the text of an object is not that of a word, before the change or after it
  have hobject (ms : List Member) (gap : Gap) :
      alone (nullable r) (objectText ms gap) = alone (r.map some) (objectText ms gap) := rfl
  rintro twice _ _ ⟨hms, hchange, gap⟩
  obtain ⟨hvalue, hvalue', hreads⟩ := h.map some ⟨hms, hchange, gap⟩
  refine ⟨hvalue, hvalue', fun v hv => ?_⟩
  rw [hobject] at hv ⊢
  exact hreads hv

/-! ### Nested values -/

variable {ι : Type} [DecidableEq ι] {V : ι → Type}

/-- What may be done to the text of a record, where the value of the field `k` may be changed as
    `inner k` says. -/
def Schema.rewriting (s : Schema ι V) (u : Usage ι V) (value : (k : ι) → Decoder (V k))
    (inner : ι → Nat → Rewriting) : (room : Nat) → Rewriting
  | 0 => .none
  | room + 1 => OnMembers (Change s u (fun k => value k room) fun k => inner k room)

theorem obeys_decode {s : Schema ι V} {u : Usage ι V} {value : (k : ι) → Decoder (V k)}
    {inner : ι → Nat → Rewriting} (hs : ∀ k room, Framed (value k room)) (hu : s.Honours u)
    (hinner : ∀ k room, Obeys (value k room) (inner k room)) (room : Nat) :
    Obeys (s.decode value room) (s.rewriting u value inner room) := by
  cases room with
  | zero => exact obeys_none _
  | succ room => exact obeys_record (fun k => hs k room) hu fun k => hinner k room

/-- What may be done to the text of a list, of which an element may be changed as `inner` says. -/
def Rewriting.list (inner : Nat → Rewriting) : (room : Nat) → Rewriting
  | 0 => .none
  | room + 1 => OnElement (inner room)

theorem obeys_elements {element : Decoder β} {inner : Nat → Rewriting}
    (hs : ∀ room, Framed (element room)) (h : ∀ room, Obeys (element room) (inner room))
    (room : Nat) : Obeys (list element room) (Rewriting.list inner room) := by
  cases room with
  | zero => exact obeys_none _
  | succ room => exact obeys_list (hs room) (h room)

omit [DecidableEq ι] in
/-- A schema honours a usage if no two of its fields share a name. -/
theorem Schema.honours_of {s : Schema ι V} {u : Usage ι V}
    (names : ∀ k ∈ s.fields, (s.keys k).map String.toList = u.names k)
    (distinct : ∀ j ∈ s.fields, ∀ k ∈ s.fields, ∀ name ∈ u.names j, name ∈ u.names k → j = k)
    (missing : ∀ {k v}, u.IsDefault k v → s.missing k = some v) : s.Honours u where
  field?_eq_some_iff {name k} := by
    have hfield (k : ι) : ((s.keys k).any fun key => key.toList == name) = true ↔
        name ∈ u.names k := by
      rw [← names k (s.mem_fields k)]
      simp
    have hfound {j : ι} (h : s.field? name = some j) : name ∈ u.names j := by
      have hmatch := List.find?_some h
      exact (hfield j).1 hmatch
    refine ⟨hfound, fun h => ?_⟩
    cases hfind : s.field? name with
    | none => exact absurd ((hfield k).2 h) (List.find?_eq_none.1 hfind k (s.mem_fields k))
    | some j => rw [distinct j (s.mem_fields j) k (s.mem_fields k) name (hfound hfind) h]
  missing := missing

end

end Stride.Json
