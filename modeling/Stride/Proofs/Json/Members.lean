import Stride.Proofs.Json.Framed

namespace Stride.Json

/-!
# Members of an object

The members of an object are taken one after the other, and each gives a value to its field or is
passed over.  What an object is read as is said by its members alone: the white space around them
and the text around the object do not matter.

* `Schema.take` — what a member does to the fields that have been read.
* `Schema.ofMembers` — the record of some members.
* `Schema.members_within` — the loop over the members takes them one by one.
* `Schema.take_eq_ok_iff`, `Schema.takes_perm` — what members do, and in which order.
* `Schema.record_framed`, `Schema.alone_record` — a record within a text, and alone.
-/

/-- What stands behind the bracket of an object, or behind one of its members. -/
def within (first : Bool) (ms : List Member) (gap : Gap) (rest : List Char) : List Char :=
  joined first (ms.map Member.text) ++ (gap.text ++ '\x7d' :: rest)

theorem stops_within (ms : List Member) (gap : Gap) (rest : List Char) :
    Stops (within false ms gap rest) :=
  stops_joined .object _ gap rest

/-- A value that starts as an object is one. -/
theorem IsValue.exists_members {cs : List Char} (h : IsValue ('\x7b' :: cs)) :
    ∃ (ms : List Member) (gap : Gap), (∀ m ∈ ms, m.IsSound) ∧
      ∀ rest, cs ++ rest = within true ms gap rest := by
  generalize ht : '\x7b' :: cs = t at h
  cases h with
  | number numeral =>
    obtain ⟨d, ds, rfl, hd⟩ := numeral.starts
    cases ht
    cases hd
  | @object ms keys values gap =>
    cases ht
    exact ⟨ms, gap, fun m hm => ⟨keys m hm, values m hm⟩, fun rest => by simp [within]⟩
  | _ => cases ht

namespace Schema

section

theorem nextKey_gap (first : Bool) (g : Gap) (cs : List Char) :
    nextKey first (g.text ++ cs) = nextKey first cs := by
  rw [nextKey, nextKey, g.skipBlank]

theorem nextKey_within_nil (first : Bool) (gap : Gap) (rest : List Char) :
    nextKey first (within first [] gap rest) = .ok (none, rest) := by
  rw [within, List.map_nil, joined, List.nil_append, nextKey_gap, nextKey_close]

theorem nextKey_within_cons (first : Bool) {m : Member} (hm : m.IsSound) (ms : List Member)
    (gap : Gap) (rest : List Char) :
    nextKey first (within first (m :: ms) gap rest) = (keyName m.key).map fun name =>
      (some name, m.gap.text ++ ':' :: (m.item.text ++ within false ms gap rest)) := by
  set after := m.gap.text ++ ':' :: (m.item.text ++ within false ms gap rest) with hafter
  have hskip : skipBlank (m.text ++ within false ms gap rest) = '"' :: (m.key ++ '"' :: after) := by
    rw [Member.text, List.append_assoc, m.lead.skipBlank, List.cons_append, skipBlank_cons rfl]
    simp [hafter]
  have hkey : (stringRest (m.key ++ '"' :: after) >>= fun found => .ok (some found.1, found.2)) =
      (keyName m.key).map fun name => (some name, after) := by
    rw [stringRest_body hm.key]
    cases keyName m.key <;> rfl
  cases first with
  | true =>
    rw [within, List.map_cons, joined, List.append_assoc, nextKey, ← within, hskip]
    exact hkey
  | false =>
    rw [within, List.map_cons, joined, List.cons_append, List.cons_append, List.append_assoc,
      nextKey, skipBlank_cons rfl, ← within]
    simp only [hskip]
    exact hkey

end

variable {ι : Type} [DecidableEq ι] {V : ι → Type} (s : Schema ι V)

/-- What a member of a name does to the fields that have been read, if its value is `t`. -/
def give (value : (k : ι) → Reader (V k)) (p : Partial V) (name t : List Char) :
    Except Fault (Partial V) :=
  match s.field? name with
  | none => .ok p
  | some k =>
    if (p k).isSome then .error (.mismatch (.duplicateField (s.key k)))
    else (alone (value k) t).map fun v => p.set k v

/-- What a member does to the fields that have been read. -/
def take (value : (k : ι) → Reader (V k)) (p : Partial V) (m : Member) : Except Fault (Partial V) :=
  keyName m.key >>= fun name => s.give value p name m.item.value

/-- The record of some members. -/
def ofMembers (value : (k : ι) → Reader (V k)) (ms : List Member) : Except Fault ((k : ι) → V k) :=
  ms.foldlM (s.take value) .none >>= fun p => s.complete (p.orElse s.missing)

variable {s} {value : (k : ι) → Reader (V k)} {p q : Partial V} {m : Member}

theorem member_within (h : ∀ k, Framed (value k)) {m : Member} (hm : m.IsSound)
    (name : List Char) (p : Partial V) {more : List Char} (hmore : Stops more) :
    s.member value name p (m.gap.text ++ ':' :: (m.item.text ++ more)) =
      (s.give value p name m.item.value).map fun p => (p, m.item.trail.text ++ more) := by
  have htrail := (stops_gap m.item.trail more).2 hmore
  have hitem : m.item.text ++ more =
      m.item.lead.text ++ (m.item.value ++ (m.item.trail.text ++ more)) := by simp [Item.text]
  have hcolon : colon (m.gap.text ++ ':' :: (m.item.text ++ more)) =
      .ok (m.item.lead.text ++ (m.item.value ++ (m.item.trail.text ++ more))) := by
    rw [colon_gap, hitem]
  unfold member give
  cases s.field? name with
  | none =>
    -- a member that no field takes is passed over
    simp only [hcolon]
    show (skipValue _ >>= fun cs => .ok (p, cs)) = _
    rw [hm.value.skip m.item.lead htrail]
    rfl
  | some k =>
    simp only [hcolon]
    split_ifs
    · rfl
    · show (value k _ >>= fun found => .ok (p.set k found.1, found.2)) = _
      rw [h k hm.value m.item.lead htrail]
      cases alone (value k) m.item.value <;> rfl

/-- **The loop over the members** takes them one by one. -/
theorem members_within (h : ∀ k, Framed (value k)) {ms : List Member} (hms : ∀ m ∈ ms, m.IsSound)
    {fuel : List Char} (hfuel : ms.length < fuel.length) (first : Bool) (p : Partial V)
    (lead gap : Gap) (rest : List Char) :
    s.members value fuel first p (lead.text ++ within first ms gap rest) =
      (ms.foldlM (s.take value) p).map fun p => (p, rest) := by
  -- the fuel has one character for each member that is left, and one for the bracket
  induction ms generalizing fuel first p lead with
  | nil =>
    cases fuel with
    | nil => cases hfuel
    | cons _ fuel =>
      rw [members, nextKey_gap, nextKey_within_nil]
      rfl
  | cons m ms ih =>
    cases fuel with
    | nil => cases hfuel
    | cons _ fuel =>
      have hm := hms m List.mem_cons_self
      rw [members, nextKey_gap, nextKey_within_cons first hm, List.foldlM_cons, take]
      cases keyName m.key with
      | error fault => rfl
      | ok name =>
        show (s.member value name p _ >>= fun found =>
          s.members value fuel false found.1 found.2) = _
        rw [member_within h hm name p (stops_within ms gap rest)]
        show _ = (s.give value p name m.item.value >>= fun p => ms.foldlM (s.take value) p).map _
        cases s.give value p name m.item.value with
        | error fault => rfl
        | ok q =>
          exact ih (fun n hn => hms n (List.mem_cons_of_mem m hn)) (Nat.lt_of_succ_lt_succ hfuel)
            false q m.item.trail

theorem length_lt_within (ms : List Member) (gap : Gap) (rest : List Char) :
    ms.length < (within true ms gap rest).length := by
  have hne : ∀ text ∈ ms.map Member.text, text ≠ [] := by simp [Member.text]
  have hle := length_le_joined hne true
  rw [List.length_map] at hle
  simp only [within, List.length_append, List.length_cons]
  omega

/-- **An object** is read as the record of its members. -/
theorem object_within (h : ∀ k, Framed (value k)) {ms : List Member} (hms : ∀ m ∈ ms, m.IsSound)
    (gap : Gap) (rest : List Char) :
    s.object value (within true ms gap rest) =
      (s.ofMembers value ms).map fun v => (v, rest) := by
  have hmembers := members_within (s := s) h hms (length_lt_within ms gap rest) true .none .none gap
    rest
  rw [Gap.text_none, List.nil_append] at hmembers
  rw [object, ofMembers, hmembers]
  cases ms.foldlM (s.take value) .none with
  | error fault => rfl
  | ok p =>
    show (s.complete (p.orElse s.missing) >>= fun v => .ok (v, rest)) =
      (s.complete (p.orElse s.missing)).map fun v => (v, rest)
    cases s.complete (p.orElse s.missing) <;> rfl

/-! ### What members do -/

/-- A member whose key no field goes by is passed over, and any other gives a value to a field that
    had none. -/
theorem take_eq_ok_iff : s.take value p m = .ok q ↔ ∃ name, keyName m.key = .ok name ∧
    (s.field? name = none ∧ q = p ∨ ∃ k v, s.field? name = some k ∧ p k = none ∧
      alone (value k) m.item.value = .ok v ∧ q = p.set k v) := by
  rw [take, bind_eq_ok_iff]
  refine exists_congr fun name => and_congr_right fun _ => ?_
  unfold give
  cases s.field? name with
  | none => simp [eq_comm]
  | some k =>
    cases hp : p k with
    | some v => simp [hp]
    | none =>
      cases hv : alone (value k) m.item.value with
      | error fault => simp [hp, hv, Except.map]
      | ok v => simp [hp, hv, Except.map, eq_comm]

/-- A field keeps its value. -/
theorem isSome_take (h : s.take value p m = .ok q) {k : ι} (hp : (p k).isSome = true) :
    (q k).isSome = true := by
  obtain ⟨-, -, ⟨-, rfl⟩ | ⟨j, v, -, hj, -, rfl⟩⟩ := take_eq_ok_iff.1 h
  · exact hp
  · have hne : j ≠ k := by
      rintro rfl
      rw [hj] at hp
      cases hp
    rwa [p.set_of_ne hne]

theorem isSome_takes {ms : List Member} (h : ms.foldlM (s.take value) p = .ok q) {k : ι}
    (hp : (p k).isSome = true) : (q k).isSome = true := by
  induction ms generalizing p with
  | nil =>
    cases h
    exact hp
  | cons m ms ih =>
    rw [List.foldlM_cons] at h
    obtain ⟨p', htake, h⟩ := bind_eq_ok_iff.1 h
    exact ih h (isSome_take htake hp)

/-- Two members may be taken in either order. -/
theorem take_comm {m n : Member} {r : Partial V} (hm : s.take value p m = .ok q)
    (hn : s.take value q n = .ok r) :
    ∃ q', s.take value p n = .ok q' ∧ s.take value q' m = .ok r := by
  obtain ⟨a, ha, hm⟩ := take_eq_ok_iff.1 hm
  obtain ⟨b, hb, hn⟩ := take_eq_ok_iff.1 hn
  obtain ⟨hja, rfl⟩ | ⟨j, v, hja, hpj, hv, rfl⟩ := hm
  · exact ⟨r, take_eq_ok_iff.2 ⟨b, hb, hn⟩, take_eq_ok_iff.2 ⟨a, ha, .inl ⟨hja, rfl⟩⟩⟩
  · obtain ⟨hkb, rfl⟩ | ⟨k, w, hkb, hpk, hw, rfl⟩ := hn
    · exact ⟨p, take_eq_ok_iff.2 ⟨b, hb, .inl ⟨hkb, rfl⟩⟩,
        take_eq_ok_iff.2 ⟨a, ha, .inr ⟨j, v, hja, hpj, hv, rfl⟩⟩⟩
    · -- the second member gives a value to another field than the first
      have hne : j ≠ k := by
        rintro rfl
        rw [p.set_same] at hpk
        cases hpk
      rw [p.set_of_ne hne] at hpk
      refine ⟨p.set k w, take_eq_ok_iff.2 ⟨b, hb, .inr ⟨k, w, hkb, hpk, hw, rfl⟩⟩,
        take_eq_ok_iff.2 ⟨a, ha, .inr ⟨j, v, hja, ?_, hv, p.set_comm hne v w⟩⟩⟩
      rw [p.set_of_ne hne.symm, hpj]

/-- **The order** of the members does not matter. -/
theorem takes_perm {ms ms' : List Member} (hperm : ms.Perm ms')
    (h : ms.foldlM (s.take value) p = .ok q) : ms'.foldlM (s.take value) p = .ok q := by
  induction hperm generalizing p with
  | nil => exact h
  | cons m _ ih =>
    rw [List.foldlM_cons, bind_eq_ok_iff] at h ⊢
    obtain ⟨p', htake, h⟩ := h
    exact ⟨p', htake, ih h⟩
  | swap m n ms =>
    simp only [List.foldlM_cons, bind_eq_ok_iff] at h ⊢
    obtain ⟨p₁, hn, p₂, hm, h⟩ := h
    obtain ⟨p₁', hm', hn'⟩ := take_comm hn hm
    exact ⟨p₁', hm', p₂, hn', h⟩
  | trans _ _ ih₁ ih₂ => exact ih₂ (ih₁ h)

theorem takes_middle {before after : List Member} :
    (before ++ m :: after).foldlM (s.take value) p = .ok q ↔ ∃ p₁ p₂,
      before.foldlM (s.take value) p = .ok p₁ ∧ s.take value p₁ m = .ok p₂ ∧
        after.foldlM (s.take value) p₂ = .ok q := by
  rw [List.foldlM_append, bind_eq_ok_iff]
  refine exists_congr fun p₁ => ?_
  rw [List.foldlM_cons, bind_eq_ok_iff, exists_and_left]

/-- A record has the values that its members give and the defaults of all other fields. -/
theorem ofMembers_eq_ok_iff {ms : List Member} {v : (k : ι) → V k} :
    s.ofMembers value ms = .ok v ↔
      ∃ p, ms.foldlM (s.take value) .none = .ok p ∧ ∀ k, p.orElse s.missing k = some (v k) := by
  rw [ofMembers, bind_eq_ok_iff]
  simp only [complete_eq_ok_iff]

/-- A member that does the same as another may stand in its place. -/
theorem ofMembers_replace {before after : List Member} {n : Member}
    (h : ∀ ⦃p q⦄, s.take value p m = .ok q → s.take value p n = .ok q) {v : (k : ι) → V k}
    (hv : s.ofMembers value (before ++ m :: after) = .ok v) :
    s.ofMembers value (before ++ n :: after) = .ok v := by
  obtain ⟨q, hq, hcomplete⟩ := ofMembers_eq_ok_iff.1 hv
  obtain ⟨p₁, p₂, hbefore, htake, hafter⟩ := takes_middle.1 hq
  exact ofMembers_eq_ok_iff.2
    ⟨q, takes_middle.2 ⟨p₁, p₂, hbefore, h htake, hafter⟩, hcomplete⟩

theorem ofMembers_perm {ms ms' : List Member} (hperm : ms.Perm ms') {v : (k : ι) → V k}
    (hv : s.ofMembers value ms = .ok v) : s.ofMembers value ms' = .ok v := by
  obtain ⟨q, hq, hcomplete⟩ := ofMembers_eq_ok_iff.1 hv
  exact ofMembers_eq_ok_iff.2 ⟨q, takes_perm hperm hq, hcomplete⟩

/-! ### Records -/

/-- At the end of an array, a field has what it has when the array is cut off. -/
theorem positions_cut {k : ι} {ks : List ι} {index : Nat} {p : Partial V} {cs : List Char} {v : V k}
    (hnext : nextElement (index == 0) cs = .ok none) (hcut : s.cut k = some v) :
    s.positions value index (k :: ks) p cs =
      s.positions value (index + 1) ks (p.set k v) cs := by
  rw [positions, hnext]
  simp only [bind, Except.bind, hcut]

/-- At the end of an array, a field that must be given is missed. -/
theorem positions_short {k : ι} {ks : List ι} {index : Nat} {p : Partial V} {cs : List Char}
    (hnext : nextElement (index == 0) cs = .ok none) (hcut : s.cut k = none) :
    s.positions value index (k :: ks) p cs =
      .error (.mismatch (.invalidLength index s.positionalName)) := by
  rw [positions, hnext]
  simp only [bind, Except.bind, hcut]

/-- What remains to be done after the positions of an array. -/
theorem positions_settled (h : ∀ k, Framed (value k)) {γ : Type} {r : Partial V → Reader γ}
    (hr : ∀ first p, Settled first (r p)) (ks : List ι) (index : Nat) (p : Partial V) :
    Settled (index == 0) fun cs => s.positions value index ks p cs >>= fun q => r q.1 q.2 := by
  induction ks generalizing index p with
  | nil => exact hr _ p
  | cons k ks ih =>
    intro items values
    cases items with
    | nil =>
      have hnext (lead gap : Gap) (rest : List Char) :
          nextElement (index == 0) (lead.text ++ behind (index == 0) [] gap rest) = .ok none := by
        rw [nextElement_gap, nextElement_behind_nil]
      -- the array ends here, and what its end means for the field decides
      cases hcut : s.cut k with
      | none =>
        refine ⟨.error (.mismatch (.invalidLength index s.positionalName)),
          fun lead gap rest => ?_⟩
        simp only [positions_short (hnext lead gap rest) hcut]
        rfl
      | some v =>
        obtain ⟨e, he⟩ := ih (index + 1) (p.set k v) values
        refine ⟨e, fun lead gap rest => ?_⟩
        simp only [positions_cut (hnext lead gap rest) hcut]
        exact he lead gap rest
    | cons i items =>
      -- one more item is read, and the rest is settled by induction, whatever its value is
      have hi := values i List.mem_cons_self
      refine Settled.of_next
        (f := fun cs => s.positions value index (k :: ks) p cs >>= fun q => r q.1 q.2)
        (a := alone (value k) i.value) (fun lead gap rest => ?_)
        (fun v => ih (index + 1) (p.set k v)) fun j hj => values j (List.mem_cons_of_mem i hj)
      have hat : s.positions value index (k :: ks) p
          (lead.text ++ behind (index == 0) (i :: items) gap rest) =
            alone (value k) i.value >>= fun v => s.positions value (index + 1) ks (p.set k v)
              (i.trail.text ++ behind false items gap rest) := by
        rw [positions, nextElement_gap, nextElement_behind_cons _ hi]
        show (value k _ >>= fun found =>
          s.positions value (index + 1) ks (p.set k found.1) found.2) = _
        rw [(h k).reads hi ((stops_gap i.trail _).2 (stops_behind items gap rest))]
        cases alone (value k) i.value <;> rfl
      simp only [hat]
      cases alone (value k) i.value <;> rfl

theorem array_settled (h : ∀ k, Framed (value k)) : Settled true (s.array value) := by
  have hend (first : Bool) (p : Partial V) : Settled first fun cs =>
      s.complete p >>= fun v => closing .array cs >>= fun cs => .ok (v, cs) := by
    cases s.complete p with
    | error fault => exact fun _ _ => ⟨.error fault, fun _ _ _ => rfl⟩
    | ok v => exact closing_settled first v
  exact positions_settled h hend s.fields 0 .none

/-- **A record** is read as it is read alone. -/
theorem record_framed {value : Option ((k : ι) → Reader (V k))}
    (h : ∀ readers ∈ value, ∀ k, Framed (readers k)) : Framed (s.record value) := by
  refine .of_takes (fun c => c = '[' ∨ c = '\x7b') s.name ?_ ?_ ?_
  · intro lead cs
    rw [record, record, lead.skipBlank]
  · intro c cs hblank hc
    rw [not_or] at hc
    simp only [record, skipBlank_cons hblank, hc.1, hc.2, if_false]
  · intro c cs hvalue hc
    cases value with
    | none => rcases hc with rfl | rfl <;> exact ⟨.error .malformed, fun _ _ => rfl⟩
    | some readers =>
      have hreaders := h readers rfl
      rcases hc with rfl | rfl
      · obtain ⟨items, gap, values, hcs⟩ := hvalue.exists_items
        obtain ⟨e, he⟩ := array_settled (s := s) hreaders values
        refine ⟨e, fun rest _ => ?_⟩
        rw [List.cons_append, hcs]
        exact he .none gap rest
      · obtain ⟨ms, gap, hms, hcs⟩ := hvalue.exists_members
        refine ⟨s.ofMembers readers ms, fun rest _ => ?_⟩
        rw [List.cons_append, hcs]
        exact object_within hreaders hms gap rest

/-- A record that is an object is the record of its members. -/
theorem alone_record (h : ∀ k, Framed (value k)) {ms : List Member} (hms : ∀ m ∈ ms, m.IsSound)
    (gap : Gap) : alone (s.record (some value)) (objectText ms gap) = s.ofMembers value ms := by
  have hreads : s.record (some value) (objectText ms gap) =
      (s.ofMembers value ms).map fun v => (v, []) := object_within h hms gap []
  rw [alone, hreads]
  cases s.ofMembers value ms <;> rfl

end Schema

end Stride.Json
