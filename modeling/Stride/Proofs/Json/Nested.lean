import Stride.Proofs.Json.Echo

namespace Stride.Json

/-!
# Echoes of nested values

Lists, triples, variants and records are echoed if what they hold is echoed, and if there is room
for their brackets.  The first part that is not legible makes the whole fail, and so does the first
bracket that there is no room for.

* `Echoes.list`, `Echoes.triple` — arrays.
* `Echoes.choice_unit`, `Echoes.choice_holds` — variants.
* `Schema.Legible`, `Echoes.record` — records.
* `Echoes.list_full`, `Echoes.triple_full`, `Echoes.record_full` — brackets without room.
-/

variable {β : Type} {fault : Fault} {text : List Char} {legible : Bool} {v : β}

/-! ### Commas -/

/-- Texts with a comma in front of each; only a text that is the `first` within its bracket has
    none. -/
def joined : (first : Bool) → List (List Char) → List Char
  | _, [] => []
  | true, text :: texts => text ++ joined false texts
  | false, text :: texts => ',' :: text ++ joined false texts

theorem separated_eq (texts : List (List Char)) : separated texts = joined true texts := by
  induction texts with
  | nil => rfl
  | cons text texts ih =>
    cases texts with
    | nil => simp [separated, joined]
    | cons next texts =>
      rw [separated] at ih ⊢
      rw [List.intercalate_cons_cons, ih]
      simp [joined]

theorem writeArray_eq (texts : List (List Char)) :
    writeArray texts = '[' :: (joined true texts ++ [']']) := by
  rw [writeArray, separated_eq, List.cons_append]

/-- What follows an element can follow a value. -/
theorem ends_joined_array (texts : List (List Char)) (rest : List Char) :
    Ends (joined false texts ++ ']' :: rest) := by
  cases texts with
  | nil => exact .array rest
  | cons text texts => exact .comma _

/-- What follows a member can follow a value. -/
theorem ends_joined_object (texts : List (List Char)) (rest : List Char) :
    Ends (joined false texts ++ '\x7d' :: rest) := by
  cases texts with
  | nil => exact .object rest
  | cons text texts => exact .comma _

theorem length_le_joined {texts : List (List Char)} (h : ∀ t ∈ texts, t ≠ []) (first : Bool) :
    texts.length ≤ (joined first texts).length := by
  induction texts generalizing first with
  | nil => exact Nat.zero_le _
  | cons text texts ih =>
    have hpos := List.length_pos_iff.2 (h text List.mem_cons_self)
    have htexts := ih (fun t ht => h t (List.mem_cons_of_mem text ht)) false
    cases first <;> simp only [joined, List.length_cons, List.length_append] <;> omega

/-- A text with its bracket is longer than the number of its parts. -/
theorem length_lt_joined {γ : Type} {write : γ → List Char} {vs : List γ}
    (h : ∀ v ∈ vs, write v ≠ []) (bracket : Char) (rest : List Char) :
    vs.length < (joined true (vs.map write) ++ bracket :: rest).length := by
  have hle := length_le_joined (List.forall_mem_map.2 h) true
  rw [List.length_map] at hle
  rw [List.length_append, List.length_cons]
  omega

theorem Opens.ne_nil (h : Opens text) : text ≠ [] := by
  obtain ⟨c, cs, rfl, -⟩ := h
  exact List.cons_ne_nil c cs

/-- What is done with a value is done if it is legible. -/
theorem verdict_bind {γ : Type} (a : β) (k : β → Except Fault γ) :
    ((if legible then .ok a else .error fault) >>= k) =
      if legible then k a else .error fault := by
  cases legible <;> rfl

/-! ### Arrays -/

theorem nextElement_joined (first : Bool) (h : Opens text) (texts : List (List Char))
    (rest : List Char) :
    nextElement first (joined first (text :: texts) ++ rest) =
      .ok (some (text ++ (joined false texts ++ rest))) := by
  obtain ⟨c, cs, rfl, hblank, hclose⟩ := h
  cases first
  · have hcomma : skipBlank (',' :: c :: (cs ++ (joined false texts ++ rest))) =
        ',' :: c :: (cs ++ (joined false texts ++ rest)) := skipBlank_cons rfl _
    simp [nextElement, joined, hcomma, skipBlank_cons hblank, hclose]
  · simp [nextElement, joined, skipBlank_cons hblank, hclose]

theorem nextElement_close (first : Bool) (rest : List Char) :
    nextElement first (']' :: rest) = .ok none := by
  cases first <;> rfl

/-- The elements of a list, after those that have been read. -/
theorem elements_joined {element : Reader β} {write : β → List Char} {good : β → Bool} {vs : List β}
    (h : ∀ v ∈ vs, Echoes fault element (write v) (good v) v) {fuel : List Char}
    (hfuel : vs.length < fuel.length) (read : List β) (rest : List Char) :
    elements element fuel read (joined read.isEmpty (vs.map write) ++ ']' :: rest) =
      if vs.all good then .ok (read.reverse ++ vs, rest) else .error fault := by
  -- the fuel has one character for each element that is left, and one for the bracket
  induction vs generalizing fuel read with
  | nil =>
    cases fuel with
    | nil => cases hfuel
    | cons _ fuel =>
      rw [List.map_nil, joined, List.nil_append, elements, nextElement_close, List.append_nil]
      rfl
  | cons v vs ih =>
    cases fuel with
    | nil => cases hfuel
    | cons _ fuel =>
      have hv := h v List.mem_cons_self
      have hreads := hv.reads _ (ends_joined_array (vs.map write) rest)
      have hrest := ih (fun u hu => h u (List.mem_cons_of_mem v hu)) (Nat.lt_of_succ_lt_succ hfuel)
        (v :: read)
      rw [List.map_cons, elements, nextElement_joined _ hv.opens]
      show (element _ >>= fun found => elements element fuel (found.1 :: read) found.2) = _
      simp only [List.isEmpty_cons, List.reverse_cons, List.append_assoc,
        List.singleton_append] at hrest
      rw [List.all_cons]
      simp only [hreads, verdict_bind, hrest]
      cases good v <;> rfl

namespace Echoes

/-- **A list** is legible if all of its elements are. -/
theorem list {element : Decoder β} {write : β → List Char} {good : β → Bool} {vs : List β}
    {room : Nat} (h : ∀ v ∈ vs, Echoes fault (element room) (write v) (good v) v) :
    Echoes fault (list element (room + 1)) (writeList write vs) (vs.all good) vs where
  opens := ⟨_, _, rfl, rfl, by decide⟩
  reads rest _ := by
    have hfuel := length_lt_joined (fun v hv => (h v hv).opens.ne_nil) ']' rest
    rw [writeList, writeArray_eq, List.cons_append, List.append_assoc, List.singleton_append]
    exact elements_joined h hfuel [] rest

theorem list_legible {element : Decoder β} {write : β → List Char} {vs : List β} {room : Nat}
    (h : ∀ v ∈ vs, Echoes fault (element room) (write v) true v) :
    Echoes fault (Json.list element (room + 1)) (writeList write vs) true vs := by
  have hall : (vs.all fun _ => true) = true := List.all_eq_true.2 fun _ _ => rfl
  exact hall ▸ list h

end Echoes

theorem elementAt_joined (expected : String) (element : Reader β) (index : Nat) (h : Opens text)
    (texts : List (List Char)) (rest : List Char) :
    elementAt expected element index (joined (index == 0) (text :: texts) ++ rest) =
      element (text ++ (joined false texts ++ rest)) := by
  rw [elementAt, nextElement_joined _ h]
  rfl

namespace Echoes

/-- **A triple** is legible if all of its coordinates are. -/
theorem triple {expected : String} {element : Reader β} {write : β → List Char} {good : β → Bool}
    {v : Vec3 β} (h : ∀ a ∈ v.toList, Echoes fault element (write a) (good a) a) (room : Nat) :
    Echoes fault (triple expected element (room + 1)) (writeTriple write v) (v.toList.all good)
      v where
  opens := ⟨_, _, rfl, rfl, by decide⟩
  reads rest _ := by
    obtain ⟨x, y, z⟩ := v
    have hx := h x (by simp [Vec3.toList])
    have hy := h y (by simp [Vec3.toList])
    have hz := h z (by simp [Vec3.toList])
    have hxat :
        elementAt expected element 0 (joined true [write x, write y, write z] ++ ']' :: rest) =
          element (write x ++ (joined false [write y, write z] ++ ']' :: rest)) :=
      elementAt_joined expected element 0 hx.opens _ _
    have hyat : elementAt expected element 1 (joined false [write y, write z] ++ ']' :: rest) =
        element (write y ++ (joined false [write z] ++ ']' :: rest)) :=
      elementAt_joined expected element 1 hy.opens _ _
    have hzat : elementAt expected element 2 (joined false [write z] ++ ']' :: rest) =
        element (write z ++ (joined false [] ++ ']' :: rest)) :=
      elementAt_joined expected element 2 hz.opens _ _
    rw [writeTriple, writeList, writeArray_eq, List.cons_append, List.append_assoc,
      List.singleton_append]
    show (elementAt expected element 0 (joined true [write x, write y, write z] ++ ']' :: rest) >>=
      fun x => elementAt expected element 1 x.2 >>= fun y =>
        elementAt expected element 2 y.2 >>= fun z =>
          closing .array z.2 >>= fun cs => .ok (Vec3.mk x.1 y.1 z.1, cs)) = _
    simp only [hxat, hx.reads _ (ends_joined_array _ rest), verdict_bind]
    simp only [hyat, hy.reads _ (ends_joined_array _ rest), verdict_bind]
    simp only [hzat, hz.reads _ (ends_joined_array _ rest), verdict_bind]
    have hall : (Vec3.mk x y z).toList.all good = (good x && (good y && (good z && true))) := rfl
    rw [hall]
    -- the first coordinate that is not legible is the fault of the whole
    cases good x <;> cases good y <;> cases good z <;> rfl

theorem triple_legible {expected : String} {element : Reader β} {write : β → List Char} {v : Vec3 β}
    (h : ∀ a ∈ v.toList, Echoes fault element (write a) true a) (room : Nat) :
    Echoes fault (Json.triple expected element (room + 1)) (writeTriple write v) true v := by
  have hall : (v.toList.all fun _ => true) = true := rfl
  exact hall ▸ triple h room

/-- A list for whose bracket there is no room. -/
theorem list_full (element : Decoder β) (write : β → List Char) (vs : List β) :
    Echoes .malformed (Json.list element 0) (writeList write vs) false vs :=
  ⟨⟨_, _, rfl, rfl, by decide⟩, fun _ _ => rfl⟩

/-- A triple for whose bracket there is no room. -/
theorem triple_full (expected : String) (element : Reader β) (write : β → List Char) (v : Vec3 β) :
    Echoes .malformed (Json.triple expected element 0) (writeTriple write v) false v :=
  ⟨⟨_, _, rfl, rfl, by decide⟩, fun _ _ => rfl⟩

end Echoes

/-! ### Variants -/

/-- The text of a name within a text. -/
theorem writeName_append (name : String) (rest : List Char) :
    writeName name ++ rest = '"' :: (name.toList ++ '"' :: rest) := by
  simp [writeName]

namespace Echoes

variable {variants : List (Variant β)} {name : String}

/-- **The name** of a variant that holds nothing. -/
theorem choice_unit (hname : name.toList.all isPlain = true)
    (hvariant : variantOf variants name.toList = .ok ⟨name, .unit v⟩) (room : Nat) :
    Echoes fault (choice variants room) (writeName name) true v where
  opens := ⟨_, _, rfl, rfl, by decide⟩
  reads rest _ := by
    rw [writeName_append]
    show (stringRest (name.toList ++ '"' :: rest) >>= fun found =>
      variantOf variants found.1 >>= fun v => v.bare >>= fun v => .ok (v, found.2)) = _
    rw [stringRest_plain (List.all_eq_true.1 hname)]
    show (variantOf variants name.toList >>= fun v => v.bare >>= fun v => .ok (v, rest)) = _
    rw [hvariant]
    rfl

/-- **A variant** that holds a value is legible if the value is. -/
theorem choice_holds {kind : String} {decode : Decoder β} {room : Nat}
    (hname : name.toList.all isPlain = true)
    (hvariant : variantOf variants name.toList = .ok ⟨name, .holds kind decode⟩)
    (h : Echoes fault (decode room) text legible v) :
    Echoes fault (choice variants (room + 1)) (writeVariant name text) legible v where
  opens := ⟨_, _, rfl, rfl, by decide⟩
  reads rest _ := by
    have htext : writeVariant name text ++ rest =
        '\x7b' :: '"' :: (name.toList ++ '"' :: ':' :: (text ++ '\x7d' :: rest)) := by
      rw [writeVariant, writeObject, separated_eq]
      simp [joined, writeMember, writeName]
    rw [htext]
    show (stringRest (name.toList ++ '"' :: ':' :: (text ++ '\x7d' :: rest)) >>= fun found =>
      variantOf variants found.1 >>= fun v => colon found.2 >>= fun cs => v.inside room cs >>=
        fun held => closing .object held.2 >>= fun cs => .ok (held.1, cs)) = _
    rw [stringRest_plain (List.all_eq_true.1 hname)]
    show (variantOf variants name.toList >>= fun v => v.inside room (text ++ '\x7d' :: rest) >>=
      fun held => closing .object held.2 >>= fun cs => .ok (held.1, cs)) = _
    rw [hvariant]
    show (decode room (text ++ '\x7d' :: rest) >>= fun held =>
      closing .object held.2 >>= fun cs => .ok (held.1, cs)) = _
    rw [h.reads _ (.object rest)]
    cases legible <;> rfl

end Echoes

/-! ### Records -/

variable {ι : Type} {V : ι → Type}

/-- The names of a schema are plain, and each is the name of its own field only. -/
structure Schema.Legible (s : Schema ι V) : Prop where
  /-- No field is written twice. -/
  nodup : s.fields.Nodup := by decide
  /-- No name needs an escape. -/
  plain : ∀ k ∈ s.fields, (s.key k).toList.all isPlain = true := by decide
  /-- A field is found under the name that it is written with. -/
  found : ∀ k ∈ s.fields, s.field? (s.key k).toList = some k := by decide

/-- The key of the next member of an object. -/
theorem nextKey_joined {key : String} (hkey : key.toList.all isPlain = true) (first : Bool)
    (text : List Char) (texts : List (List Char)) (rest : List Char) :
    Schema.nextKey first (joined first (writeMember key text :: texts) ++ rest) =
      .ok (some key.toList, ':' :: (text ++ (joined false texts ++ rest))) := by
  set after := ':' :: (text ++ (joined false texts ++ rest)) with hafter
  have hmember : writeMember key text ++ (joined false texts ++ rest) =
      '"' :: (key.toList ++ '"' :: after) := by
    simp [hafter, writeMember, writeName]
  have hstring : (stringRest (key.toList ++ '"' :: after) >>= fun found =>
      .ok (some found.1, found.2)) = .ok (some key.toList, after) := by
    rw [stringRest_plain (List.all_eq_true.1 hkey)]
    rfl
  cases first with
  | true =>
    rw [joined, List.append_assoc, hmember]
    exact hstring
  | false =>
    rw [joined, List.cons_append, List.cons_append, List.append_assoc, hmember]
    exact hstring

theorem nextKey_close (first : Bool) (rest : List Char) :
    Schema.nextKey first ('\x7d' :: rest) = .ok (none, rest) := by
  cases first <;> rfl

variable [DecidableEq ι]

/-- The values of some fields, with those of a record for the fields that are listed. -/
def Partial.fill (p : Partial V) (ks : List ι) (v : (k : ι) → V k) : Partial V :=
  fun k => if k ∈ ks then some (v k) else p k

theorem Partial.fill_set (p : Partial V) (k : ι) (ks : List ι) (v : (k : ι) → V k) :
    (p.set k (v k)).fill ks v = p.fill (k :: ks) v := by
  funext j
  by_cases hj : k = j
  · subst hj
    simp [fill]
  · have hjk : j ≠ k := Ne.symm hj
    simp [fill, set_of_ne p hj, hjk]

/-- The members of an object, after those that have been read. -/
theorem Schema.members_joined {s : Schema ι V} (hs : s.Legible) {value : (k : ι) → Reader (V k)}
    {text : ι → List Char} {good : ι → Bool} {v : (k : ι) → V k}
    (h : ∀ k, Echoes fault (value k) (text k) (good k) (v k)) {ks : List ι}
    (hfields : ∀ k ∈ ks, k ∈ s.fields) (hnodup : ks.Nodup) {p : Partial V}
    (hp : ∀ k ∈ ks, p k = none) {fuel : List Char} (hfuel : ks.length < fuel.length) (first : Bool)
    (rest : List Char) :
    s.members value fuel first p
        (joined first (ks.map fun k => writeMember (s.key k) (text k)) ++ '\x7d' :: rest) =
      if ks.all good then .ok (p.fill ks v, rest) else .error fault := by
  -- the fields that are left have no value yet, so that none of them counts as given twice
  induction ks generalizing fuel first p with
  | nil =>
    cases fuel with
    | nil => cases hfuel
    | cons _ fuel =>
      have hfill : p.fill [] v = p := funext fun k => if_neg List.not_mem_nil
      rw [List.map_nil, joined, List.nil_append, members, nextKey_close, hfill]
      rfl
  | cons k ks ih =>
    cases fuel with
    | nil => cases hfuel
    | cons _ fuel =>
      obtain ⟨hk, hks⟩ := List.nodup_cons.1 hnodup
      have hmem := hfields k List.mem_cons_self
      have hreads := (h k).reads _
        (ends_joined_object (ks.map fun k => writeMember (s.key k) (text k)) rest)
      have hrest := ih (fun j hj => hfields j (List.mem_cons_of_mem k hj)) hks
        (p := p.set k (v k)) (fun j hj => by
          have hne : k ≠ j := fun hkj => hk (hkj ▸ hj)
          rw [Partial.set_of_ne p hne, hp j (List.mem_cons_of_mem k hj)])
        (Nat.lt_of_succ_lt_succ hfuel) false
      have hmember (cs : List Char) : s.member value (s.key k).toList p (':' :: cs) =
          value k cs >>= fun found => .ok (p.set k found.1, found.2) := by
        rw [member, hs.found k hmem]
        simp only [hp k List.mem_cons_self]
        rfl
      rw [List.map_cons, members, nextKey_joined (hs.plain k hmem)]
      show (s.member value (s.key k).toList p _ >>= fun found =>
        s.members value fuel false found.1 found.2) = _
      rw [hmember]
      rw [List.all_cons]
      simp only [hreads, verdict_bind, hrest, Partial.fill_set]
      cases good k <;> rfl

namespace Echoes

variable {s : Schema ι V}

/-- **A record** is legible if all of its fields are. -/
theorem record (hs : s.Legible) {value : (k : ι) → Reader (V k)} {text : ι → List Char}
    {good : ι → Bool} {v : (k : ι) → V k}
    (h : ∀ k, Echoes fault (value k) (text k) (good k) (v k)) :
    Echoes fault (s.record (some value)) (s.write text) (s.fields.all good) v where
  opens := ⟨_, _, rfl, rfl, by decide⟩
  reads rest _ := by
    set texts := s.fields.map fun k => writeMember (s.key k) (text k)
    have htext : s.write text ++ rest = '\x7b' :: (joined true texts ++ '\x7d' :: rest) := by
      rw [Schema.write, writeObject, List.map_map, separated_eq]
      simp [texts, Function.comp_def]
    have hfuel : s.fields.length < (joined true texts ++ '\x7d' :: rest).length :=
      length_lt_joined (fun k _ => by simp [writeMember, writeName]) '\x7d' rest
    have hmembers := s.members_joined hs h (fun _ hk => hk) hs.nodup (p := .none) (fun _ _ => rfl)
      hfuel true rest
    -- no field is left to its default
    have hcomplete : s.complete ((Partial.none.fill s.fields v).orElse s.missing) = .ok v := by
      rw [Schema.complete_eq_ok_iff]
      intro k
      simp [Partial.orElse, Partial.fill, s.mem_fields k]
    rw [htext]
    show (s.members value _ true .none _ >>= fun found =>
      s.complete (found.1.orElse s.missing) >>= fun v => .ok (v, found.2)) = _
    rw [hmembers, verdict_bind]
    simp only [hcomplete]
    rfl

theorem record_legible (hs : s.Legible) {value : (k : ι) → Reader (V k)} {text : ι → List Char}
    {v : (k : ι) → V k} (h : ∀ k, Echoes fault (value k) (text k) true (v k)) :
    Echoes fault (s.record (some value)) (s.write text) true v := by
  have hall : (s.fields.all fun _ => true) = true := List.all_eq_true.2 fun _ _ => rfl
  exact hall ▸ record hs h

/-- A record for whose bracket there is no room. -/
theorem record_full (s : Schema ι V) (text : ι → List Char) (v : (k : ι) → V k) :
    Echoes .malformed (s.record none) (s.write text) false v :=
  ⟨⟨_, _, rfl, rfl, by decide⟩, fun _ _ => rfl⟩

end Echoes

end Stride.Json
