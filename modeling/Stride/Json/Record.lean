import Stride.Json.Reader

namespace Stride.Json

/-!
# Records

A record is an object whose members are known by name, or an array of their values in a fixed order.
Its fields are the elements of a finite type `ι`, and the field `k` has a value of type `V k`.

* `Schema` — the names and defaults of the fields.
* `Partial` — the values of some fields.
* `Schema.members`, `Schema.positions` — the fields of an object and of an array.
* `Schema.decode` — the record in either form.
-/

/-- The fields of a record as they appear in texts. -/
structure Schema (ι : Type) (V : ι → Type) where
  /-- What a message calls the record. -/
  name : String
  /-- The fields in their order in texts. -/
  fields : List ι
  /-- All fields are listed. -/
  mem_fields : ∀ k, k ∈ fields := by intro k; cases k <;> decide
  /-- The name that a field is written with. -/
  key : ι → String
  /-- Further names that a field may be read by. -/
  aliases : ι → List String := fun _ => []
  /-- The value of a field that an object leaves out, if it may. -/
  missing : (k : ι) → Option (V k)
  /-- The value of a field that comes after the end of an array, if it may be left out. -/
  cut : (k : ι) → Option (V k) := missing

/-- The values of some fields. -/
abbrev Partial {ι : Type} (V : ι → Type) := (k : ι) → Option (V k)

variable {ι : Type} [DecidableEq ι] {V : ι → Type}

namespace Partial

/-- No field has a value. -/
def none : Partial V := fun _ => .none

/-- Gives a field a value. -/
def set (p : Partial V) (k : ι) (v : V k) : Partial V :=
  fun j => if h : k = j then some (h ▸ v) else p j

omit [DecidableEq ι] in
/-- Takes the value of a field from `default` where it has none. -/
def orElse (p default : Partial V) : Partial V := fun k => p k <|> default k

@[simp] theorem set_same (p : Partial V) (k : ι) (v : V k) : p.set k v k = some v := by simp [set]

theorem set_of_ne (p : Partial V) {j k : ι} (h : k ≠ j) (v : V k) : p.set k v j = p j := by
  simp [set, h]

/-- Values given to different fields may be given in either order. -/
theorem set_comm (p : Partial V) {j k : ι} (h : j ≠ k) (v : V j) (u : V k) :
    (p.set j v).set k u = (p.set k u).set j v := by
  funext i
  by_cases hj : j = i
  · subst hj
    rw [set_of_ne _ (Ne.symm h), set_same, set_same]
  · by_cases hk : k = i
    · subst hk
      rw [set_same, set_of_ne _ h, set_same]
    · rw [set_of_ne _ hk, set_of_ne _ hj, set_of_ne _ hj, set_of_ne _ hk]

end Partial

namespace Schema

variable (s : Schema ι V)

omit [DecidableEq ι] in
/-- All names that a field may be read by. -/
def keys (k : ι) : List String := s.key k :: s.aliases k

omit [DecidableEq ι] in
/-- The field of a name. -/
def field? (name : List Char) : Option ι :=
  s.fields.find? fun k => (s.keys k).any fun key => key.toList == name

omit [DecidableEq ι] in
/-- All values, or the first field without one. -/
def complete (p : Partial V) : Except Fault ((k : ι) → V k) :=
  match h : s.fields.find? fun k => (p k).isNone with
  | some k => .error (.mismatch (.missingField (s.key k)))
  | none => .ok fun k =>
    (p k).get (by
      have := List.find?_eq_none.mp h k (s.mem_fields k)
      simpa [Option.isSome_iff_ne_none] using this)

omit [DecidableEq ι] in
/-- A record is complete when every field has its value. -/
theorem complete_eq_ok_iff {p : Partial V} {v : (k : ι) → V k} :
    s.complete p = .ok v ↔ ∀ k, p k = some (v k) := by
  unfold complete
  split
  · next k hk =>
    have empty := List.find?_some hk
    constructor
    · intro h
      cases h
    · intro h
      simp [h k] at empty
  · next hk =>
    constructor
    · intro h k
      rw [← Except.ok.inj h]
      simp
    · intro h
      congr 1
      funext k
      simp [h k]

/-! ### Objects -/

omit [DecidableEq ι] in
/-- The key of the next member of an object, or `none` after the closing bracket. -/
def nextKey (first : Bool) (cs : List Char) : Except Fault (Option (List Char) × List Char) :=
  match skipBlank cs with
  | [] => .error .truncated
  | c :: cs =>
    if c = '\x7d' then .ok (none, cs)
    else if first then
      if c = '"' then do let (key, cs) ← stringRest cs; return (some key, cs)
      else .error .malformed
    else if c = ',' then
      match skipBlank cs with
      | [] => .error .truncated
      | d :: ds =>
        if d = '"' then do let (key, ds) ← stringRest ds; return (some key, ds)
        else .error .malformed
    else .error .malformed

/-- Reads the member that starts with a key into the fields that have been read.  A field that has
    been read before is refused at once, and a member without a field is passed over. -/
def member (value : (k : ι) → Reader (V k)) (key : List Char) (p : Partial V) :
    Reader (Partial V) := fun cs =>
  match s.field? key with
  | none => do return (p, ← skipValue (← colon cs))
  | some k =>
    if (p k).isSome then .error (.mismatch (.duplicateField (s.key k)))
    else do
      let (v, cs) ← value k (← colon cs)
      return (p.set k v, cs)

/-- The members of an object up to its closing bracket.  Every member takes at least one character,
    so a fuel as long as the text lasts to the text's end. -/
def members (value : (k : ι) → Reader (V k)) :
    (fuel : List Char) → (first : Bool) → Partial V → Reader (Partial V)
  | [], _, _, _ => .error .truncated
  | _ :: fuel, first, p, cs => do
    match ← nextKey first cs with
    | (none, cs) => return (p, cs)
    | (some key, cs) =>
      let (p, cs) ← s.member value key p cs
      members value fuel false p cs

/-- An object after its opening bracket. -/
def object (value : (k : ι) → Reader (V k)) : Reader ((k : ι) → V k) := fun cs => do
  let (p, cs) ← s.members value cs true .none cs
  return (← s.complete (p.orElse s.missing), cs)

/-! ### Arrays -/

omit [DecidableEq ι] in
/-- What a message calls an array of the right length. -/
def positionalName : String :=
  s!"{s.name} with {s.fields.length} elements"

/-- The elements of an array for the given fields, of which the first has a position. -/
def positions (value : (k : ι) → Reader (V k)) :
    (index : Nat) → List ι → Partial V → Reader (Partial V)
  | _, [], p, cs => .ok (p, cs)
  | index, k :: ks, p, cs => do
    match ← nextElement (index == 0) cs with
    | some cs =>
      let (v, cs) ← value k cs
      positions value (index + 1) ks (p.set k v) cs
    | none =>
      match s.cut k with
      | some v => positions value (index + 1) ks (p.set k v) cs
      | none => .error (.mismatch (.invalidLength index s.positionalName))

/-- An array after its opening bracket. -/
def array (value : (k : ι) → Reader (V k)) : Reader ((k : ι) → V k) := fun cs => do
  let (p, cs) ← s.positions value 0 s.fields .none cs
  let v ← s.complete p
  return (v, ← closing .array cs)

/-! ### Records -/

/-- A record, where `value` reads the fields if there is room for a bracket. -/
def record (value : Option ((k : ι) → Reader (V k))) : Reader ((k : ι) → V k) := fun cs =>
  match skipBlank cs with
  | [] => .error .truncated
  | c :: cs =>
    if c = '[' then
      match value with
      | none => .error .malformed
      | some value => s.array value cs
    else if c = '\x7b' then
      match value with
      | none => .error .malformed
      | some value => s.object value cs
    else .error (mismatch s.name (c :: cs))

/-- A record with fields that may be nested. -/
def decode (value : (k : ι) → Decoder (V k)) : Decoder ((k : ι) → V k)
  | 0 => s.record none
  | room + 1 => s.record (some fun k => value k room)

end Schema

end Stride.Json
