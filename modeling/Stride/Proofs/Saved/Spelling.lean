import Mathlib.Logic.Relation
import Stride.Proofs.Json.Grounded
import Stride.Proofs.Json.Respelled
import Stride.Saved.Snapshot
import Stride.Saved.Tuning

namespace Stride

/-!
# Spellings of saved values

A level or a tuning may be spelled in many ways.  The members of a record may stand in any order
and among others that are unknown, the fields of a snapshot may be written in lower case, and what
is equal to its default may be left out, in any record of a text, however deeply nested.  But no
field may be given twice.

* `Saved.OnText` — a change to the value that a text holds.
* `Saved.SpellsFreely` — a type of values that may be spelled in many ways.
* `Snapshot.rewriting`, `Tuning.rewriting` — the changes to the texts of snapshots and tunings.
* `Saved.spellsFreely` — snapshots and tunings.
-/

open Json Saved

namespace Saved

/-- A change to the value that a text holds, with white space around it. -/
inductive OnText (R : List Char → List Char → Prop) : String → String → Prop
  /-- The white space stays. -/
  | mk {t t'} (changed : R t t') (lead trail : Gap) :
      OnText R (String.ofList (lead.text ++ (t ++ trail.text)))
        (String.ofList (lead.text ++ (t' ++ trail.text)))

/-- A type of values that may be spelled in many ways, where `R` says what may be done to a text: a
    text that is read is well formed, it is read as the same value however often it is changed, and
    it is refused once it gives a field twice. -/
structure SpellsFreely (β : Type) [Saved β] (R : Rewriting) : Prop where
  /-- A text that is read is well formed. -/
  wellFormed : ∀ {s : String} {v : β}, ofText? s = .ok v → ∃ (lead trail : Gap) (t : List Char),
    IsValue t ∧ s = String.ofList (lead.text ++ (t ++ trail.text))
  /-- A text that is read may be spelled otherwise. -/
  same : ∀ {s s' : String} {v : β}, ofText? s = .ok v →
    Relation.ReflTransGen (OnText (R none)) s s' → ofText? s' = .ok v
  /-- No field may be given twice. -/
  twice : ∀ {s s' name : String} {v : β}, ofText? s = .ok v → OnText (R (some name)) s s' →
    (ofText? s' : Except Json.Fault β) = .error (.mismatch (.duplicateField name))

variable {β : Type}

/-- A whole text is read as the value that it holds is read alone. -/
theorem read_value {decode : Decoder β} (h : Framed (decode depthLimit)) {t : List Char}
    (ht : IsValue t) (lead trail : Gap) :
    read decode (lead.text ++ (t ++ trail.text)) = alone (decode depthLimit) t := by
  have hblank : skipBlank trail.text = [] := by
    have := trail.skipBlank []
    rwa [List.append_nil] at this
  have hstops : Stops trail.text := by
    rw [← List.append_nil trail.text, stops_gap]
    exact .nil
  rw [Json.read, h ht lead hstops]
  cases alone (decode depthLimit) t with
  | error fault => rfl
  | ok v =>
    show (if (skipBlank trail.text).isEmpty then Except.ok v else .error Json.Fault.malformed) = _
    rw [hblank]
    rfl

theorem spellsFreely_of [Saved β] {R : Rewriting} (h : Regular (decode (β := β) depthLimit))
    (hobeys : Obeys (decode (β := β) depthLimit) R) : SpellsFreely β R := by
  have hchange {twice : Option String} {s s' : String} {v : β} (hv : ofText? s = .ok v)
      (hs : OnText (R twice) s s') : ofText? s' = verdict v twice := by
    obtain ⟨hchanged, lead, trail⟩ := hs
    obtain ⟨ht, ht', hreads⟩ := hobeys hchanged
    rw [ofText?, String.toList_ofList, read_value h.framed ht] at hv
    rw [ofText?, String.toList_ofList, read_value h.framed ht']
    exact hreads hv
  refine ⟨fun {s v} hv => ?_, fun {s s' v} hv hs => ?_, hchange⟩
  · obtain ⟨⟨w, rest⟩, hdecode, hend⟩ := bind_eq_ok_iff.1 hv
    obtain ⟨lead, t, ht, hs⟩ := h.grounded hdecode
    replace hend : (if (skipBlank rest).isEmpty then Except.ok w else .error Json.Fault.malformed) =
      .ok v := hend
    split_ifs at hend with hempty
    refine ⟨lead, ⟨rest, ?_⟩, t, ht, ?_⟩
    · rw [List.isEmpty_iff, skipBlank, List.dropWhile_eq_nil_iff] at hempty
      exact hempty
    · rw [← hs, String.ofList_toList]
  · induction hs with
    | refl => exact hv
    | tail _ hstep ih => exact hchange ih hstep

end Saved

/-! ### Names and defaults -/

/-- The names of a field of a snapshot: its own, and the same in lower case. -/
def Json.Schema.bothCases {ι : Type} {V : ι → Type} (s : Schema ι V) (k : ι) : List (List Char) :=
  [(s.key k).toList, (s.key k).toList.map Char.toLower]

/-- The fields of a plane record, all of which must be given. -/
def PlaneRecord.usage : Usage PlaneRecord.Field PlaneRecord.Field.Value where
  names := schema.bothCases
  IsDefault _ _ := False

/-- The fields of a brush record, which may leave out its planes. -/
def BrushRecord.usage : Usage BrushRecord.Field BrushRecord.Field.Value where
  names := schema.bothCases
  IsDefault
    | .collidable, _ => False
    | .planes, is => is = []

/-- The fields of a node record, which may leave out the plane, the children and the brushes. -/
def NodeRecord.usage : Usage NodeRecord.Field NodeRecord.Field.Value where
  names := schema.bothCases
  IsDefault
    | .leaf, _ | .mins, _ | .maxs, _ => False
    | .plane, i => i = -1
    | .left, t | .right, t => t = .absent
    | .brushes, is => is = none

/-- The fields of a snapshot, all of which may be left out. -/
def Snapshot.usage : Usage Snapshot.Field Snapshot.Field.Value where
  names := schema.bothCases
  IsDefault
    | .planes, ps => ps = []
    | .brushes, bs => bs = []
    | .tree, t => t = .absent

/-- The fields of a tuning, each of which may be left out. -/
def Tuning.usage : Usage Key (Key.Value Float32) where
  names k := [k.name.toList]
  IsDefault k v := v = (classic : Tuning Float32).get k

theorem PlaneRecord.honours : PlaneRecord.schema.Honours PlaneRecord.usage :=
  Schema.honours_of (by decide) (by decide) (by rintro k v ⟨⟩)

theorem BrushRecord.honours : BrushRecord.schema.Honours BrushRecord.usage := by
  refine Schema.honours_of (by decide) (by decide) ?_
  rintro (_ | _) v hv
  · cases hv
  · rw [show v = [] from hv]
    rfl

theorem NodeRecord.honours : NodeRecord.schema.Honours NodeRecord.usage := by
  refine Schema.honours_of (by decide) (by decide) ?_
  rintro (_ | _ | _ | _ | _ | _ | _) v hv <;>
    first | exact hv.elim | exact congrArg some (Eq.symm hv)

theorem Snapshot.honours : Snapshot.schema.Honours Snapshot.usage := by
  refine Schema.honours_of (by decide) (by decide) ?_
  rintro (_ | _ | _) v hv <;> exact congrArg some (Eq.symm hv)

theorem Tuning.honours : Tuning.schema.Honours Tuning.usage :=
  Schema.honours_of (by decide) (by decide) fun {k v} hv => congrArg some (Eq.symm hv)

/-! ### Readers -/

theorem regular_single : Regular single := .numeric _ _

theorem regular_int32 : Regular int32 := (Regular.numeric _ _).map _

theorem regular_int64 : Regular int64 := (Regular.numeric _ _).map _

theorem regular_indices (room : Nat) : Regular (indices room) :=
  .list (fun _ => regular_int64) room

theorem regular_snapshotVec (room : Nat) : Regular (snapshotVec room) :=
  .triple regular_single _ room

theorem regular_snapshotIntVec (room : Nat) : Regular (snapshotIntVec room) :=
  .triple regular_int32 _ room

/-! ### Planes and brushes -/

/-- The value of a field. -/
def PlaneRecord.value : (k : PlaneRecord.Field) → Decoder k.Value
  | .normal => snapshotVec
  | .distance => fun _ => single

theorem PlaneRecord.decode_eq : (Saved.decode : Decoder (PlaneRecord Float32)) =
    (schema.decode value).map fun v => ⟨v .normal, v .distance⟩ := rfl

theorem PlaneRecord.regular_value (k : Field) (room : Nat) : Regular (value k room) := by
  cases k with
  | normal => exact regular_snapshotVec room
  | distance => exact regular_single

/-- What may be done to the text of a plane record. -/
def PlaneRecord.rewriting : (room : Nat) → Rewriting :=
  schema.rewriting usage value fun _ _ => .none

theorem PlaneRecord.regular (room : Nat) :
    Regular (Saved.decode (β := PlaneRecord Float32) room) := by
  rw [decode_eq]
  exact (Regular.decode regular_value room).map _

theorem PlaneRecord.obeys (room : Nat) :
    Obeys (Saved.decode (β := PlaneRecord Float32) room) (rewriting room) := by
  rw [decode_eq]
  exact (obeys_decode (fun k room => (regular_value k room).framed) honours
    (fun _ _ => obeys_none _) room).map _

/-- The value of a field. -/
def BrushRecord.value : (k : BrushRecord.Field) → Decoder k.Value
  | .collidable => fun _ => boolean
  | .planes => indices

theorem BrushRecord.decode_eq : (Saved.decode : Decoder BrushRecord) =
    (schema.decode value).map fun v => ⟨v .collidable, v .planes⟩ := rfl

theorem BrushRecord.regular_value (k : Field) (room : Nat) : Regular (value k room) := by
  cases k with
  | collidable => exact .boolean
  | planes => exact regular_indices room

/-- What may be done to the text of a brush record. -/
def BrushRecord.rewriting : (room : Nat) → Rewriting :=
  schema.rewriting usage value fun _ _ => .none

theorem BrushRecord.regular (room : Nat) : Regular (Saved.decode (β := BrushRecord) room) := by
  rw [decode_eq]
  exact (Regular.decode regular_value room).map _

theorem BrushRecord.obeys (room : Nat) :
    Obeys (Saved.decode (β := BrushRecord) room) (rewriting room) := by
  rw [decode_eq]
  exact (obeys_decode (fun k room => (regular_value k room).framed) honours
    (fun _ _ => obeys_none _) room).map _

/-! ### Trees -/

namespace NodeTree

/-- The value of a field of the record at the top of a tree. -/
def value (room : Nat) : (k : NodeRecord.Field) → Reader k.Value
  | .leaf => boolean
  | .plane => int64
  | .mins => snapshotIntVec room
  | .maxs => snapshotIntVec room
  | .left => decode room
  | .right => decode room
  | .brushes => nullable (indices room)

/-- What may be done to the text of a tree: a change to the record at its top or to one of its
    children. -/
def rewriting : (room : Nat) → Rewriting
  | 0 => .none
  | room + 1 => OnMembers <| Change NodeRecord.schema NodeRecord.usage (value room) fun
    | .left | .right => rewriting room
    | .leaf | .plane | .mins | .maxs | .brushes => .none

theorem decode_succ (room : Nat) :
    decode (room + 1) = orAbsent (NodeRecord.schema.record (some (value room))) := rfl

theorem regular_orAbsent {record : Reader ((k : NodeRecord.Field) → k.Value)}
    (h : Regular record) : Regular (orAbsent record) :=
  h.nullable.map _

theorem regular_value {room : Nat} (h : Regular (decode room)) (k : NodeRecord.Field) :
    Regular (value room k) := by
  cases k with
  | leaf => exact .boolean
  | plane => exact regular_int64
  | mins | maxs => exact regular_snapshotIntVec room
  | left | right => exact h
  | brushes => exact (regular_indices room).nullable

theorem regular (room : Nat) : Regular (decode room) := by
  -- the room of a child is that of its record less the record's own bracket
  induction room with
  | zero => exact regular_orAbsent (.record_full _)
  | succ room ih =>
    rw [decode_succ]
    exact regular_orAbsent (.record (regular_value ih))

theorem obeys (room : Nat) : Obeys (decode room) (rewriting room) := by
  induction room with
  | zero => exact obeys_none _
  | succ room ih =>
    rw [decode_succ]
    refine (obeys_nullable (obeys_record (fun k => (regular_value (regular room) k).framed)
      NodeRecord.honours fun k => ?_)).map _
    cases k with
    | left | right => exact ih
    | leaf | plane | mins | maxs | brushes => exact obeys_none _

end NodeTree

/-! ### Snapshots and tunings -/

/-- The value of a field. -/
def Snapshot.value : (k : Snapshot.Field) → Decoder k.Value
  | .planes => list Saved.decode
  | .brushes => list Saved.decode
  | .tree => NodeTree.decode

/-- What may be done to the value of a field: a change to one of the planes or brushes, or to the
    tree. -/
def Snapshot.inner : Snapshot.Field → (room : Nat) → Rewriting
  | .planes => .list PlaneRecord.rewriting
  | .brushes => .list BrushRecord.rewriting
  | .tree => NodeTree.rewriting

/-- What may be done to the text of a snapshot. -/
def Snapshot.rewriting : (room : Nat) → Rewriting := schema.rewriting usage value inner

theorem Snapshot.decode_eq : (Saved.decode : Decoder (Snapshot Float32)) =
    (schema.decode value).map fun v => ⟨v .planes, v .brushes, v .tree⟩ := rfl

theorem Snapshot.regular_value (k : Field) (room : Nat) : Regular (value k room) := by
  cases k with
  | planes => exact .list PlaneRecord.regular room
  | brushes => exact .list BrushRecord.regular room
  | tree => exact NodeTree.regular room

theorem Snapshot.regular (room : Nat) : Regular (Saved.decode (β := Snapshot Float32) room) := by
  rw [decode_eq]
  exact (Regular.decode regular_value room).map _

theorem Snapshot.obeys (room : Nat) :
    Obeys (Saved.decode (β := Snapshot Float32) room) (rewriting room) := by
  rw [decode_eq]
  refine (obeys_decode (fun k room => (regular_value k room).framed) honours ?_ room).map _
  rintro (_ | _ | _) room
  · exact obeys_elements (fun room => (PlaneRecord.regular room).framed) PlaneRecord.obeys room
  · exact obeys_elements (fun room => (BrushRecord.regular room).framed) BrushRecord.obeys room
  · exact NodeTree.obeys room

theorem Tuning.decode_eq : (Saved.decode : Decoder (Tuning Float32)) =
    (schema.decode fun k _ => decodeValue k).map ofValues := rfl

theorem Tuning.regular_value (k : Key) : Regular (decodeValue k) := by
  cases k with
  | maxBumps =>
    have hcount : Regular count := (Regular.numeric _ _).map _
    exact hcount
  | _ => exact regular_single

/-- What may be done to the text of a tuning. -/
def Tuning.rewriting : (room : Nat) → Rewriting :=
  schema.rewriting usage (fun k _ => decodeValue k) fun _ _ => .none

theorem Tuning.regular (room : Nat) : Regular (Saved.decode (β := Tuning Float32) room) := by
  rw [decode_eq]
  exact (Regular.decode (fun k _ => regular_value k) room).map _

theorem Tuning.obeys (room : Nat) :
    Obeys (Saved.decode (β := Tuning Float32) room) (rewriting room) := by
  rw [decode_eq]
  exact (obeys_decode (fun k _ => (regular_value k).framed) honours
    (fun _ _ => obeys_none _) room).map _

/-- **Loader texts mean the same however they are spelled.**  The texts of snapshots and of tunings
    may be spelled in many ways, and so the level of a text is the same in every spelling of it, and
    there is no level for a text that gives a field twice. -/
theorem Saved.spellsFreely :
    SpellsFreely (Snapshot Float32) (Snapshot.rewriting depthLimit) ∧
      SpellsFreely (Tuning Float32) (Tuning.rewriting depthLimit) ∧
      ∀ {s s' : String} {snapshot : Snapshot Float32}, ofText? s = .ok snapshot →
        (Relation.ReflTransGen (OnText (Snapshot.rewriting depthLimit none)) s s' →
            World.ofText? s' = World.ofText? s) ∧
          ∀ {name : String}, OnText (Snapshot.rewriting depthLimit (some name)) s s' →
            World.ofText? s' = .error (.unreadable (.mismatch (.duplicateField name))) := by
  have hsnapshot : SpellsFreely (Snapshot Float32) (Snapshot.rewriting depthLimit) :=
    spellsFreely_of (Snapshot.regular depthLimit) (Snapshot.obeys depthLimit)
  have htuning : SpellsFreely (Tuning Float32) (Tuning.rewriting depthLimit) :=
    spellsFreely_of (Tuning.regular depthLimit) (Tuning.obeys depthLimit)
  refine ⟨hsnapshot, htuning, fun {s s' snapshot} hs => ⟨fun h => ?_, fun {name} h => ?_⟩⟩
  · rw [World.ofText?, World.ofText?, hs, hsnapshot.same hs h]
  · rw [World.ofText?, hsnapshot.twice hs h]

/-- The text of an object without white space. -/
def plainText (ms : List Member) : String :=
  String.ofList (Gap.none.text ++ (objectText ms .none ++ Gap.none.text))

/-- A change to the members of the object that a text holds. -/
theorem Snapshot.onText_plainText {twice : Option String} {ms ms' : List Member}
    (hms : ∀ m ∈ ms, m.IsSound)
    (h : Change schema usage (fun k => value k 126) (fun k => inner k 126) twice ms ms') :
    Saved.OnText (rewriting depthLimit twice) (plainText ms) (plainText ms') :=
  .mk (OnMembers.mk hms h .none) .none .none

/-- An array of one collidable brush, with further members. -/
def loneBrush (ms : List Member) : List Char :=
  arrayText
    [⟨.none, objectText (.plain "Collidable" ['t', 'r', 'u', 'e'] :: ms) .none, .none⟩] .none

/-- A level of one brush, spelled in full, spelled with little more than the brush in it, and with
    the brushes given twice. -/
theorem loneBrush_spellings :
    let planes := Member.plain "Planes" ['[', ']']
    let brushes := Member.plain "Brushes" (loneBrush [planes])
    let tree := Member.plain "Tree" writeNull
    let note := Member.plain "note" ['t', 'r', 'u', 'e']
    let bare := Member.plain "brushes" (loneBrush [])
    let level : Snapshot Float32 := ⟨[], [⟨true, []⟩], .absent⟩
    Saved.ofText? (plainText [brushes, tree]) = .ok level ∧
      Saved.ofText? (plainText [note, bare]) = .ok level ∧
      (Saved.ofText? (plainText [brushes, tree, bare]) : Except Json.Fault (Snapshot Float32)) =
        .error (.mismatch (.duplicateField "Brushes")) := by
  intro planes brushes tree note bare level
  let collidable := Member.plain "Collidable" ['t', 'r', 'u', 'e']
  have hread : Saved.ofText? (plainText [brushes, tree]) = .ok level := by decide +kernel
  have hnone : ∀ m ∈ ([] : List Member), m.IsSound := by simp
  have hplanes : planes.IsSound :=
    Member.isSound_plain (by decide) (@IsValue.array [] (by simp) .none)
  have hbrush : ∀ m ∈ [collidable, planes], m.IsSound :=
    forall_isSound_cons (Member.isSound_plain (by decide) .yes) (forall_isSound_cons hplanes hnone)
  have hlone {ms : List Member} (h : ∀ m ∈ collidable :: ms, m.IsSound) : IsValue (loneBrush ms) :=
    .array (by rintro i (_ | ⟨_, ⟨⟩⟩); exact isValue_object h .none) .none
  have hcollidable : ∀ m ∈ [collidable], m.IsSound := fun m hm => hbrush m (by simp_all)
  have hbrushes : brushes.IsSound := Member.isSound_plain (by decide) (hlone hbrush)
  have hbare : bare.IsSound := Member.isSound_plain (by decide) (hlone hcollidable)
  have htree : tree.IsSound := Member.isSound_plain (by decide) .null
  have hboth := forall_isSound_cons hbrushes (forall_isSound_cons htree hnone)
  have hgives : Snapshot.usage.Gives brushes .brushes := ⟨_, rfl, by decide⟩
  have hagain : Snapshot.usage.Gives bare .brushes := ⟨_, rfl, by decide⟩
  -- the tree is dropped, and so are the planes of the brush
  have hdropTree := Snapshot.onText_plainText hboth
    (@Change.drop _ _ _ _ _ _ [brushes] [] tree .tree .absent ⟨_, rfl, by decide⟩ rfl rfl)
  have hinner : BrushRecord.rewriting 125 none (objectText [collidable, planes] .none)
      (objectText [collidable] .none) :=
    OnMembers.mk hbrush (@Change.drop _ _ _ _ _ _ [_] [] planes .planes [] ⟨_, rfl, by decide⟩
      (by decide +kernel) rfl) .none
  have hchanged : Snapshot.inner .brushes 126 none (loneBrush [planes]) (loneBrush []) :=
    @OnElement.mk (BrushRecord.rewriting 125) none [] [] _ _
      (by simpa using isValue_object hbrush .none) hinner .none
  have hdropPlanes := Snapshot.onText_plainText (forall_isSound_cons hbrushes hnone)
    (@Change.value _ _ _ _ _ _ none [] [] brushes .brushes (loneBrush []) hgives hchanged)
  -- the brushes are called otherwise, and a member is added
  have hrename := Snapshot.onText_plainText
    (forall_isSound_cons (m := brushes.withValue (loneBrush []))
      ⟨hbrushes.key, hlone hcollidable⟩ hnone)
    (@Change.rename _ _ _ _ _ _ [] [] (brushes.withValue (loneBrush [])) Snapshot.Field.brushes _
      hgives hbare.key hagain)
  have hadd := Snapshot.onText_plainText (forall_isSound_cons hbare hnone)
    (@Change.add _ _ _ _ _ _ [] [bare] note (Member.isSound_plain (by decide) .yes)
      ⟨"note".toList, rfl, by rintro (_ | _ | _) <;> decide⟩)
  have htwice := Snapshot.onText_plainText hboth
    (@Change.again _ _ _ _ _ _ [] [tree] [] brushes bare .brushes hgives hagain hbare)
  obtain ⟨hsame, -, -⟩ := Saved.spellsFreely
  refine ⟨hread, hsame.same hread ?_, hsame.twice hread htwice⟩
  exact ((Relation.ReflTransGen.single hdropTree).tail hdropPlanes).tail hrename |>.tail hadd

end Stride
