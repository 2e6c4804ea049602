import Stride.Proofs.Json.Nested
import Stride.Saved.Actor
import Stride.Saved.Geometry
import Stride.Saved.Tuning

namespace Stride

/-!
# Saved values read back

The text of a saved value reads back as the value if every single in it is finite.  A single that is
not finite is written as `null`, as is an option without a value, but no single is read from `null`,
so that the text of a value with such a single is refused and never taken for another value.

* `Readable` — singles whose own texts read back, as far as they are finite.
* `Saved.Faithful` — values that read back if they are finite, and are refused if they are not.
* `Saved.faithful` — actors, footings, supports, traces, tunings, planes, brushes, bounds, nodes.
-/

open Json

/-- Each of the singles, if it is finite, reads back from its text. -/
def Readable (as : List Float32) : Prop := ∀ a ∈ as, a.isFinite = true → ReadsBack a

instance (as : List Float32) : Decidable (Readable as) :=
  inferInstanceAs (Decidable (∀ a ∈ as, _ → _))

theorem Readable.of_subset {as bs : List Float32} (h : Readable bs) (hsub : ∀ a ∈ as, a ∈ bs) :
    Readable as :=
  fun a ha => h a (hsub a ha)

namespace Saved

/-- Values whose texts read back: if the singles of a value read back from their own texts as far as
    they are finite, then the text of the value is read as that value if they are all finite, it
    does not fit the type if one of them is not, and it is never read as another value. -/
def Faithful {β : Type} [Saved β] (singles : β → List Float32) : Prop :=
  ∀ v : β, Readable (singles v) →
    ((∀ a ∈ singles v, a.isFinite = true) → ofText? (text v) = .ok v) ∧
    ((∃ a ∈ singles v, a.isFinite = false) →
      ∃ problem, ofText? (β := β) (text v) = .error (.mismatch problem)) ∧
    ∀ u, ofText? (text v) = .ok u → u = v

/-- The text of a value that is echoed. -/
theorem ofText?_text {β : Type} [Saved β] {v : β} {fault : Fault} {legible : Bool}
    (h : Echoes fault (decode depthLimit) (write v) legible v) :
    ofText? (text v) = if legible then .ok v else .error fault := by
  rw [ofText?, text, String.toList_ofList, h.read_eq]

theorem faithful_of_echoes {β : Type} [Saved β] {singles : β → List Float32}
    (h : ∀ v : β, Readable (singles v) →
      Echoes .nullSingle (decode depthLimit) (write v) ((singles v).all Float32.isFinite) v) :
    Faithful singles := by
  intro v hv
  have htext := ofText?_text (h v hv)
  cases hall : (singles v).all Float32.isFinite with
  | true =>
    rw [hall, if_pos rfl] at htext
    rw [List.all_eq_true] at hall
    refine ⟨fun _ => htext, ?_, fun u hu => ?_⟩
    · rintro ⟨a, ha, hinfinite⟩
      rw [hall a ha] at hinfinite
      cases hinfinite
    · rw [htext] at hu
      exact (Except.ok.inj hu).symm
  | false =>
    rw [hall, if_neg Bool.false_ne_true] at htext
    refine ⟨fun hfinite => ?_, fun _ => ⟨_, htext⟩, fun u hu => ?_⟩
    · rw [List.all_eq_true.2 hfinite] at hall
      cases hall
    · rw [htext] at hu
      cases hu

/-! ### Parts -/

theorem echoes_single {a : Float32} (h : Readable [a]) :
    Echoes .nullSingle single (writeSingle a) ([a].all Float32.isFinite) a := by
  rw [List.all_cons, List.all_nil, Bool.and_true]
  exact .single (h a (List.mem_singleton_self a))

theorem echoes_vec {v : Vec3 Float32} (h : Readable v.toList) (room : Nat) :
    Echoes .nullSingle (vec (room + 1)) (writeVec v) (v.toList.all Float32.isFinite) v :=
  .triple (fun a ha => .single (h a ha)) room

variable {fault : Fault}

theorem echoes_intVec (v : Vec3 Int32) (room : Nat) :
    Echoes fault (intVec (room + 1)) (writeIntVec v) true v :=
  .triple_legible (fun n _ => .int32 n) room

theorem echoes_planeId (id : PlaneId) (room : Nat) :
    Echoes fault (planeId room) (writeId id.val) true id :=
  (Echoes.nat32 id.val).map PlaneId.mk

theorem echoes_brushId (id : BrushId) (room : Nat) :
    Echoes fault (brushId room) (writeId id.val) true id :=
  (Echoes.nat32 id.val).map BrushId.mk

theorem echoes_nodeId (id : NodeId) (room : Nat) :
    Echoes fault (nodeId room) (writeId id.val) true id :=
  (Echoes.nat32 id.val).map NodeId.mk

theorem echoes_option {β : Type} {r : Reader β} {write : β → List Char} {singles : β → List Float32}
    {v : Option β} (hreadable : Readable (v.elim [] singles))
    (h : ∀ u, Readable (singles u) →
      Echoes .nullSingle r (write u) ((singles u).all Float32.isFinite) u)
    (hnull : ∀ u, (write u).head? ≠ some 'n') :
    Echoes .nullSingle (nullable r) (writeOption write v)
      ((v.elim [] singles).all Float32.isFinite) v := by
  cases v with
  | none => exact .nullable_none
  | some u => exact (h u hreadable).nullable_some (hnull u)

/-- A record whose fields are legible if their singles are finite. -/
theorem echoes_record {ι : Type} [DecidableEq ι] {V : ι → Type} {s : Schema ι V} (hs : s.Legible)
    {value : (k : ι) → Decoder (V k)} {text : ι → List Char} {singles : ι → List Float32}
    (hreadable : Readable (s.fields.flatMap singles)) (v : (k : ι) → V k) {room : Nat}
    (h : ∀ k, Readable (singles k) →
      Echoes .nullSingle (value k room) (text k) ((singles k).all Float32.isFinite) (v k)) :
    Echoes .nullSingle (s.decode value (room + 1)) (s.write text)
      ((s.fields.flatMap singles).all Float32.isFinite) v := by
  have hfield (k : ι) : Readable (singles k) :=
    hreadable.of_subset fun _ ha => List.mem_flatMap.2 ⟨k, s.mem_fields k, ha⟩
  rw [List.all_flatMap]
  exact .record hs fun k => h k (hfield k)

end Saved

open Saved

/-! ### Supports, footings and actors -/

/-- The value of a field. -/
def Support.get (s : Support Float32) : (k : Support.Field) → k.Value
  | .plane => s.plane
  | .normal => s.normal

/-- The singles of a field. -/
def Support.singlesOf (s : Support Float32) : Support.Field → List Float32
  | .plane => []
  | .normal => s.normal.toList

/-- The singles of a support. -/
def Support.singles (s : Support Float32) : List Float32 := schema.fields.flatMap s.singlesOf

theorem Support.legible : Support.schema.Legible := {}

theorem Support.echoes {s : Support Float32} (h : Readable s.singles) (room : Nat) :
    Echoes .nullSingle (Saved.decode (room + 2)) (Saved.write s) (s.singles.all Float32.isFinite)
      s := by
  refine (echoes_record legible h s.get ?_).map fun v => Support.mk (v .plane) (v .normal)
  rintro (_ | _) hk
  · exact echoes_planeId s.plane _
  · exact echoes_vec hk room

/-- The singles of a footing. -/
def Footing.singles : Footing Float32 → List Float32
  | .grounded support => support.singles
  | .airborne => []

theorem Footing.echoes {f : Footing Float32} (h : Readable f.singles) (room : Nat) :
    Echoes .nullSingle (Saved.decode (room + 3)) (Saved.write f) (f.singles.all Float32.isFinite)
      f := by
  cases f with
  | grounded support =>
    exact .choice_holds rfl rfl ((Support.echoes h room).map Footing.grounded)
  | airborne => exact .choice_unit rfl rfl _

theorem head?_writeId_ne (id : UInt32) : (writeId id).head? ≠ some 'n' := by
  obtain ⟨c, cs, htext, hstarts⟩ := writeInt_eq_cons id.toNat
  rw [writeId, htext]
  rintro ⟨⟩
  cases hstarts

/-- The value of a field. -/
def Trace.get (t : Trace Float32) : (k : Trace.Field) → k.Value
  | .fraction => t.fraction
  | .finish => t.finish
  | .startSolid => t.startSolid
  | .allSolid => t.allSolid
  | .plane => t.plane
  | .normal => t.normal

/-- The singles of a field. -/
def Trace.singlesOf (t : Trace Float32) : Trace.Field → List Float32
  | .fraction => [t.fraction]
  | .finish => t.finish.toList
  | .startSolid | .allSolid | .plane => []
  | .normal => t.normal.elim [] Vec3.toList

/-- The singles of a trace. -/
def Trace.singles (t : Trace Float32) : List Float32 := schema.fields.flatMap t.singlesOf

theorem Trace.legible : Trace.schema.Legible := {}

theorem Trace.echoes {t : Trace Float32} (h : Readable t.singles) (room : Nat) :
    Echoes .nullSingle (Saved.decode (room + 2)) (Saved.write t) (t.singles.all Float32.isFinite)
      t := by
  refine (echoes_record legible h t.get ?_).map fun v =>
    Trace.mk (v .fraction) (v .finish) (v .startSolid) (v .allSolid) (v .plane) (v .normal)
  rintro (_ | _ | _ | _ | _ | _) hk
  · exact echoes_single hk
  · exact echoes_vec hk room
  · exact .boolean t.startSolid
  · exact .boolean t.allSolid
  · exact .option (fun id => echoes_planeId id _) (fun id => head?_writeId_ne id.val) t.plane
  · exact echoes_option hk (fun _ hv => echoes_vec hv room) fun _ => by rintro ⟨⟩

/-- The value of a field. -/
def Actor.get (a : Actor Float32) : (k : Actor.Field) → k.Value
  | .position => a.position
  | .velocity => a.velocity
  | .footing => a.footing
  | .groundTrace => a.groundTrace

/-- The singles of a field. -/
def Actor.singlesOf (a : Actor Float32) : Actor.Field → List Float32
  | .position => a.position.toList
  | .velocity => a.velocity.toList
  | .footing => a.footing.singles
  | .groundTrace => a.groundTrace.elim [] Trace.singles

/-- The singles of an actor. -/
def Actor.singles (a : Actor Float32) : List Float32 := schema.fields.flatMap a.singlesOf

theorem Actor.legible : Actor.schema.Legible := {}

theorem Actor.echoes {a : Actor Float32} (h : Readable a.singles) (room : Nat) :
    Echoes .nullSingle (Saved.decode (room + 4)) (Saved.write a) (a.singles.all Float32.isFinite)
      a := by
  refine (echoes_record legible h a.get ?_).map fun v =>
    Actor.mk (v .position) (v .velocity) (v .footing) (v .groundTrace)
  rintro (_ | _ | _ | _) hk
  · exact echoes_vec hk (room + 2)
  · exact echoes_vec hk (room + 2)
  · exact Footing.echoes hk room
  · exact echoes_option hk (fun _ ht => Trace.echoes ht (room + 1)) fun _ => by rintro ⟨⟩

/-! ### Tunings -/

/-- The singles of a parameter: itself, unless it is a count. -/
def Tuning.singlesOf : (k : Tuning.Key) → k.Value Float32 → List Float32
  | .maxBumps, _ => []
  | .playerRadius, a | .maxSpeed, a | .gravity, a | .friction, a | .stopSpeed, a
  | .groundAcceleration, a | .airAcceleration, a | .stepHeight, a | .minGroundNormal, a
  | .groundCheckEpsilon, a | .groundSeparationSpeed, a | .overclip, a | .maxFrameTime, a => [a]

/-- The singles of a tuning. -/
def Tuning.singles (t : Tuning Float32) : List Float32 :=
  schema.fields.flatMap fun k => singlesOf k (t.get k)

theorem Tuning.legible : Tuning.schema.Legible := {}

theorem Tuning.echoes {t : Tuning Float32} (h : Readable t.singles) (room : Nat) :
    Echoes .nullSingle (Saved.decode (room + 1)) (Saved.write t) (t.singles.all Float32.isFinite)
      t := by
  refine (echoes_record legible h t.get ?_).map ofValues
  intro k hk
  cases k with
  | maxBumps => exact .count t.maxBumps
  | _ => exact echoes_single hk

/-! ### Parts of a level -/

/-- The value of a field. -/
def Plane.get (p : Plane Float32) : (k : Plane.Field) → k.Value
  | .normal => p.normal
  | .distance => p.distance

/-- The singles of a field. -/
def Plane.singlesOf (p : Plane Float32) : Plane.Field → List Float32
  | .normal => p.normal.toList
  | .distance => [p.distance]

/-- The singles of a plane. -/
def Plane.singles (p : Plane Float32) : List Float32 := schema.fields.flatMap p.singlesOf

theorem Plane.legible : Plane.schema.Legible := {}

theorem Plane.echoes {p : Plane Float32} (h : Readable p.singles) (room : Nat) :
    Echoes .nullSingle (Saved.decode (room + 2)) (Saved.write p) (p.singles.all Float32.isFinite)
      p := by
  refine (echoes_record legible h p.get ?_).map fun v => Plane.mk (v .normal) (v .distance)
  rintro (_ | _) hk
  · exact echoes_vec hk room
  · exact echoes_single hk

variable {fault : Fault}

/-- The value of a field. -/
def Bounds.get (b : Bounds) : (k : Bounds.Field) → k.Value
  | .mins => b.mins
  | .maxs => b.maxs

theorem Bounds.legible : Bounds.schema.Legible := {}

theorem Bounds.echoes (b : Bounds) (room : Nat) :
    Echoes fault (Saved.decode (room + 2)) (Saved.write b) true b := by
  refine (Echoes.record_legible (v := b.get) legible ?_).map fun v => Bounds.mk (v .mins) (v .maxs)
  rintro (_ | _)
  · exact echoes_intVec b.mins room
  · exact echoes_intVec b.maxs room

/-- The value of a field. -/
def Brush.get (b : Brush) : (k : Brush.Field) → k.Value
  | .planes => b.planes
  | .collidable => b.collidable

theorem Brush.legible : Brush.schema.Legible := {}

theorem Brush.echoes (b : Brush) (room : Nat) :
    Echoes fault (Saved.decode (room + 2)) (Saved.write b) true b := by
  refine (Echoes.record_legible (v := b.get) legible ?_).map fun v =>
    Brush.mk (v .planes) (v .collidable)
  rintro (_ | _)
  · exact .list_legible fun id _ => echoes_planeId id room
  · exact .boolean b.collidable

/-- The value of a field of a split. -/
def Node.splitGet (plane : PlaneId) (front back : NodeId) (bounds : Bounds) :
    (k : Node.SplitField) → k.Value
  | .plane => plane
  | .front => front
  | .back => back
  | .bounds => bounds

/-- The value of a field of a leaf. -/
def Node.leafGet (brushes : List BrushId) (bounds : Bounds) : (k : Node.LeafField) → k.Value
  | .brushes => brushes
  | .bounds => bounds

theorem Node.splitLegible : Node.splitSchema.Legible := {}

theorem Node.leafLegible : Node.leafSchema.Legible := {}

theorem Node.echoes (n : Node) (room : Nat) :
    Echoes fault (Saved.decode (room + 4)) (Saved.write n) true n := by
  cases n with
  | split plane front back bounds =>
    refine .choice_holds rfl rfl ?_
    refine (Echoes.record_legible (v := splitGet plane front back bounds) splitLegible ?_).map
      fun v => Node.split (v .plane) (v .front) (v .back) (v .bounds)
    rintro (_ | _ | _ | _)
    · exact echoes_planeId plane _
    · exact echoes_nodeId front _
    · exact echoes_nodeId back _
    · exact bounds.echoes room
  | leaf brushes bounds =>
    refine .choice_holds rfl rfl ?_
    refine (Echoes.record_legible (v := leafGet brushes bounds) leafLegible ?_).map
      fun v => Node.leaf (v .brushes) (v .bounds)
    rintro (_ | _)
    · exact .list_legible fun id _ => echoes_brushId id _
    · exact bounds.echoes room

/-! ### Saved values -/

/-- **Saved values read back.**  Actors, footings, supports, traces, tunings and planes read back if
    they are finite and are refused if they are not, and brushes, bounds and nodes, which have no
    singles, read back always. -/
theorem Saved.faithful :
    Faithful Actor.singles ∧ Faithful Footing.singles ∧ Faithful Support.singles ∧
      Faithful Trace.singles ∧ Faithful Tuning.singles ∧ Faithful Plane.singles ∧
      Faithful (fun _ : Brush => []) ∧ Faithful (fun _ : Bounds => []) ∧
      Faithful (fun _ : Node => []) :=
  ⟨faithful_of_echoes fun _ h => Actor.echoes h 123,
    faithful_of_echoes fun _ h => Footing.echoes h 124,
    faithful_of_echoes fun _ h => Support.echoes h 125,
    faithful_of_echoes fun _ h => Trace.echoes h 125,
    faithful_of_echoes fun _ h => Tuning.echoes h 126,
    faithful_of_echoes fun _ h => Plane.echoes h 125,
    faithful_of_echoes fun b _ => b.echoes 125,
    faithful_of_echoes fun b _ => b.echoes 125,
    faithful_of_echoes fun n _ => n.echoes 123⟩

/-- An actor on a slope whose last look at the ground has touched it. -/
def skater (up : Float32) : Actor Float32 where
  position := ⟨-1.5, 16, 0.03125⟩
  velocity := ⟨0.1, -0.0, up⟩
  footing := .grounded ⟨.ofIndex 7, ⟨0, -0.6, 0.8⟩⟩
  groundTrace :=
    some ⟨0.25, ⟨-1.5, 16, 0.03125⟩, false, false, some (.ofIndex 7), some ⟨0, -0.6, 0.8⟩⟩

/-- The actor reads back, unless it has lost its speed to a division of zero by zero. -/
theorem skater_faithful :
    Readable (skater 1e-20).singles ∧ Readable (skater (0 / 0)).singles ∧
      Saved.ofText? (Saved.text (skater 1e-20)) = .ok (skater 1e-20) ∧
      ∃ problem, Saved.ofText? (β := Actor Float32) (Saved.text (skater (0 / 0))) =
        .error (.mismatch problem) := by
  have hfinite : Readable (skater 1e-20).singles := by decide +kernel
  have hnan : Readable (skater (0 / 0)).singles := by decide +kernel
  exact ⟨hfinite, hnan, (Saved.faithful.1 _ hfinite).1 (by decide +kernel),
    (Saved.faithful.1 _ hnan).2.1 (by decide +kernel)⟩

end Stride
