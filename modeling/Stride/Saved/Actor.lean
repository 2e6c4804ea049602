import Stride.Motion.Actor
import Stride.Saved.Basic

namespace Stride

/-!
# Saved states of actors

Traces, supports, footings and actors.  A field that may have no value may be left out of an object,
but an array has to give it.  It is always written, as `null` where it has none.
-/

open Json Saved

/-! ### Traces -/

/-- A field of a trace. -/
inductive Trace.Field where
  | fraction | finish | startSolid | allSolid | plane | normal
deriving DecidableEq, Repr

/-- The type of a field. -/
@[reducible] def Trace.Field.Value : Trace.Field → Type
  | fraction => Float32
  | finish => Vec3 Float32
  | startSolid => Bool
  | allSolid => Bool
  | plane => Option PlaneId
  | normal => Option (Vec3 Float32)

/-- Traces in texts. -/
def Trace.schema : Schema Trace.Field Trace.Field.Value where
  name := "struct TraceResult"
  fields := [.fraction, .finish, .startSolid, .allSolid, .plane, .normal]
  key
    | .fraction => "fraction"
    | .finish => "end"
    | .startSolid => "start_solid"
    | .allSolid => "all_solid"
    | .plane => "plane"
    | .normal => "normal"
  missing
    | .plane => some none
    | .normal => some none
    | .fraction | .finish | .startSolid | .allSolid => none
  cut _ := none

instance : Saved (Trace Float32) where
  write t := Trace.schema.write fun
    | .fraction => writeSingle t.fraction
    | .finish => writeVec t.finish
    | .startSolid => writeBool t.startSolid
    | .allSolid => writeBool t.allSolid
    | .plane => writeOption (fun id => writeId id.val) t.plane
    | .normal => writeOption writeVec t.normal
  decode := (Trace.schema.decode fun
    | .fraction => fun _ => single
    | .finish => vec
    | .startSolid => fun _ => boolean
    | .allSolid => fun _ => boolean
    | .plane => fun room => nullable (planeId room)
    | .normal => fun room => nullable (vec room)).map fun v =>
      { fraction := v .fraction
        finish := v .finish
        startSolid := v .startSolid
        allSolid := v .allSolid
        plane := v .plane
        normal := v .normal }

/-! ### Footings -/

/-- A field of a support. -/
inductive Support.Field where
  | plane | normal
deriving DecidableEq, Repr

/-- The type of a field. -/
@[reducible] def Support.Field.Value : Support.Field → Type
  | plane => PlaneId
  | normal => Vec3 Float32

/-- Supports in texts. -/
def Support.schema : Schema Support.Field Support.Field.Value where
  name := "struct GroundContact"
  fields := [.plane, .normal]
  key
    | .plane => "plane"
    | .normal => "normal"
  missing _ := none

instance : Saved (Support Float32) where
  write s := Support.schema.write fun
    | .plane => writeId s.plane.val
    | .normal => writeVec s.normal
  decode := (Support.schema.decode fun
    | .plane => planeId
    | .normal => vec).map fun v => ⟨v .plane, v .normal⟩

instance : Saved (Footing Float32) where
  write
    | .grounded support => writeVariant "Grounded" (Saved.write support)
    | .airborne => writeName "Airborne"
  decode := choice
    [⟨"Grounded", .holds "newtype variant" (Decoder.map Footing.grounded Saved.decode)⟩,
     ⟨"Airborne", .unit .airborne⟩]

/-! ### Actors -/

/-- A field of an actor. -/
inductive Actor.Field where
  | position | velocity | footing | groundTrace
deriving DecidableEq, Repr

/-- The type of a field. -/
@[reducible] def Actor.Field.Value : Actor.Field → Type
  | position => Vec3 Float32
  | velocity => Vec3 Float32
  | footing => Footing Float32
  | groundTrace => Option (Trace Float32)

/-- Actors in texts. -/
def Actor.schema : Schema Actor.Field Actor.Field.Value where
  name := "struct MovementState"
  fields := [.position, .velocity, .footing, .groundTrace]
  key
    | .position => "position"
    | .velocity => "velocity"
    | .footing => "mode"
    | .groundTrace => "ground_trace"
  missing
    | .groundTrace => some none
    | .position | .velocity | .footing => none
  cut _ := none

instance : Saved (Actor Float32) where
  write a := Actor.schema.write fun
    | .position => writeVec a.position
    | .velocity => writeVec a.velocity
    | .footing => Saved.write a.footing
    | .groundTrace => writeOption Saved.write a.groundTrace
  decode := (Actor.schema.decode fun
    | .position => vec
    | .velocity => vec
    | .footing => Saved.decode
    | .groundTrace => fun room => nullable (Saved.decode room)).map fun v =>
      { position := v .position
        velocity := v .velocity
        footing := v .footing
        groundTrace := v .groundTrace }

end Stride
