import Stride.Sweep.Basic

namespace Stride

/-!
# Actors

The state of one moving sphere: where it is, how fast it moves, what it stands on, and what the
latest look at the ground found.

* `Support` — ground that can be stood on.
* `Footing` — whether the actor stands or is in the air.
* `Actor` — the whole state.
-/

variable {α : Type}

/-- Ground under an actor that is not too steep to stand on. -/
structure Support (α : Type) where
  /-- The plane of the ground. -/
  plane : PlaneId
  /-- The normal of the ground. -/
  normal : Vec3 α
deriving DecidableEq, Repr

/-- How an actor is supported, which decides how it moves. -/
inductive Footing (α : Type) where
  /-- Standing on ground: friction, full acceleration, steps. -/
  | grounded (support : Support α)
  /-- Falling, or sliding down a slope: gravity and little control. -/
  | airborne
deriving DecidableEq, Repr

/-- The ground of a standing actor. -/
def Footing.support? : Footing α → Option (Support α)
  | grounded s => some s
  | airborne => none

/-- Whether the actor stands on ground. -/
def Footing.isGrounded (f : Footing α) : Bool := f.support?.isSome

/-- The state of one actor. -/
structure Actor (α : Type) where
  /-- The centre of the sphere. -/
  position : Vec3 α
  /-- The velocity. -/
  velocity : Vec3 α
  /-- What the latest look at the ground decided. -/
  footing : Footing α
  /-- What it found, also where the ground was too steep to stand on. -/
  groundTrace : Option (Trace α)
deriving DecidableEq, Repr

namespace Actor

variable [Scalar α]

/-- An actor at rest in the air. -/
def ofPosition (position : Vec3 α) : Actor α := ⟨position, 0, .airborne, none⟩

instance : Inhabited (Actor α) := ⟨.ofPosition 0⟩

/-- Whether the actor stands on ground. -/
def onGround (a : Actor α) : Bool := a.footing.isGrounded

/-- The normal of the surface that was found last, whether it can be stood on or not. -/
def groundNormal? (a : Actor α) : Option (Vec3 α) := a.groundTrace.bind (·.normal)

/-- The speed along the ground. -/
@[specialize] def horizontalSpeed (a : Actor α) : α := Scalar.sqrt a.velocity.flatLengthSq

end Actor

end Stride
