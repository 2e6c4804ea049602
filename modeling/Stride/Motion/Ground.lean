import Stride.Motion.Actor
import Stride.Motion.Tuning
import Stride.Sweep.Trace

namespace Stride

/-!
# Finding ground

A look below an actor decides what it stands on.  The look is one sweep straight down, a little
further than the sphere reaches.

* `Ground` — what a look can find.
* `Actor.look` — the look itself.
* `Actor.settle` — the actor after the look: where it stands on ground it is set down on it.
-/

variable {α : Type}

/-- What a look at the ground finds. -/
inductive Ground (α : Type) where
  /-- Nothing in reach, or the actor is stuck in a solid or moves away from what there is. -/
  | nothing
  /-- A surface that is too steep to stand on. -/
  | steep (t : Trace α)
  /-- A surface to stand on. -/
  | walkable (t : Trace α) (support : Support α)
deriving DecidableEq, Repr

variable [Scalar α]

/-- Whether a velocity leads off a surface: upwards, and away from it fast enough. -/
def Tuning.Separates (t : Tuning α) (velocity normal : Vec3 α) : Prop :=
  0 < velocity.z ∧ t.groundSeparationSpeed < velocity.dot normal

instance (t : Tuning α) (velocity normal : Vec3 α) : Decidable (t.Separates velocity normal) :=
  inferInstanceAs (Decidable (_ ∧ _))

namespace Actor

/-- The sweep of a look: straight down by the radius and a little more. -/
@[specialize] def probe (a : Actor α) (w : World α) (t : Tuning α) : Trace α :=
  w.trace a.position (a.position - Vec3.up (t.playerRadius + t.groundCheckEpsilon)) t.playerRadius

/-- What a look at the ground finds. -/
@[specialize] def look (a : Actor α) (w : World α) (t : Tuning α) : Ground α :=
  let trace := a.probe w t
  if trace.allSolid then .nothing
  else
    match trace.plane, trace.normal with
    | some plane, some normal =>
      if ¬ trace.Hit ∨ t.Separates a.velocity normal then .nothing
      else if normal.z < t.minGroundNormal then .steep trace
      else .walkable trace ⟨plane, normal⟩
    | _, _ => .nothing

/-- The actor after a look, set down on ground that it can stand on, and its new footing.  The
    actor keeps the footing that it had. -/
@[specialize] def settle (a : Actor α) (w : World α) (t : Tuning α) : Footing α × Actor α :=
  match a.look w t with
  | .nothing => (.airborne, { a with groundTrace := none })
  | .steep trace => (.airborne, { a with groundTrace := some trace })
  | .walkable trace support =>
    (.grounded support, { a with groundTrace := some trace, position := trace.finish })

/-- The actor after a look, with the footing that it decides. -/
@[specialize] def refoot (a : Actor α) (w : World α) (t : Tuning α) : Actor α :=
  let (footing, a) := a.settle w t
  { a with footing }

end Actor

end Stride
