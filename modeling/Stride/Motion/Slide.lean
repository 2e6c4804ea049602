import Stride.Motion.Clip
import Stride.Motion.Tuning
import Stride.Sweep.Trace

namespace Stride

/-!
# Slides

A slide moves a sphere for a time.  It sweeps along the velocity; where the sweep is stopped, the
velocity is clipped against every surface met so far and the rest of the time is spent along the
new velocity.  Each sweep is a bump, and the tuning limits their number.

* `Slide.Request` — how long, on what ground, with or without gravity.
* `Slide.State` — between two bumps; it also records the sweeps made.
* `Slide.bump` — one sweep and what follows from it.
* `Slide.run` — all bumps, with the reason for which they ended.
* `slide` — the move and its outcome.
-/

variable {α : Type}

/-- How a move went. -/
inductive Outcome where
  /-- Nothing was met. -/
  | clear
  /-- A surface was met and the velocity was clipped along it. -/
  | clipped
  /-- The sphere is stuck in a solid or in a corner. -/
  | blocked
deriving DecidableEq, Repr

/-- A move that was carried out. -/
structure Moved (α : Type) where
  /-- How it went. -/
  outcome : Outcome
  /-- The position after it. -/
  position : Vec3 α
  /-- The velocity after it. -/
  velocity : Vec3 α
deriving DecidableEq, Repr

namespace Slide

/-- The most surfaces that a slide keeps in mind. -/
def maxClipPlanes : Nat := 5

/-- Unit normals with a greater inner product belong to the same surface. -/
def samePlaneDot [Scalar α] : α := 0.99

/-- What is asked of a slide. -/
structure Request (α : Type) where
  /-- The time to move. -/
  deltaTime : α
  /-- The normal of the surface the sphere touches already, which is clipped against throughout. -/
  ground : Option (Vec3 α)
  /-- Whether gravity acts during the move. -/
  gravity : Bool
deriving DecidableEq, Repr

/-- A slide between two bumps. -/
structure State (α : Type) where
  /-- The position. -/
  position : Vec3 α
  /-- The velocity of the move, and the one that gravity leaves behind. -/
  velocities : Velocities α
  /-- The directions that the velocity must not run against. -/
  planes : List (Vec3 α)
  /-- The time that is left. -/
  timeLeft : α
  /-- Whether a surface was met. -/
  touched : Bool
  /-- The sweeps made, latest first. -/
  traces : List (Trace α)
deriving DecidableEq, Repr

/-- The state with another velocity of the move. -/
def State.withMove (s : State α) (v : Vec3 α) : State α :=
  { s with velocities := { s.velocities with move := v } }

/-- Why a slide ended. -/
inductive Ending where
  /-- The time was used up, or the bumps were. -/
  | finished
  /-- The sphere is inside a solid. -/
  | embedded
  /-- A sweep was stopped by nothing that has a normal. -/
  | unoriented
  /-- More surfaces were met than a slide keeps in mind. -/
  | crowded
  /-- The surfaces form a corner with no way out. -/
  | wedged
deriving DecidableEq, Repr

/-- What follows a bump. -/
inductive Step (α : Type) where
  /-- The slide goes on. -/
  | again (s : State α)
  /-- The slide has ended. -/
  | stop (ending : Ending) (s : State α)
deriving DecidableEq, Repr

variable [Scalar α]

/-- The velocities with which a slide starts.  Under gravity the move uses the mean of the
    velocities before and after its effect, clipped against the ground. -/
@[specialize] def startVelocities (t : Tuning α) (r : Request α) (v : Vec3 α) : Velocities α :=
  if r.gravity then
    let final : Vec3 α := { v with z := v.z - t.gravity * r.deltaTime }
    let mean : Vec3 α := { v with z := (v.z + final.z) * 0.5 }
    { move := (match r.ground with | some n => mean.clip n t.overclip | none => mean), final }
  else ⟨v, v⟩

/-- The state before the first bump.  The ground is the first direction not to run against; the
    direction of travel is the next, so that a slide never turns back. -/
@[specialize] def start (t : Tuning α) (r : Request α) (position velocity : Vec3 α) : State α :=
  let velocities := startVelocities t r velocity
  let travel := velocities.move.normalizeOrZero
  { position
    velocities
    planes := r.ground.toList ++ (if travel.same 0 then [] else [travel])
    timeLeft := r.deltaTime
    touched := false
    traces := [] }

/-- A bump against a surface: the velocity is clipped against all surfaces met, or nudged off the
    surface if that was met before. -/
@[specialize] def collide (t : Tuning α) (s : State α) (normal : Vec3 α) : Step α :=
  if maxClipPlanes ≤ s.planes.length then .stop .crowded (s.withMove 0)
  else if s.planes.any fun p => decide (samePlaneDot < normal.dot p) then
    .again (s.withMove (s.velocities.move + normal))
  else
    let planes := s.planes ++ [normal]
    match clipToPlanes? planes s.velocities t.overclip with
    | none => .stop .wedged ({ s with planes }.withMove 0)
    | some velocities => .again { s with planes, velocities }

/-- One sweep and what follows from it. -/
@[specialize] def bump (w : World α) (t : Tuning α) (s : State α) : Step α :=
  let target := s.position + s.velocities.move * s.timeLeft
  let trace := w.trace s.position target t.playerRadius
  let s := { s with traces := trace :: s.traces }
  if trace.allSolid then .stop .embedded (s.withMove { s.velocities.move with z := 0 })
  else
    let s := if 0 < trace.fraction then { s with position := trace.finish } else s
    if 1 ≤ trace.fraction then .stop .finished s
    else
      let s := { s with touched := true, timeLeft := s.timeLeft - s.timeLeft * trace.fraction }
      match trace.normal with
      | none => .stop .unoriented (s.withMove 0)
      | some normal => collide t s normal

/-- At most the given number of bumps. -/
@[specialize] def bumps (w : World α) (t : Tuning α) : (left : Nat) → State α → Ending × State α
  | 0, s => (.finished, s)
  | left + 1, s =>
    match bump w t s with
    | .again s => bumps w t left s
    | .stop ending s => (ending, s)

/-- All bumps of a slide, with the reason for which they ended. -/
@[specialize] def run (w : World α) (t : Tuning α) (r : Request α) (position velocity : Vec3 α) :
    Ending × State α :=
  bumps w t t.maxBumps.toNat (start t r position velocity)

/-- What a slide amounts to.  A finished slide under gravity keeps the velocity that gravity leaves
    behind; any other ending is blocked. -/
def moved (r : Request α) : Ending × State α → Moved α
  | (.finished, s) =>
    { outcome := if s.touched then .clipped else .clear
      position := s.position
      velocity := if r.gravity then s.velocities.final else s.velocities.move }
  | (_, s) => ⟨.blocked, s.position, s.velocities.move⟩

end Slide

/-- Moves a sphere for a time, sliding along the surfaces it meets. -/
@[specialize] def slide [Scalar α] (w : World α) (t : Tuning α) (r : Slide.Request α)
    (position velocity : Vec3 α) : Moved α :=
  Slide.moved r (Slide.run w t r position velocity)

end Stride
