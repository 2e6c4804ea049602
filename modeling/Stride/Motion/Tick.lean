import Stride.Motion.Ground
import Stride.Motion.Stairs

namespace Stride

/-!
# Ticks

One tick looks at the ground, moves the actor by what it stands on, and looks at the ground again.

* `Tuning.wish` — the direction and speed that an input asks for.
* `Tuning.accelerate`, `Tuning.rub` — gaining speed towards a wish, and losing it to friction.
* `Actor.walkVelocity`, `Actor.fallVelocity` — the velocity with which a tick starts to move.
* `Actor.spawn`, `Actor.tick` — the two ways to move an actor.
-/

variable {α : Type} [Scalar α]

/-! ### Velocities -/

/-- What an input asks for. -/
structure Wish (α : Type) where
  /-- The direction, a unit vector or zero. -/
  direction : Vec3 α
  /-- The speed. -/
  speed : α
deriving DecidableEq, Repr

namespace Tuning

/-- The wish of an input.  Its vertical part is dropped and its length, at most one, scales the
    speed.  On the ground the direction follows the slope.  An input without length asks for
    nothing. -/
@[specialize] def wish (t : Tuning α) (input : Vec3 α) (ground : Option (Vec3 α)) : Wish α :=
  let amount := Scalar.minNum input.flat.length 1
  if 0 < amount then
    let direction :=
      match ground with
      | some normal => input.flat.clip normal t.overclip
      | none => input.flat
    ⟨direction.normalizeOrZero, t.maxSpeed * amount⟩
  else ⟨0, 0⟩

/-- The velocity after gaining speed towards a wish for a time, but never more than it asks for. -/
@[specialize] def accelerate (wish : Wish α) (acceleration deltaTime : α) (v : Vec3 α) : Vec3 α :=
  let missing := wish.speed - v.dot wish.direction
  if missing ≤ 0 then v
  else v + wish.direction * Scalar.minNum (acceleration * deltaTime * wish.speed) missing

/-- Below this speed friction stops an actor outright. -/
def stopEpsilon : α := 1

/-- The velocity after friction for a time.  It takes speed in proportion to the speed, or to
    `stopSpeed` if that is greater, and never reverses the direction. -/
@[specialize] def rub (t : Tuning α) (deltaTime : α) (v : Vec3 α) : Vec3 α :=
  let speed := Scalar.sqrt v.flatLengthSq
  if speed < stopEpsilon then { v with x := 0, y := 0 }
  else
    let control := Scalar.maxNum speed t.stopSpeed
    let left := Scalar.maxNum (speed - control * t.friction * deltaTime) 0
    let factor := left / speed
    { v with x := v.x * factor, y := v.y * factor }

/-- The time that a tick integrates. -/
@[specialize] def tickTime (t : Tuning α) (frameTime : α) : α :=
  Scalar.minNum frameTime t.maxFrameTime

end Tuning

namespace Actor

/-- The velocity with which a standing actor starts to move: friction, then speed towards the wish,
    clipped against the ground. -/
@[specialize] def walkVelocity (a : Actor α) (t : Tuning α) (input normal : Vec3 α)
    (deltaTime : α) : Vec3 α :=
  let rubbed := t.rub deltaTime a.velocity
  let wish := t.wish input (some normal)
  (Tuning.accelerate wish t.groundAcceleration deltaTime rubbed).clip normal t.overclip

/-- The velocity with which an actor in the air starts to move: speed towards the wish, clipped
    against a slope that it touches. -/
@[specialize] def fallVelocity (a : Actor α) (t : Tuning α) (input : Vec3 α) (deltaTime : α) :
    Vec3 α :=
  let v := Tuning.accelerate (t.wish input none) t.airAcceleration deltaTime a.velocity
  match a.groundNormal? with
  | some normal => v.clip normal t.overclip
  | none => v

/-! ### Moves -/

/-- The actor after a move. -/
def after (a : Actor α) (m : Moved α) : Actor α :=
  { a with position := m.position, velocity := m.velocity }

/-- Moves a standing actor.  It stays where it is if it does not move horizontally. -/
@[specialize] def walk (a : Actor α) (w : World α) (t : Tuning α) (input normal : Vec3 α)
    (deltaTime : α) : Actor α :=
  let velocity := a.walkVelocity t input normal deltaTime
  if Scalar.same velocity.x 0 && Scalar.same velocity.y 0 then { a with velocity }
  else a.after (stepSlide w t ⟨deltaTime, some normal, false⟩ a.position velocity)

/-- Moves an actor in the air. -/
@[specialize] def fall (a : Actor α) (w : World α) (t : Tuning α) (input : Vec3 α)
    (deltaTime : α) : Actor α :=
  let velocity := a.fallVelocity t input deltaTime
  a.after (slide w t ⟨deltaTime, a.groundNormal?, true⟩ a.position velocity)

/-- Moves an actor by what it stands on. -/
@[specialize] def move (a : Actor α) (w : World α) (t : Tuning α) (input : Vec3 α)
    (deltaTime : α) : Actor α :=
  match a.footing with
  | .grounded support => a.walk w t input support.normal deltaTime
  | .airborne => a.fall w t input deltaTime

/-- Advances an actor by one tick.  A frame time that is not positive changes nothing. -/
@[specialize] def tick (a : Actor α) (w : World α) (t : Tuning α) (input : Vec3 α)
    (frameTime : α) : Actor α :=
  if 0 < frameTime then
    ((a.refoot w t).move w t input (t.tickTime frameTime)).refoot w t
  else a

/-- Places an actor at rest on the first floor between one step above a point and two steps below
    it, or at the point itself if there is none. -/
@[specialize] def spawn (a : Actor α) (w : World α) (t : Tuning α) (point : Vec3 α) : Actor α :=
  let step := Vec3.up t.stepHeight
  let trace := w.trace (point + step) (point - step * (2.0 : α)) t.playerRadius
  let position := if trace.Hit ∧ trace.allSolid = false then trace.finish else point
  { a with position, velocity := 0 }.refoot w t

end Actor

end Stride
