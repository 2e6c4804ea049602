import Stride.Sweep.Basic

namespace Stride

/-!
# Splitting a sweep at a plane

At a node of the partition a stretch of a sweep is handed to the front, to the back, or in parts to
both.  The parts overlap around the plane by the radius and by `traceOffset`, so that each child is
searched wherever the sphere can touch what lies on its side.

* `Split` — where a stretch goes.
* `Segment.split` — the decision.
-/

variable {α : Type}

/-- Where a stretch of a sweep goes at a split. -/
inductive Split (α : Type) where
  /-- The whole stretch goes to one side. -/
  | whole (side : Side)
  /-- The side on which the stretch starts is searched over `near`, then the other over `far`. -/
  | parts (first : Side) (near far : Segment α)
deriving DecidableEq, Repr

namespace Segment

variable [Scalar α]

/-- The part of the stretch before the fraction `t` of it. -/
@[specialize] def before (s : Segment α) (t : α) : Segment α :=
  { s with
    endFraction := Scalar.mix s.startFraction s.endFraction t
    finish := s.start.lerp s.finish t }

/-- The part of the stretch after the fraction `t` of it. -/
@[specialize] def after (s : Segment α) (t : α) : Segment α :=
  { s with
    startFraction := Scalar.mix s.startFraction s.endFraction t
    start := s.start.lerp s.finish t }

/-- The fractions at which a stretch with the given distances to a plane is cut: where the near part
    ends and where the far part starts, with the side of the near part.  A stretch parallel to the
    plane is searched as a whole on both sides. -/
@[specialize] def cuts (start finish radius : α) : Side × α × α :=
  if start < finish then
    let inv := 1 / (start - finish)
    (.back, (start - radius + traceOffset) * inv, (start + radius + traceOffset) * inv)
  else if finish < start then
    let inv := 1 / (start - finish)
    (.front, (start + radius + traceOffset) * inv, (start - radius - traceOffset) * inv)
  else (.front, 1, 0)

/-- Splits a stretch at a plane for a sphere of the given radius. -/
@[specialize] def split (s : Segment α) (plane : Plane α) (radius : α) : Split α :=
  let start := plane.distanceTo s.start
  let finish := plane.distanceTo s.finish
  if radius ≤ start ∧ radius ≤ finish then .whole .front
  else if start < -radius ∧ finish < -radius then .whole .back
  else
    let (first, near, far) := cuts start finish radius
    .parts first (s.before (Scalar.clamp 0 1 near)) (s.after (Scalar.clamp 0 1 far))

end Segment

end Stride
