import Stride.Sweep.Basic

namespace Stride

/-!
# Sweeps against one solid

A convex solid is the list of its faces.  Each face is grown by the radius; where the sweep crosses
it inwards the sphere may enter, where it crosses outwards it leaves.  Crossings of both kinds are
taken `traceOffset` early.

* `Span.cross` — what one face adds to the stretch on which the sphere may be inside.
* `Sweep.span?` — all faces together, or `none` if some face keeps the whole sweep outside.
* `Contact.meet` — the best hit after the solid.
-/

variable {α : Type}

/-- A face of a solid: a plane with its number. -/
structure Face (α : Type) where
  /-- The number of the plane. -/
  id : PlaneId
  /-- The plane. -/
  plane : Plane α
deriving DecidableEq, Repr

/-- The stretch of a sweep on which no face seen so far keeps the sphere outside. -/
structure Span (α : Type) where
  /-- The fraction at which the sphere gets behind the last of the faces it enters by. -/
  enter : α
  /-- The fraction at which it gets in front of the first face it leaves by. -/
  exit : α
  /-- Whether some face has the start in front. -/
  startsOut : Bool
  /-- Whether some face has the end in front. -/
  endsOut : Bool
  /-- The face of `enter`. -/
  plane : Option PlaneId
deriving DecidableEq, Repr

namespace Sweep

variable [Scalar α]

/-- How far the start is in front of a face, for the surface of the sphere. -/
@[specialize] def startGap (s : Sweep α) (p : Plane α) : α := p.distanceTo s.start - s.radius

/-- How far the end is in front of a face, for the surface of the sphere. -/
@[specialize] def endGap (s : Sweep α) (p : Plane α) : α := p.distanceTo s.finish - s.radius

end Sweep

namespace Span

variable [Scalar α]

/-- Before any face: the whole sweep, with the start of an entry below every fraction that
    counts. -/
def all : Span α := ⟨-1, 1, false, false, none⟩

/-- Adds one face.  `none` says that start and end are both in front of it, so that the sweep never
    gets behind all faces. -/
@[specialize] def cross (s : Sweep α) (span : Span α) (face : Face α) : Option (Span α) :=
  let start := s.startGap face.plane
  let finish := s.endGap face.plane
  if 0 < start ∧ 0 < finish then none
  else
    let span :=
      { span with
        startsOut := span.startsOut || decide (0 < start)
        endsOut := span.endsOut || decide (0 < finish) }
    if start ≤ 0 ∧ finish ≤ 0 then some span
    else if finish < start then
      let fraction := (start - traceOffset) / (start - finish)
      if span.enter < fraction then some { span with enter := fraction, plane := some face.id }
      else some span
    else
      let fraction := (start + traceOffset) / (start - finish)
      some { span with exit := Scalar.minNum span.exit fraction }

end Span

variable [Scalar α]

/-- The stretch on which the sphere may be inside the solid with these faces, or `none` if one face
    has the whole sweep in front. -/
@[specialize] def Sweep.span? (s : Sweep α) (faces : List (Face α)) : Option (Span α) :=
  faces.foldlM (Span.cross s) Span.all

/-- The best hit after a solid, given the stretch inside it.  A sphere that starts inside is
    reported as such and is stopped at once if it also ends inside; otherwise an entry counts if it
    comes before the exit and before the best hit so far. -/
@[specialize] def Contact.meetSpan (c : Contact α) (span : Span α) : Contact α :=
  if span.startsOut then
    if span.enter < span.exit ∧ -1 < span.enter ∧ span.enter < c.fraction then
      { c with fraction := Scalar.maxNum span.enter 0, plane := span.plane }
    else c
  else if span.endsOut then { c with startSolid := true }
  else { c with startSolid := true, allSolid := true, fraction := 0 }

/-- The best hit after a solid.  A solid without faces is never met. -/
@[specialize] def Contact.meet (s : Sweep α) (c : Contact α) (faces : List (Face α)) : Contact α :=
  if faces.isEmpty then c
  else
    match s.span? faces with
    | none => c
    | some span => c.meetSpan span

end Stride
