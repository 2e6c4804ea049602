import Stride.World.Basic

namespace Stride

/-!
# Sweeps

A sweep moves a sphere along a segment.  What stops it is found as a `Contact`, which is threaded
through the search for the earliest hit, and is reported as a `Trace`.

* `Sweep` — the question: a start, an end and a radius.
* `Segment` — a stretch of a sweep, with its end points and its place on the whole.
* `Contact` — the best hit so far.
* `Trace` — the answer.
-/

variable {α : Type}

/-- The gap that is kept between a stopped sphere and the surface it stopped at, so that a resting
    sphere does not sink into the surface by rounding. -/
def traceOffset [Scalar α] : α := 0.03125

/-- A sphere moving along a segment. -/
structure Sweep (α : Type) where
  /-- The centre at the start. -/
  start : Vec3 α
  /-- The centre at the end. -/
  finish : Vec3 α
  /-- The radius of the sphere. -/
  radius : α
deriving DecidableEq, Repr

/-- A stretch of a sweep. -/
structure Segment (α : Type) where
  /-- The fraction of the whole sweep at which the stretch starts. -/
  startFraction : α
  /-- The fraction of the whole sweep at which the stretch ends. -/
  endFraction : α
  /-- The centre at the start of the stretch. -/
  start : Vec3 α
  /-- The centre at the end of the stretch. -/
  finish : Vec3 α
deriving DecidableEq, Repr

/-- The sweep as a stretch of itself. -/
def Sweep.whole [Scalar α] (s : Sweep α) : Segment α := ⟨0, 1, s.start, s.finish⟩

/-- The earliest hit found so far. -/
structure Contact (α : Type) where
  /-- The fraction of the sweep that is free. -/
  fraction : α
  /-- The face that was hit. -/
  plane : Option PlaneId
  /-- Whether the sphere started inside a brush. -/
  startSolid : Bool
  /-- Whether the sphere started and ended inside one and the same brush. -/
  allSolid : Bool
deriving DecidableEq, Repr

/-- No hit at all. -/
def Contact.clear [Scalar α] : Contact α := ⟨1, none, false, false⟩

/-- The answer to a sweep. -/
structure Trace (α : Type) where
  /-- The fraction of the sweep that is free, from zero to one. -/
  fraction : α
  /-- The centre of the sphere at that fraction. -/
  finish : Vec3 α
  /-- Whether the sphere started inside a brush. -/
  startSolid : Bool
  /-- Whether the sphere never left a brush. -/
  allSolid : Bool
  /-- The face that stopped the sweep. -/
  plane : Option PlaneId
  /-- The normal of that face. -/
  normal : Option (Vec3 α)
deriving DecidableEq, Repr

namespace Trace

variable [Scalar α]

/-- The answer to a sweep that met nothing and arrived at `finish`. -/
def noHit (finish : Vec3 α) : Trace α := ⟨1, finish, false, false, none, none⟩

instance : Inhabited (Trace α) := ⟨noHit 0⟩

/-- The sweep was stopped before its end. -/
def Hit (t : Trace α) : Prop := t.fraction < 1

instance (t : Trace α) : Decidable t.Hit := inferInstanceAs (Decidable (_ < _))

end Trace

end Stride
