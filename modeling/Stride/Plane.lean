import Stride.Vec3

namespace Stride

/-!
# Planes

Oriented planes and the test that a plane is fit to be traced against.

* `Plane.distanceTo` — signed distance, positive in front.
* `Plane.axisFaces` — the six outward faces of an axis-aligned box.
* `Plane.IsSound` — the normal is a unit vector up to rounding, and nothing is infinite.
* `Side` — the two half-spaces that a plane separates.
-/

variable {α : Type}

/-- The points `p` with `normal · p = distance`. -/
structure Plane (α : Type) where
  /-- The unit normal, pointing to the front. -/
  normal : Vec3 α
  /-- The offset from the origin along the normal. -/
  distance : α
deriving DecidableEq, Repr

namespace Plane

variable [Scalar α]

/-- The signed distance from the plane to a point, positive in front. -/
@[specialize] def distanceTo (p : Plane α) (point : Vec3 α) : α := p.normal.dot point - p.distance

/-- The outward faces of the box from `mins` to `maxs`: for each axis the upper face, then the
    lower one. -/
def axisFaces (mins maxs : Vec3 α) : List (Plane α) :=
  [⟨⟨1, 0, 0⟩, maxs.x⟩, ⟨⟨-1, 0, 0⟩, -mins.x⟩,
   ⟨⟨0, 1, 0⟩, maxs.y⟩, ⟨⟨0, -1, 0⟩, -mins.y⟩,
   ⟨⟨0, 0, 1⟩, maxs.z⟩, ⟨⟨0, 0, -1⟩, -mins.z⟩]

/-- How far the length of a normal may be from one. -/
def normalTolerance : α := 1e-3

/-- A plane is sound when its normal has a finite length within `normalTolerance` of one, and
    its distance is finite. -/
def IsSound (p : Plane α) : Prop :=
  Scalar.isFinite p.normal.length = true ∧
    ¬ normalTolerance < Scalar.abs (p.normal.length - 1) ∧
    Scalar.isFinite p.distance = true

instance (p : Plane α) : Decidable p.IsSound :=
  inferInstanceAs (Decidable (_ ∧ _ ∧ _))

end Plane

/-- A side of a plane. -/
inductive Side where
  /-- The side that the normal points to. -/
  | front
  /-- The other side. -/
  | back
deriving DecidableEq, Repr

/-- The opposite side. -/
def Side.other : Side → Side
  | front => back
  | back => front

@[simp] theorem Side.other_other (s : Side) : s.other.other = s := by cases s <;> rfl

end Stride
