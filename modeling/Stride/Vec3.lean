import Stride.Scalar

namespace Stride

/-!
# Vectors

Triples and the vector algebra over a `Scalar`.  The order of additions is part of each
definition: `dot` adds the first two products before the third.
-/

/-- A triple of coordinates, with `z` pointing up. -/
structure Vec3 (α : Type) where
  /-- The first horizontal coordinate. -/
  x : α
  /-- The second horizontal coordinate. -/
  y : α
  /-- The height. -/
  z : α
deriving DecidableEq, Repr

namespace Vec3

/-- Applies a function to each coordinate. -/
def map {α β : Type} (f : α → β) (v : Vec3 α) : Vec3 β := ⟨f v.x, f v.y, f v.z⟩

/-- The three coordinates in order. -/
def toList {α : Type} (v : Vec3 α) : List α := [v.x, v.y, v.z]

theorem forall_mem_toList {α : Type} {v : Vec3 α} {P : α → Prop} :
    (∀ c ∈ v.toList, P c) ↔ P v.x ∧ P v.y ∧ P v.z := by
  simp [toList]

/-- The vector whose coordinates are all `a`. -/
def splat {α : Type} (a : α) : Vec3 α := ⟨a, a, a⟩

variable {α : Type} [Scalar α]

instance : Zero (Vec3 α) := ⟨⟨0, 0, 0⟩⟩

instance : Add (Vec3 α) := ⟨fun v w => ⟨v.x + w.x, v.y + w.y, v.z + w.z⟩⟩

instance : Sub (Vec3 α) := ⟨fun v w => ⟨v.x - w.x, v.y - w.y, v.z - w.z⟩⟩

/-- Scaling, with the factor on the right. -/
instance : HMul (Vec3 α) α (Vec3 α) := ⟨fun v a => ⟨v.x * a, v.y * a, v.z * a⟩⟩

/-- The vertical vector of height `h`. -/
def up (h : α) : Vec3 α := ⟨0, 0, h⟩

/-- The horizontal part. -/
def flat (v : Vec3 α) : Vec3 α := ⟨v.x, v.y, 0⟩

/-- The inner product. -/
@[specialize] def dot (v w : Vec3 α) : α := v.x * w.x + v.y * w.y + v.z * w.z

/-- The vector product. -/
@[specialize] def cross (v w : Vec3 α) : Vec3 α :=
  ⟨v.y * w.z - w.y * v.z, v.z * w.x - w.z * v.x, v.x * w.y - w.x * v.y⟩

/-- The Euclidean length. -/
@[specialize] def length (v : Vec3 α) : α := Scalar.sqrt (v.dot v)

/-- The squared length of the horizontal part. -/
@[specialize] def flatLengthSq (v : Vec3 α) : α := v.x * v.x + v.y * v.y

/-- The point a fraction `t` of the way from `v` to `w`, as a weighted sum of the two. -/
@[specialize] def lerp (v w : Vec3 α) (t : α) : Vec3 α := v * (1 - t) + w * t

/-- The unit vector of the same direction, or zero where the length has no finite positive
    reciprocal. -/
@[specialize] def normalizeOrZero (v : Vec3 α) : Vec3 α :=
  let r := 1 / v.length
  if Scalar.isFinite r = true ∧ 0 < r then v * r else 0

/-- Equality as numbers, coordinate by coordinate. -/
def same (v w : Vec3 α) : Bool := Scalar.same v.x w.x && Scalar.same v.y w.y && Scalar.same v.z w.z

end Vec3

end Stride
