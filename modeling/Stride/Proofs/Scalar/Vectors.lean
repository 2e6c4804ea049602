import Stride.Vec3

namespace Stride.Vec3

/-!
# Coordinates

The operations on vectors, coordinate by coordinate, so that an identity between vectors is one
between scalars.

* `Vec3.ext` — vectors with the same coordinates are the same.
* `add_x`, `sub_x`, `scale_x`, `lerp_x` and so on — the coordinates of a result.
-/

@[ext] theorem ext {α : Type} {v w : Vec3 α} (hx : v.x = w.x) (hy : v.y = w.y) (hz : v.z = w.z) :
    v = w := by
  cases v
  cases w
  simp_all

variable {α : Type} [Scalar α] (v w : Vec3 α) (a h : α)

@[simp] theorem zero_x : (0 : Vec3 α).x = 0 := rfl

@[simp] theorem zero_y : (0 : Vec3 α).y = 0 := rfl

@[simp] theorem zero_z : (0 : Vec3 α).z = 0 := rfl

@[simp] theorem add_x : (v + w).x = v.x + w.x := rfl

@[simp] theorem add_y : (v + w).y = v.y + w.y := rfl

@[simp] theorem add_z : (v + w).z = v.z + w.z := rfl

@[simp] theorem sub_x : (v - w).x = v.x - w.x := rfl

@[simp] theorem sub_y : (v - w).y = v.y - w.y := rfl

@[simp] theorem sub_z : (v - w).z = v.z - w.z := rfl

@[simp] theorem scale_x : (v * a).x = v.x * a := rfl

@[simp] theorem scale_y : (v * a).y = v.y * a := rfl

@[simp] theorem scale_z : (v * a).z = v.z * a := rfl

@[simp] theorem lerp_x : (v.lerp w a).x = v.x * (1 - a) + w.x * a := rfl

@[simp] theorem lerp_y : (v.lerp w a).y = v.y * (1 - a) + w.y * a := rfl

@[simp] theorem lerp_z : (v.lerp w a).z = v.z * (1 - a) + w.z * a := rfl

@[simp] theorem up_x : (up h).x = 0 := rfl

@[simp] theorem up_y : (up h).y = 0 := rfl

@[simp] theorem up_z : (up h).z = h := rfl

@[simp] theorem flat_x : v.flat.x = v.x := rfl

@[simp] theorem flat_y : v.flat.y = v.y := rfl

@[simp] theorem flat_z : v.flat.z = 0 := rfl

end Stride.Vec3
