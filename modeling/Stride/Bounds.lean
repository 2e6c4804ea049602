import Stride.Single
import Stride.Vec3

namespace Stride

/-!
# Integer bounds

Axis-aligned boxes with 32-bit integer corners, which every node of a partition carries.  They
inform tools and are never consulted by a sweep.

* `Bounds.everything` — the largest box a level may use.
* `Bounds.enclosing` — the least integer box around a box of singles.
* `Bounds.Contains` — membership of a point, borders included.
-/

/-- An axis-aligned box with integer corners. -/
structure Bounds where
  /-- The least corner. -/
  mins : Vec3 Int32
  /-- The greatest corner. -/
  maxs : Vec3 Int32
deriving DecidableEq, Repr

namespace Bounds

/-- The largest coordinate a level may use. -/
def worldExtent : Int32 := 65536

/-- The box that covers the whole world. -/
def everything : Bounds := ⟨.splat (-worldExtent), .splat worldExtent⟩

instance : Inhabited Bounds := ⟨everything⟩

/-- The least integer box that covers the box from `mins` to `maxs`, corners limited to 32 bits. -/
def enclosing (mins maxs : Vec3 Float32) : Bounds := ⟨mins.map Single.floor, maxs.map Single.ceil⟩

/-- A point lies in the box when each coordinate lies between those of the corners, read in single
    precision; a NaN lies nowhere. -/
def Contains (b : Bounds) (p : Vec3 Float32) : Prop :=
  let lo := b.mins.map Single.ofInt32
  let hi := b.maxs.map Single.ofInt32
  (lo.x ≤ p.x ∧ lo.y ≤ p.y ∧ lo.z ≤ p.z) ∧ (p.x ≤ hi.x ∧ p.y ≤ hi.y ∧ p.z ≤ hi.z)

instance (b : Bounds) (p : Vec3 Float32) : Decidable (b.Contains p) :=
  inferInstanceAs (Decidable ((_ ∧ _ ∧ _) ∧ (_ ∧ _ ∧ _)))

end Bounds

end Stride
