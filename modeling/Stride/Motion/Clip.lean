import Stride.Vec3

namespace Stride

/-!
# Clipping velocities

What remains of a velocity at a surface, and at several surfaces at once.

* `Vec3.clip` — clipping against one surface.
* `Vec3.alongCrease` — running along the edge between two surfaces.
* `clipToPlanes?` — a velocity that leaves every surface of a list, or `none` in a dead corner.
-/

variable {α : Type} [Scalar α]

/-- The velocity without its part along the normal of a surface.  A part into the surface is taken
    off with the factor `overclip`, which leaves a little motion away from it; a part away from the
    surface is taken off divided by the factor. -/
@[specialize] def Vec3.clip (v normal : Vec3 α) (overclip : α) : Vec3 α :=
  let into := v.dot normal
  v - normal * (if into < 0 then into * overclip else into / overclip)

/-- Below this speed away from a surface, a velocity counts as running into it. -/
def intoPlaneTolerance : α := 0.1

/-- The velocity counts as leaving the surface. -/
def Vec3.Leaves (v normal : Vec3 α) : Prop := intoPlaneTolerance ≤ v.dot normal

instance (v normal : Vec3 α) : Decidable (v.Leaves normal) := inferInstanceAs (Decidable (_ ≤ _))

/-- The part of a velocity along the edge in which two surfaces meet. -/
@[specialize] def Vec3.alongCrease (v first second : Vec3 α) : Vec3 α :=
  let crease := (first.cross second).normalizeOrZero
  crease * crease.dot v

/-- A velocity for the move, and the one that is kept after it. -/
structure Velocities (α : Type) where
  /-- The velocity of the move. -/
  move : Vec3 α
  /-- The velocity after the move. -/
  final : Vec3 α
deriving DecidableEq, Repr

namespace Velocities

/-- Both velocities clipped against a surface. -/
@[specialize] def clip (v : Velocities α) (normal : Vec3 α) (overclip : α) : Velocities α :=
  ⟨v.move.clip normal overclip, v.final.clip normal overclip⟩

/-- Both velocities along the edge in which two surfaces meet. -/
@[specialize] def alongCrease (v : Velocities α) (first second : Vec3 α) : Velocities α :=
  ⟨v.move.alongCrease first second, v.final.alongCrease first second⟩

end Velocities

/-- Whether a velocity runs into one of the surfaces other than the two numbered ones. -/
@[specialize] def runsIntoThird (planes : List (Vec3 α)) (i j : Nat) (v : Vec3 α) : Bool :=
  planes.zipIdx.any fun (third, k) => k != i && k != j && decide (v.dot third < intoPlaneTolerance)

/-- Clips against the other surfaces in order, after clipping against number `i`.  Where this turns
    the motion back into surface `i`, the velocities before any clipping are taken along the edge of
    the two surfaces; if that runs into a third one there is no way out. -/
@[specialize] def clipToOthers? (planes : List (Vec3 α)) (unclipped : Velocities α) (overclip : α)
    (i : Nat) (plane : Vec3 α) (clipped : Velocities α) : Option (Velocities α) :=
  planes.zipIdx.foldlM
    (fun clipped (second, j) =>
      if j = i ∨ clipped.move.Leaves second then some clipped
      else
        let again := clipped.clip second overclip
        if 0 ≤ again.move.dot plane then some again
        else
          let along := unclipped.alongCrease plane second
          if runsIntoThird planes i j along.move then none else some along)
    clipped

/-- A velocity that leaves every surface: the first surface that is run into is clipped against,
    then the others in turn.  `none` says that the surfaces form a corner with no way out. -/
@[specialize] def clipToPlanes? (planes : List (Vec3 α)) (v : Velocities α) (overclip : α) :
    Option (Velocities α) :=
  match planes.zipIdx.find? fun (plane, _) => !decide (v.move.Leaves plane) with
  | none => some v
  | some (plane, i) => clipToOthers? planes v overclip i plane (v.clip plane overclip)

end Stride
