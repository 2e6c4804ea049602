import Stride.Motion.Slide

namespace Stride

/-!
# Steps

A slide that met something is tried again from a step higher and brought down afterwards.  The
attempt is kept only if it gets further horizontally.

* `Stairs.walkableBelow` — whether there is ground to step from.
* `Stairs.raised?` — the attempt from a step higher.
* `stepSlide` — the better of the two.
-/

variable {α : Type} [Scalar α]

namespace Stairs

/-- Whether a sweep one step down from a position hits ground that can be stood on. -/
@[specialize] def walkableBelow (w : World α) (t : Tuning α) (position : Vec3 α) : Bool :=
  let below := w.trace position (position - Vec3.up t.stepHeight) t.playerRadius
  match below.normal with
  | none => false
  | some normal => decide (below.Hit ∧ t.minGroundNormal ≤ normal.z)

/-- The slide from as far up as one step goes, and down again by the height that was gained, with
    its velocity clipped against the ground it comes down on.  `none` says that there is no room
    above at all. -/
@[specialize] def raised? (w : World α) (t : Tuning α) (r : Slide.Request α)
    (position velocity : Vec3 α) : Option (Vec3 α × Vec3 α) :=
  let up := w.trace position (position + Vec3.up t.stepHeight) t.playerRadius
  if up.allSolid then none
  else
    let gained := up.finish.z - position.z
    let high := slide w t r up.finish velocity
    let down := w.trace high.position (high.position - Vec3.up gained) t.playerRadius
    let landed := if down.allSolid then high.position else down.finish
    let velocity :=
      match down.normal with
      | none => high.velocity
      | some normal => if down.Hit then high.velocity.clip normal t.overclip else high.velocity
    some (landed, velocity)

end Stairs

/-- Moves a sphere for a time like `slide`, stepping over obstacles.  A sphere that ends up rising
    with no ground to step from does not step. -/
@[specialize] def stepSlide (w : World α) (t : Tuning α) (r : Slide.Request α)
    (position velocity : Vec3 α) : Moved α :=
  let plain := slide w t r position velocity
  if plain.outcome = .clear then plain
  else if 0 < plain.velocity.z ∧ Stairs.walkableBelow w t position = false then plain
  else
    match Stairs.raised? w t r position velocity with
    | none => plain
    | some (landed, kept) =>
      if (plain.position - position).flatLengthSq < (landed - position).flatLengthSq then
        ⟨.clipped, landed, kept⟩
      else plain

end Stride
