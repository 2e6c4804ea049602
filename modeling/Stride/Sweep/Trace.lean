import Stride.Sweep.Solid
import Stride.Sweep.Split

namespace Stride

/-!
# Tracing through a level

The partition is searched from the root along the sweep, the side on which a stretch starts first,
and every collidable brush of a reached leaf is met by the whole sweep.  The earliest entry wins.

Every look-up of the search may fail in an arena that was not checked, so the search answers an
`Option`; `World.trace` is the answer on a level that `Builder.build` accepted, where no look-up
fails.

* `World.search?` — the search below a node.
* `World.trace?`, `World.trace` — the whole query.
* `World.lineOfSight`, `World.isClear` — the derived queries.
-/

variable {α : Type}

namespace World

/-- The faces of a brush. -/
def faces? (w : World α) (b : Brush) : Option (List (Face α)) :=
  b.planes.mapM fun id => (w.plane? id).map (Face.mk id)

/-- The faces of the collidable ones among the listed brushes, in order. -/
def solids? (w : World α) (ids : List BrushId) : Option (List (List (Face α))) := do
  let brushes ← ids.mapM w.brush?
  (brushes.filter (·.collidable)).mapM w.faces?

variable [Scalar α]

/-- The best hit after the part of the level below a node, over one stretch of the sweep.  A stretch
    that starts at or beyond the best hit so far is not searched.  The fuel bounds the depth of the
    partition. -/
@[specialize] def search? (w : World α) (s : Sweep α) :
    (fuel : Nat) → NodeId → Segment α → Contact α → Option (Contact α)
  | 0, _, _, _ => none
  | fuel + 1, id, segment, contact =>
    if contact.fraction ≤ segment.startFraction then some contact
    else
      match w.node? id with
      | none => none
      | some (.leaf brushes _) =>
        (w.solids? brushes).map fun solids => solids.foldl (Contact.meet s) contact
      | some (.split plane front back _) =>
        match w.plane? plane with
        | none => none
        | some plane =>
          let child : Side → NodeId
            | .front => front
            | .back => back
          match segment.split plane s.radius with
          | .whole side => search? w s fuel (child side) segment contact
          | .parts first near far =>
            match search? w s fuel (child first) near contact with
            | none => none
            | some contact => search? w s fuel (child first.other) far contact

/-- The report of a search: the free fraction, limited to `[0, 1]`, and the point reached. -/
@[specialize] def report? (w : World α) (s : Sweep α) (c : Contact α) : Option (Trace α) := do
  let fraction := Scalar.clamp 0 1 c.fraction
  let normal ←
    match c.plane with
    | none => pure none
    | some id => (w.plane? id).map fun plane => some plane.normal
  return {
    fraction
    finish := if fraction < 1 then s.start.lerp s.finish fraction else s.finish
    startSolid := c.startSolid
    allSolid := c.allSolid
    plane := c.plane
    normal }

/-- Sweeps a sphere through the arena.  `none` says that a look-up failed or that the partition is
    deeper than it has nodes. -/
@[specialize] def trace? (w : World α) (s : Sweep α) : Option (Trace α) := do
  let contact ← w.search? s w.nodes.size w.root s.whole Contact.clear
  w.report? s contact

/-- Sweeps a sphere through the level. -/
@[specialize] def trace (w : World α) (start finish : Vec3 α) (radius : α) : Trace α :=
  (w.trace? ⟨start, finish, radius⟩).getD (Trace.noHit finish)

/-- Whether the straight line between two points meets nothing. -/
def lineOfSight (w : World α) (a b : Vec3 α) : Bool :=
  let t := w.trace a b 0
  !t.startSolid && !decide t.Hit

/-- Whether a resting sphere overlaps no collidable brush. -/
def isClear (w : World α) (position : Vec3 α) (radius : α) : Bool :=
  !(w.trace position position radius).startSolid

end World

end Stride
