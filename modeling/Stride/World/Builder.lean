import Stride.World.Basic
import Stride.World.Defect

namespace Stride

/-!
# Building a level

A `Builder` collects planes, brushes and nodes in order and hands out their numbers.  Nothing is
checked until `build`, which names the first defect of a fixed walk or freezes the arena as it is.

* `Builder.addPlane`, `addBrush`, `addBox`, `addLeaf`, `addSplit` — the additions.
* `Builder.nodeDefect?` — what is wrong with one node, seen by itself.
* `Builder.walk` — the walk from the root, which also refuses a node that is met twice.
* `Builder.build`, `Builder.buildSingleLeaf` — the level, or its first defect.
-/

variable {α : Type}

/-- The parts of a level under construction. -/
structure Builder (α : Type) where
  /-- The planes added so far. -/
  planes : Array (Plane α) := #[]
  /-- The brushes added so far. -/
  brushes : Array Brush := #[]
  /-- The nodes added so far. -/
  nodes : Array Node := #[]
deriving DecidableEq, Repr

namespace Builder

/-! ### Additions

Each returns the number of what it added and the grown builder. -/

/-- Adds a plane. -/
def addPlane (b : Builder α) (p : Plane α) : PlaneId × Builder α :=
  (.ofIndex b.planes.size, { b with planes := b.planes.push p })

/-- Adds planes in order. -/
def addPlanes (b : Builder α) : List (Plane α) → List PlaneId × Builder α
  | [] => ([], b)
  | p :: ps =>
    let (id, b) := b.addPlane p
    let (ids, b) := b.addPlanes ps
    (id :: ids, b)

/-- Adds a brush with the given faces. -/
def addBrush (b : Builder α) (planes : List PlaneId) (collidable : Bool) : BrushId × Builder α :=
  (.ofIndex b.brushes.size, { b with brushes := b.brushes.push ⟨planes, collidable⟩ })

/-- Adds the six faces of a box, and the brush that they bound. -/
def addBox [Scalar α] (b : Builder α) (mins maxs : Vec3 α) (collidable : Bool) :
    BrushId × Builder α :=
  let (faces, b) := b.addPlanes (Plane.axisFaces mins maxs)
  b.addBrush faces collidable

/-- Adds a node. -/
def addNode (b : Builder α) (n : Node) : NodeId × Builder α :=
  (.ofIndex b.nodes.size, { b with nodes := b.nodes.push n })

/-- Adds a leaf that lists the given brushes. -/
def addLeaf (b : Builder α) (brushes : List BrushId) (bounds : Bounds) : NodeId × Builder α :=
  b.addNode (.leaf brushes bounds)

/-- Adds a split of space. -/
def addSplit (b : Builder α) (plane : PlaneId) (front back : NodeId) (bounds : Bounds) :
    NodeId × Builder α :=
  b.addNode (.split plane front back bounds)

@[simp] theorem planes_addPlane (b : Builder α) (p : Plane α) :
    (b.addPlane p).2.planes = b.planes.push p := rfl

@[simp] theorem brushes_addPlane (b : Builder α) (p : Plane α) :
    (b.addPlane p).2.brushes = b.brushes := rfl

@[simp] theorem brushes_addBrush (b : Builder α) (planes : List PlaneId) (collidable : Bool) :
    (b.addBrush planes collidable).2.brushes = b.brushes.push ⟨planes, collidable⟩ := rfl

@[simp] theorem nodes_addNode (b : Builder α) (n : Node) :
    (b.addNode n).2.nodes = b.nodes.push n := rfl

@[simp] theorem planes_addPlanes (b : Builder α) (ps : List (Plane α)) :
    (b.addPlanes ps).2.planes = b.planes ++ ps.toArray := by
  induction ps generalizing b with
  | nil => simp [addPlanes]
  | cons p ps ih => simp [addPlanes, ih]

@[simp] theorem length_addPlanes (b : Builder α) (ps : List (Plane α)) :
    (b.addPlanes ps).1.length = ps.length := by
  induction ps generalizing b with
  | nil => rfl
  | cons p ps ih => simp [addPlanes, ih]

/-! ### Defects -/

/-- The lowest plane that is not sound. -/
def planeDefect? [Scalar α] (b : Builder α) : Option Defect :=
  (b.planes.findIdx? fun p => !decide p.IsSound).map .degenerateNormal

/-- The first face of a brush that is not a plane of the arena. -/
def brushDefect? (b : Builder α) : Option Defect :=
  b.brushes.toList.zipIdx.findSome? fun (brush, i) =>
    (brush.planes.find? fun id => b.planes.size ≤ id.index).map fun id =>
      .danglingPlane i id.index

/-- What is wrong with a node seen by itself: at a split the plane, then the front child, then the
    back child; at a leaf the first brush. -/
def nodeDefect? (b : Builder α) (id : NodeId) : Node → Option Defect
  | .split plane front back _ =>
    if b.planes.size ≤ plane.index then some (.danglingNodePlane id.index plane.index)
    else if b.nodes.size ≤ front.index then some (.danglingChild id.index front.index)
    else if b.nodes.size ≤ back.index then some (.danglingChild id.index back.index)
    else none
  | .leaf brushes _ =>
    (brushes.find? fun brush => b.brushes.size ≤ brush.index).map fun brush =>
      .danglingBrush id.index brush.index

/-- The nodes to visit after this one.  The back child comes first. -/
def children : Node → List NodeId
  | .split _ front back _ => [back, front]
  | .leaf .. => []

/-- The first defect met by a walk that visits the pending nodes in order, each followed by all
    that is below it.  A node that was seen before is a defect.  Each step but the last marks one
    more node as seen, so the fuel never runs out if it exceeds the number of nodes. -/
def walk (b : Builder α) : (fuel : Nat) → (seen : Array Bool) → (pending : List NodeId) →
    Option Defect
  | 0, _, _ => none
  | _, _, [] => none
  | fuel + 1, seen, id :: pending =>
    match b.nodes[id.index]? with
    | none => some (.danglingRoot id.index)
    | some node =>
      if seen.getD id.index false then some (.cycle id.index)
      else
        match b.nodeDefect? id node with
        | some defect => some defect
        | none => walk b fuel (seen.setIfInBounds id.index true) (children node ++ pending)

/-- The first defect of the part below the root. -/
def treeDefect? (b : Builder α) (root : NodeId) : Option Defect :=
  b.walk (b.nodes.size + 1) (Array.replicate b.nodes.size false) [root]

/-- The first defect: of the planes, of the brushes, of the root, of the nodes below it. -/
def defect? [Scalar α] (b : Builder α) (root : NodeId) : Option Defect :=
  b.planeDefect? <|> b.brushDefect? <|> b.treeDefect? root

/-! ### The level -/

/-- The level with the given root, or its first defect. -/
def build [Scalar α] (b : Builder α) (root : NodeId) : Except Defect (World α) :=
  match b.defect? root with
  | some defect => .error defect
  | none => .ok ⟨b.planes, b.brushes, b.nodes, root⟩

/-- The numbers of all brushes. -/
def brushIds (b : Builder α) : List BrushId := (List.range b.brushes.size).map .ofIndex

/-- The level whose partition is one leaf that lists every brush. -/
def buildSingleLeaf [Scalar α] (b : Builder α) : Except Defect (World α) :=
  let (root, b) := b.addLeaf b.brushIds .everything
  b.build root

end Builder

end Stride
