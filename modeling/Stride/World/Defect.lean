namespace Stride

/-!
# Defects of a level

The reasons for which a level is refused.  A number that was read from the input is reported as
it stood there, so it may be negative or beyond the arena; `message` gives the text of each.
-/

/-- What is wrong with the shape of a node record. -/
inductive Malformation where
  /-- A leaf that has a child. -/
  | leafWithChildren
  /-- A split that lacks a child. -/
  | missingChild
deriving DecidableEq, Repr

/-- The shape's fault in words. -/
def Malformation.message : Malformation → String
  | leafWithChildren => "leaf with children"
  | missingChild => "internal node without two children"

/-- Why a level is refused. -/
inductive Defect where
  /-- The snapshot has no tree. -/
  | missingRoot
  /-- The root is not a node of the arena. -/
  | danglingRoot (root : Nat)
  /-- A brush has a face that is not a plane of the arena. -/
  | danglingPlane (brush : Nat) (plane : Int)
  /-- A leaf lists a brush that is not in the arena. -/
  | danglingBrush (node : Nat) (brush : Int)
  /-- A node is split by a plane that is not in the arena. -/
  | danglingNodePlane (node : Nat) (plane : Int)
  /-- A node has a child that is not in the arena. -/
  | danglingChild (node : Nat) (child : Nat)
  /-- A node record has the wrong shape. -/
  | malformedNode (node : Nat) (reason : Malformation)
  /-- A plane is not sound. -/
  | degenerateNormal (plane : Nat)
  /-- A node is reached a second time. -/
  | cycle (node : Nat)
deriving DecidableEq, Repr

/-- The defect in words. -/
def Defect.message : Defect → String
  | missingRoot => "snapshot has no collision tree"
  | danglingRoot root => s!"root node {root} does not exist"
  | danglingPlane brush plane => s!"brush {brush} references missing plane {plane}"
  | danglingBrush node brush => s!"node {node} references missing brush {brush}"
  | danglingNodePlane node plane => s!"node {node} splits on missing plane {plane}"
  | danglingChild node child => s!"node {node} references missing child {child}"
  | malformedNode node reason => s!"node {node} is malformed: {reason.message}"
  | degenerateNormal plane => s!"plane {plane} has a degenerate normal"
  | cycle node => s!"node {node} is reachable more than once"

end Stride
