import Stride.Motion.Stairs
import Stride.Motion.Tick
import Stride.Proofs.Single.Order
import Stride.Proofs.Sweep.Clearance
import Stride.Proofs.Sweep.Flat
import Stride.Proofs.Sweep.Inside
import Stride.Proofs.Sweep.Queries
import Stride.Saved.Actor
import Stride.Saved.Geometry
import Stride.Saved.Snapshot
import Stride.Saved.Tuning
import Stride.World.Partition
import Stride.Proofs.Sweep.Report
import Stride.Proofs.Sweep.Standoff
import Stride.Proofs.Single.Pattern
import Stride.Proofs.Sweep.Depth
import Stride.Proofs.Sweep.Rearranged
import Stride.Proofs.Sweep.Clutter
import Stride.Proofs.Sweep.OneLeaf
import Stride.Proofs.Motion.Hops
import Stride.Proofs.World.Loading
import Stride.Proofs.Motion.Rest
import Stride.Proofs.Motion.FreeFall
import Stride.Proofs.Motion.Floor
import Stride.Proofs.Saved.Snapshots
import Stride.Proofs.Motion.Outcomes
import Stride.Proofs.Motion.Budget
import Stride.Proofs.Motion.Climb
import Stride.Proofs.Single.Lossless
import Stride.Proofs.World.FirstDefect
import Stride.Proofs.Sweep.AtRest
import Stride.Proofs.Sweep.Handed
import Stride.Proofs.Sweep.Sight
import Stride.Proofs.Motion.Friction
import Stride.Proofs.Motion.Broken
import Stride.Proofs.Motion.Finite
import Stride.Proofs.Saved.Spelling
import Stride.Proofs.Sweep.Boxes
import Stride.Proofs.Single.Integers
import Stride.Proofs.Motion.Surface
