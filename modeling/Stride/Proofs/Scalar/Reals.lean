import Mathlib.Analysis.Real.Sqrt
import Stride.Proofs.Scalar.Exact

namespace Stride

/-!
# Real scalars

The real numbers with their square root: the reading of the formulas in which neither a sum, nor a
quotient, nor a length is rounded.
-/

/-- The root of a real number, zero where it is negative. -/
noncomputable instance : HasSqrt ℝ := ⟨Real.sqrt⟩

end Stride
