import Stride.Motion.Tick

namespace Stride

/-!
# Runs of an actor

What happens to one actor between the time it is made and the time it is looked at: it is spawned
and moved, any number of times and in any order.

* `Command` — one of the two.
* `Actor.run` — a list of them, first to last.
* `Actor.run_induction` — what every command keeps, a run keeps.
-/

variable {α : Type}

/-- One tick of an actor. -/
structure Move (α : Type) where
  /-- The wished direction. -/
  input : Vec3 α
  /-- The time since the last tick. -/
  frameTime : α
deriving DecidableEq, Repr

/-- What an actor can be told to do. -/
inductive Command (α : Type) where
  /-- To be placed at a point. -/
  | spawn (point : Vec3 α)
  /-- To move for one tick. -/
  | move (m : Move α)
deriving DecidableEq, Repr

namespace Actor

variable [Scalar α] (w : World α) (t : Tuning α)

/-- The actor after a command. -/
def obey (a : Actor α) : Command α → Actor α
  | .spawn point => a.spawn w t point
  | .move m => a.tick w t m.input m.frameTime

/-- The actor after a list of commands. -/
def run (a : Actor α) (cs : List (Command α)) : Actor α := cs.foldl (Actor.obey w t) a

variable {w t}

/-- What every command of a run keeps, the run keeps. -/
theorem run_induction {P : Actor α → Prop} {a : Actor α} {cs : List (Command α)} (start : P a)
    (step : ∀ c ∈ cs, ∀ b : Actor α, P b → P (b.obey w t c)) : P (a.run w t cs) := by
  induction cs generalizing a with
  | nil => exact start
  | cons c cs ih =>
    exact ih (step c List.mem_cons_self a start) fun c' hc' => step c' (List.mem_cons_of_mem c hc')

end Actor

end Stride
