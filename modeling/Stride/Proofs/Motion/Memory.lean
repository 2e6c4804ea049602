import Stride.Proofs.Motion.Footing

namespace Stride

/-!
# What an actor remembers

Nothing but its position and its velocity is carried from one tick to the next.  The footing and the
ground that was found last are decided anew by a look at the ground before anything reads them, and
a spawn does not even read the position and the velocity.

* `Actor.Together` — two actors in the same place with the same velocity.
* `Together.refoot_eq` — after a look at the ground such actors are the same.
* `Together.tick_eq`, `spawn_eq` — after a tick, and after a spawn.
* `Together.run` — after a run, whose first effective command makes them the same.
* `Actor.memoryless` — the tick, the spawn and the run.
-/

variable {α : Type} [Scalar α]

/-! ### The same place and velocity -/

/-- Two actors are in the same place and have the same velocity, whatever they stand on and last
    found below them. -/
structure Actor.Together (a b : Actor α) : Prop where
  /-- The places. -/
  position : a.position = b.position
  /-- The velocities. -/
  velocity : a.velocity = b.velocity

/-- A command has an effect: it is a spawn, or a tick for some time. -/
def Command.Effective : Command α → Prop
  | .spawn _ => True
  | .move m => 0 < m.frameTime

namespace Actor

variable {w : World α} {t : Tuning α} {a b : Actor α} {c : Command α}

omit [Scalar α] in
theorem together_of_eq (h : a = b) : a.Together b := by
  subst h
  exact ⟨rfl, rfl⟩

/-! ### Looks at the ground -/

theorem Together.probe_eq (h : a.Together b) (w : World α) (t : Tuning α) :
    a.probe w t = b.probe w t := by
  unfold probe
  rw [h.position]

/-- What a look finds depends on the place and the velocity only. -/
theorem Together.look_eq (h : a.Together b) (w : World α) (t : Tuning α) :
    a.look w t = b.look w t := by
  unfold look
  rw [h.probe_eq w t, h.velocity]

/-- **A look at the ground** leaves nothing of the footing and of the ground that was found before:
    every outcome of the look writes both. -/
theorem Together.refoot_eq (h : a.Together b) (w : World α) (t : Tuning α) :
    a.refoot w t = b.refoot w t := by
  have hposition := h.position
  have hvelocity := h.velocity
  unfold refoot settle
  rw [h.look_eq w t]
  cases b.look w t <;> simp [hposition, hvelocity]

/-! ### Commands -/

theorem Together.tick_eq (h : a.Together b) (w : World α) (t : Tuning α) (input : Vec3 α)
    {frameTime : α} (htime : 0 < frameTime) :
    a.tick w t input frameTime = b.tick w t input frameTime := by
  rw [tick, tick, if_pos htime, if_pos htime, h.refoot_eq w t]

/-- A spawn reads nothing of the actor. -/
theorem spawn_eq (a b : Actor α) (w : World α) (t : Tuning α) (point : Vec3 α) :
    a.spawn w t point = b.spawn w t point := by
  have hplaced (position : Vec3 α) : Together { a with position, velocity := 0 }
      { b with position, velocity := 0 } := ⟨rfl, rfl⟩
  unfold spawn
  exact (hplaced _).refoot_eq w t

/-- A command that has an effect makes two actors the same. -/
theorem Together.obey_eq (h : a.Together b) (hc : c.Effective) :
    a.obey w t c = b.obey w t c := by
  cases c with
  | spawn point => exact spawn_eq a b w t point
  | move m => exact h.tick_eq w t m.input hc

theorem Together.obey (h : a.Together b) (w : World α) (t : Tuning α) (c : Command α) :
    (a.obey w t c).Together (b.obey w t c) := by
  by_cases hc : c.Effective
  · exact together_of_eq (h.obey_eq hc)
  · -- only a tick for no time has no effect, and it leaves both as they were
    cases c with
    | spawn point => exact absurd trivial hc
    | move m =>
      have htime : ¬ 0 < m.frameTime := hc
      simpa [Actor.obey, tick, htime] using h

/-! ### Runs -/

/-- Two actors in the same place and with the same velocity stay so. -/
theorem Together.run (h : a.Together b) (cs : List (Command α)) :
    (a.run w t cs).Together (b.run w t cs) := by
  induction cs generalizing a b with
  | nil => exact h
  | cons c cs ih => exact ih (h.obey w t c)

/-- From the first command on that has an effect, they are the same. -/
theorem Together.run_eq (h : a.Together b) {cs : List (Command α)} (hcs : ∃ c ∈ cs, c.Effective) :
    a.run w t cs = b.run w t cs := by
  induction cs generalizing a b with
  | nil => simp at hcs
  | cons c cs ih =>
    show (a.obey w t c).run w t cs = (b.obey w t c).run w t cs
    -- the first command makes them the same, or one of the later ones does
    by_cases hc : c.Effective
    · rw [h.obey_eq hc]
    · obtain ⟨c', hmem, heffective⟩ := hcs
      have hlater : c' ∈ cs := by
        rcases List.mem_cons.1 hmem with rfl | hlater
        · exact absurd heffective hc
        · exact hlater
      exact ih (h.obey w t c) ⟨c', hlater, heffective⟩

/-- **Memory.** In every level, under every tuning and for every input, a tick for some time makes
    two actors the same that were in the same place and had the same velocity, and a spawn makes any
    two actors the same.  Hence a run keeps actors together, and makes them the same as soon as it
    has an effect at all. -/
theorem memoryless (w : World α) (t : Tuning α) (a b : Actor α) :
    (a.position = b.position → a.velocity = b.velocity →
      (∀ (input : Vec3 α) (frameTime : α), 0 < frameTime →
        a.tick w t input frameTime = b.tick w t input frameTime) ∧
      ∀ cs : List (Command α), (a.run w t cs).position = (b.run w t cs).position ∧
        (a.run w t cs).velocity = (b.run w t cs).velocity ∧
        ((∃ c ∈ cs, c.Effective) → a.run w t cs = b.run w t cs)) ∧
      ∀ point : Vec3 α, a.spawn w t point = b.spawn w t point := by
  refine ⟨fun hposition hvelocity => ?_, spawn_eq a b w t⟩
  have h : a.Together b := ⟨hposition, hvelocity⟩
  refine ⟨fun input frameTime => h.tick_eq w t input, fun cs => ?_⟩
  exact ⟨(h.run cs).position, (h.run cs).velocity, h.run_eq⟩

/-- An actor over the floor that claims to fall and to have found a slope. -/
def confused : Actor Float32 :=
  { ofPosition ⟨0, 0, 16⟩ with
    velocity := ⟨100, 0, 0⟩
    groundTrace := some ((hillside.toWorld (.ofIndex 0)).trace ⟨120, 0, 60⟩ ⟨120, 0, -60⟩ 16) }

/-- An actor in the same place that claims to stand on a wall. -/
def mistaken : Actor Float32 :=
  { confused with footing := .grounded ⟨.ofIndex 7, ⟨1, 0, 0⟩⟩, groundTrace := none }

theorem mistaken_memoryless :
    ∃ w, hillside.build (.ofIndex 0) = .ok w ∧ confused ≠ mistaken ∧
      confused.tick w .classic ⟨0, 1, 0⟩ 0.015625 = mistaken.tick w .classic ⟨0, 1, 0⟩ 0.015625 ∧
      confused.spawn w .classic ⟨1, 2, 3⟩ =
        (default : Actor Float32).spawn w .classic ⟨1, 2, 3⟩ := by
  refine ⟨_, hillside_build, fun h => ?_, ?_, ?_⟩
  · exact absurd (congrArg footing h) nofun
  · exact ((memoryless _ .classic confused mistaken).1 rfl rfl).1 ⟨0, 1, 0⟩ 0.015625
      (by decide +kernel)
  · exact (memoryless _ .classic confused default).2 ⟨1, 2, 3⟩

end Actor

end Stride
