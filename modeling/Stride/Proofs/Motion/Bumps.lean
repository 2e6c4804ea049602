import Mathlib.Data.Bool.Basic
import Mathlib.Tactic.SplitIfs
import Stride.Motion.Slide

namespace Stride.Slide

/-!
# What a bump can lead to

A bump ends the slide because the sphere is stuck, because the sweep was free, or because the
surfaces met leave no way to go on; otherwise it nudges the velocity off a surface that was met
before, or clips it against one that is new.  Whatever is said of slides is said of each of these
exits, and from there of all bumps.

* `State.sweep`, `State.swept`, `State.stopped` — the sweep of a bump, and the slide after it.
* `Bumped` — the exits of a bump; `bump_bumped` says that there are no others.
* `bumps_induction`, `bumps_invariant` — what every exit keeps, all bumps keep.
* `forall_mem_planes_start`, `length_planes_start_le` — the surfaces that a slide starts with.
-/

variable {α : Type} [Scalar α]

/-- The slide after a bump, whether it goes on or not. -/
def Step.state : Step α → State α
  | .again s => s
  | .stop _ s => s

/-- The sweep of the next bump. -/
def State.sweep (s : State α) (w : World α) (t : Tuning α) : Trace α :=
  w.trace s.position (s.position + s.velocities.move * s.timeLeft) t.playerRadius

/-- The slide after a sweep of a sphere that is not stuck. -/
def State.swept (s : State α) (trace : Trace α) : State α :=
  { s with
    position := if 0 < trace.fraction then trace.finish else s.position
    traces := trace :: s.traces }

/-- The slide after a sweep that was stopped on its way. -/
def State.stopped (s : State α) (trace : Trace α) : State α :=
  { s.swept trace with
    timeLeft := s.timeLeft - s.timeLeft * trace.fraction
    touched := true }

variable {w : World α} {t : Tuning α} {s : State α}

@[simp] theorem State.swept_timeLeft (trace : Trace α) :
    (s.swept trace).timeLeft = s.timeLeft := rfl

@[simp] theorem State.stopped_planes (trace : Trace α) : (s.stopped trace).planes = s.planes := rfl

@[simp] theorem State.stopped_velocities (trace : Trace α) :
    (s.stopped trace).velocities = s.velocities := rfl

/-! ### The exits -/

/-- The exits of a bump from a state. -/
inductive Bumped (w : World α) (t : Tuning α) (s : State α) : Step α → Prop where
  /-- The sphere is stuck in a solid. -/
  | embedded (hstuck : (s.sweep w t).allSolid = true) :
      Bumped w t s (.stop .embedded
        ({ s with traces := s.sweep w t :: s.traces }.withMove { s.velocities.move with z := 0 }))
  /-- The sweep is free. -/
  | finished (hfree : (s.sweep w t).allSolid = false) (hfar : 1 ≤ (s.sweep w t).fraction) :
      Bumped w t s (.stop .finished (s.swept (s.sweep w t)))
  /-- The sweep was stopped by nothing that has a normal. -/
  | unoriented (hfree : (s.sweep w t).allSolid = false) (hnear : ¬ 1 ≤ (s.sweep w t).fraction)
      (hnormal : (s.sweep w t).normal = none) :
      Bumped w t s (.stop .unoriented ((s.stopped (s.sweep w t)).withMove 0))
  /-- A surface was met for which there is no room. -/
  | crowded (hfree : (s.sweep w t).allSolid = false) (hnear : ¬ 1 ≤ (s.sweep w t).fraction)
      {n : Vec3 α} (hnormal : (s.sweep w t).normal = some n)
      (hfull : maxClipPlanes ≤ s.planes.length) :
      Bumped w t s (.stop .crowded ((s.stopped (s.sweep w t)).withMove 0))
  /-- A surface was met that was met before. -/
  | nudged (hfree : (s.sweep w t).allSolid = false) (hnear : ¬ 1 ≤ (s.sweep w t).fraction)
      {n : Vec3 α} (hnormal : (s.sweep w t).normal = some n)
      (hroom : ¬ maxClipPlanes ≤ s.planes.length) (hsame : ∃ p ∈ s.planes, samePlaneDot < n.dot p) :
      Bumped w t s (.again ((s.stopped (s.sweep w t)).withMove (s.velocities.move + n)))
  /-- A surface was met that closes a dead corner. -/
  | wedged (hfree : (s.sweep w t).allSolid = false) (hnear : ¬ 1 ≤ (s.sweep w t).fraction)
      {n : Vec3 α} (hnormal : (s.sweep w t).normal = some n)
      (hroom : ¬ maxClipPlanes ≤ s.planes.length)
      (hdead : clipToPlanes? (s.planes ++ [n]) s.velocities t.overclip = none) :
      Bumped w t s (.stop .wedged
        ({ s.stopped (s.sweep w t) with planes := s.planes ++ [n] }.withMove 0))
  /-- A surface was met that is clipped against. -/
  | clipped (hfree : (s.sweep w t).allSolid = false) (hnear : ¬ 1 ≤ (s.sweep w t).fraction)
      {n : Vec3 α} (hnormal : (s.sweep w t).normal = some n)
      (hroom : ¬ maxClipPlanes ≤ s.planes.length) {v : Velocities α}
      (hclip : clipToPlanes? (s.planes ++ [n]) s.velocities t.overclip = some v) :
      Bumped w t s (.again
        { s.stopped (s.sweep w t) with planes := s.planes ++ [n], velocities := v })

/-- A bump, case by case on what its sweep reports. -/
theorem bump_eq (w : World α) (t : Tuning α) (s : State α) :
    bump w t s =
      if (s.sweep w t).allSolid then
        .stop .embedded
          ({ s with traces := s.sweep w t :: s.traces }.withMove { s.velocities.move with z := 0 })
      else if 1 ≤ (s.sweep w t).fraction then .stop .finished (s.swept (s.sweep w t))
      else
        match (s.sweep w t).normal with
        | none => .stop .unoriented ((s.stopped (s.sweep w t)).withMove 0)
        | some n => collide t (s.stopped (s.sweep w t)) n := by
  -- whether the sphere gets ahead decides where the sweep leaves it, and nothing else
  have hahead (trace : Trace α) :
      (if 0 < trace.fraction then
        ({ s with position := trace.finish, traces := trace :: s.traces } : State α)
      else { s with traces := trace :: s.traces }) = s.swept trace := by
    unfold State.swept
    split_ifs <;> rfl
  cases hnormal : (s.sweep w t).normal with
  | none =>
    unfold State.sweep at hnormal ⊢
    simp only [bump, hahead, State.stopped, State.swept_timeLeft, hnormal]
  | some n =>
    unfold State.sweep at hnormal ⊢
    simp only [bump, hahead, State.stopped, State.swept_timeLeft, hnormal]

/-- **A bump** leads to one of its exits. -/
theorem bump_bumped (w : World α) (t : Tuning α) (s : State α) : Bumped w t s (bump w t s) := by
  rw [bump_eq]
  split_ifs with hstuck hfar
  · exact .embedded hstuck
  · exact .finished (Bool.eq_false_of_not_eq_true hstuck) hfar
  have hfree := Bool.eq_false_of_not_eq_true hstuck
  cases hnormal : (s.sweep w t).normal with
  | none => exact .unoriented hfree hfar hnormal
  | some n =>
    -- the surface is one too many, or was met before, or has to be clipped against
    simp only [collide]
    split_ifs with hfull hsame
    · exact .crowded hfree hfar hnormal hfull
    · rw [State.stopped_planes, List.any_eq_true] at hsame
      exact .nudged hfree hfar hnormal hfull (by simpa only [decide_eq_true_eq] using hsame)
    · simp only [State.stopped_planes, State.stopped_velocities]
      cases hclip : clipToPlanes? (s.planes ++ [n]) s.velocities t.overclip with
      | none => exact .wedged hfree hfar hnormal hfull hclip
      | some v => exact .clipped hfree hfar hnormal hfull hclip

/-- Every bump makes one sweep. -/
theorem Bumped.traces_eq {step : Step α} (h : Bumped w t s step) :
    step.state.traces = s.sweep w t :: s.traces := by
  cases h <;> rfl

/-- A bump uses up the time exactly if its sweep is free. -/
theorem Bumped.finished_iff {step : Step α} (h : Bumped w t s step) :
    ((s.sweep w t).allSolid = false ∧ 1 ≤ (s.sweep w t).fraction) ↔
      step = .stop .finished (s.swept (s.sweep w t)) := by
  cases h with
  | embedded hstuck => simp [hstuck]
  | finished hfree hfar => simp [hfree, hfar]
  | unoriented _ hnear => simp [hnear]
  | crowded _ hnear => simp [hnear]
  | nudged _ hnear => simp [hnear]
  | wedged _ hnear => simp [hnear]
  | clipped _ hnear => simp [hnear]

/-- A bump that is not the last has met a surface. -/
theorem Bumped.touched_of_again {s' : State α} (h : Bumped w t s (.again s')) :
    s'.touched = true := by
  cases h <;> rfl

/-- A surface that was met is not forgotten. -/
theorem Bumped.touched {step : Step α} (h : Bumped w t s step) (hs : s.touched = true) :
    step.state.touched = true := by
  cases h with
  | embedded => exact hs
  | finished => exact hs
  | _ => rfl

/-! ### All bumps -/

/-- **All bumps.**  What holds before the first bump and is kept by every exit holds in the end; it
    may depend on how many bumps are left. -/
theorem bumps_induction {P : Nat → State α → Prop} {Q : Ending → State α → Prop}
    (hout : ∀ s, P 0 s → Q .finished s)
    (hagain : ∀ left s s', P (left + 1) s → Bumped w t s (.again s') → P left s')
    (hstop : ∀ left s ending s', P (left + 1) s → Bumped w t s (.stop ending s') → Q ending s')
    (left : Nat) (s : State α) (h : P left s) :
    Q (bumps w t left s).1 (bumps w t left s).2 := by
  -- on the bumps that are left: the state changes, what it has to keep does not
  induction left generalizing s with
  | zero => exact hout s h
  | succ left ih =>
    have hbump := bump_bumped w t s
    rw [bumps]
    cases hstep : bump w t s with
    | again s' =>
      rw [hstep] at hbump
      exact ih s' (hagain left s s' h hbump)
    | stop ending s' =>
      rw [hstep] at hbump
      exact hstop left s ending s' h hbump

/-- What every exit keeps, the last bump included, all bumps keep. -/
theorem bumps_invariant {P : State α → Prop}
    (hstep : ∀ s step, P s → Bumped w t s step → P step.state) (left : Nat) (s : State α)
    (h : P s) : P (bumps w t left s).2 :=
  bumps_induction (P := fun _ s => P s) (Q := fun _ s => P s) (fun _ hs => hs)
    (fun _ s s' hs hbump => hstep s (.again s') hs hbump)
    (fun _ s ending s' hs hbump => hstep s (.stop ending s') hs hbump) left s h

/-! ### Starts and ends -/

variable {r : Request α} {position velocity : Vec3 α}

/-- A slide starts with the normal of the ground and its direction of travel, if it has them. -/
theorem forall_mem_planes_start {P : Vec3 α → Prop} (hground : ∀ n, r.ground = some n → P n)
    (htravel : ¬ (startVelocities t r velocity).move.normalizeOrZero.same 0 = true →
      P (startVelocities t r velocity).move.normalizeOrZero) :
    ∀ p ∈ (start t r position velocity).planes, P p := by
  intro p hp
  rcases List.mem_append.1 hp with hp | hp
  · exact hground p (Option.mem_toList.1 hp)
  · -- the direction of travel is in the list only if it is not zero
    split_ifs at hp with hzero
    · cases hp
    · rw [List.mem_singleton.1 hp]
      exact htravel hzero

/-- There is room for the surfaces that a slide starts with. -/
theorem length_planes_start_le (t : Tuning α) (r : Request α) (position velocity : Vec3 α) :
    (start t r position velocity).planes.length ≤ maxClipPlanes := by
  have hground : r.ground.toList.length ≤ 1 := by cases r.ground <;> simp
  rw [start, List.length_append, maxClipPlanes]
  split_ifs <;> simp <;> omega

omit [Scalar α] in
/-- What a slide amounts to is where its last bump left the sphere. -/
theorem moved_position (r : Request α) (e : Ending × State α) :
    (moved r e).position = e.2.position := by
  obtain ⟨ending, s⟩ := e
  cases ending <;> rfl

end Stride.Slide
