import Stride.Proofs.Motion.Footing
import Stride.Proofs.Motion.Glide
import Stride.Proofs.Single.Pattern

namespace Stride

/-!
# What the outcome of a slide says

A slide makes no more sweeps than the tuning allows, keeps no more surfaces in mind than there is
room for, and every surface that stops it has a normal.  Its outcome is read off its sweeps: it is
clear exactly if the first one is free, and then the sphere is where it was bound for; where it is
blocked, the sphere does not move up or down, and not at all unless it is stuck in a solid.

* `Slide.free_of_clear` — the first sweep of a slide that is clear is free.
* `Slide.Kept` — what is kept from bump to bump; `Slide.Ended` — what holds after the last.
* `Slide.bumps_ended` — it does, on a level of the right shape.
* `Slide.Reported` — all that the outcome says.
* `World.Loaded.reported` — on a level that is handed out it says so, for any numbers.
-/

variable {α : Type} [Scalar α] {w : World α} {t : Tuning α}

/-! ### Sweeps -/

namespace Slide

section

variable {r : Request α} {position velocity : Vec3 α}

/-- A slide that met a surface does not forget it. -/
theorem bumps_touched (w : World α) (t : Tuning α) (left : Nat) {s : State α}
    (h : s.touched = true) : (bumps w t left s).2.touched = true :=
  bumps_invariant (P := fun s => s.touched = true) (fun _ _ hs hbump => hbump.touched hs) left s h

/-- The sweeps that were made stay on record. -/
theorem traces_suffix_bumps (w : World α) (t : Tuning α) (left : Nat) (s : State α) :
    s.traces <:+ (bumps w t left s).2.traces := by
  refine bumps_invariant (P := fun s' => s.traces <:+ s'.traces) ?_ left s (List.suffix_refl _)
  intro s₁ step h hbump
  rw [hbump.traces_eq]
  exact h.trans (List.suffix_cons _ _)

/-- The first sweep is the first on record. -/
theorem getLast?_traces_run (hbumps : t.maxBumps ≠ 0) (w : World α) (r : Request α)
    (position velocity : Vec3 α) :
    (run w t r position velocity).2.traces.getLast? =
      some (firstSweep w t r position velocity) := by
  obtain ⟨left, step, hbump, hrun⟩ := exists_first_bump hbumps w r position velocity
  -- the latest sweep comes first in the list, so the first one is at its end
  have hfirst : step.state.traces = [firstSweep w t r position velocity] := hbump.traces_eq
  have hsuffix : step.state.traces <:+ (run w t r position velocity).2.traces := by
    rw [hrun]
    cases step with
    | again s => exact traces_suffix_bumps w t left s
    | stop ending s => exact List.suffix_refl _
  obtain ⟨later, hlater⟩ := hsuffix
  rw [← hlater, hfirst, List.getLast?_concat]

theorem moved_outcome_eq_clear_iff {β : Type} (r : Request β) (e : Ending × State β) :
    (moved r e).outcome = .clear ↔ e.1 = .finished ∧ e.2.touched = false := by
  obtain ⟨ending, s⟩ := e
  cases ending <;> cases htouched : s.touched <;> simp [moved, htouched]

/-- A slide that is blocked stops with the velocity of the move. -/
theorem moved_of_blocked {β : Type} {r : Request β} {e : Ending × State β}
    (h : (moved r e).outcome = .blocked) :
    e.1 ≠ .finished ∧ (moved r e).velocity = e.2.velocities.move := by
  obtain ⟨ending, s⟩ := e
  cases ending with
  | finished => cases htouched : s.touched <;> simp [moved, htouched] at h
  | _ =>
    refine ⟨fun hfinished => ?_, rfl⟩
    cases hfinished

/-- **A clear slide** has a free first sweep: a surface that is met is not forgotten. -/
theorem free_of_clear (hbumps : t.maxBumps ≠ 0)
    (h : (slide w t r position velocity).outcome = .clear) :
    (firstSweep w t r position velocity).allSolid = false ∧
      1 ≤ (firstSweep w t r position velocity).fraction := by
  obtain ⟨left, step, hbump, hrun⟩ := exists_first_bump hbumps w r position velocity
  rw [slide, hrun, moved_outcome_eq_clear_iff] at h
  cases step with
  | again s =>
    -- a bump that goes on has met a surface, and then the slide is not clear
    have htouched := bumps_touched w t left hbump.touched_of_again
    cases htouched.symm.trans h.2
  | stop ending s =>
    obtain ⟨rfl, -⟩ := h
    cases hbump with
    | finished hfree hfar => exact ⟨hfree, hfar⟩

end

/-! ### Counts -/

/-- What is kept while bumps are left, of so many in all. -/
structure Kept (total left : Nat) (s : State α) : Prop where
  /-- Each bump made one sweep. -/
  traces : s.traces.length + left ≤ total
  /-- There was room for all surfaces. -/
  planes : s.planes.length ≤ maxClipPlanes

/-- What holds after the last of so many bumps. -/
structure Ended (total : Nat) (ending : Ending) (s : State α) : Prop where
  /-- There is at most one sweep for each bump. -/
  traces : s.traces.length ≤ total
  /-- There was room for all surfaces. -/
  planes : s.planes.length ≤ maxClipPlanes
  /-- Every surface that stopped the sphere has a normal. -/
  oriented : ending ≠ .unoriented
  /-- A sphere that cannot go on does not move up or down. -/
  level : ending ≠ .finished → s.velocities.move.z = 0
  /-- It does not move at all, unless its last sweep says that it is stuck. -/
  still : ending ≠ .finished → s.velocities.move = 0 ∨
    ∃ last, s.traces.head? = some last ∧ last.allSolid = true

/-- A slide that starts has made no sweep, and knows of two surfaces at most. -/
theorem start_kept (t : Tuning α) (r : Request α) (position velocity : Vec3 α) (total : Nat) :
    Kept total total (start t r position velocity) where
  traces := Nat.zero_add total |>.le
  planes := length_planes_start_le t r position velocity

omit [Scalar α] in
/-- A surface that is added finds room. -/
theorem length_snoc_le {planes : List (Vec3 α)} (hroom : ¬ maxClipPlanes ≤ planes.length)
    (n : Vec3 α) : (planes ++ [n]).length ≤ maxClipPlanes := by
  rw [List.length_append, List.length_singleton]
  omega

theorem Kept.again {total left : Nat} {s s' : State α} (h : Kept total (left + 1) s)
    (hbump : Bumped w t s (.again s')) : Kept total left s' := by
  have htraces : s.traces.length + 1 + left ≤ total := by
    have := h.traces
    omega
  cases hbump with
  | nudged => exact ⟨htraces, h.planes⟩
  | clipped _ _ _ hroom => exact ⟨htraces, length_snoc_le hroom _⟩

variable [Scalar.Lawful α]

theorem Kept.stop (hw : w.WellFormed) {total left : Nat} {s s' : State α} {ending : Ending}
    (h : Kept total (left + 1) s) (hbump : Bumped w t s (.stop ending s')) :
    Ended total ending s' := by
  have htraces : s.traces.length + 1 ≤ total := by
    have := h.traces
    omega
  cases hbump with
  | embedded hstuck =>
    exact ⟨htraces, h.planes, nofun, fun _ => rfl, fun _ => .inr ⟨_, rfl, hstuck⟩⟩
  | finished => exact ⟨htraces, h.planes, nofun, fun h => absurd rfl h, fun h => absurd rfl h⟩
  | unoriented hfree hnear hnormal =>
    -- on a level of the right shape a surface that stops the sphere has a normal
    have hcoherent : (s.sweep w t).Coherent w := hw.coherent_trace _ _ _
    obtain ⟨n, hn⟩ := hcoherent.exists_normal hfree hnear
    cases hnormal.symm.trans hn
  | crowded => exact ⟨htraces, h.planes, nofun, fun _ => rfl, fun _ => .inl rfl⟩
  | wedged _ _ _ hroom =>
    exact ⟨htraces, length_snoc_le hroom _, nofun, fun _ => rfl, fun _ => .inl rfl⟩

/-- **After the last bump**, the counts are within their bounds and the ending means what it
    says. -/
theorem bumps_ended (hw : w.WellFormed) (t : Tuning α) {total left : Nat} {s : State α}
    (h : Kept total left s) : Ended total (bumps w t left s).1 (bumps w t left s).2 := by
  refine bumps_induction (P := Kept total) (Q := Ended total) ?_ (fun _ _ _ => Kept.again)
    (fun _ _ _ _ => Kept.stop hw) left s h
  intro s hs
  exact ⟨hs.traces, hs.planes, nofun, fun h => absurd rfl h, fun h => absurd rfl h⟩

/-! ### What is reported -/

/-- What the outcome of a slide says. -/
structure Reported (w : World α) (t : Tuning α) (r : Request α) (position velocity : Vec3 α) :
    Prop where
  /-- There are no more sweeps than the tuning allows. -/
  traces_le : (run w t r position velocity).2.traces.length ≤ t.maxBumps.toNat
  /-- After any number of bumps there was room for all surfaces. -/
  planes_le : ∀ n, (bumps w t n (start t r position velocity)).2.planes.length ≤ maxClipPlanes
  /-- Every surface that stopped the sphere has a normal. -/
  oriented : (run w t r position velocity).1 ≠ .unoriented
  /-- The first sweep is towards the target, along the velocity of the move. -/
  first : (run w t r position velocity).2.traces.getLast? =
    some (firstSweep w t r position velocity)
  /-- The slide is clear exactly if the first sweep is free. -/
  clear_iff : (slide w t r position velocity).outcome = .clear ↔
    (firstSweep w t r position velocity).allSolid = false ∧
      (firstSweep w t r position velocity).fraction = 1
  /-- A clear slide arrives at its target. -/
  arrives : (slide w t r position velocity).outcome = .clear →
    (slide w t r position velocity).position = target t r position velocity
  /-- It keeps its velocity, but for the effect of gravity. -/
  keeps : (slide w t r position velocity).outcome = .clear →
    (slide w t r position velocity).velocity =
      if r.gravity then { velocity with z := velocity.z - t.gravity * r.deltaTime } else velocity
  /-- A slide that is blocked does not go on up or down. -/
  level : (slide w t r position velocity).outcome = .blocked →
    (slide w t r position velocity).velocity.z = 0
  /-- It does not go on at all, unless its last sweep says that the sphere is stuck. -/
  still : (slide w t r position velocity).outcome = .blocked →
    (slide w t r position velocity).velocity = 0 ∨
      ∃ last, (run w t r position velocity).2.traces.head? = some last ∧ last.allSolid = true

end Slide

/-- **Outcomes.**  On a level that is handed out, and under any tuning that allows a bump, the
    outcome of a slide says what it is meant to say, for any numbers, NaN and the infinities
    included. -/
theorem World.Loaded.reported {w : World Float32} (hw : w.Loaded) {t : Tuning Float32}
    (hbumps : t.maxBumps ≠ 0) (r : Slide.Request Float32) (position velocity : Vec3 Float32) :
    Slide.Reported w t r position velocity := by
  have hended (n : Nat) :=
    Slide.bumps_ended hw.wellFormed t (Slide.start_kept t r position velocity n)
  have hrun : Slide.Ended t.maxBumps.toNat (Slide.run w t r position velocity).1
    (Slide.run w t r position velocity).2 := hended t.maxBumps.toNat
  set first := Slide.firstSweep w t r position velocity with hfirst
  have hcoherent : first.Coherent w := hw.wellFormed.coherent_trace _ _ _
  -- no fraction is above one, and for singles that makes one that is not below it equal to it
  have hone : (1 : Float32) ≤ first.fraction ↔ first.fraction = 1 := by
    constructor
    · intro h
      exact (Single.eq_of_le_of_le Scalar.Lawful.zero_lt_one h hcoherent.fraction_mem.2).symm
    · intro h
      rw [h]
      exact Scalar.Lawful.number_right hcoherent.fraction_mem.2
  have hslide (h : (slide w t r position velocity).outcome = .clear) :=
    Slide.slide_of_free hw.wellFormed hbumps (Slide.free_of_clear hbumps h).1
      (Slide.free_of_clear hbumps h).2
  exact
    { traces_le := hrun.traces
      planes_le := fun n => (hended n).planes
      oriented := hrun.oriented
      first := Slide.getLast?_traces_run hbumps w r position velocity
      clear_iff := by
        rw [← hone]
        refine ⟨Slide.free_of_clear hbumps, fun ⟨hfree, hfar⟩ => ?_⟩
        rw [Slide.slide_of_free hw.wellFormed hbumps hfree hfar]
        rfl
      arrives := fun h => by
        rw [hslide h]
        rfl
      keeps := fun h => by
        rw [hslide h]
        rfl
      level := fun h => by
        obtain ⟨hending, hvelocity⟩ := Slide.moved_of_blocked h
        rw [slide, hvelocity]
        exact hrun.level hending
      still := fun h => by
        obtain ⟨hending, hvelocity⟩ := Slide.moved_of_blocked h
        rw [slide, hvelocity]
        exact hrun.still hending }

/-- A sphere on the floor of the hillside that moves down into the slope is blocked: the floor, the
    slope and its own direction of travel form a dead corner. -/
theorem hillside_reported :
    ∃ w, hillside.build (.ofIndex 0) = .ok w ∧ (.classic : Tuning Float32).maxBumps ≠ 0 ∧
      Slide.Reported w .classic ⟨0.5, none, false⟩ ⟨50, 0, 16⟩ ⟨320, 0, -320⟩ ∧
      (slide w .classic ⟨0.5, none, false⟩ ⟨50, 0, 16⟩ ⟨320, 0, -320⟩).outcome = .blocked := by
  have hbumps : (.classic : Tuning Float32).maxBumps ≠ 0 := by decide
  exact ⟨_, hillside_build, hbumps, (World.Loaded.build hillside_build).reported hbumps _ _ _,
    by decide +kernel⟩

end Stride
