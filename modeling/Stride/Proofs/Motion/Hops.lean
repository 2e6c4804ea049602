import Stride.Proofs.Motion.Bumps
import Stride.Proofs.Motion.Climb

namespace Stride

/-!
# How an actor gets about

An actor that moves is taken along by sweeps and by nothing else: wherever a tick puts it, a short
chain of sweeps leads there, each from where the last one ended, and none of them of a sphere that
is stuck.  What no such sweep leaves, no actor leaves.

* `World.Hop` — one sweep of a sphere that is not stuck.
* `World.Hops` — so many of them at most, one after another.
* `Bumped.hops`, `bumps_hops`, `slide_hops`, `Stepped.hops` — one sweep for each bump of a slide,
  and two more for a step.
* `Actor.tick_hops` — two more for the looks at the ground.
* `Loaded.hops_of_tick` — the chain, and the regions that cannot be left.
-/

variable {α : Type} [Scalar α]

/-! ### Chains of sweeps -/

/-- A sweep of a sphere that is not stuck leads from one point to another.  Where it was bound for
    is left open. -/
def World.Hop (w : World α) (radius : α) (p q : Vec3 α) : Prop :=
  ∃ target trace, w.trace? ⟨p, target, radius⟩ = some trace ∧ trace.allSolid = false ∧
    trace.finish = q

/-- At most so many sweeps lead from one point to another. -/
inductive World.Hops (w : World α) (radius : α) : Nat → Vec3 α → Vec3 α → Prop
  | stay (n : Nat) (p : Vec3 α) : Hops w radius n p p
  | hop {n : Nat} {p q r : Vec3 α} : w.Hop radius p q → Hops w radius n q r →
      Hops w radius (n + 1) p r

namespace World

variable {w : World α} {radius : α} {n m : Nat} {p q r : Vec3 α}

/-- The sweep of a query is a hop, if the sphere is not stuck. -/
theorem WellFormed.hop (hw : w.WellFormed) {target : Vec3 α}
    (h : (w.trace p target radius).allSolid = false) :
    w.Hop radius p (w.trace p target radius).finish :=
  ⟨target, _, hw.trace?_eq_some ⟨p, target, radius⟩, h, rfl⟩

namespace Hops

theorem single (h : w.Hop radius p q) : w.Hops radius 1 p q := .hop h (.stay 0 q)

theorem mono (h : w.Hops radius n p q) (hnm : n ≤ m) : w.Hops radius m p q := by
  induction h generalizing m with
  | stay => exact .stay m _
  | hop first _ ih =>
    obtain ⟨m, rfl⟩ : ∃ k, m = k + 1 := ⟨m - 1, by omega⟩
    exact .hop first (ih (Nat.le_of_succ_le_succ hnm))

theorem trans (h : w.Hops radius n p q) (h' : w.Hops radius m q r) :
    w.Hops radius (n + m) p r := by
  induction h with
  | stay n => exact h'.mono (Nat.le_add_left m n)
  | @hop n _ _ _ first _ ih =>
    rw [Nat.add_right_comm]
    exact .hop first (ih h')

/-- The points that the sweeps lead through. -/
theorem exists_path (h : w.Hops radius n p q) :
    ∃ path : List (Vec3 α), path.length ≤ n ∧ List.IsChain (w.Hop radius) (p :: path) ∧
      (p :: path).getLast (List.cons_ne_nil p path) = q := by
  induction h with
  | stay n p => exact ⟨[], Nat.zero_le n, .singleton p, rfl⟩
  | @hop n p q r first _ ih =>
    obtain ⟨path, hlength, hchain, hlast⟩ := ih
    refine ⟨q :: path, Nat.succ_le_succ hlength, .cons_cons first hchain, ?_⟩
    rw [List.getLast_cons (List.cons_ne_nil q path), hlast]

/-- A region that no hop leaves is not left by many. -/
theorem mem_of_mem {region : Set (Vec3 α)} (h : w.Hops radius n p q)
    (hclosed : ∀ p ∈ region, ∀ q, w.Hop radius p q → q ∈ region) (hp : p ∈ region) :
    q ∈ region := by
  induction h with
  | stay => exact hp
  | hop first _ ih => exact ih (hclosed _ hp _ first)

end Hops

end World

/-! ### Slides -/

variable {w : World α} {t : Tuning α}

namespace Slide

/-- The sweep of a bump is one hop, or leaves the sphere where it is. -/
theorem State.swept_hops (hw : w.WellFormed) {s : State α}
    (hfree : (s.sweep w t).allSolid = false) :
    w.Hops t.playerRadius 1 s.position (s.swept (s.sweep w t)).position := by
  rw [State.swept]
  split_ifs
  · exact .single (hw.hop hfree)
  · exact .stay 1 s.position

/-- **A bump** takes the sphere to the end of its sweep, unless the sphere is stuck: no exit moves
    it any farther. -/
theorem Bumped.hops (hw : w.WellFormed) {s : State α} {step : Step α} (h : Bumped w t s step) :
    w.Hops t.playerRadius 1 s.position step.state.position := by
  cases h with
  | embedded => exact .stay 1 s.position
  | finished hfree | unoriented hfree | crowded hfree | nudged hfree | wedged hfree
  | clipped hfree => exact State.swept_hops hw hfree

/-- **The bumps** of a slide are as many sweeps at most. -/
theorem bumps_hops (hw : w.WellFormed) (t : Tuning α) (total : Nat) (s : State α) :
    w.Hops t.playerRadius total s.position (bumps w t total s).2.position := by
  -- the sweeps that were made and the bumps that are left are as many as there were bumps
  refine bumps_induction
    (P := fun left s' => ∃ made, made + left = total ∧
      w.Hops t.playerRadius made s.position s'.position)
    (Q := fun _ s' => w.Hops t.playerRadius total s.position s'.position) ?_ ?_ ?_ total s
    ⟨0, Nat.zero_add total, .stay 0 s.position⟩
  · rintro s' ⟨made, rfl, hmade⟩
    exact hmade
  · rintro left s₁ s₂ ⟨made, rfl, hmade⟩ hbump
    exact ⟨made + 1, by omega, hmade.trans (hbump.hops hw)⟩
  · rintro left s₁ ending s₂ ⟨made, rfl, hmade⟩ hbump
    exact (hmade.trans (hbump.hops hw)).mono (by omega)

end Slide

/-- **A slide** is one sweep for each bump that the tuning allows, at most. -/
theorem slide_hops (hw : w.WellFormed) (t : Tuning α) (r : Slide.Request α)
    (position velocity : Vec3 α) :
    w.Hops t.playerRadius t.maxBumps.toNat position (slide w t r position velocity).position := by
  rw [slide, Slide.moved_position]
  exact Slide.bumps_hops hw t _ (Slide.start t r position velocity)

/-! ### Steps -/

/-- **A step** is a sweep up, a slide and a sweep down, unless that is stuck. -/
theorem Stairs.Stepped.hops (hw : w.WellFormed) {r : Slide.Request α} {position velocity : Vec3 α}
    {m : Moved α} (h : Stepped w t r position velocity m) :
    w.Hops t.playerRadius (t.maxBumps.toNat + 2) position m.position := by
  have hrise : w.Hops t.playerRadius 1 position (rise w t position).finish :=
    .single (hw.hop h.room)
  have hraised := hrise.trans (slide_hops hw t r (rise w t position).finish velocity)
  cases hstuck : (descent w t r position velocity).allSolid with
  | true =>
    rw [h.hung hstuck]
    exact hraised.mono (by omega)
  | false =>
    rw [h.landed hstuck]
    exact (hraised.trans (.single (hw.hop hstuck))).mono (by omega)

/-- **A slide over steps** is the plain one or a step. -/
theorem stepSlide_hops [Scalar.Lawful α] (hw : w.WellFormed) (t : Tuning α) (r : Slide.Request α)
    (position velocity : Vec3 α) :
    w.Hops t.playerRadius (t.maxBumps.toNat + 2) position
      (stepSlide w t r position velocity).position := by
  rcases stepSlide_cases hw t r position velocity with hplain | hstepped
  · rw [hplain]
    exact (slide_hops hw t r position velocity).mono (Nat.le_add_right _ 2)
  · exact hstepped.hops hw

/-! ### Ticks -/

namespace Actor

/-- **A look at the ground** is one sweep, or leaves the actor where it is. -/
theorem refoot_hops (hw : w.WellFormed) (a : Actor α) (t : Tuning α) :
    w.Hops t.playerRadius 1 a.position (a.refoot w t).position := by
  rcases a.refoot_cases w t with hnothing | ⟨n, -, -, hsteep⟩ | ⟨s, hfound, hset⟩
  · rw [hnothing]
    exact .stay 1 a.position
  · rw [hsteep]
    exact .stay 1 a.position
  · rw [hset]
    exact .single (hw.hop hfound.free)

variable [Scalar.Lawful α]

/-- **A move** is a slide, over steps or not. -/
theorem move_hops (hw : w.WellFormed) (a : Actor α) (t : Tuning α) (input : Vec3 α)
    (deltaTime : α) :
    w.Hops t.playerRadius (t.maxBumps.toNat + 2) a.position
      (a.move w t input deltaTime).position := by
  rw [move]
  cases a.footing with
  | grounded support =>
    simp only [walk]
    split_ifs
    · exact .stay _ a.position
    · exact stepSlide_hops hw t _ a.position _
  | airborne => exact (slide_hops hw t _ a.position _).mono (Nat.le_add_right _ 2)

/-- **A tick** is a look at the ground, a move and another look. -/
theorem tick_hops (hw : w.WellFormed) (a : Actor α) (t : Tuning α) (input : Vec3 α)
    (frameTime : α) :
    w.Hops t.playerRadius (t.maxBumps.toNat + 4) a.position
      (a.tick w t input frameTime).position := by
  rw [tick]
  split_ifs
  · have hmove := (a.refoot_hops hw t).trans (move_hops hw _ t input (t.tickTime frameTime))
    exact (hmove.trans (refoot_hops hw _ t)).mono (by omega)
  · exact .stay _ a.position

end Actor

/-- **Actors are swept along.** On a level that is handed out and under any tuning, a chain of
    sweeps leads to where a tick puts an actor.  None of them is of a sphere that is stuck, and they
    are at most four more than the bumps of a slide.  So no number of ticks takes an actor out of a
    region that no such sweep leaves. -/
theorem World.Loaded.hops_of_tick {w : World Float32} (hw : w.Loaded) (t : Tuning Float32)
    (a : Actor Float32) :
    (∀ input frameTime, ∃ path : List (Vec3 Float32), path.length ≤ t.maxBumps.toNat + 4 ∧
      List.IsChain (w.Hop t.playerRadius) (a.position :: path) ∧
      (a.position :: path).getLast (List.cons_ne_nil _ _) =
        (a.tick w t input frameTime).position) ∧
    ∀ region : Set (Vec3 Float32),
      (∀ p ∈ region, ∀ q, w.Hop t.playerRadius p q → q ∈ region) → a.position ∈ region →
      ∀ moves : List (Move Float32), (a.run w t (moves.map .move)).position ∈ region := by
  refine ⟨fun input frameTime => (a.tick_hops hw.wellFormed t input frameTime).exists_path,
    fun region hclosed ha moves => ?_⟩
  refine Actor.run_induction (P := fun b => b.position ∈ region) ha fun c hc b hb => ?_
  obtain ⟨m, -, rfl⟩ := List.mem_map.1 hc
  exact (b.tick_hops hw.wellFormed t m.input m.frameTime).mem_of_mem hclosed hb

/-- An actor at rest on the floor of the hillside. -/
def walker : Actor Float32 := ⟨⟨0, 0, 16⟩, 0, .airborne, none⟩

/-- Two ticks towards the slope. -/
def stroll : List (Move Float32) := [⟨⟨1, 0, 0⟩, 0.015625⟩, ⟨⟨1, 0, 0⟩, 0.015625⟩]

/-- The actor gets ahead on the floor.  The points that any number of hops lead to are a region that
    no hop leaves. -/
theorem hillside_hops_of_tick :
    ∃ w, hillside.build (.ofIndex 0) = .ok w ∧
      (∃ path : List (Vec3 Float32), path.length ≤ (.classic : Tuning Float32).maxBumps.toNat + 4 ∧
        List.IsChain (w.Hop (.classic : Tuning Float32).playerRadius) (walker.position :: path) ∧
        (walker.position :: path).getLast (List.cons_ne_nil _ _) =
          (walker.tick w .classic ⟨1, 0, 0⟩ 0.015625).position) ∧
      (∃ n, w.Hops (.classic : Tuning Float32).playerRadius n walker.position
        (walker.run w .classic (stroll.map .move)).position) ∧
      walker.position.x < (walker.tick w .classic ⟨1, 0, 0⟩ 0.015625).position.x := by
  obtain ⟨htick, hrun⟩ := (World.Loaded.build hillside_build).hops_of_tick .classic walker
  refine ⟨_, hillside_build, htick ⟨1, 0, 0⟩ 0.015625, ?_, by decide +kernel⟩
  exact hrun {q | ∃ n, World.Hops _ _ n walker.position q}
    (fun _ ⟨n, hp⟩ _ hop => ⟨n + 1, hp.trans (.single hop)⟩) ⟨0, .stay 0 _⟩ stroll

end Stride
