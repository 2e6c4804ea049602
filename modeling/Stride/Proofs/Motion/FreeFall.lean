import Mathlib
import Stride.Proofs.Motion.Glide
import Stride.Proofs.Motion.Rest
import Stride.Proofs.Scalar.Vectors

namespace Stride

/-!
# Free fall

In exact arithmetic an actor that nothing is in the way of falls along a parabola, whatever the
ticks are that its time is cut into.  The move of a tick uses the mean of the velocities before and
after gravity has acted, which is the velocity that takes the sphere along the parabola, and what is
kept is the velocity after it.

* `World.Vacant` — nothing is in the way of any sweep.
* `Tuning.fallen` — the actor after a time of falling, in closed form.
* `Tuning.fallen_fallen` — falling for two times, one after the other, is falling for their sum.
* `WellFormed.tick_eq_fallen` — one tick.
* `Accepted.idle_eq_fallen` — any number of ticks.
-/

variable {K : Type} [Field K] [LinearOrder K] [HasSqrt K] {w : World K} {t : Tuning K}

/-! ### Empty space -/

/-- No leaf that is reached lists a collidable brush with faces. -/
def World.Vacant {α : Type} (w : World α) : Prop :=
  ∀ cell, w.HasCell cell → ∀ b ∈ cell.brushes, ∀ brush, w.brush? b = some brush →
    brush.collidable = true → brush.planes = []

/-- The solids of a vacant level have no faces. -/
theorem World.Vacant.eq_nil {α : Type} {w : World α} (h : w.Vacant) {cell : Cell}
    (hcell : w.HasCell cell) {b : BrushId} (hb : b ∈ cell.brushes) {faces : List (Face α)}
    (hfaces : w.HasSolid b faces) : faces = [] := by
  obtain ⟨brush, hbrush, hcollidable, hlooked⟩ := hfaces
  rw [faces?, h cell hcell b hb brush hbrush hcollidable] at hlooked
  exact (Option.some.inj hlooked).symm

/-! ### The parabola -/

/-- An actor after falling for a time. -/
def Tuning.fallen (t : Tuning K) (a : Actor K) (time : K) : Actor K where
  position := a.position + a.velocity * time - Vec3.up (t.gravity * time * time / 2)
  velocity := a.velocity - Vec3.up (t.gravity * time)
  footing := .airborne
  groundTrace := none

variable [IsStrictOrderedRing K]

/-- **Two falls**, one after the other, are one fall for the sum of their times. -/
theorem Tuning.fallen_fallen (t : Tuning K) (a : Actor K) (first second : K) :
    t.fallen (t.fallen a first) second = t.fallen a (first + second) := by
  simp only [fallen, Actor.mk.injEq, and_true]
  constructor
  · ext <;> simp
    all_goals ring
  · ext <;> simp
    ring

/-- The velocity of the move is the mean of those before and after. -/
theorem Tuning.move_startVelocities_of_air (t : Tuning K) (deltaTime : K) (v : Vec3 K) :
    (Slide.startVelocities t ⟨deltaTime, none, true⟩ v).move =
      v - Vec3.up (t.gravity * deltaTime / 2) := by
  have hhalf : (0.5 : K) = 1 / 2 := by norm_num
  simp only [Slide.startVelocities, if_true]
  ext <;> simp [hhalf]
  ring

namespace World

/-! ### One tick -/

/-- In a vacant level every sweep is free. -/
theorem WellFormed.trace_of_vacant (hw : w.WellFormed) (h : w.Vacant) (start finish : Vec3 K)
    (radius : K) : w.trace start finish radius = Trace.noHit finish := by
  obtain ⟨p, hp⟩ := hw.exists_holds
  have htrace := hw.trace?_eq_report hp ⟨start, finish, radius⟩
  set s : Sweep K := ⟨start, finish, radius⟩
  obtain ⟨met, hmet, hsearch⟩ := hw.exists_met hp s s.whole Contact.clear
  have hempty (faces : List (Face K)) (hfaces : faces ∈ met) : faces = [] := by
    obtain ⟨b, hb, hsolid⟩ := hmet faces hfaces
    obtain ⟨cell, hcell, hlisted⟩ := Partition.mem_brushes_iff.1 hb
    exact h.eq_nil ((hasCell_iff_mem_cells hp.unfolds).2 hcell) hlisted hsolid
  rw [hsearch, Contact.foldl_meet_eq_clear hempty, report_clear] at htrace
  exact trace_eq_of_trace? htrace

/-- A look at the ground finds nothing in a vacant level. -/
theorem WellFormed.refoot_of_vacant (hw : w.WellFormed) (hvacant : w.Vacant) (a : Actor K)
    (t : Tuning K) : a.refoot w t = { a with footing := .airborne, groundTrace := none } := by
  have hprobe : a.probe w t = Trace.noHit _ := hw.trace_of_vacant hvacant _ _ _
  apply Actor.refoot_of_nothing
  unfold Actor.look
  rw [hprobe]
  rfl

/-- **One tick** without input, in a vacant level, is a fall for its time. -/
theorem WellFormed.tick_eq_fallen (hw : w.WellFormed) (hvacant : w.Vacant) (ht : t.fault? = none)
    (a : Actor K) {time : K} (hpos : 0 < time) (hle : time ≤ t.maxFrameTime) :
    a.tick w t 0 time = t.fallen a time := by
  have hbumps : t.maxBumps ≠ 0 := (Tuning.fault?_eq_none_iff.1 ht).2.2.1
  have htime : t.tickTime time = time := by
    rw [Tuning.tickTime, Scalar.minNum_eq_min, min_eq_left hle]
  -- nothing is wished for, so the velocity is only changed by gravity
  have hvelocity (b : Actor K) (hb : b.groundTrace = none) :
      b.fallVelocity t 0 time = b.velocity := by
    have hnormal : b.groundNormal? = none := by rw [Actor.groundNormal?, hb, Option.bind_none]
    unfold Actor.fallVelocity
    rw [Tuning.accelerate_eq_self (t.wish_zero_direction none), hnormal]
  rw [Actor.tick, if_pos hpos, htime, hw.refoot_of_vacant hvacant a]
  set b : Actor K := { a with footing := .airborne, groundTrace := none }
  have hmove : b.move w t 0 time = b.fall w t 0 time := rfl
  have hfree : Slide.firstSweep w t ⟨time, none, true⟩ b.position b.velocity =
      Trace.noHit (Slide.target t ⟨time, none, true⟩ b.position b.velocity) :=
    hw.trace_of_vacant hvacant _ _ _
  have hslide := Slide.slide_of_noHit hw hbumps hfree
  have hfall : b.fall w t 0 time =
      b.after (slide w t ⟨time, none, true⟩ b.position b.velocity) := by
    unfold Actor.fall
    rw [hvelocity b rfl]
    rfl
  have htarget : Slide.target t ⟨time, none, true⟩ b.position b.velocity =
      a.position + a.velocity * time - Vec3.up (t.gravity * time * time / 2) := by
    rw [Slide.target, t.move_startVelocities_of_air]
    ext <;> simp [b]
    ring
  rw [hmove, hfall, hslide, hw.refoot_of_vacant hvacant]
  simp only [Tuning.fallen, Actor.after, Slide.freeMove, htarget, Actor.mk.injEq, and_true, if_true,
    true_and]
  ext <;> simp [b]

/-! ### Many ticks -/

/-- **Any number of ticks** without input, but at least one, is a fall for the sum of their
    times. -/
theorem WellFormed.idle_eq_fallen_sum (hw : w.WellFormed) (hvacant : w.Vacant)
    (ht : t.fault? = none) (a : Actor K) {times : List K} (hne : times ≠ [])
    (htimes : ∀ time ∈ times, 0 < time ∧ time ≤ t.maxFrameTime) :
    a.idle w t times = t.fallen a times.sum := by
  induction times generalizing a with
  | nil => exact absurd rfl hne
  | cons time times ih =>
    obtain ⟨hpos, hle⟩ := htimes time List.mem_cons_self
    have hfirst : a.idle w t (time :: times) = (a.tick w t 0 time).idle w t times := rfl
    rw [hfirst, hw.tick_eq_fallen hvacant ht a hpos hle, List.sum_cons]
    by_cases hlast : times = []
    · rw [hlast, List.sum_nil, add_zero]
      rfl
    · rw [ih _ hlast fun time' htime' => htimes time' (List.mem_cons_of_mem _ htime'),
        t.fallen_fallen]

/-- **Free fall.** In an accepted level without solids in reach and under an accepted tuning, ticks
    without input, of times that are not cut short, take an actor along a parabola and leave it in
    the air with nothing found below it.  So the state after them depends on the sum of the times
    only, and not on how it was cut. -/
theorem Accepted.idle_eq_fallen (hw : w.Accepted) (hvacant : w.Vacant) (ht : t.fault? = none)
    (a : Actor K) {times : List K} (hne : times ≠ [])
    (htimes : ∀ time ∈ times, 0 < time ∧ time ≤ t.maxFrameTime) :
    (a.idle w t times).position =
        a.position + a.velocity * times.sum - Vec3.up (t.gravity * times.sum * times.sum / 2) ∧
      (a.idle w t times).velocity = a.velocity - Vec3.up (t.gravity * times.sum) ∧
      (a.idle w t times).footing = .airborne ∧ (a.idle w t times).groundTrace = none ∧
      ∀ others : List K, others ≠ [] → (∀ time ∈ others, 0 < time ∧ time ≤ t.maxFrameTime) →
        others.sum = times.sum → a.idle w t others = a.idle w t times := by
  have hfall := hw.wellFormed.idle_eq_fallen_sum hvacant ht a hne htimes
  rw [hfall]
  refine ⟨rfl, rfl, rfl, rfl, fun others hothers hranges hsum => ?_⟩
  rw [hw.wellFormed.idle_eq_fallen_sum hvacant ht a hothers hranges, hsum]

end World

/-- A split space with a trigger and a brush without faces.  The floor is listed by a leaf that is
    out of reach. -/
def shaft : Builder ℚ where
  planes := #[⟨⟨1, 0, 0⟩, 0⟩, ⟨⟨0, 0, 1⟩, 0⟩]
  brushes := #[⟨[.ofIndex 1], false⟩, ⟨[], true⟩, ⟨[.ofIndex 1], true⟩]
  nodes := #[.leaf [.ofIndex 0, .ofIndex 1] .everything, .leaf [.ofIndex 1] .everything,
    .split (.ofIndex 0) (.ofIndex 0) (.ofIndex 1) .everything, .leaf [.ofIndex 2] .everything]

/-- An actor that was thrown up towards the split. -/
def jumper : Actor ℚ := { Actor.ofPosition ⟨-1, 2, 10⟩ with velocity := ⟨64, 0, 320⟩ }

/-- Three short ticks take it where a longer one and a short one do, and on the way it passes the
    split. -/
theorem shaft_idle_eq_fallen :
    ∃ w : World ℚ, w.Accepted ∧ w.Vacant ∧ (Tuning.classic : Tuning ℚ).fault? = none ∧
      (jumper.idle w .classic [1 / 32, 1 / 64]).position = ⟨2, 2, 6175 / 256⟩ ∧
      (jumper.idle w .classic [1 / 32, 1 / 64]).velocity = ⟨64, 0, 565 / 2⟩ ∧
      jumper.idle w .classic [1 / 64, 1 / 64, 1 / 64] =
        jumper.idle w .classic [1 / 32, 1 / 64] := by
  let w := shaft.toWorld (.ofIndex 2)
  have hw : w.Accepted := World.accepted_of_defect?_eq_none (by decide +kernel)
  have hp : w.Unfolds (.ofIndex 2) _ := .split rfl (.leaf rfl) (.leaf rfl)
  have hlisted (cell : Cell) (hcell : w.HasCell cell) :
      ∀ b ∈ cell.brushes, b = .ofIndex 0 ∨ b = .ofIndex 1 := by
    rw [World.hasCell_iff_mem_cells hp] at hcell
    revert cell
    decide
  have hvacant : w.Vacant := by
    intro cell hcell b hb brush hbrush hcollidable
    rcases hlisted cell hcell b hb with rfl | rfl
    · obtain rfl := Option.some.inj hbrush
      cases hcollidable
    · obtain rfl := Option.some.inj hbrush
      rfl
  have ht : (Tuning.classic : Tuning ℚ).fault? = none := by decide +kernel
  have hne : ([1 / 32, 1 / 64] : List ℚ) ≠ [] := List.cons_ne_nil _ _
  obtain ⟨hposition, hvelocity, -, -, hcut⟩ :=
    hw.idle_eq_fallen hvacant ht jumper hne (by decide +kernel)
  refine ⟨w, hw, hvacant, ht, ?_, ?_, hcut [1 / 64, 1 / 64, 1 / 64] (by simp) (by decide +kernel)
    (by decide +kernel)⟩
  · rw [hposition]
    decide +kernel
  · rw [hvelocity]
    decide +kernel

end Stride
