import Stride.Motion.Stairs
import Stride.Proofs.Motion.Bumps
import Stride.Proofs.Sweep.Report

namespace Stride

/-!
# Slides that meet nothing

The first bump of a slide is the last if its sweep runs free: the sphere arrives where it was bound
for after the whole time, no surface is met and nothing is clipped.  A slide over steps is then the
plain one.

* `World.report_clear` — the report of a search that finds nothing.
* `Slide.target`, `Slide.firstSweep` — where a slide is bound for, and its sweep towards it.
* `Slide.exists_first_bump` — a slide begins with a bump along that sweep.
* `Slide.freeMove`, `Slide.slide_of_free` — the slide whose first sweep is free.
* `stepSlide_of_clear` — the same slide over steps.
-/

variable {α : Type} [Scalar α] {w : World α} {t : Tuning α} {r : Slide.Request α}
  {position velocity : Vec3 α}

/-- The report of a search that found nothing is that the whole sweep is free. -/
theorem World.report_clear [Scalar.Lawful α] (w : World α) (s : Sweep α) :
    w.report s Contact.clear = Trace.noHit s.finish := by
  have hfraction : Scalar.clamp 0 1 (1 : α) = 1 := w.report_fraction s Contact.clear_proper
  simp only [report, Contact.clear, hfraction, Scalar.lt_irrefl, if_false, Option.bind_none]
  rfl

namespace Slide

/-! ### The first sweep -/

/-- Where a slide is bound for. -/
def target (t : Tuning α) (r : Request α) (position velocity : Vec3 α) : Vec3 α :=
  position + (startVelocities t r velocity).move * r.deltaTime

/-- The first sweep of a slide. -/
def firstSweep (w : World α) (t : Tuning α) (r : Request α) (position velocity : Vec3 α) :
    Trace α :=
  w.trace position (target t r position velocity) t.playerRadius

/-- A slide under a tuning that allows any bumps begins with one along its first sweep. -/
theorem exists_first_bump (hbumps : t.maxBumps ≠ 0) (w : World α) (r : Request α)
    (position velocity : Vec3 α) :
    ∃ left step, Bumped w t (start t r position velocity) step ∧
      run w t r position velocity =
        match step with
        | .again s => bumps w t left s
        | .stop ending s => (ending, s) := by
  obtain ⟨left, hleft⟩ : ∃ left, t.maxBumps.toNat = left + 1 := by
    refine ⟨t.maxBumps.toNat - 1, ?_⟩
    have hpos : t.maxBumps.toNat ≠ 0 := fun hzero => hbumps (UInt64.toNat_inj.1 hzero)
    omega
  have hrun : run w t r position velocity = bumps w t (left + 1) (start t r position velocity) := by
    rw [run, hleft]
  exact ⟨left, _, bump_bumped w t (start t r position velocity), hrun⟩

/-! ### Free slides -/

/-- The move of a slide with nothing in its way: it arrives at its target and keeps its velocity,
    but for the effect of gravity. -/
def freeMove (t : Tuning α) (r : Request α) (position velocity : Vec3 α) : Moved α where
  outcome := .clear
  position := target t r position velocity
  velocity :=
    if r.gravity then { velocity with z := velocity.z - t.gravity * r.deltaTime } else velocity

/-- The start of a slide keeps the velocity, but for the effect of gravity on the one that is left
    behind. -/
theorem startVelocities_eq (t : Tuning α) (r : Request α) (velocity : Vec3 α) :
    (if r.gravity then (startVelocities t r velocity).final
      else (startVelocities t r velocity).move) =
      if r.gravity then { velocity with z := velocity.z - t.gravity * r.deltaTime }
      else velocity := by
  unfold startVelocities
  split_ifs <;> rfl

/-- **A free sweep** is all that a slide does. -/
theorem run_eq_of_free (hbumps : t.maxBumps ≠ 0)
    (hfree : (firstSweep w t r position velocity).allSolid = false)
    (hfar : 1 ≤ (firstSweep w t r position velocity).fraction) :
    run w t r position velocity =
      (.finished, (start t r position velocity).swept (firstSweep w t r position velocity)) := by
  obtain ⟨left, step, hbump, hrun⟩ := exists_first_bump hbumps w r position velocity
  obtain rfl := hbump.finished_iff.1 ⟨hfree, hfar⟩
  exact hrun

/-- **A slide whose first sweep is free** has nothing in its way. -/
theorem slide_of_free [Scalar.Lawful α] (hw : w.WellFormed) (hbumps : t.maxBumps ≠ 0)
    (hfree : (firstSweep w t r position velocity).allSolid = false)
    (hfar : 1 ≤ (firstSweep w t r position velocity).fraction) :
    slide w t r position velocity = freeMove t r position velocity := by
  have hahead := Scalar.lt_of_lt_of_le Scalar.Lawful.zero_lt_one hfar
  have hposition : ((start t r position velocity).swept
      (firstSweep w t r position velocity)).position = target t r position velocity := by
    rw [State.swept, if_pos hahead]
    exact hw.finish_of_not_hit (Scalar.Lawful.not_lt_of_le hfar)
  rw [slide, run_eq_of_free hbumps hfree hfar, moved, hposition, freeMove, ← startVelocities_eq]
  rfl

/-- A slide whose first sweep meets nothing at all. -/
theorem slide_of_noHit [Scalar.Lawful α] (hw : w.WellFormed) (hbumps : t.maxBumps ≠ 0)
    (h : firstSweep w t r position velocity = Trace.noHit (target t r position velocity)) :
    slide w t r position velocity = freeMove t r position velocity := by
  have hone : (1 : α) ≤ 1 := Scalar.Lawful.number_right (Scalar.Lawful.le_of_lt
    Scalar.Lawful.zero_lt_one)
  apply slide_of_free hw hbumps
  · rw [h]
    rfl
  · rw [h]
    exact hone

end Slide

/-- A slide that met nothing has no need of steps. -/
theorem stepSlide_of_clear (h : (slide w t r position velocity).outcome = .clear) :
    stepSlide w t r position velocity = slide w t r position velocity := by
  rw [stepSlide]
  exact if_pos h

end Stride
