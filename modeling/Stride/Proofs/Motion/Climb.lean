import Stride.Motion.Stairs
import Stride.Proofs.Motion.Footing

namespace Stride

/-!
# When a slide steps

A slide over steps is the plain slide, or a better one: from a step higher, down again, and farther
away horizontally.  Which of the two it is can be read off the sweeps that are made, and it is the
raised slide exactly if nothing speaks against that.

* `Stairs.rise`, `Stairs.raised`, `Stairs.descent` — the sweep up, the slide and the sweep down.
* `Stairs.FootingBelow` — there is ground to step from; `walkableBelow_iff` says that it is found.
* `Stairs.Stepped` — a move that a step led to; `Stepped.eq_landing` says that there is one at most.
* `stepSlide_cases`, `stepSlide_of_stepped` — the plain slide, or a step wherever there is one.
* `Loaded.stepSlide_gains` — no ground is lost, for any numbers.
-/

variable {α : Type} [Scalar α]

namespace Stairs

/-! ### The attempt -/

/-- The sweep one step up. -/
def rise (w : World α) (t : Tuning α) (position : Vec3 α) : Trace α :=
  w.trace position (position + Vec3.up t.stepHeight) t.playerRadius

/-- The slide from a step higher. -/
def raised (w : World α) (t : Tuning α) (r : Slide.Request α) (position velocity : Vec3 α) :
    Moved α :=
  slide w t r (rise w t position).finish velocity

/-- The sweep from the end of that slide, down by the height that was gained. -/
def descent (w : World α) (t : Tuning α) (r : Slide.Request α) (position velocity : Vec3 α) :
    Trace α :=
  w.trace (raised w t r position velocity).position
    ((raised w t r position velocity).position -
      Vec3.up ((rise w t position).finish.z - position.z)) t.playerRadius

/-- The sweep one step down hits a plane that can be stood on. -/
def FootingBelow (w : World α) (t : Tuning α) (position : Vec3 α) : Prop :=
  ∃ id plane,
    (w.trace position (position - Vec3.up t.stepHeight) t.playerRadius).plane = some id ∧
      w.plane? id = some plane ∧ t.minGroundNormal ≤ plane.normal.z

/-- Where the attempt ends, and with which velocity. -/
def landing (w : World α) (t : Tuning α) (r : Slide.Request α) (position velocity : Vec3 α) :
    Vec3 α × Vec3 α :=
  (if (descent w t r position velocity).allSolid then (raised w t r position velocity).position
    else (descent w t r position velocity).finish,
  match (descent w t r position velocity).normal with
  | none => (raised w t r position velocity).velocity
  | some n =>
    if (descent w t r position velocity).Hit then
      (raised w t r position velocity).velocity.clip n t.overclip
    else (raised w t r position velocity).velocity)

variable {w : World α} {t : Tuning α} {r : Slide.Request α} {position velocity : Vec3 α}
  {m : Moved α}

/-- The attempt fails only if there is no room above. -/
theorem raised?_eq (w : World α) (t : Tuning α) (r : Slide.Request α) (position velocity : Vec3 α) :
    raised? w t r position velocity =
      if (rise w t position).allSolid then none else some (landing w t r position velocity) := rfl

/-- A move that a step led to. -/
structure Stepped (w : World α) (t : Tuning α) (r : Slide.Request α) (position velocity : Vec3 α)
    (m : Moved α) : Prop where
  /-- The plain slide met something. -/
  met : (slide w t r position velocity).outcome ≠ .clear
  /-- There is ground to step from, if the plain slide ends on the way up. -/
  footing : 0 < (slide w t r position velocity).velocity.z → FootingBelow w t position
  /-- There is room above. -/
  room : (rise w t position).allSolid = false
  /-- The step counts as a slide along a surface. -/
  clipped : m.outcome = .clipped
  /-- It leads farther away horizontally than the plain slide. -/
  farther : ((slide w t r position velocity).position - position).flatLengthSq <
    (m.position - position).flatLengthSq
  /-- It ends where the sweep down ends. -/
  landed : (descent w t r position velocity).allSolid = false →
    m.position = (descent w t r position velocity).finish
  /-- Where that is stuck, it ends where the raised slide ends. -/
  hung : (descent w t r position velocity).allSolid = true →
    m.position = (raised w t r position velocity).position
  /-- It keeps the velocity of the raised slide where it comes down on nothing. -/
  kept : (descent w t r position velocity).normal = none →
    m.velocity = (raised w t r position velocity).velocity
  /-- Where it comes down on a surface, that velocity is clipped against it. -/
  bent : ∀ n, (descent w t r position velocity).normal = some n →
    m.velocity = (raised w t r position velocity).velocity.clip n t.overclip

variable [Scalar.Lawful α]

/-- Ground to step from is found where there is any. -/
theorem walkableBelow_iff (hw : w.WellFormed) :
    walkableBelow w t position = true ↔ FootingBelow w t position := by
  rw [walkableBelow, FootingBelow]
  set below := w.trace position (position - Vec3.up t.stepHeight) t.playerRadius
  have hcoherent : below.Coherent w := hw.coherent_trace _ _ _
  cases hnormal : below.normal with
  | none =>
    -- a sweep that reports no normal names no plane
    refine iff_of_false nofun ?_
    rintro ⟨id, plane, hid, -⟩
    obtain ⟨_, -, hsome⟩ := hcoherent.normal_eq id hid
    cases hnormal.symm.trans hsome
  | some n =>
    obtain ⟨id, plane, hid, hlook, rfl⟩ := hcoherent.exists_plane hnormal
    simp only [hcoherent.hit_of_normal hnormal, true_and, decide_eq_true_eq]
    constructor
    · intro hle
      exact ⟨id, plane, hid, hlook, hle⟩
    · rintro ⟨id', plane', hid', hlook', hle⟩
      obtain rfl : id = id' := Option.some.inj (hid.symm.trans hid')
      obtain rfl : plane = plane' := Option.some.inj (hlook.symm.trans hlook')
      exact hle

/-- The sweep down is cut short where it reports a normal. -/
theorem hit_descent (hw : w.WellFormed) {n : Vec3 α}
    (h : (descent w t r position velocity).normal = some n) :
    (descent w t r position velocity).Hit :=
  (hw.coherent_trace _ _ _).hit_of_normal h

/-- **A step** ends where the attempt ends, so there is one at most. -/
theorem Stepped.eq_landing (hw : w.WellFormed) (h : Stepped w t r position velocity m) :
    m = ⟨.clipped, (landing w t r position velocity).1, (landing w t r position velocity).2⟩ := by
  have hposition : m.position = (landing w t r position velocity).1 := by
    simp only [landing]
    split_ifs with hstuck
    · exact h.hung hstuck
    · exact h.landed (Bool.eq_false_of_not_eq_true hstuck)
  have hvelocity : m.velocity = (landing w t r position velocity).2 := by
    simp only [landing]
    cases hnormal : (descent w t r position velocity).normal with
    | none => exact h.kept hnormal
    | some n =>
      simp only [hit_descent hw hnormal, if_true]
      exact h.bent n hnormal
  rw [← hposition, ← hvelocity, ← h.clipped]

/-- **An attempt** that nothing speaks against is a step. -/
theorem stepped_landing (hw : w.WellFormed)
    (hmet : (slide w t r position velocity).outcome ≠ .clear)
    (hfooting : 0 < (slide w t r position velocity).velocity.z → FootingBelow w t position)
    (hroom : (rise w t position).allSolid = false)
    (hfarther : ((slide w t r position velocity).position - position).flatLengthSq <
      ((landing w t r position velocity).1 - position).flatLengthSq) :
    Stepped w t r position velocity
      ⟨.clipped, (landing w t r position velocity).1, (landing w t r position velocity).2⟩ where
  met := hmet
  footing := hfooting
  room := hroom
  clipped := rfl
  farther := hfarther
  landed hfree := by simp [landing, hfree]
  hung hstuck := by simp [landing, hstuck]
  kept hnone := by simp [landing, hnone]
  bent n hsome := by simp [landing, hsome, hit_descent hw hsome]

end Stairs

variable {w : World α} {t : Tuning α} {r : Slide.Request α} {position velocity : Vec3 α}
  {m : Moved α} [Scalar.Lawful α]

open Stairs

/-! ### The choice -/

/-- **A slide over steps** is the plain one, or a step. -/
theorem stepSlide_cases (hw : w.WellFormed) (t : Tuning α) (r : Slide.Request α)
    (position velocity : Vec3 α) :
    stepSlide w t r position velocity = slide w t r position velocity ∨
      Stepped w t r position velocity (stepSlide w t r position velocity) := by
  rw [stepSlide, raised?_eq]
  split_ifs with hclear hrising hstuck
  · exact .inl rfl
  · exact .inl rfl
  · exact .inl rfl
  · -- the attempt was made, and what speaks against a step was looked at before
    simp only
    split_ifs with hfarther
    · refine .inr (stepped_landing hw hclear (fun hup => ?_) (Bool.eq_false_of_not_eq_true hstuck)
        hfarther)
      rw [← walkableBelow_iff hw]
      by_contra hnone
      exact hrising ⟨hup, Bool.eq_false_of_not_eq_true hnone⟩
    · exact .inl rfl

/-- **A step** is taken wherever there is one. -/
theorem stepSlide_of_stepped (hw : w.WellFormed) (h : Stepped w t r position velocity m) :
    stepSlide w t r position velocity = m := by
  have hrising : ¬ (0 < (slide w t r position velocity).velocity.z ∧
      walkableBelow w t position = false) := by
    rintro ⟨hup, hnone⟩
    have hfooting := (walkableBelow_iff hw).2 (h.footing hup)
    cases hnone.symm.trans hfooting
  -- the step can only be the attempt that is made
  have heq := h.eq_landing hw
  have hfarther := h.farther
  rw [heq] at hfarther
  rw [stepSlide, raised?_eq]
  simp only [h.met, hrising, h.room, if_false, Bool.false_eq_true]
  rw [if_pos hfarther, heq]

/-- **Steps lose no ground.**  On a level that is handed out, and for any numbers, a slide over
    steps is the plain slide, unchanged, or a step, which leads strictly farther away horizontally;
    and a step is taken wherever there is one.  There is none where the plain slide is clear, where
    there is no room above, or where the plain slide ends on the way up with no ground to step
    from. -/
theorem World.Loaded.stepSlide_gains {w : World Float32} (hw : w.Loaded) (t : Tuning Float32)
    (r : Slide.Request Float32) (position velocity : Vec3 Float32) :
    (stepSlide w t r position velocity = slide w t r position velocity ∨
      Stepped w t r position velocity (stepSlide w t r position velocity)) ∧
    (∀ m, Stepped w t r position velocity m → stepSlide w t r position velocity = m) ∧
    ((slide w t r position velocity).outcome = .clear ∨ (rise w t position).allSolid = true ∨
        (0 < (slide w t r position velocity).velocity.z ∧ ¬ FootingBelow w t position) →
      stepSlide w t r position velocity = slide w t r position velocity) ∧
    (Scalar.IsNumber ((slide w t r position velocity).position - position).flatLengthSq →
      ((slide w t r position velocity).position - position).flatLengthSq ≤
        ((stepSlide w t r position velocity).position - position).flatLengthSq) := by
  have hcases := stepSlide_cases hw.wellFormed t r position velocity
  refine ⟨hcases, fun m => stepSlide_of_stepped hw.wellFormed, fun hagainst => ?_,
    fun hnumber => ?_⟩
  · refine hcases.resolve_right fun hstep => ?_
    rcases hagainst with hclear | hstuck | ⟨hup, hnone⟩
    · exact hstep.met hclear
    · cases hstep.room.symm.trans hstuck
    · exact hnone (hstep.footing hup)
  · rcases hcases with hplain | hstep
    · rw [hplain]
      exact hnumber
    · exact Scalar.Lawful.le_of_lt hstep.farther

/-- A floor, and on it a block that is eight units high. -/
def kerb : Builder Float32 where
  planes := #[⟨⟨0, 0, 1⟩, 0⟩, ⟨⟨-1, 0, 0⟩, -64⟩, ⟨⟨0, 0, 1⟩, 8⟩]
  brushes := #[⟨[.ofIndex 0], true⟩, ⟨[.ofIndex 1, .ofIndex 2], true⟩]
  nodes := #[.leaf [.ofIndex 0, .ofIndex 1] .everything]

/-- A sphere that slides against the block steps onto it: it gets to eighty instead of stopping in
    front of sixty-four, and is eight units higher. -/
theorem kerb_stepSlide_gains :
    ∃ w, kerb.build (.ofIndex 0) = .ok w ∧
      Stepped w .classic ⟨0.125, some ⟨0, 0, 1⟩, false⟩ ⟨40, 0, 10.25⟩ ⟨320, 0, 0⟩
        (stepSlide w .classic ⟨0.125, some ⟨0, 0, 1⟩, false⟩ ⟨40, 0, 10.25⟩ ⟨320, 0, 0⟩) ∧
      (stepSlide w .classic ⟨0.125, some ⟨0, 0, 1⟩, false⟩ ⟨40, 0, 10.25⟩ ⟨320, 0, 0⟩).position.x =
        80 := by
  have hbuild : kerb.build (.ofIndex 0) = .ok (kerb.toWorld (.ofIndex 0)) :=
    Builder.build_of_defect?_eq_none (by decide +kernel)
  obtain ⟨hcases, -⟩ := (World.Loaded.build hbuild).stepSlide_gains .classic
    ⟨0.125, some ⟨0, 0, 1⟩, false⟩ ⟨40, 0, 10.25⟩ ⟨320, 0, 0⟩
  refine ⟨_, hbuild, hcases.resolve_left ?_, ?_⟩
  · decide +kernel
  · decide +kernel

end Stride
