import Mathlib
import Stride.Proofs.Motion.Bumps
import Stride.Proofs.Motion.Corners
import Stride.Proofs.Sweep.Depth
import Stride.Proofs.Sweep.Report

namespace Stride

/-!
# What a slide can use up

In exact arithmetic a slide cannot gain on its start.  A clip makes no velocity faster and a nudge
adds a unit vector, so after so many bumps the sphere is at most that much faster.  Each sweep
spends its fraction of the time that is left, so the sphere gets no farther than its time at the
highest speed that it can have reached.

* `WellFormed.finish_eq`, `Slide.State.swept_position` — how far a sweep gets.
* `Slide.Bumped.timeLeft_mem`, `Slide.bumps_timeLeft_mem` — the time that is left.
* `Slide.Within` — speed and distance between two bumps; `Within.again`, `Within.stop` keep it.
* `Accepted.slide_within` — speed, distance and time of a slide on an accepted level.
-/

/-! ### Sweeps -/

section

variable {K : Type} [Field K] [LinearOrder K] [HasSqrt K] [IsStrictOrderedRing K] {w : World K}
  {t : Tuning K}

/-- A sweep ends the reported fraction of the way along. -/
theorem World.WellFormed.finish_eq (hw : w.WellFormed) (start finish : Vec3 K) (radius : K) :
    (w.trace start finish radius).finish =
      start.lerp finish (w.trace start finish radius).fraction := by
  obtain ⟨c, hhit, htrace, -⟩ := hw.exists_hit ⟨start, finish, radius⟩
  obtain ⟨hfraction, hfinish⟩ := w.report_eq ⟨start, finish, radius⟩ hhit.proper
  rw [World.trace_eq_of_trace? htrace, hfraction, hfinish]
  rfl

namespace Slide

variable {s : State K}

/-- A bump takes the sphere along its velocity, for the fraction of the time that its sweep is
    free. -/
theorem State.swept_position (hw : w.WellFormed) (t : Tuning K) (s : State K) :
    (s.swept (s.sweep w t)).position =
      s.position + s.velocities.move * (s.timeLeft * (s.sweep w t).fraction) := by
  have hmem : 0 ≤ (s.sweep w t).fraction := (hw.coherent_trace _ _ _).fraction_mem.1
  rw [State.swept]
  split_ifs with hahead
  · have hfinish : (s.sweep w t).finish = s.position.lerp
        (s.position + s.velocities.move * s.timeLeft) (s.sweep w t).fraction := hw.finish_eq _ _ _
    rw [hfinish, Vec3.lerp_eq_add]
    ext <;> simp <;> ring
  · -- a sweep that does not get ahead is free for none of the time
    have hzero : (s.sweep w t).fraction = 0 := le_antisymm (not_lt.1 hahead) hmem
    rw [hzero, mul_zero]
    ext <;> simp

/-! ### Time -/

/-- What a sweep leaves of the time is not negative, and no more than before. -/
theorem State.timeLeft_sub_mem (hw : w.WellFormed) (t : Tuning K) (hs : 0 ≤ s.timeLeft) :
    0 ≤ s.timeLeft - s.timeLeft * (s.sweep w t).fraction ∧
      s.timeLeft - s.timeLeft * (s.sweep w t).fraction ≤ s.timeLeft := by
  have hmem : 0 ≤ (s.sweep w t).fraction ∧ (s.sweep w t).fraction ≤ 1 :=
    (hw.coherent_trace _ _ _).fraction_mem
  constructor
  · exact sub_nonneg.2 (mul_le_of_le_one_right hs hmem.2)
  · exact sub_le_self _ (mul_nonneg hs hmem.1)

/-- **A bump** gives no time back, and does not spend more than there is. -/
theorem Bumped.timeLeft_mem (hw : w.WellFormed) {step : Step K} (h : Bumped w t s step)
    (hs : 0 ≤ s.timeLeft) : 0 ≤ step.state.timeLeft ∧ step.state.timeLeft ≤ s.timeLeft := by
  cases h with
  | embedded => exact ⟨hs, le_refl _⟩
  | finished => exact ⟨hs, le_refl _⟩
  | _ => exact State.timeLeft_sub_mem hw t hs

/-- **All bumps** together give no time back, and do not spend more than there is. -/
theorem bumps_timeLeft_mem (hw : w.WellFormed) (t : Tuning K) (n : Nat) (hs : 0 ≤ s.timeLeft) :
    0 ≤ (bumps w t n s).2.timeLeft ∧ (bumps w t n s).2.timeLeft ≤ s.timeLeft := by
  refine bumps_invariant (P := fun s' => 0 ≤ s'.timeLeft ∧ s'.timeLeft ≤ s.timeLeft) ?_ n s
    ⟨hs, le_refl _⟩
  rintro s₁ step ⟨hpos, hle⟩ hbump
  obtain ⟨hpos', hle'⟩ := hbump.timeLeft_mem hw hpos
  exact ⟨hpos', hle'.trans hle⟩

/-- **The clock of a slide.** More bumps leave no more time, by induction on the fewer. -/
theorem bumps_timeLeft_le (hw : w.WellFormed) (t : Tuning K) {m n : Nat} (hmn : m ≤ n)
    (hs : 0 ≤ s.timeLeft) : (bumps w t n s).2.timeLeft ≤ (bumps w t m s).2.timeLeft := by
  induction m generalizing n s with
  | zero => exact (bumps_timeLeft_mem hw t n hs).2
  | succ m ih =>
    obtain ⟨n, rfl⟩ : ∃ k, n = k + 1 := ⟨n - 1, by omega⟩
    have hbump := bump_bumped w t s
    rw [bumps, bumps]
    cases hstep : bump w t s with
    | again s' =>
      rw [hstep] at hbump
      exact ih (Nat.le_of_succ_le_succ hmn) (hbump.timeLeft_mem hw hs).1
    | stop ending s' => exact le_refl _

end Slide

end

/-! ### Speed and distance -/

namespace Vec3

/-- The horizontal part of a vector is no longer than the vector. -/
theorem length_flat_le (v : Vec3 ℝ) : v.flat.length ≤ v.length := by
  apply length_le_of_dot_le
  have hz := mul_self_nonneg v.z
  simp only [dot, flat_x, flat_y, flat_z, mul_zero, add_zero]
  linarith

/-- A vector that was normalized and is not zero is a unit vector. -/
theorem length_normalizeOrZero {v : Vec3 ℝ} (h : ¬ v.normalizeOrZero.same 0 = true) :
    v.normalizeOrZero.length = 1 := by
  refine v.normalizeOrZero_cases.resolve_left fun hzero => h ?_
  simp [hzero, same, Scalar.same]

end Vec3

namespace Slide

/-- What a slide has used up of a time and a highest speed while so many bumps are left. -/
structure Within (origin : Vec3 ℝ) (time limit : ℝ) (left : Nat) (s : State ℝ) : Prop where
  /-- All directions not to run against are unit vectors. -/
  unit : ∀ p ∈ s.planes, p.length = 1
  /-- Time is left, or it is used up. -/
  time_nonneg : 0 ≤ s.timeLeft
  /-- Each bump that is left may add one to the speed. -/
  speed_le : s.velocities.move.length + left ≤ limit
  /-- In the time that was spent, the sphere did not get farther than at the highest speed. -/
  distance_le : (s.position - origin).length ≤ (time - s.timeLeft) * limit

variable {w : World ℝ} {t : Tuning ℝ} {origin n : Vec3 ℝ} {time limit : ℝ} {left : Nat}
  {s s' : State ℝ}

/-- However much of the time is left, the distance is within that of the whole time. -/
theorem le_of_rest_nonneg {distance rest : ℝ} (hrest : 0 ≤ rest) (hlimit : 0 ≤ limit)
    (h : distance ≤ (time - rest) * limit) : distance ≤ time * limit :=
  h.trans (mul_le_mul_of_nonneg_right (sub_le_self time hrest) hlimit)

namespace Within

theorem move_le (h : Within origin time limit left s) : s.velocities.move.length ≤ limit := by
  have hleft : (0 : ℝ) ≤ left := Nat.cast_nonneg left
  linarith [h.speed_le]

theorem limit_nonneg (h : Within origin time limit left s) : 0 ≤ limit :=
  s.velocities.move.length_nonneg.trans h.move_le

/-- A sweep goes no farther than the time that it spends, at the highest speed. -/
theorem swept (hw : w.WellFormed) (h : Within origin time limit left s) :
    ((s.swept (s.sweep w t)).position - origin).length ≤
      (time - (s.timeLeft - s.timeLeft * (s.sweep w t).fraction)) * limit := by
  have hfraction : 0 ≤ (s.sweep w t).fraction := (hw.coherent_trace _ _ _).fraction_mem.1
  set spent := s.timeLeft * (s.sweep w t).fraction with hspent
  have hnonneg : 0 ≤ spent := mul_nonneg h.time_nonneg hfraction
  have hsplit : (s.swept (s.sweep w t)).position - origin =
      (s.position - origin) + s.velocities.move * spent := by
    rw [State.swept_position hw, ← hspent]
    ext <;> simp <;> ring
  calc ((s.swept (s.sweep w t)).position - origin).length
      = ((s.position - origin) + s.velocities.move * spent).length := by rw [hsplit]
    _ ≤ (s.position - origin).length + (s.velocities.move * spent).length :=
        Vec3.length_add_le _ _
    _ = (s.position - origin).length + s.velocities.move.length * spent := by
        rw [Vec3.length_scale, abs_of_nonneg hnonneg]
    _ ≤ (time - s.timeLeft) * limit + limit * spent :=
        add_le_add h.distance_le (mul_le_mul_of_nonneg_right h.move_le hnonneg)
    _ = (time - (s.timeLeft - spent)) * limit := by ring

end Within

/-- The surface that stops a sweep has the normal of a plane of the level. -/
theorem State.length_normal (hw : w.WellFormed) (hunit : ∀ p ∈ w.planes, p.normal.length = 1)
    (hnormal : (s.sweep w t).normal = some n) : n.length = 1 := by
  have hcoherent : (s.sweep w t).Coherent w := hw.coherent_trace _ _ _
  obtain ⟨id, plane, -, hplane, rfl⟩ := hcoherent.exists_plane hnormal
  exact hunit plane (Array.mem_of_getElem? hplane)

section

variable (hw : w.WellFormed) (hunit : ∀ p ∈ w.planes, p.normal.length = 1)
include hw hunit

/-- **A bump that is not the last** uses up no more than it may: a nudge adds a unit vector, and a
    clip makes no velocity faster. -/
theorem Within.again (hover : 1 ≤ t.overclip) (htwice : t.overclip ≤ 2)
    (h : Within origin time limit (left + 1) s) (hbump : Bumped w t s (.again s')) :
    Within origin time limit left s' := by
  have htime := (State.timeLeft_sub_mem hw t h.time_nonneg).1
  -- the bump that is used up makes room for the unit that a nudge adds
  have hmove : s.velocities.move.length + 1 + left ≤ limit := by
    have := h.speed_le
    push_cast at this
    linarith
  cases hbump with
  | @nudged _ _ n hnormal =>
    have hn : n.length = 1 := State.length_normal hw hunit hnormal
    have hadd := Vec3.length_add_le s.velocities.move n
    refine ⟨h.unit, htime, ?_, h.swept hw⟩
    show (s.velocities.move + n).length + left ≤ limit
    linarith
  | @clipped _ _ n hnormal _ v hclip =>
    have hplanes : ∀ p ∈ s.planes ++ [n], p.length = 1 := List.forall_mem_append.2
      ⟨h.unit, List.forall_mem_singleton.2 (State.length_normal hw hunit hnormal)⟩
    have hle : v.move.length ≤ s.velocities.move.length :=
      length_clipToPlanes?_le hplanes hover htwice hclip
    refine ⟨hplanes, htime, ?_, h.swept hw⟩
    show v.move.length + left ≤ limit
    linarith

omit hunit in
/-- **The last bump** leaves the sphere within the highest speed, and within the distance of the
    whole time at that speed. -/
theorem Within.stop {ending : Ending} (h : Within origin time limit left s)
    (hbump : Bumped w t s (.stop ending s')) :
    s'.velocities.move.length ≤ limit ∧ (s'.position - origin).length ≤ time * limit := by
  -- all endings but two stop the sphere where its sweep ended
  have hrest : (0 : Vec3 ℝ).length ≤ limit := by
    rw [Vec3.length_zero]
    exact h.limit_nonneg
  have hswept := le_of_rest_nonneg (State.timeLeft_sub_mem hw t h.time_nonneg).1 h.limit_nonneg
    (h.swept hw)
  cases hbump with
  | embedded =>
    exact ⟨s.velocities.move.length_flat_le.trans h.move_le,
      le_of_rest_nonneg h.time_nonneg h.limit_nonneg h.distance_le⟩
  | finished => exact ⟨h.move_le, hswept⟩
  | _ => exact ⟨hrest, hswept⟩

/-- **All bumps** leave the sphere within the highest speed, and within the distance of the whole
    time at that speed. -/
theorem bumps_within (hover : 1 ≤ t.overclip) (htwice : t.overclip ≤ 2)
    (h : Within origin time limit left s) :
    (bumps w t left s).2.velocities.move.length ≤ limit ∧
      ((bumps w t left s).2.position - origin).length ≤ time * limit := by
  refine bumps_induction (P := Within origin time limit) (Q := fun _ s =>
    s.velocities.move.length ≤ limit ∧ (s.position - origin).length ≤ time * limit) ?_
    (fun _ _ _ h => h.again hw hunit hover htwice) (fun _ _ _ _ h => h.stop hw) left s h
  intro s hs
  exact ⟨hs.move_le, le_of_rest_nonneg hs.time_nonneg hs.limit_nonneg hs.distance_le⟩

end

/-- **The start** of a slide without gravity has used up nothing. -/
theorem start_within {r : Request ℝ} (htime : 0 ≤ r.deltaTime) (hgravity : r.gravity = false)
    (hground : ∀ n, r.ground = some n → n.length = 1) (position velocity : Vec3 ℝ) (total : Nat) :
    Within position r.deltaTime (velocity.length + total) total
      (start t r position velocity) := by
  have hmove : (startVelocities t r velocity).move = velocity := by
    simp [startVelocities, hgravity]
  refine ⟨forall_mem_planes_start hground Vec3.length_normalizeOrZero, htime, ?_, ?_⟩
  · show (startVelocities t r velocity).move.length + total ≤ velocity.length + total
    rw [hmove]
  · have hzero : position - position = 0 := by ext <;> simp
    show (position - position).length ≤ (r.deltaTime - r.deltaTime) * _
    rw [hzero, Vec3.length_zero, sub_self, zero_mul]

/-- The velocity after a slide without gravity is the velocity of the move, whatever the ending. -/
theorem moved_velocity {r : Request ℝ} (hgravity : r.gravity = false) (e : Ending × State ℝ) :
    (moved r e).velocity = e.2.velocities.move := by
  obtain ⟨ending, s⟩ := e
  cases ending <;> simp [moved, hgravity]

end Slide

/-- **A slide gains nothing.**  Over the reals, on an accepted level whose planes have unit normals,
    a slide without gravity ends, whatever its outcome, with a speed that is at most one greater for
    each bump, and no farther from its start than its time at that speed; and the time that is left
    never increases from bump to bump, nor becomes negative. -/
theorem World.Accepted.slide_within {w : World ℝ} (hw : w.Accepted)
    (hunit : ∀ p ∈ w.planes, p.normal.length = 1) {t : Tuning ℝ} (hover : 1 ≤ t.overclip)
    (htwice : t.overclip ≤ 2) {r : Slide.Request ℝ} (htime : 0 ≤ r.deltaTime)
    (hgravity : r.gravity = false) (hground : ∀ n, r.ground = some n → n.length = 1)
    (position velocity : Vec3 ℝ) :
    (slide w t r position velocity).velocity.length ≤ velocity.length + t.maxBumps.toNat ∧
    ((slide w t r position velocity).position - position).length ≤
      r.deltaTime * (velocity.length + t.maxBumps.toNat) ∧
    ∀ m n, m ≤ n →
      0 ≤ (Slide.bumps w t n (Slide.start t r position velocity)).2.timeLeft ∧
      (Slide.bumps w t n (Slide.start t r position velocity)).2.timeLeft ≤
        (Slide.bumps w t m (Slide.start t r position velocity)).2.timeLeft := by
  have hstart := Slide.start_within (t := t) htime hgravity hground position velocity
    t.maxBumps.toNat
  obtain ⟨hspeed, hdistance⟩ := Slide.bumps_within hw.wellFormed hunit hover htwice hstart
  rw [slide, Slide.moved_velocity hgravity, Slide.moved_position]
  refine ⟨hspeed, hdistance, fun m n hmn => ⟨?_, ?_⟩⟩
  · exact (Slide.bumps_timeLeft_mem hw.wellFormed t n htime).1
  · exact Slide.bumps_timeLeft_le hw.wellFormed t hmn htime

/-- A sphere that falls on the ground at speed five, from two units above it, stays below speed ten
    and within ten units of its start for a second. -/
theorem ground_slide_within :
    ∃ w : World ℝ, w.Accepted ∧ (∀ p ∈ w.planes, p.normal.length = 1) ∧
      (⟨3, 0, -4⟩ : Vec3 ℝ).length = 5 ∧
      (slide w .classic ⟨1, none, false⟩ ⟨2, 3, 12⟩ ⟨3, 0, -4⟩).velocity.length ≤ 10 ∧
      ((slide w .classic ⟨1, none, false⟩ ⟨2, 3, 12⟩ ⟨3, 0, -4⟩).position - ⟨2, 3, 12⟩).length ≤
        10 := by
  have hunit : ∀ p ∈ realGround.planes, p.normal.length = 1 := by
    intro p hp
    obtain ⟨q, hq, rfl⟩ := Array.mem_map.1 hp
    obtain rfl : q = ⟨⟨0, 0, 1⟩, 0⟩ := by simpa [ground, Builder.toWorld] using hq
    simp [Plane.map, Vec3.map, Vec3.length, Vec3.dot, Scalar.sqrt, HasSqrt.sqrt]
  have hspeed : (⟨3, 0, -4⟩ : Vec3 ℝ).length = 5 := by
    have hsquare : (⟨3, 0, -4⟩ : Vec3 ℝ).dot ⟨3, 0, -4⟩ = 5 ^ 2 := by norm_num [Vec3.dot]
    show Real.sqrt ((⟨3, 0, -4⟩ : Vec3 ℝ).dot ⟨3, 0, -4⟩) = 5
    rw [hsquare, Real.sqrt_sq (by norm_num)]
  have hbumps : ((Tuning.classic : Tuning ℝ).maxBumps.toNat : ℝ) = 4 := by
    have hfour : (Tuning.classic : Tuning ℝ).maxBumps.toNat = 4 := rfl
    rw [hfour, Nat.cast_ofNat]
  obtain ⟨hvelocity, hposition, -⟩ := realGround_accepted.slide_within hunit (t := .classic)
    (r := ⟨1, none, false⟩) (by norm_num [Tuning.classic]) (by norm_num [Tuning.classic])
    zero_le_one rfl (by simp) ⟨2, 3, 12⟩ ⟨3, 0, -4⟩
  rw [hspeed, hbumps] at hvelocity hposition
  refine ⟨realGround, realGround_accepted, hunit, hspeed, ?_, ?_⟩
  · linarith
  · linarith

end Stride
