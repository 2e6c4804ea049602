import Mathlib
import Stride.Proofs.Motion.Bounded
import Stride.Proofs.Motion.Broken
import Stride.Proofs.Single.Unrounded

namespace Stride

/-!
# Ticks that cannot overflow

A tuning is accepted with parameters that are infinite, or so large that a product of two of them
is.  Six of the parameters can take an actor out of the numbers in one tick; with a limit on each of
them a tick of an actor at rest ends with a finite position and a finite velocity, whatever the
level, the input and the other parameters are.

* `Tuning.Moderate` — the limits.
* `Tuning.accelerate_within`, `Actor.startVelocity_within` — the velocity that a move starts with.
* `Actor.oriented_refoot`, `Actor.refoot_within` — a look at the ground.
* `Actor.moveWith_within` — a move.
* `Loaded.finite_after_tick` — a whole tick.
* `runaways` — for each of the six parameters, a tick that needs the limit.
-/

open Single

/-! ### Limits -/

/-- The limits of the parameters that positions and velocities are computed from. -/
structure Tuning.Moderate (t : Tuning Float32) : Prop where
  /-- A clip does not add speed. -/
  overclip : t.overclip ≤ 2
  /-- The speed that gravity adds in a second. -/
  gravity : t.gravity ≤ 1e9
  /-- The speed of a walk. -/
  maxSpeed : t.maxSpeed ≤ 1e9
  /-- The size of the sphere. -/
  playerRadius : t.playerRadius ≤ 1e28
  /-- The height of a step. -/
  stepHeight : t.stepHeight ≤ 1e28
  /-- The reach of a look below the sphere. -/
  groundCheckEpsilon : t.groundCheckEpsilon ≤ 1e28

theorem Vec3.within_zero_of_same {v : Vec3 Float32} (h : v.same 0 = true) (k : ℤ) :
    v.Within 0 k := by
  have hzero {c : Float32} (hc : Scalar.same c 0 = true) : Single.Within c 0 k := by
    have hc := isZero_of_same hc
    exact ⟨hc.isFinite, by rw [hc.value_eq, abs_zero, Nat.cast_zero, zero_mul]⟩
  simp only [Vec3.same, Bool.and_eq_true] at h
  exact ⟨hzero h.1.1, hzero h.1.2, hzero h.2⟩

theorem Vec3.isFinite_iff {v : Vec3 Float32} :
    v.IsFinite ↔ ∀ c ∈ v.toList, c.isFinite = true := by
  rw [forall_mem_toList]
  exact ⟨fun h => ⟨h.x, h.y, h.z⟩, fun h => ⟨h.1, h.2.1, h.2.2⟩⟩

instance (v : Vec3 Float32) : Decidable v.IsFinite := decidable_of_iff' _ Vec3.isFinite_iff

theorem Vec3.Within.isFinite {v : Vec3 Float32} {c : ℕ} {k : ℤ} (h : v.Within c k) : v.IsFinite :=
  ⟨h.x.isFinite, h.y.isFinite, h.z.isFinite⟩

namespace Tuning

variable {t : Tuning Float32} {v : Vec3 Float32} {deltaTime frameTime : Float32}

/-- Parameters that are accepted and within the limits are tame. -/
theorem Moderate.tame (h : t.Moderate) (ht : t.fault? = none) : t.Tame := by
  obtain ⟨hradius, hoverclip, -, -, -⟩ := fault?_eq_none_iff.1 ht
  have hpos := nonnegative_of_accepted ht
  have hspeed {c : Float32} (hc : 0 ≤ c) (hle : c ≤ 1e9) : Single.Within c 1 30 :=
    within_of_le hc hle (by decide +kernel) (by norm_num) (by norm_num)
  have hlength {c : Float32} (hc : 0 ≤ c) (hle : c ≤ 1e28) : Single.Within c 1 94 :=
    within_of_le hc hle (by decide +kernel) (by norm_num) (by norm_num)
  have hone : (0 : Float32) ≤ 1 := Scalar.Lawful.le_of_lt Scalar.Lawful.zero_lt_one
  have hclip : Single.Within t.overclip 1 1 :=
    within_of_le (Scalar.Lawful.le_trans hone hoverclip) h.overclip (by decide +kernel)
      (by norm_num) (by norm_num)
  rw [le_iff_value rfl hclip.isFinite, value_one] at hoverclip
  exact ⟨⟨hoverclip, hclip⟩, hspeed hpos.gravity h.gravity, hspeed hpos.maxSpeed h.maxSpeed,
    hlength (Scalar.Lawful.le_of_lt hradius) h.playerRadius, hlength hpos.stepHeight h.stepHeight,
    hlength hpos.groundCheckEpsilon h.groundCheckEpsilon⟩

/-- A tick of a second at most. -/
theorem isShare_tickTime (ht : t.fault? = none) (htime : 0 < frameTime) (hshort : frameTime ≤ 1) :
    IsShare (t.tickTime frameTime) := by
  have hlimit := (nonnegative_of_accepted ht).maxFrameTime
  have hle : t.tickTime frameTime ≤ frameTime :=
    Scalar.minNum_le_left (Scalar.Lawful.number_left hshort) (Scalar.Lawful.number_right hlimit)
  exact isShare_of_mem (zero_le_tickTime htime hlimit) (Scalar.Lawful.le_trans hle hshort)

/-! ### Velocities -/

/-- Friction leaves an actor at rest. -/
theorem rub_within_zero (hv : v.Within 0 0) : (t.rub deltaTime v).Within 0 0 := by
  have hsquares := (hv.x.mul hv.x (by norm_num) (by norm_num) (by norm_num)).add
    (hv.y.mul hv.y (by norm_num) (by norm_num) (by norm_num)) (by norm_num) (by norm_num)
    (by norm_num)
  have hvalue : value v.flatLengthSq = 0 := by
    have hle := hsquares.le
    rw [Nat.mul_zero, Nat.add_zero, Nat.cast_zero, zero_mul] at hle
    exact abs_nonpos_iff.1 hle
  have hroot := rounds_sqrt hsquares.isFinite hvalue.ge
  rw [show value (v.x * v.x + v.y * v.y) = 0 from hvalue, Real.sqrt_zero] at hroot
  obtain ⟨hfinite, hle⟩ := hroot.abs_le representable_zero abs_zero.le
  have hslow : Scalar.sqrt v.flatLengthSq < stopEpsilon := by
    refine (lt_iff_value hfinite (c := 1) rfl).2 ?_
    rw [value_one, abs_nonpos_iff.1 hle]
    exact zero_lt_one
  rw [rub, if_pos hslow]
  exact ⟨.zero 0 0, .zero 0 0, hv.z⟩

end Tuning

/-- A wish for a speed that is bounded. -/
structure Wish.Bounded (wish : Wish Float32) : Prop where
  /-- The direction is. -/
  direction : wish.direction.Within 5 (-2)
  /-- The speed is. -/
  speed : Single.Within wish.speed 1 30
  /-- The speed is not negative. -/
  nonneg : 0 ≤ wish.speed

namespace Tuning

variable {t : Tuning Float32} {v : Vec3 Float32} {wish : Wish Float32}
  {acceleration deltaTime frameTime : Float32}

/-- **Every input** asks for a bounded speed, also one that is not finite. -/
theorem bounded_wish (ht : t.Tame) (hpos : 0 ≤ t.maxSpeed) (input : Vec3 Float32)
    (ground : Option (Vec3 Float32)) : (t.wish input ground).Bounded := by
  simp only [Tuning.wish]
  split_ifs with hamount
  · have hone : Scalar.IsNumber (1 : Float32) := isNumber_of_isFinite rfl
    have hshare : IsShare (Scalar.minNum input.flat.length 1) :=
      isShare_of_mem (Scalar.Lawful.le_of_lt hamount) (Scalar.minNum_le_right hone)
    have hspeed := ht.maxSpeed
    have hpos' : 0 ≤ value t.maxSpeed := by
      rwa [le_iff_value rfl hspeed.isFinite, value_zero] at hpos
    exact ⟨Vec3.normalizeOrZero_within _, hspeed.mul_share hshare (by norm_num) (by norm_num),
      (rounds_mul hspeed.isFinite hshare.isFinite).zero_le (mul_nonneg hpos' hshare.nonneg)⟩
  · exact ⟨.zero _ _, .zero _ _, isNumber_of_isFinite rfl⟩

/-- **An actor at rest** gains no more speed than it wishes for. -/
theorem accelerate_within (hv : v.Within 0 0) (hwish : wish.Bounded) (hgain : 0 ≤ acceleration)
    (htime : 0 ≤ deltaTime) : (accelerate wish acceleration deltaTime v).Within 1 31 := by
  have hv' : v.Within 0 28 := hv.coarser (i := 28) (by norm_num) (by norm_num)
  have hrest : v.Within 1 31 := hv.coarser (i := 31) (by norm_num) (by norm_num)
  have hdot := hv.dot hwish.direction (by norm_num) (by norm_num) (by norm_num)
  have hmissing := hwish.speed.sub (hdot.coarser (d := 0) (l := 30) (i := 32) (by norm_num)
    (by norm_num)) (by norm_num) (by norm_num) (by norm_num)
  simp only [accelerate]
  split_ifs with hnone
  · exact hrest
  -- what is gained is not negative, and not more than what is missing
  · have hnumber := isNumber_of_isFinite hmissing.isFinite
    have hpos : 0 ≤ wish.speed - v.dot wish.direction :=
      Scalar.Lawful.le_of_lt (Scalar.lt_of_not_le (isNumber_of_isFinite rfl) hnumber hnone)
    have hgained : 0 ≤ Scalar.minNum (acceleration * deltaTime * wish.speed)
        (wish.speed - v.dot wish.direction) := by
      by_cases hlt : acceleration * deltaTime * wish.speed < wish.speed - v.dot wish.direction
      · rw [Scalar.minNum_of_lt hlt]
        have hup : Upward (acceleration * deltaTime * wish.speed) :=
          Upward.mul (mul_zero_le hgain htime) hwish.nonneg
        exact hup.resolve_right (not_not_intro
          (Scalar.Lawful.number_left (Scalar.Lawful.le_of_lt hlt)))
      · rwa [Scalar.minNum_of_not_lt hnumber hlt]
    have hle := Scalar.minNum_le_right (a := acceleration * deltaTime * wish.speed) hnumber
    have hbound : Single.Within (Scalar.minNum (acceleration * deltaTime * wish.speed)
        (wish.speed - v.dot wish.direction)) 1 30 := by
      have hfinite := isFinite_of_le hgained hmissing.isFinite hle
      rw [le_iff_value hfinite hmissing.isFinite] at hle
      rw [le_iff_value rfl hfinite, value_zero] at hgained
      refine ⟨hfinite, ?_⟩
      rw [abs_of_nonneg hgained]
      exact hle.trans ((le_abs_self _).trans hmissing.le)
    have hpush := hwish.direction.scale hbound (by norm_num) (by norm_num) (by norm_num)
    exact (hv'.add hpush (by norm_num) (by norm_num) (by norm_num)).coarser (i := 3) (by norm_num)
      (by norm_num)

end Tuning

/-! ### Looks at the ground -/

namespace Actor

variable {w : World Float32} {t : Tuning Float32} {a : Actor Float32}

/-- The normals of what an actor stands on or slides down are bounded. -/
structure Oriented (a : Actor Float32) : Prop where
  /-- That of its support is. -/
  support : ∀ s, a.footing = .grounded s → s.normal.Within 5 (-2)
  /-- That of the surface found last is. -/
  ground : ∀ n, a.groundNormal? = some n → n.Within 5 (-2)

/-- **A look at the ground** ends on a surface of the level or on none. -/
theorem oriented_refoot (hw : w.Loaded) (a : Actor Float32) (t : Tuning Float32) :
    (a.refoot w t).Oriented := by
  rcases a.refoot_cases w t with hnothing | ⟨n, hnormal, -, hslides⟩ | ⟨s, hfound, hset⟩
  · rw [hnothing]
    refine ⟨fun s hs => ?_, fun n hn => ?_⟩
    · cases hs
    · cases hn
  · rw [hslides]
    refine ⟨fun s hs => ?_, fun m hm => ?_⟩
    · cases hs
    · obtain rfl : n = m := Option.some.inj (hnormal.symm.trans hm)
      exact hw.trace_normal_within hnormal
  · have hnormal := hw.trace_normal_within hfound.normal
    rw [hset]
    refine ⟨fun s' hs => ?_, fun m hm => ?_⟩
    · obtain rfl : s = s' := Footing.grounded.inj hs
      exact hnormal
    · obtain rfl : s.normal = m := Option.some.inj (hfound.normal.symm.trans hm)
      exact hnormal

/-- A look does not leave the bounds of the positions that it sweeps between. -/
theorem refoot_within (hw : w.Loaded) {k : ℤ} (hposition : a.position.Within 1 k)
    (htarget : (a.position - Vec3.up (t.playerRadius + t.groundCheckEpsilon)).Within 1 k)
    (hk : 0 ≤ k) (hk' : k ≤ 126) : (a.refoot w t).position.Within 1 k := by
  rcases a.refoot_cases w t with hnothing | ⟨n, -, -, hslides⟩ | ⟨s, -, hset⟩
  · rw [hnothing]
    exact hposition
  · rw [hslides]
    exact hposition
  · rw [hset]
    exact hw.trace_within hposition htarget _ hk hk'

/-! ### Ticks -/

/-- **The velocity that a move starts with** is bounded, if the actor was at rest. -/
theorem startVelocity_within (ht : t.Tame) (hpos : t.Nonnegative) (ha : a.Oriented)
    (hrest : a.velocity.Within 0 0) (input : Vec3 Float32) {deltaTime : Float32}
    (htime : 0 ≤ deltaTime) : (a.startVelocity t input deltaTime).Within 1 35 := by
  have hclip {v n : Vec3 Float32} (hv : v.Within 1 31) (hn : n.Within 5 (-2)) :
      (v.clip n t.overclip).Within 1 35 :=
    hv.clip hn ht.clipsMildly (by norm_num) (by norm_num)
  rw [startVelocity]
  cases hfooting : a.footing with
  | grounded support =>
    exact hclip (Tuning.accelerate_within (Tuning.rub_within_zero hrest)
      (Tuning.bounded_wish ht hpos.maxSpeed input _) hpos.groundAcceleration htime)
      (ha.support support hfooting)
  | airborne =>
    have hgained := Tuning.accelerate_within hrest
      (Tuning.bounded_wish ht hpos.maxSpeed input none) hpos.airAcceleration htime
    simp only [fallVelocity]
    cases hground : a.groundNormal? with
    | none => exact hgained.exponent_le (by norm_num)
    | some n => exact hclip hgained (ha.ground n hground)

/-- **A move** that starts in bounds ends in bounds. -/
theorem moveWith_within (hw : w.Loaded) (ht : t.Tame) (ha : a.Oriented)
    (hposition : a.position.Within 1 96) {deltaTime : Float32} (htime : IsShare deltaTime)
    {velocity : Vec3 Float32} (hvelocity : velocity.Within 1 35) :
    (a.moveWith w t deltaTime velocity).position.Within 1 126 ∧
      (a.moveWith w t deltaTime velocity).velocity.Within 1 104 := by
  rw [moveWith]
  cases hfooting : a.footing with
  | grounded support =>
    dsimp only
    split_ifs
    · exact ⟨hposition.exponent_le (by norm_num), hvelocity.exponent_le (by norm_num)⟩
    · have hmoved := Stairs.bounded_stepSlide hw ht (r := ⟨deltaTime, some support.normal, false⟩)
        ⟨htime, fun n hn => Option.some.inj hn ▸ ha.support support hfooting⟩ hposition hvelocity
      exact ⟨hmoved.position, hmoved.velocity⟩
  | airborne =>
    have hmoved := Slide.bounded_slide hw ht (r := ⟨deltaTime, a.groundNormal?, true⟩)
      ⟨htime, fun n hn => ha.ground n hn⟩ (hposition.exponent_le (by norm_num)) hvelocity
    exact ⟨hmoved.position, hmoved.velocity.exponent_le (by norm_num)⟩

end Actor

/-- **A tick stays finite.**  On a level that is handed out, with accepted parameters of which six
    are within limits, an actor at rest that is nowhere farther out than levels are has a finite
    position and a finite velocity after a tick of a second at most.  The other parameters may be
    infinite, and the input may be anything. -/
theorem World.Loaded.finite_after_tick {w : World Float32} (hw : w.Loaded) {t : Tuning Float32}
    (ht : t.fault? = none) (hlimits : t.Moderate) {a : Actor Float32}
    (hrest : a.velocity.same 0 = true)
    (hposition : ∀ c ∈ a.position.toList, -65536 ≤ c ∧ c ≤ 65536) (input : Vec3 Float32)
    {frameTime : Float32} (htime : 0 < frameTime) (hshort : frameTime ≤ 1) :
    (a.tick w t input frameTime).position.IsFinite ∧
      (a.tick w t input frameTime).velocity.IsFinite := by
  have htame := hlimits.tame ht
  have hpos := Tuning.nonnegative_of_accepted ht
  have hshare := Tuning.isShare_tickTime ht htime hshort
  have hstart : a.position.Within 1 16 := Vec3.within_of_forall fun c hc =>
    Single.within_of_mem (hposition c hc).1 (hposition c hc).2 (by decide +kernel)
      (by decide +kernel) (by norm_num) (by norm_num)
  have hreach : (Vec3.up (t.playerRadius + t.groundCheckEpsilon)).Within 1 95 :=
    Vec3.within_up ((htame.playerRadius.add htame.groundCheckEpsilon (by norm_num) (by norm_num)
      (by norm_num)).coarser (i := 1) (by norm_num) (by norm_num))
  -- the first look, from a position within the level
  set b := a.refoot w t with hb
  have hstands : b.Oriented := Actor.oriented_refoot hw a t
  have hnear : b.position.Within 1 96 := by
    refine Actor.refoot_within hw (hstart.exponent_le (by norm_num)) ?_ (by norm_num) (by norm_num)
    exact ((hstart.exponent_le (l := 95) (by norm_num)).sub hreach (by norm_num) (by norm_num)
      (by norm_num)).coarser (i := 1) (by norm_num) (by norm_num)
  have hstill : b.velocity.Within 0 0 := by
    rw [hb, Actor.refoot_velocity]
    exact Vec3.within_zero_of_same hrest 0
  have hpush := Actor.startVelocity_within htame hpos hstands hstill input
    (Tuning.zero_le_tickTime htime hpos.maxFrameTime)
  obtain ⟨hmoved, hkept⟩ := Actor.moveWith_within hw htame hstands hnear hshare hpush
  -- the second look, from wherever the move has led
  have hlast := hmoved.sub_small hreach (by norm_num) (by norm_num) le_rfl
  rw [Actor.tick_eq_moveWith htime, Actor.refoot_velocity]
  exact ⟨(Actor.refoot_within hw hmoved hlast (by norm_num) le_rfl).isFinite, hkept.isFinite⟩

/-- An actor at rest on the floor, with friction and acceleration that are infinite, is told to walk
    on: it has a finite position and a finite velocity after the tick. -/
theorem hillside_finite_after_tick :
    ∃ (w : World Float32) (t : Tuning Float32) (a : Actor Float32),
      hillside.build (.ofIndex 0) = .ok w ∧
      t = { Tuning.classic with friction := 1 / 0, groundAcceleration := 1 / 0 } ∧
      t.fault? = none ∧ t.Moderate ∧ a = .ofPosition ⟨60, -0, 10.25⟩ ∧ a.velocity.same 0 = true ∧
      (∀ c ∈ a.position.toList, -65536 ≤ c ∧ c ≤ 65536) ∧
      (a.tick w t ⟨0.6, -0.8, 0⟩ 0.0625).position.IsFinite ∧
      (a.tick w t ⟨0.6, -0.8, 0⟩ 0.0625).velocity.IsFinite := by
  set t : Tuning Float32 := { Tuning.classic with friction := 1 / 0, groundAcceleration := 1 / 0 }
    with ht
  have hfault : t.fault? = none := by decide +kernel
  have hlimits : t.Moderate := ⟨by decide +kernel, by decide +kernel, by decide +kernel,
    by decide +kernel, by decide +kernel, by decide +kernel⟩
  have hrest : (Actor.ofPosition (⟨60, -0, 10.25⟩ : Vec3 Float32)).velocity.same 0 = true := by
    decide +kernel
  have hposition : ∀ c ∈ (Actor.ofPosition (⟨60, -0, 10.25⟩ : Vec3 Float32)).position.toList,
      -65536 ≤ c ∧ c ≤ 65536 := by
    decide +kernel
  exact ⟨_, t, _, hillside_build, rfl, hfault, hlimits, rfl, hrest, hposition,
    (World.Loaded.build hillside_build).finite_after_tick hfault hlimits hrest hposition
      ⟨0.6, -0.8, 0⟩ (by decide +kernel) (by decide +kernel)⟩

/-! ### Beyond the limits -/

/-- A tick of an actor that was just made. -/
structure Departure where
  /-- The level, of which the first node is the root. -/
  level : Builder Float32
  /-- The parameters. -/
  tuning : Tuning Float32
  /-- Where the actor is. -/
  position : Vec3 Float32
  /-- The input. -/
  input : Vec3 Float32
  /-- The time. -/
  frameTime : Float32

/-- The actor after the tick. -/
def Departure.arrival (d : Departure) (w : World Float32) : Actor Float32 :=
  (Actor.ofPosition d.position).tick w d.tuning d.input d.frameTime

/-- A slope that is almost upright, so far away that only a huge sphere reaches it. -/
def farSlope : Builder Float32 where
  planes := #[⟨⟨1, 0, 0.04⟩, -2.8787904e38⟩]
  brushes := #[⟨[.ofIndex 0], true⟩]
  nodes := #[.leaf [.ofIndex 0] .everything]

/-- For each of the parameters that have a limit, a tick in which that parameter alone is beyond its
    limit. -/
def runaways : List Departure :=
  [⟨hillside, { Tuning.classic with overclip := 1e38 }, ⟨120, 0, 43.5⟩, 0, 0.0625⟩,
   ⟨hillside, { Tuning.classic with gravity := 3.4e38, maxFrameTime := 1 }, ⟨0, 0, 200⟩, 0, 1⟩,
   ⟨hillside, { Tuning.classic with maxSpeed := 1 / 0 }, ⟨0, 0, 10.03125⟩, ⟨1, 0, 0⟩, 0.0625⟩,
   ⟨farSlope, { Tuning.classic with playerRadius := 2.770377e38, minGroundNormal := 0.02 }, 0, 0,
     0.0625⟩,
   ⟨hillside, { Tuning.classic with stepHeight := 1 / 0, maxFrameTime := 1 }, ⟨0, 0, 10.03125⟩,
     ⟨1, 0, 0⟩, 1⟩,
   ⟨hillside, { Tuning.classic with groundCheckEpsilon := 1 / 0 }, ⟨0, 0, 10.03125⟩, 0, 0.0625⟩]

/-- **No limit can be spared.**  The parameters of each of these ticks are accepted, and so is the
    level; the actor is at rest and within the level, the input is finite and no longer than one,
    and the time is a second at most.  Still the actor ends without a finite position and
    velocity. -/
theorem runaways_not_finite : runaways.length = 6 ∧
    ∀ d ∈ runaways, ∃ w, d.level.build (.ofIndex 0) = .ok w ∧
      d.tuning.fault? = none ∧ (Actor.ofPosition d.position).velocity.same 0 = true ∧
      (∀ c ∈ d.position.toList, -65536 ≤ c ∧ c ≤ 65536) ∧
      (d.input.IsFinite ∧ d.input.length ≤ 1) ∧ (0 < d.frameTime ∧ d.frameTime ≤ 1) ∧
      ¬ ((d.arrival w).position.IsFinite ∧ (d.arrival w).velocity.IsFinite) := by
  have haccepted : ∀ d ∈ runaways, d.level.defect? (.ofIndex 0) = none := by decide +kernel
  have hticks : ∀ d ∈ runaways, d.tuning.fault? = none ∧
      (Actor.ofPosition d.position).velocity.same 0 = true ∧
      (∀ c ∈ d.position.toList, -65536 ≤ c ∧ c ≤ 65536) ∧
      (d.input.IsFinite ∧ d.input.length ≤ 1) ∧ (0 < d.frameTime ∧ d.frameTime ≤ 1) ∧
      ¬ ((d.arrival (d.level.toWorld (.ofIndex 0))).position.IsFinite ∧
        (d.arrival (d.level.toWorld (.ofIndex 0))).velocity.IsFinite) := by
    decide +kernel
  refine ⟨rfl, fun d hd => ?_⟩
  exact ⟨_, Builder.build_of_defect?_eq_none (haccepted d hd), hticks d hd⟩

end Stride
