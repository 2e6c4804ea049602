import Mathlib
import Stride.Proofs.Motion.Floor

namespace Stride

/-!
# Coming to a stop

Over the reals an actor that slides along a flat floor and is told nothing loses speed by friction
only.  A tick scales its velocity by a factor from zero to one and takes at least a fixed amount of
speed, as long as there is that much, so the actor stands still after a number of ticks that its
speed determines, and from then on.

* `Vec3.flatSpeed` — the speed along the ground.
* `Tuning.rub_eq_scale`, `Tuning.flatSpeed_rub_le` — what friction leaves of a velocity.
* `Hovers.tick_idle` — a tick without input is friction and a move along the floor.
* `Hovers.flatSpeed_idle_le` — what is left of the speed after some ticks.
* `Accepted.stops` — the way to the stop, and the stop.
-/

/-- The speed along the ground. -/
noncomputable def Vec3.flatSpeed (v : Vec3 ℝ) : ℝ := √v.flatLengthSq

variable {w : World ℝ} {t : Tuning ℝ} {a : Actor ℝ} {v : Vec3 ℝ} {id : PlaneId}
  {height deltaTime : ℝ}

/-! ### Horizontal speed -/

namespace Vec3

theorem flatSpeed_nonneg (v : Vec3 ℝ) : 0 ≤ v.flatSpeed := Real.sqrt_nonneg _

/-- A velocity with scaled horizontal coordinates has the scaled speed along the ground. -/
theorem flatSpeed_scaled (v : Vec3 ℝ) {c : ℝ} (hc : 0 ≤ c) (z : ℝ) :
    flatSpeed ⟨v.x * c, v.y * c, z⟩ = v.flatSpeed * c := by
  have hsquares : flatLengthSq ⟨v.x * c, v.y * c, z⟩ = v.flatLengthSq * c ^ 2 := by
    simp only [flatLengthSq]
    ring
  rw [flatSpeed, hsquares, Real.sqrt_mul' _ (sq_nonneg c), Real.sqrt_sq hc, flatSpeed]

/-- Without speed along the ground there is no horizontal motion. -/
theorem eq_zero_of_flatSpeed (hspeed : v.flatSpeed = 0) (hflat : v.z = 0) : v = 0 := by
  have hsum : v.x * v.x + v.y * v.y = 0 :=
    (Real.sqrt_eq_zero (add_nonneg (mul_self_nonneg _) (mul_self_nonneg _))).1 hspeed
  obtain ⟨hx, hy⟩ := (mul_self_add_mul_self_eq_zero).1 hsum
  ext
  · exact hx
  · exact hy
  · exact hflat

end Vec3

/-! ### Friction -/

namespace Tuning

/-- The share of a velocity that friction leaves. -/
noncomputable def rubFactor (t : Tuning ℝ) (deltaTime : ℝ) (v : Vec3 ℝ) : ℝ :=
  if v.flatSpeed < 1 then 0
  else max (v.flatSpeed - max v.flatSpeed t.stopSpeed * t.friction * deltaTime) 0 / v.flatSpeed

/-- **Friction** scales the horizontal part of a velocity. -/
theorem rub_eq_scale (t : Tuning ℝ) (deltaTime : ℝ) (v : Vec3 ℝ) :
    t.rub deltaTime v =
      ⟨v.x * t.rubFactor deltaTime v, v.y * t.rubFactor deltaTime v, v.z⟩ := by
  have hspeed : Scalar.sqrt v.flatLengthSq = v.flatSpeed := rfl
  have hone : (stopEpsilon : ℝ) = 1 := rfl
  rw [rub, hspeed, hone, rubFactor]
  split_ifs
  · rw [mul_zero, mul_zero]
  · simp only [Scalar.maxNum_eq_max]

theorem rubFactor_nonneg (t : Tuning ℝ) (deltaTime : ℝ) (v : Vec3 ℝ) :
    0 ≤ t.rubFactor deltaTime v := by
  rw [rubFactor]
  split_ifs
  · exact le_refl 0
  · exact div_nonneg (le_max_right _ _) v.flatSpeed_nonneg

/-- Friction takes at least what it takes at the speed `stopSpeed`, or all there is. -/
theorem flatSpeed_rub_le (hfriction : 0 ≤ t.friction) (htime : 0 ≤ deltaTime) (v : Vec3 ℝ) :
    (t.rub deltaTime v).flatSpeed ≤
      max (v.flatSpeed - t.stopSpeed * t.friction * deltaTime) 0 := by
  rw [rub_eq_scale, Vec3.flatSpeed_scaled v (t.rubFactor_nonneg deltaTime v), rubFactor]
  split_ifs with hslow
  · rw [mul_zero]
    exact le_max_right _ _
  · have hpos : 0 < v.flatSpeed := zero_lt_one.trans_le (not_lt.1 hslow)
    have htaken : t.stopSpeed * t.friction * deltaTime ≤
        max v.flatSpeed t.stopSpeed * t.friction * deltaTime :=
      mul_le_mul_of_nonneg_right
        (mul_le_mul_of_nonneg_right (le_max_right _ _) hfriction) htime
    rw [mul_div_cancel₀ _ hpos.ne']
    exact max_le_max_right 0 (sub_le_sub_left htaken _)

/-- Friction never speeds up. -/
theorem rubFactor_le_one (hfriction : 0 ≤ t.friction) (htime : 0 ≤ deltaTime) (v : Vec3 ℝ) :
    t.rubFactor deltaTime v ≤ 1 := by
  rw [rubFactor]
  split_ifs with hslow
  · exact zero_le_one
  · have hpos : 0 < v.flatSpeed := zero_lt_one.trans_le (not_lt.1 hslow)
    have htaken : 0 ≤ max v.flatSpeed t.stopSpeed * t.friction * deltaTime :=
      mul_nonneg (mul_nonneg (hpos.le.trans (le_max_left _ _)) hfriction) htime
    rw [div_le_one hpos]
    exact max_le (sub_le_self _ htaken) hpos.le

end Tuning

/-! ### Ticks without input -/

/-- A standing actor that is told nothing and moves along a floor is only slowed down. -/
theorem Actor.walkVelocity_idle (hflat : a.velocity.z = 0) (t : Tuning ℝ) (deltaTime : ℝ) :
    a.walkVelocity t 0 (Vec3.up 1) deltaTime = t.rub deltaTime a.velocity := by
  have hrubbed : (t.rub deltaTime a.velocity).z = 0 := by rw [Tuning.rub_z, hflat]
  rw [walkVelocity, Tuning.accelerate_eq_self (t.wish_zero_direction _),
    Vec3.clip_up_of_flat hrubbed]

/-- A run of equal ticks starts with the first of them. -/
theorem Actor.idle_replicate_succ (a : Actor ℝ) (w : World ℝ) (t : Tuning ℝ) (n : ℕ)
    (time : ℝ) :
    a.idle w t (List.replicate (n + 1) time) =
      (a.tick w t 0 time).idle w t (List.replicate n time) := rfl

/-- A run of equal ticks ends with the last of them. -/
theorem Actor.idle_replicate_succ' (a : Actor ℝ) (w : World ℝ) (t : Tuning ℝ) (n : ℕ)
    (time : ℝ) :
    a.idle w t (List.replicate (n + 1) time) =
      (a.idle w t (List.replicate n time)).tick w t 0 time := by
  induction n generalizing a with
  | zero => rfl
  | succ n ih => rw [idle_replicate_succ, ih, idle_replicate_succ]

namespace Hovers

/-- **A tick without input** leaves what friction leaves, just above the floor. -/
theorem tick_idle (h : Hovers a t height) (hw : w.WellFormed) (hfloor : w.FlatFloor id height)
    (ht : t.fault? = none) (hreach : traceOffset ≤ t.reach) (htime : 0 < deltaTime)
    (hlimit : deltaTime ≤ t.maxFrameTime) :
    (a.tick w t 0 deltaTime).velocity = t.rub deltaTime a.velocity ∧
      Hovers (a.tick w t 0 deltaTime) t height := by
  have htick : t.tickTime deltaTime = deltaTime := by
    rw [Tuning.tickTime, Scalar.minNum_eq_min, min_eq_left hlimit]
  obtain ⟨-, hvelocity, -, hovers⟩ := h.tick hw hfloor ht hreach 0 htime
  rw [hvelocity, htick, Actor.walkVelocity_idle h.flat]
  exact ⟨rfl, hovers⟩

theorem idle (h : Hovers a t height) (hw : w.WellFormed) (hfloor : w.FlatFloor id height)
    (ht : t.fault? = none) (hreach : traceOffset ≤ t.reach) (htime : 0 < deltaTime)
    (hlimit : deltaTime ≤ t.maxFrameTime) (n : ℕ) :
    Hovers (a.idle w t (List.replicate n deltaTime)) t height := by
  induction n with
  | zero => exact h
  | succ n ih =>
    rw [Actor.idle_replicate_succ']
    exact (ih.tick_idle hw hfloor ht hreach htime hlimit).2

/-- **After some ticks** at least as often the least amount of speed is gone, or all there was. -/
theorem flatSpeed_idle_le (h : Hovers a t height) (hw : w.WellFormed)
    (hfloor : w.FlatFloor id height) (ht : t.fault? = none) (hreach : traceOffset ≤ t.reach)
    (hfriction : 0 ≤ t.friction) (hstop : 0 ≤ t.stopSpeed) (htime : 0 < deltaTime)
    (hlimit : deltaTime ≤ t.maxFrameTime) (n : ℕ) :
    (a.idle w t (List.replicate n deltaTime)).velocity.flatSpeed ≤
      max (a.velocity.flatSpeed - n * (t.stopSpeed * t.friction * deltaTime)) 0 := by
  set taken := t.stopSpeed * t.friction * deltaTime
  have htaken : 0 ≤ taken := mul_nonneg (mul_nonneg hstop hfriction) htime.le
  induction n with
  | zero =>
    rw [Nat.cast_zero, zero_mul, sub_zero]
    exact le_max_left _ _
  | succ n ih =>
    set b := a.idle w t (List.replicate n deltaTime) with hb
    have hovers : Hovers b t height := h.idle hw hfloor ht hreach htime hlimit n
    rw [Actor.idle_replicate_succ', ← hb,
      (hovers.tick_idle hw hfloor ht hreach htime hlimit).1]
    calc (t.rub deltaTime b.velocity).flatSpeed
        ≤ max (b.velocity.flatSpeed - taken) 0 := Tuning.flatSpeed_rub_le hfriction htime.le _
      _ ≤ max (a.velocity.flatSpeed - (n + 1 : ℕ) * taken) 0 := by
        push_cast
        rcases le_max_iff.1 ih with hle | hle
        · exact max_le_max_right 0 (by linarith)
        · rw [max_eq_right (by linarith)]
          exact le_max_right _ _

end Hovers

/-- **Coming to a stop.**  Over the reals, on a level that a builder accepted and that is solid up
    to a height and nowhere else, an actor that is at most `traceOffset` above the floor and moves
    along it, and then is told nothing tick after tick, is slowed down by each tick without turning:
    the velocity is scaled by a factor from zero to one, and the speed does not grow.  After as many
    ticks as the amount of speed that friction takes at `stopSpeed` fits into its speed, rounded up,
    it stands still, and so it does after any more. -/
theorem World.Accepted.stops (hw : w.Accepted) (hfloor : w.FlatFloor id height)
    (ht : t.fault? = none) (hfriction : 0 < t.friction) (hstop : 0 < t.stopSpeed)
    (hreach : traceOffset ≤ t.playerRadius + t.groundCheckEpsilon) (htime : 0 < deltaTime)
    (hlimit : deltaTime ≤ t.maxFrameTime) (h : Hovers a t height) :
    (∀ n, ∃ c : ℝ, 0 ≤ c ∧ c ≤ 1 ∧
        (a.idle w t (List.replicate (n + 1) deltaTime)).velocity =
          (a.idle w t (List.replicate n deltaTime)).velocity * c ∧
        (a.idle w t (List.replicate (n + 1) deltaTime)).horizontalSpeed ≤
          (a.idle w t (List.replicate n deltaTime)).horizontalSpeed) ∧
      ∀ n, ⌈a.horizontalSpeed / (t.stopSpeed * t.friction * deltaTime)⌉₊ ≤ n →
        (a.idle w t (List.replicate n deltaTime)).velocity = 0 := by
  have hw' := hw.wellFormed
  have hidle := h.idle hw' hfloor ht hreach htime hlimit
  constructor
  · intro n
    set b := a.idle w t (List.replicate n deltaTime) with hb
    have hvelocity := ((hidle n).tick_idle hw' hfloor ht hreach htime hlimit).1
    have hnonneg := t.rubFactor_nonneg deltaTime b.velocity
    have hle := Tuning.rubFactor_le_one hfriction.le htime.le b.velocity
    rw [Actor.idle_replicate_succ', ← hb]
    refine ⟨t.rubFactor deltaTime b.velocity, hnonneg, hle, ?_, ?_⟩
    · rw [hvelocity, Tuning.rub_eq_scale]
      ext
      · rfl
      · rfl
      · rw [Vec3.scale_z, (hidle n).flat, zero_mul]
    · show (b.tick w t 0 deltaTime).velocity.flatSpeed ≤ b.velocity.flatSpeed
      rw [hvelocity, Tuning.rub_eq_scale, Vec3.flatSpeed_scaled _ hnonneg]
      exact mul_le_of_le_one_right b.velocity.flatSpeed_nonneg hle
  · intro n hn
    have htaken : 0 < t.stopSpeed * t.friction * deltaTime :=
      mul_pos (mul_pos hstop hfriction) htime
    -- so many ticks could take more speed than there is
    have hspent : a.velocity.flatSpeed ≤ n * (t.stopSpeed * t.friction * deltaTime) :=
      (div_le_iff₀ htaken).1 (Nat.ceil_le.1 hn)
    have hleft := h.flatSpeed_idle_le hw' hfloor ht hreach hfriction.le hstop.le htime hlimit n
    rw [max_eq_right (by linarith)] at hleft
    exact Vec3.eq_zero_of_flatSpeed (le_antisymm hleft (Vec3.flatSpeed_nonneg _)) (hidle n).flat

/-- Over the reals, an actor that slides over the ground at speed three hundred stands still after
    half a second of ticks without input, sixty to the second. -/
theorem ground_stops :
    ∃ w : World ℝ, w.Accepted ∧ w.FlatFloor (.ofIndex 0) 0 ∧
      (Tuning.classic : Tuning ℝ).fault? = none ∧
      ∃ a : Actor ℝ, Hovers a .classic 0 ∧ a.velocity = ⟨180, -240, 0⟩ ∧
        ∀ n, 30 ≤ n → (a.idle w .classic (List.replicate n (1 / 60))).velocity = 0 := by
  let a : Actor ℝ := { Actor.ofPosition ⟨2, 3, 641 / 64⟩ with velocity := ⟨180, -240, 0⟩ }
  have hhovers : Hovers a .classic 0 :=
    { above := by norm_num [a, Actor.ofPosition, Tuning.classic]
      near := by norm_num [a, Actor.ofPosition, Tuning.classic, Sweep.traceOffset_eq]
      flat := rfl }
  have hspeed : a.horizontalSpeed = 300 := by
    have hsquare : a.velocity.flatLengthSq = 300 ^ 2 := by norm_num [a, Vec3.flatLengthSq]
    show √a.velocity.flatLengthSq = 300
    rw [hsquare, Real.sqrt_sq (by norm_num)]
  obtain ⟨-, hstops⟩ := realGround_accepted.stops realGround_flatFloor
    Tuning.real_classic_accepted (by norm_num [Tuning.classic])
    (by norm_num [Tuning.classic]) (by norm_num [Sweep.traceOffset_eq, Tuning.classic])
    (show (0 : ℝ) < 1 / 60 by norm_num) (by norm_num [Tuning.classic]) hhovers
  refine ⟨realGround, realGround_accepted, realGround_flatFloor, Tuning.real_classic_accepted, a,
    hhovers, rfl, fun n hn => hstops n (le_trans ?_ hn)⟩
  rw [hspeed, Nat.ceil_le]
  norm_num [Tuning.classic]

end Stride
