import Mathlib
import Stride.Motion.Tick
import Stride.Proofs.Saved.Values
import Stride.Proofs.Single.Special
import Stride.Proofs.Sweep.Queries

namespace Stride

/-!
# Broken inputs

An input with a horizontal coordinate that is NaN or infinite asks for no direction, although it
asks for full speed.  So an actor moves with it as it moves without any input: where a coordinate of
the input gets into a length or a velocity, the result is not finite, and a vector that is not
finite is normalized to zero.

* `Vec3.Alike` — vectors that differ in the signs of zeros only.
* `Tuning.wish_of_broken` — the wish of a broken input.
* `Tuning.accelerate_zero_alike` — a wish without a direction changes no velocity.
* `Tuning.rub_isFinite` — friction leaves a finite velocity finite.
* `Actor.startVelocity`, `Actor.tick_eq_moveWith` — the velocity with which a tick starts to move.
* `Tuning.broken_input_ignored` — it is the one of a tick without input.
-/

open Single

namespace Vec3

/-- All coordinates of the vector are finite. -/
structure IsFinite (v : Vec3 Float32) : Prop where
  /-- The first coordinate is. -/
  x : v.x.isFinite = true
  /-- The second coordinate is. -/
  y : v.y.isFinite = true
  /-- The height is. -/
  z : v.z.isFinite = true

/-! ### Signs of zeros -/

/-- The vectors are the same, up to the signs of zeros. -/
structure Alike (v w : Vec3 Float32) : Prop where
  /-- The first coordinates are. -/
  x : Single.Alike v.x w.x
  /-- The second coordinates are. -/
  y : Single.Alike v.y w.y
  /-- The heights are. -/
  z : Single.Alike v.z w.z

variable {v w : Vec3 Float32}

theorem Alike.refl (v : Vec3 Float32) : v.Alike v := ⟨.refl _, .refl _, .refl _⟩

theorem Alike.dot (h : v.Alike w) (n : Vec3 Float32) : Single.Alike (v.dot n) (w.dot n) :=
  alike_add (alike_add (alike_mul_left h.x n.x) (alike_mul_left h.y n.y)) (alike_mul_left h.z n.z)

/-- Clipping does not tell the signs of zeros apart. -/
theorem Alike.clip (h : v.Alike w) (n : Vec3 Float32) (overclip : Float32) :
    (v.clip n overclip).Alike (w.clip n overclip) := by
  have hinto := h.dot n
  have hback : Single.Alike
      (if v.dot n < 0 then v.dot n * overclip else v.dot n / overclip)
      (if w.dot n < 0 then w.dot n * overclip else w.dot n / overclip) := by
    have hlt := lt_iff_of_alike hinto (.refl 0)
    by_cases hneg : v.dot n < 0
    · rw [if_pos hneg, if_pos (hlt.1 hneg)]
      exact alike_mul_left hinto overclip
    · rw [if_neg hneg, if_neg (mt hlt.2 hneg)]
      exact alike_div hinto overclip
  exact ⟨alike_sub h.x (alike_mul_right n.x hback), alike_sub h.y (alike_mul_right n.y hback),
    alike_sub h.z (alike_mul_right n.z hback)⟩

/-! ### Directions that are not finite -/

/-- A horizontal coordinate of the vector is NaN or infinite. -/
def Broken (v : Vec3 Float32) : Prop := ¬ v.x.isFinite = true ∨ ¬ v.y.isFinite = true

theorem Broken.not_isFinite_dot (h : v.Broken) : ¬ (v.dot v).isFinite = true := by
  refine not_isFinite_add ?_ _
  rcases h with hx | hy
  · exact not_isFinite_add (not_isFinite_mul hx _) _
  · exact not_isFinite_add_right _ (not_isFinite_mul hy _)

/-- A vector that is not finite has no direction. -/
theorem Broken.normalizeOrZero_eq (h : v.Broken) : v.normalizeOrZero = 0 :=
  if_neg fun hpos => not_pos_one_div (not_isFinite_sqrt h.not_isFinite_dot) hpos.2

theorem Broken.clip (h : v.Broken) (n : Vec3 Float32) (overclip : Float32) :
    (v.clip n overclip).Broken :=
  h.imp (not_isFinite_sub · _) (not_isFinite_sub · _)

theorem Broken.flat (h : v.Broken) : v.flat.Broken := h

end Vec3

namespace Tuning

/-- **The wish of a broken input** has full speed and no direction. -/
theorem wish_of_broken {input : Vec3 Float32} (h : input.Broken) (t : Tuning Float32)
    (ground : Option (Vec3 Float32)) : t.wish input ground = ⟨0, t.maxSpeed * 1⟩ := by
  have hlength : ¬ input.flat.length < 1 := not_sqrt_lt_one h.flat.not_isFinite_dot
  have hamount : Scalar.minNum input.flat.length 1 = 1 :=
    Scalar.minNum_of_not_lt (show (1 : Float32) ≤ 1 by decide +kernel) hlength
  have hpos : (0 : Float32) < 1 := Scalar.Lawful.zero_lt_one
  simp only [wish, hamount, if_pos hpos]
  cases ground with
  | none => rw [h.flat.normalizeOrZero_eq]
  | some normal => rw [(h.flat.clip normal t.overclip).normalizeOrZero_eq]

/-- No input asks for nothing at all. -/
theorem wish_zero (t : Tuning Float32) (ground : Option (Vec3 Float32)) :
    t.wish 0 ground = ⟨0, 0⟩ := by
  have hamount : ¬ 0 < Scalar.minNum (0 : Vec3 Float32).flat.length 1 := by decide +kernel
  simp only [wish, if_neg hamount]

/-! ### Velocities -/

variable {t : Tuning Float32} {v : Vec3 Float32} {acceleration deltaTime speed : Float32}

/-- The part of a finite velocity in no direction. -/
theorem isZero_dot_zero (hv : v.IsFinite) : IsZero (v.dot 0) :=
  ((IsZero.mul_zero hv.x).add (.mul_zero hv.y)).add (.mul_zero hv.z)

/-- A wish for nothing changes no velocity. -/
theorem accelerate_nothing (hv : v.IsFinite) :
    accelerate ⟨0, 0⟩ acceleration deltaTime v = v := by
  have hmissing : IsZero (0 - v.dot 0) :=
    (isZero_pack .positive).of_alike (alike_sub_zero rfl (isZero_dot_zero hv))
  exact if_pos hmissing.le_zero

/-- **A wish without a direction** changes no velocity. -/
theorem accelerate_zero_alike (hv : v.IsFinite) (hspeed : speed.isFinite = true)
    (hpos : 0 ≤ speed) (hacceleration : 0 ≤ acceleration) (htime : 0 ≤ deltaTime) :
    (accelerate ⟨0, speed⟩ acceleration deltaTime v).Alike v := by
  have hmissing : (speed - v.dot 0).isFinite = true :=
    (alike_sub_zero hspeed (isZero_dot_zero hv)).isFinite hspeed
  -- what is gained is not negative, and not more than what is missing
  have hgained : (Scalar.minNum (acceleration * deltaTime * speed) (speed - v.dot 0)).isFinite =
      true := by
    by_cases hlt : acceleration * deltaTime * speed < speed - v.dot 0
    · rw [Scalar.minNum_of_lt hlt]
      have hup : Upward (acceleration * deltaTime * speed) :=
        Upward.mul (mul_zero_le hacceleration htime) hpos
      have hnumber := Scalar.Lawful.number_left (Scalar.Lawful.le_of_lt hlt)
      exact isFinite_of_lt (hup.resolve_right (not_not_intro hnumber)) hmissing hlt
    · rwa [Scalar.minNum_of_not_lt (isNumber_of_isFinite hmissing) hlt]
  by_cases hnone : speed - v.dot 0 ≤ 0
  · simp only [accelerate, if_pos hnone]
    exact .refl v
  · simp only [accelerate, if_neg hnone]
    exact ⟨alike_add_zero hv.x (.zero_mul hgained), alike_add_zero hv.y (.zero_mul hgained),
      alike_add_zero hv.z (.zero_mul hgained)⟩

/-! ### Friction -/

theorem zero_le_flatLengthSq (hv : v.IsFinite) : 0 ≤ v.flatLengthSq :=
  add_zero_le ((rounds_mul hv.x hv.x).zero_le (mul_self_nonneg _))
    ((rounds_mul hv.y hv.y).zero_le (mul_self_nonneg _))

/-- If friction takes a finite amount, the speed is finite. -/
theorem speed_isFinite_of_taken {stop friction : Float32} (hspeed : 0 ≤ speed)
    (hstop : stop.isFinite = true)
    (htaken : (Scalar.maxNum speed stop * friction * deltaTime).isFinite = true) :
    speed.isFinite = true := by
  by_contra hinfinite
  have hlt : stop < speed :=
    lt_of_infinity hstop ((nonneg_iff.1 hspeed).resolve_left fun h => hinfinite h.1)
  refine not_isFinite_mul (not_isFinite_mul (a := Scalar.maxNum speed stop) ?_ _) _ htaken
  rwa [Scalar.maxNum, if_pos hlt]

/-- What a finite amount leaves of a finite speed is at most the speed. -/
theorem rest_le_one {taken : Float32} (hspeed : speed.isFinite = true) (hone : 1 ≤ speed)
    (hfinite : taken.isFinite = true) (hnonneg : 0 ≤ taken) (hpos : 0 < speed - taken) :
    ((speed - taken) / speed).isFinite = true ∧ |value ((speed - taken) / speed)| ≤ 1 := by
  rw [le_iff_value rfl hspeed, value_one] at hone
  rw [le_iff_value rfl hfinite, value_zero] at hnonneg
  have hrounds := rounds_sub hspeed hfinite
  have hmore : 0 < value speed - value taken := by
    by_contra hle
    exact hrounds.not_pos (not_lt.1 hle) hpos
  have habs : |value speed| = value speed := abs_of_nonneg (by linarith)
  obtain ⟨hleft, hle⟩ := hrounds.abs_le (representable_abs_value hspeed)
    (by rw [abs_of_pos hmore, habs]; linarith)
  have hshare := rounds_div hleft hspeed (by linarith)
  have hrepresentable : Representable 1 := by
    simpa using representable_two_zpow (k := 0) (by norm_num) (by norm_num)
  refine hshare.abs_le hrepresentable ?_
  rw [abs_div, habs]
  rw [habs] at hle
  exact div_le_one_of_le₀ hle (by linarith)

/-- The share of the speed that friction leaves is at most one.  A speed that overflows, or more
    friction than there is speed, leaves nothing. -/
theorem share_le_one (hslow : ¬ speed < 1) (hspeed : 0 ≤ speed)
    (hstop : t.stopSpeed.isFinite = true) (hstop' : 0 ≤ t.stopSpeed) (hfriction : 0 ≤ t.friction)
    (htime : 0 ≤ deltaTime) :
    let left := Scalar.maxNum
      (speed - Scalar.maxNum speed t.stopSpeed * t.friction * deltaTime) 0
    (left / speed).isFinite = true ∧ |value (left / speed)| ≤ 1 := by
  intro left
  have hnumber : Scalar.IsNumber speed := Scalar.Lawful.number_right hspeed
  have hone : 1 ≤ speed := Scalar.le_of_not_lt hnumber (isNumber_of_isFinite rfl) hslow
  set taken := Scalar.maxNum speed t.stopSpeed * t.friction * deltaTime with htaken
  have hup : Upward taken := by
    refine Upward.mul (mul_zero_le ?_ hfriction) htime
    rw [Scalar.maxNum]
    split_ifs <;> assumption
  rcases Scalar.maxNum_zero_cases (speed - taken) with ⟨hpos, hleft⟩ | ⟨-, hleft⟩
  · -- what is taken is finite, and then the speed is finite as well
    have hfinite : taken.isFinite = true := by
      by_contra hinfinite
      exact not_pos_sub hinfinite hup speed hpos
    have hspeed' : speed.isFinite = true := speed_isFinite_of_taken hspeed hstop hfinite
    have hnonneg : 0 ≤ taken := hup.resolve_right (not_not_intro (isNumber_of_isFinite hfinite))
    rw [show left = speed - taken from hleft]
    exact rest_le_one hspeed' hone hfinite hnonneg hpos
  · -- nothing is left
    have hzero : IsZero (0 / speed) := by
      refine .zero_div hnumber fun hz => ?_
      exact Scalar.Lawful.not_lt_of_le hone
        (Scalar.lt_of_le_of_lt hz.le_zero Scalar.Lawful.zero_lt_one)
    rw [show left = 0 from hleft, hzero.value_eq, abs_zero]
    exact ⟨hzero.isFinite, zero_le_one⟩

/-- **Friction** leaves a finite velocity finite. -/
theorem rub_isFinite (hv : v.IsFinite) (hstop : t.stopSpeed.isFinite = true)
    (hstop' : 0 ≤ t.stopSpeed) (hfriction : 0 ≤ t.friction) (htime : 0 ≤ deltaTime) :
    (t.rub deltaTime v).IsFinite := by
  have hspeed : 0 ≤ Scalar.sqrt v.flatLengthSq := sqrt_zero_le (zero_le_flatLengthSq hv)
  rw [rub]
  split_ifs with hslow
  · have hzero : (0 : Float32).isFinite = true := rfl
    exact ⟨hzero, hzero, hv.z⟩
  · obtain ⟨hfinite, hshare⟩ := share_le_one hslow hspeed hstop hstop' hfriction htime
    exact ⟨isFinite_mul_of_le_one hv.x hfinite hshare, isFinite_mul_of_le_one hv.y hfinite hshare,
      hv.z⟩

/-! ### Parameters -/

/-- The time of a tick is not negative. -/
theorem zero_le_tickTime {frameTime : Float32} (hframe : 0 < frameTime)
    (hlimit : 0 ≤ t.maxFrameTime) : 0 ≤ t.tickTime frameTime := by
  rw [tickTime, Scalar.minNum]
  split_ifs
  · exact Scalar.Lawful.le_of_lt hframe
  · exact hlimit
  · exact Scalar.Lawful.le_of_lt hframe

/-- The parameters that may be zero are neither negative nor NaN. -/
structure Nonnegative (t : Tuning Float32) : Prop where
  /-- The speed on the ground. -/
  maxSpeed : 0 ≤ t.maxSpeed
  /-- The acceleration downwards. -/
  gravity : 0 ≤ t.gravity
  /-- The share of the speed that the ground takes. -/
  friction : 0 ≤ t.friction
  /-- The speed below which friction does not get less. -/
  stopSpeed : 0 ≤ t.stopSpeed
  /-- The gain on the ground. -/
  groundAcceleration : 0 ≤ t.groundAcceleration
  /-- The gain in the air. -/
  airAcceleration : 0 ≤ t.airAcceleration
  /-- The height of a step. -/
  stepHeight : 0 ≤ t.stepHeight
  /-- The reach of a look below the sphere. -/
  groundCheckEpsilon : 0 ≤ t.groundCheckEpsilon
  /-- The longest time of a tick. -/
  maxFrameTime : 0 ≤ t.maxFrameTime

theorem nonnegative_of_accepted (ht : t.fault? = none) : t.Nonnegative := by
  have hall := (fault?_eq_none_iff.1 ht).2.2.2.2
  simp only [nonNegative, List.forall_mem_cons] at hall
  obtain ⟨hspeed, hgravity, hfriction, hstop, hground, hair, hstep, hepsilon, -, htime, -⟩ := hall
  exact ⟨hspeed, hgravity, hfriction, hstop, hground, hair, hstep, hepsilon, htime⟩

theorem isFinite_of_singles (h : ∀ a ∈ t.singles, a.isFinite = true) :
    t.maxSpeed.isFinite = true ∧ t.stopSpeed.isFinite = true := by
  have hkey (k : Key) (a : Float32) (ha : a ∈ singlesOf k (t.get k)) : a.isFinite = true := by
    refine h a (List.mem_flatMap.2 ⟨k, ?_, ha⟩)
    cases k <;> decide
  exact ⟨hkey .maxSpeed _ (List.mem_singleton_self _),
    hkey .stopSpeed _ (List.mem_singleton_self _)⟩

end Tuning

/-! ### Ticks -/

namespace Actor

variable {α : Type} [Scalar α]

/-- The velocity with which an actor starts to move, by what it stands on. -/
def startVelocity (a : Actor α) (t : Tuning α) (input : Vec3 α) (deltaTime : α) : Vec3 α :=
  match a.footing with
  | .grounded support => a.walkVelocity t input support.normal deltaTime
  | .airborne => a.fallVelocity t input deltaTime

/-- The actor after a move that starts with a velocity.  On the ground it stops short of the move if
    the velocity is not horizontal at all. -/
def moveWith (a : Actor α) (w : World α) (t : Tuning α) (deltaTime : α) (velocity : Vec3 α) :
    Actor α :=
  match a.footing with
  | .grounded support =>
    if Scalar.same velocity.x 0 && Scalar.same velocity.y 0 then { a with velocity }
    else a.after (stepSlide w t ⟨deltaTime, some support.normal, false⟩ a.position velocity)
  | .airborne => a.after (slide w t ⟨deltaTime, a.groundNormal?, true⟩ a.position velocity)

/-- The input of a tick matters to the velocity that the move starts with only. -/
theorem tick_eq_moveWith {frameTime : α} (htime : 0 < frameTime) (a : Actor α) (w : World α)
    (t : Tuning α) (input : Vec3 α) :
    a.tick w t input frameTime =
      ((a.refoot w t).moveWith w t (t.tickTime frameTime)
        ((a.refoot w t).startVelocity t input (t.tickTime frameTime))).refoot w t := by
  have hmove (b : Actor α) (deltaTime : α) :
      b.move w t input deltaTime =
        b.moveWith w t deltaTime (b.startVelocity t input deltaTime) := by
    obtain ⟨position, velocity, footing, groundTrace⟩ := b
    cases footing <;> rfl
  rw [tick, if_pos htime, hmove]

theorem refoot_velocity (a : Actor α) (w : World α) (t : Tuning α) :
    (a.refoot w t).velocity = a.velocity := by
  rw [refoot, settle]
  cases a.look w t <;> rfl

end Actor

/-- **Broken inputs are ignored.**  With finite parameters, an input with a horizontal coordinate
    that is NaN or infinite asks for no direction, on any ground or none.  Whatever the frame time
    is, and on any level, a tick of an actor with a finite velocity starts to move with the velocity
    that it has without any input, up to the signs of zeros. -/
theorem Tuning.broken_input_ignored {t : Tuning Float32} (ht : t.fault? = none)
    (hfinite : ∀ c ∈ t.singles, c.isFinite = true) (w : World Float32) {a : Actor Float32}
    (ha : a.velocity.IsFinite) {input : Vec3 Float32} (hinput : input.Broken) {frameTime : Float32}
    (hframe : 0 < frameTime) :
    (∀ ground, (t.wish input ground).direction = 0) ∧
      (∀ i, a.tick w t i frameTime =
        ((a.refoot w t).moveWith w t (t.tickTime frameTime)
          ((a.refoot w t).startVelocity t i (t.tickTime frameTime))).refoot w t) ∧
      ((a.refoot w t).startVelocity t input (t.tickTime frameTime)).Alike
        ((a.refoot w t).startVelocity t 0 (t.tickTime frameTime)) := by
  obtain ⟨hspeed, hstop⟩ := isFinite_of_singles hfinite
  have hpos := nonnegative_of_accepted ht
  have htime : 0 ≤ t.tickTime frameTime := zero_le_tickTime hframe hpos.maxFrameTime
  have hspeed' : t.maxSpeed * 1 = t.maxSpeed := Single.mul_one hspeed
  have hvelocity : (a.refoot w t).velocity.IsFinite := by rwa [Actor.refoot_velocity]
  refine ⟨fun ground => by rw [wish_of_broken hinput],
    fun i => Actor.tick_eq_moveWith hframe a w t i, ?_⟩
  -- no direction means no acceleration, and what is added then is zero
  rw [Actor.startVelocity, Actor.startVelocity]
  cases (a.refoot w t).footing with
  | grounded support =>
    have hrubbed := rub_isFinite hvelocity hstop hpos.stopSpeed hpos.friction htime
    simp only [Actor.walkVelocity, wish_of_broken hinput, wish_zero, accelerate_nothing hrubbed,
      hspeed']
    exact (accelerate_zero_alike hrubbed hspeed hpos.maxSpeed hpos.groundAcceleration htime).clip
      _ _
  | airborne =>
    have halike :=
      accelerate_zero_alike hvelocity hspeed hpos.maxSpeed hpos.airAcceleration htime
    simp only [Actor.fallVelocity, wish_of_broken hinput, wish_zero, accelerate_nothing hvelocity,
      hspeed']
    cases (a.refoot w t).groundNormal? with
    | none => exact halike
    | some normal => exact halike.clip _ _

/-- An actor that is told to move in a direction that is NaN, with the classic parameters and above
    ground, starts to move as without input. -/
theorem nan_input_ignored :
    ∃ w : World Float32, halfSolid.build (.ofIndex 2) = .ok w ∧
      (Tuning.classic : Tuning Float32).fault? = none ∧
      (∀ c ∈ (Tuning.classic : Tuning Float32).singles, c.isFinite = true) ∧
      ∃ a : Actor Float32, a.velocity = ⟨30, -40, 0⟩ ∧ a.velocity.IsFinite ∧
        (⟨0 / 0, 1, 0⟩ : Vec3 Float32).Broken ∧ (0 : Float32) < 1 / 60 ∧
        ((a.refoot w .classic).startVelocity .classic ⟨0 / 0, 1, 0⟩
            (Tuning.classic.tickTime (1 / 60))).Alike
          ((a.refoot w .classic).startVelocity .classic 0 (Tuning.classic.tickTime (1 / 60))) := by
  have ht : (Tuning.classic : Tuning Float32).fault? = none := by decide +kernel
  have hfinite : ∀ c ∈ (Tuning.classic : Tuning Float32).singles, c.isFinite = true := by
    decide +kernel
  let a : Actor Float32 := { Actor.ofPosition ⟨0, 0, 10⟩ with velocity := ⟨30, -40, 0⟩ }
  have ha : a.velocity.IsFinite := ⟨by decide +kernel, by decide +kernel, by decide +kernel⟩
  have hinput : (⟨0 / 0, 1, 0⟩ : Vec3 Float32).Broken := .inl (by decide +kernel)
  have hframe : (0 : Float32) < 1 / 60 := by decide +kernel
  exact ⟨_, halfSolid_build, ht, hfinite, a, rfl, ha, hinput, hframe,
    (Tuning.broken_input_ignored ht hfinite _ ha hinput hframe).2.2⟩

end Stride
