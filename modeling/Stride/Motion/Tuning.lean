import Stride.Decimal.Binary
import Stride.Scalar
import Stride.Single

namespace Stride

/-!
# Tuning

The parameters of the motion of an actor.  Lengths are world units with `z` up, times are seconds.

* `Tuning` — the parameters; `Tuning.classic` and `Tuning.snappy` are the presets.
* `Tuning.Key` — the names of the parameters.
* `Tuning.fault?` — the first parameter out of its range.
-/

variable {α : Type}

/-- The parameters of the motion of an actor. -/
structure Tuning (α : Type) where
  /-- The radius of the actor's sphere. -/
  playerRadius : α
  /-- The speed on the ground under full input. -/
  maxSpeed : α
  /-- The downward acceleration in the air. -/
  gravity : α
  /-- The share of the speed that the ground takes per second. -/
  friction : α
  /-- Below this speed friction acts as if the actor moved this fast. -/
  stopSpeed : α
  /-- The share of the wished speed that is gained per second on the ground. -/
  groundAcceleration : α
  /-- The share of the wished speed that is gained per second in the air. -/
  airAcceleration : α
  /-- The height of the greatest obstacle that is stepped over. -/
  stepHeight : α
  /-- The least height of the normal of ground that can be stood on. -/
  minGroundNormal : α
  /-- How far below the sphere ground is looked for. -/
  groundCheckEpsilon : α
  /-- The speed away from the ground beyond which an actor has left it. -/
  groundSeparationSpeed : α
  /-- The greatest number of sweeps of one slide. -/
  maxBumps : UInt64
  /-- The factor by which motion into a surface is over-corrected. -/
  overclip : α
  /-- The longest time integrated at once. -/
  maxFrameTime : α
deriving DecidableEq, Repr

namespace Tuning

variable [Scalar α]

/-- Moderate gravity and friction, with a gradual response on the ground. -/
def classic : Tuning α where
  playerRadius := 10.0
  maxSpeed := 320.0
  gravity := 800.0
  friction := 6.0
  stopSpeed := 100.0
  groundAcceleration := 10.0
  airAcceleration := 1.0
  stepHeight := 18.0
  minGroundNormal := 0.7
  groundCheckEpsilon := 0.25
  groundSeparationSpeed := 10.0
  maxBumps := 4
  overclip := 1.001
  maxFrameTime := 0.066

/-- Near-instant response on the ground, heavier gravity and little control in the air. -/
def snappy : Tuning α :=
  { classic with
    maxSpeed := 375.0
    gravity := 1125.0
    friction := 45.0
    stopSpeed := 750.0
    groundAcceleration := 75.0
    airAcceleration := 0.75 }

instance : Inhabited (Tuning α) := ⟨classic⟩

/-! ### Names of the parameters -/

/-- A parameter. -/
inductive Key where
  | playerRadius | maxSpeed | gravity | friction | stopSpeed | groundAcceleration
  | airAcceleration | stepHeight | minGroundNormal | groundCheckEpsilon
  | groundSeparationSpeed | maxBumps | overclip | maxFrameTime
deriving DecidableEq, Repr

/-- The name of the parameter in texts. -/
def Key.name : Key → String
  | playerRadius => "player_radius"
  | maxSpeed => "max_speed"
  | gravity => "gravity"
  | friction => "friction"
  | stopSpeed => "stop_speed"
  | groundAcceleration => "ground_acceleration"
  | airAcceleration => "air_acceleration"
  | stepHeight => "step_height"
  | minGroundNormal => "min_ground_normal"
  | groundCheckEpsilon => "ground_check_epsilon"
  | groundSeparationSpeed => "ground_separation_speed"
  | maxBumps => "max_bumps"
  | overclip => "overclip"
  | maxFrameTime => "max_frame_time"

/-- All parameters, in the order in which they are written. -/
def Key.all : List Key :=
  [playerRadius, maxSpeed, gravity, friction, stopSpeed, groundAcceleration, airAcceleration,
   stepHeight, minGroundNormal, groundCheckEpsilon, groundSeparationSpeed, maxBumps, overclip,
   maxFrameTime]

/-- The type of a parameter: `maxBumps` is a count and all others are scalars. -/
@[reducible] def Key.Value (α : Type) : Key → Type
  | maxBumps => UInt64
  | playerRadius => α
  | maxSpeed => α
  | gravity => α
  | friction => α
  | stopSpeed => α
  | groundAcceleration => α
  | airAcceleration => α
  | stepHeight => α
  | minGroundNormal => α
  | groundCheckEpsilon => α
  | groundSeparationSpeed => α
  | overclip => α
  | maxFrameTime => α

/-- The value of a parameter. -/
def get (t : Tuning α) : (k : Key) → k.Value α
  | .playerRadius => t.playerRadius
  | .maxSpeed => t.maxSpeed
  | .gravity => t.gravity
  | .friction => t.friction
  | .stopSpeed => t.stopSpeed
  | .groundAcceleration => t.groundAcceleration
  | .airAcceleration => t.airAcceleration
  | .stepHeight => t.stepHeight
  | .minGroundNormal => t.minGroundNormal
  | .groundCheckEpsilon => t.groundCheckEpsilon
  | .groundSeparationSpeed => t.groundSeparationSpeed
  | .maxBumps => t.maxBumps
  | .overclip => t.overclip
  | .maxFrameTime => t.maxFrameTime

/-- The tuning with the given values. -/
def ofValues (v : (k : Key) → k.Value α) : Tuning α where
  playerRadius := v .playerRadius
  maxSpeed := v .maxSpeed
  gravity := v .gravity
  friction := v .friction
  stopSpeed := v .stopSpeed
  groundAcceleration := v .groundAcceleration
  airAcceleration := v .airAcceleration
  stepHeight := v .stepHeight
  minGroundNormal := v .minGroundNormal
  groundCheckEpsilon := v .groundCheckEpsilon
  groundSeparationSpeed := v .groundSeparationSpeed
  maxBumps := v .maxBumps
  overclip := v .overclip
  maxFrameTime := v .maxFrameTime

omit [Scalar α] in
@[simp] theorem ofValues_get (t : Tuning α) : ofValues t.get = t := rfl

/-! ### Ranges -/

/-- Why a tuning is refused. -/
inductive Fault (α : Type) where
  /-- The radius is not positive. -/
  | radius (value : α)
  /-- The overclip factor is not at least one. -/
  | overclip (value : α)
  /-- A slide may not sweep at all. -/
  | noBumps
  /-- The least height of a ground normal is not in `(0, 1]`. -/
  | groundNormal (value : α)
  /-- Another parameter is negative or not a number. -/
  | negative (key : Key) (value : α)
deriving DecidableEq, Repr

/-- The fault in words. -/
def Fault.message : Fault Float32 → String
  | radius value => s!"player radius must be positive, got {Numeral.display value}"
  | overclip value => s!"overclip must be at least 1.0, got {Numeral.display value}"
  | noBumps => "max_bumps must be at least 1"
  | groundNormal value => s!"min_ground_normal must lie in (0, 1], got {Numeral.display value}"
  | negative key value => s!"{key.name} must be non-negative, got {Numeral.display value}"

/-- The parameters that may be zero but not negative, in the order in which they are checked. -/
def nonNegative (t : Tuning α) : List (Key × α) :=
  [(.maxSpeed, t.maxSpeed), (.gravity, t.gravity), (.friction, t.friction),
   (.stopSpeed, t.stopSpeed), (.groundAcceleration, t.groundAcceleration),
   (.airAcceleration, t.airAcceleration), (.stepHeight, t.stepHeight),
   (.groundCheckEpsilon, t.groundCheckEpsilon),
   (.groundSeparationSpeed, t.groundSeparationSpeed), (.maxFrameTime, t.maxFrameTime)]

/-- The first fault of a tuning, if it has one.  A NaN is in no range. -/
def fault? (t : Tuning α) : Option (Fault α) :=
  if ¬ 0 < t.playerRadius then some (.radius t.playerRadius)
  else if ¬ 1 ≤ t.overclip then some (.overclip t.overclip)
  else if t.maxBumps = 0 then some .noBumps
  else if ¬ (0 < t.minGroundNormal ∧ t.minGroundNormal ≤ 1) then
    some (.groundNormal t.minGroundNormal)
  else (t.nonNegative.find? fun kv => decide ¬ 0 ≤ kv.2).map fun kv => .negative kv.1 kv.2

/-- A tuning is accepted iff every parameter is in its range. -/
theorem fault?_eq_none_iff {t : Tuning α} :
    t.fault? = none ↔
      0 < t.playerRadius ∧ 1 ≤ t.overclip ∧ t.maxBumps ≠ 0 ∧
        (0 < t.minGroundNormal ∧ t.minGroundNormal ≤ 1) ∧ ∀ kv ∈ t.nonNegative, 0 ≤ kv.2 := by
  unfold fault?
  by_cases hradius : 0 < t.playerRadius
  · by_cases hoverclip : 1 ≤ t.overclip
    · by_cases hbumps : t.maxBumps = 0
      · simp [hradius, hoverclip, hbumps]
      · by_cases hnormal : 0 < t.minGroundNormal ∧ t.minGroundNormal ≤ 1
        · simp [hradius, hoverclip, hbumps, hnormal]
        · simp [hradius, hoverclip, hbumps, hnormal]
    · simp [hradius, hoverclip]
  · simp [hradius]

end Tuning

end Stride
