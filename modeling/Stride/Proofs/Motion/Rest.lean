import Stride.Proofs.Sweep.Clearance
import Stride.Proofs.Sweep.Descent
import Stride.Proofs.Motion.Memory

namespace Stride

/-!
# Rest

In exact arithmetic an actor that was set down at rest, on a level whose only solid has no face that
looks down, stays where it is.  Another look at the ground finds the same face at no distance, and
friction, acceleration and clipping leave a velocity of zero alone.

* `walkVelocity_zero` — the velocity of an actor at rest that is told nothing.
* `Rests` — another look sets the actor down where it is.
* `Rests.idle` — so any number of ticks does.
* `rests_of_settle` — the first look makes the second one so.
* `Accepted.rest_of_settle` — both together.
-/

/-! ### A velocity of zero

None of this depends on what the square root of zero is. -/

section Velocity

variable {K : Type} [Field K] [LinearOrder K] [HasSqrt K]

namespace Vec3

@[simp] theorem zero_dot (v : Vec3 K) : (0 : Vec3 K).dot v = 0 := by
  show 0 * v.x + 0 * v.y + 0 * v.z = 0
  ring

@[simp] theorem zero_scale (c : K) : (0 : Vec3 K) * c = 0 := by
  show (⟨0 * c, 0 * c, 0 * c⟩ : Vec3 K) = ⟨0, 0, 0⟩
  simp only [zero_mul]

theorem zero_clip (normal : Vec3 K) (overclip : K) : (0 : Vec3 K).clip normal overclip = 0 := by
  have hnothing : (0 : Vec3 K) - normal * (0 : K) = 0 := by
    show (⟨0 - normal.x * 0, 0 - normal.y * 0, 0 - normal.z * 0⟩ : Vec3 K) = ⟨0, 0, 0⟩
    simp only [mul_zero, sub_zero]
  simp only [clip, zero_dot, lt_irrefl, if_false, zero_div, hnothing]

theorem zero_normalizeOrZero : (0 : Vec3 K).normalizeOrZero = 0 := by
  simp only [normalizeOrZero, zero_scale, ite_self]

end Vec3

namespace Tuning

/-- No input asks for no direction. -/
theorem wish_zero_direction (t : Tuning K) (ground : Option (Vec3 K)) :
    (t.wish 0 ground).direction = 0 := by
  have hflat : (0 : Vec3 K).flat = 0 := rfl
  simp only [wish, hflat]
  split_ifs
  · cases ground with
    | none => exact Vec3.zero_normalizeOrZero
    | some normal =>
      show ((0 : Vec3 K).clip normal t.overclip).normalizeOrZero = 0
      rw [Vec3.zero_clip, Vec3.zero_normalizeOrZero]
  · rfl

/-- A wish without a direction changes no velocity. -/
theorem accelerate_eq_self {wish : Wish K} (hwish : wish.direction = 0) (acceleration deltaTime : K)
    (v : Vec3 K) : accelerate wish acceleration deltaTime v = v := by
  have hadd : v + 0 = v := by
    show (⟨v.x + 0, v.y + 0, v.z + 0⟩ : Vec3 K) = v
    simp only [add_zero]
  simp only [accelerate, hwish, Vec3.zero_scale, hadd, ite_self]

/-- Friction has nothing to take. -/
theorem rub_zero (t : Tuning K) (deltaTime : K) : t.rub deltaTime 0 = 0 := by
  have hscaled (factor : K) : (⟨0 * factor, 0 * factor, 0⟩ : Vec3 K) = 0 := by
    simp only [zero_mul]
    rfl
  simp only [rub]
  split_ifs
  · rfl
  · exact hscaled _

end Tuning

variable {a : Actor K}

/-- **At rest.** An actor at rest that is told nothing starts no motion on any ground. -/
theorem walkVelocity_zero (hstill : a.velocity = 0) (t : Tuning K) (normal : Vec3 K)
    (deltaTime : K) : a.walkVelocity t 0 normal deltaTime = 0 := by
  have hwish := t.wish_zero_direction (some normal)
  simp only [Actor.walkVelocity, hstill, Tuning.rub_zero,
    Tuning.accelerate_eq_self hwish, Vec3.zero_clip]

/-- Such an actor does not move. -/
theorem move_eq_self (hstill : a.velocity = 0) {s : Support K} (hfooting : a.footing = .grounded s)
    (w : World K) (t : Tuning K) (deltaTime : K) : a.move w t 0 deltaTime = a := by
  have hsame : (Scalar.same (0 : Vec3 K).x 0 && Scalar.same (0 : Vec3 K).y 0) = true := by
    have hzero : Scalar.same (0 : K) 0 = true := by simp [Scalar.same]
    exact Bool.and_eq_true_iff.2 ⟨hzero, hzero⟩
  unfold Actor.move
  rw [hfooting]
  show a.walk w t 0 s.normal deltaTime = a
  unfold Actor.walk
  rw [walkVelocity_zero hstill, if_pos hsame, ← hstill]

end Velocity

/-! ### Looking again -/

section

variable {α : Type} [Scalar α] {w : World α} {t : Tuning α} {a b : Actor α} {s : Support α}

/-- The actor after ticks without input that take the given times. -/
def Actor.idle (a : Actor α) (w : World α) (t : Tuning α) (times : List α) : Actor α :=
  a.run w t (times.map fun time => .move ⟨0, time⟩)

/-- An actor without velocity for which a look finds the given ground right where it is. -/
structure Rests (w : World α) (t : Tuning α) (a : Actor α) (s : Support α) : Prop where
  /-- It does not move. -/
  still : a.velocity = 0
  /-- A look finds the ground. -/
  looks : a.look w t = .walkable (a.probe w t) s
  /-- The sweep of the look ends where it starts. -/
  keeps : (a.probe w t).finish = a.position

namespace Rests

/-- An actor that rests goes on to rest in the same place, whatever its footing. -/
theorem of_together (h : Rests w t a s) (hab : a.Together b) : Rests w t b s where
  still := hab.velocity ▸ h.still
  looks := by rw [← hab.look_eq, ← hab.probe_eq, h.looks]
  keeps := by rw [← hab.probe_eq, ← hab.position, h.keeps]

/-- A look sets an actor that rests down where it is. -/
theorem settle_eq (h : Rests w t a s) :
    a.settle w t = (.grounded s, { a with groundTrace := some (a.probe w t) }) := by
  have hkeeps := h.keeps
  unfold Actor.settle
  rw [h.looks]
  simp only [hkeeps]

theorem refoot_eq (h : Rests w t a s) :
    a.refoot w t =
      { a with footing := .grounded s, groundTrace := some (a.probe w t) } := by
  unfold Actor.refoot
  rw [h.settle_eq]

end Rests

end

namespace Rests

variable {K : Type} [Field K] [LinearOrder K] [HasSqrt K] {w : World K} {t : Tuning K}
  {a : Actor K} {s : Support K}

/-- **A tick** leaves an actor that rests where it is. -/
theorem tick (h : Rests w t a s) (frameTime : K) :
    a.Together (a.tick w t 0 frameTime) ∧
      (a.footing = .grounded s → (a.tick w t 0 frameTime).footing = .grounded s) := by
  by_cases htime : 0 < frameTime
  · have hfirst : a.Together (a.refoot w t) := by
      rw [h.refoot_eq]
      exact ⟨rfl, rfl⟩
    have hrests : Rests w t (a.refoot w t) s := h.of_together hfirst
    -- it is set down on the ground before it moves, and the move leaves it alone
    have hmove : (a.refoot w t).move w t 0 (t.tickTime frameTime) = a.refoot w t := by
      apply move_eq_self hrests.still
      rw [h.refoot_eq]
    rw [Actor.tick, if_pos htime, hmove, hrests.refoot_eq]
    exact ⟨⟨hfirst.position, hfirst.velocity⟩, fun _ => rfl⟩
  · rw [Actor.tick, if_neg htime]
    exact ⟨⟨rfl, rfl⟩, id⟩

/-- **Any number of ticks** leaves an actor that stands and rests where it is. -/
theorem idle (h : Rests w t a s) (hfooting : a.footing = .grounded s) (times : List K) :
    a.Together (a.idle w t times) ∧ (a.idle w t times).footing = .grounded s := by
  refine Actor.run_induction (P := fun b => a.Together b ∧ b.footing = .grounded s)
    ⟨⟨rfl, rfl⟩, hfooting⟩ ?_
  rintro c hc b ⟨hab, hb⟩
  obtain ⟨time, -, rfl⟩ := List.mem_map.1 hc
  obtain ⟨hkept, hstands⟩ := (h.of_together hab).tick time
  exact ⟨⟨hab.position.trans hkept.position, hab.velocity.trans hkept.velocity⟩, hstands hb⟩

end Rests

/-! ### The first look -/

/-- One brush is collidable and has faces, these are `faces`, and a leaf lists no other such
    brush. -/
structure World.SoleSolid {α : Type} (w : World α) (ids : List BrushId) (faces : List (Face α)) :
    Prop where
  /-- It has faces. -/
  ne_nil : faces ≠ []
  /-- Some brush is one, and no other that is listed. -/
  sole : ∃ id, w.HasSolid id faces ∧
    ∀ other ∈ ids, ∀ faces', w.HasSolid other faces' → faces' ≠ [] → other = id

/-- Whatever else the leaf lists has no faces. -/
theorem World.SoleSolid.eq_nil_or_eq {α : Type} {w : World α} {ids : List BrushId}
    {faces faces' : List (Face α)} (h : w.SoleSolid ids faces) {other : BrushId}
    (hother : other ∈ ids) (hfaces : w.HasSolid other faces') : faces' = [] ∨ faces' = faces := by
  obtain ⟨id, hsolid, honly⟩ := h.sole
  by_cases hnil : faces' = []
  · exact .inl hnil
  · obtain rfl := honly other hother faces' hfaces hnil
    exact .inr (hfaces.unique hsolid)

variable {K : Type} [Field K] [LinearOrder K] [HasSqrt K] [IsStrictOrderedRing K] {w : World K}
  {ids : List BrushId} {bounds : Bounds} {faces : List (Face K)}

/-- How far down a look goes. -/
def Tuning.reach (t : Tuning K) : K := t.playerRadius + t.groundCheckEpsilon

theorem Tuning.reach_nonneg {t : Tuning K} (ht : t.fault? = none) : 0 ≤ t.reach := by
  obtain ⟨hradius, -, -, -, hothers⟩ := Tuning.fault?_eq_none_iff.1 ht
  have hepsilon : 0 ≤ t.groundCheckEpsilon :=
    hothers (.groundCheckEpsilon, t.groundCheckEpsilon) (by simp [Tuning.nonNegative])
  exact add_nonneg hradius.le hepsilon

namespace World

/-- Where a look finds a face, the leaf lists the solid. -/
theorem WellFormed.mem_solids_of_probe (hw : w.WellFormed)
    (hroot : w.node? w.root = some (.leaf ids bounds)) (hsole : w.SoleSolid ids faces)
    {a : Actor K} {t : Tuning K} {id : PlaneId} (hplane : (a.probe w t).plane = some id) :
    faces ∈ w.solids ids := by
  obtain ⟨hids, htrace⟩ := hw.trace?_of_leaf hroot (.drop a.position t.reach t.playerRadius)
  by_contra hmem
  have hempty : ∀ faces' ∈ w.solids ids, faces' = [] := by
    intro faces' hfaces'
    obtain ⟨other, hother, hsolid⟩ := (hw.mem_solids_iff hids faces').1 hfaces'
    refine (hsole.eq_nil_or_eq hother hsolid).resolve_right ?_
    rintro rfl
    exact hmem hfaces'
  rw [Contact.foldl_meet_eq_clear hempty] at htrace
  have hnothing : (a.probe w t).plane = none := congrArg Trace.plane (trace_eq_of_trace? htrace)
  rw [hnothing] at hplane
  cases hplane

/-- In a level of one leaf that lists one solid, a look is a report of the drop onto the solid. -/
theorem WellFormed.probe_eq (hw : w.WellFormed) (hroot : w.node? w.root = some (.leaf ids bounds))
    (hsole : w.SoleSolid ids faces) (hmem : faces ∈ w.solids ids) (a : Actor K) (t : Tuning K) :
    a.probe w t = w.report (.drop a.position t.reach t.playerRadius)
      (Contact.alone (.drop a.position t.reach t.playerRadius) faces) := by
  obtain ⟨hids, htrace⟩ := hw.trace?_of_leaf hroot (.drop a.position t.reach t.playerRadius)
  have honly : ∀ faces' ∈ w.solids ids, faces' = [] ∨ faces' = faces := by
    intro faces' hfaces'
    obtain ⟨other, hother, hsolid⟩ := (hw.mem_solids_iff hids faces').1 hfaces'
    exact hsole.eq_nil_or_eq hother hsolid
  rw [Contact.foldl_meet_eq_alone hmem honly] at htrace
  exact trace_eq_of_trace? htrace

/-- **The second look.** An actor at rest that a look has set down on the only solid, which has no
    face that looks down, finds the same ground again, at the start of the sweep. -/
theorem WellFormed.findsGround_again (hw : w.WellFormed)
    (hroot : w.node? w.root = some (.leaf ids bounds)) (hsole : w.SoleSolid ids faces)
    (hup : LooksUp faces) {t : Tuning K} (ht : t.fault? = none) {a b : Actor K} {s : Support K}
    (hfound : a.FindsGround w t s) (hset : b.position = (a.probe w t).finish)
    (hstill : b.velocity = 0) :
    b.FindsGround w t s ∧ (b.probe w t).finish = b.position := by
  set first : Sweep K := .drop a.position t.reach t.playerRadius
  set again : Sweep K :=
    .dropAgain a.position t.reach t.playerRadius (Contact.alone first faces).fraction
  have hmem := hw.mem_solids_of_probe hroot hsole hfound.plane
  have hprobe : a.probe w t = w.report first (Contact.alone first faces) :=
    hw.probe_eq hroot hsole hmem a t
  have hnormal := hfound.normal
  have hnamed := hfound.plane
  rw [hprobe] at hnormal hnamed
  replace hnamed : (Contact.alone first faces).plane = some s.plane := hnamed
  have hposition : b.position = first.at (Contact.alone first faces).fraction := by
    rw [hset, hprobe]
    exact (w.report_eq first (Contact.alone_proper first faces)).2
  -- the sweep is stopped at its start by the same face
  have hprobe' : b.probe w t = w.report again ⟨0, some s.plane, false, false⟩ := by
    rw [hw.probe_eq hroot hsole hmem b t, hposition]
    exact congrArg (w.report again)
      (Contact.alone_drop_again hup (Tuning.reach_nonneg ht) hnamed)
  have hproper : (⟨0, some s.plane, false, false⟩ : Contact K).Proper := ⟨.inl rfl, zero_le_one⟩
  obtain ⟨hfraction, hfinish⟩ := w.report_eq again hproper
  have hagain : b.FindsGround w t s :=
    { free := by
        rw [hprobe']
        rfl
      hit := by
        rw [hprobe']
        show _ < (1 : K)
        rw [hfraction]
        exact zero_lt_one
      plane := by
        rw [hprobe']
        rfl
      normal := by
        rw [hprobe', ← hnormal]
        show _ = (Contact.alone first faces).plane.bind _
        rw [hnamed]
        rfl
      stays := by
        intro hseparates
        have hrises : 0 < b.velocity.z := hseparates.1
        rw [hstill] at hrises
        exact lt_irrefl _ hrises
      walkable := hfound.walkable }
  refine ⟨hagain, ?_⟩
  rw [hprobe', hfinish, Sweep.at_zero]
  exact hposition.symm

/-- An actor at rest that a look sets down on such a solid rests there. -/
theorem WellFormed.rests_of_settle (hw : w.WellFormed)
    (hroot : w.node? w.root = some (.leaf ids bounds)) (hsole : w.SoleSolid ids faces)
    (hup : LooksUp faces) {t : Tuning K} (ht : t.fault? = none) {a : Actor K} {s : Support K}
    (hstill : a.velocity = 0) (hground : (a.settle w t).1 = .grounded s) :
    Rests w t (a.settle w t).2 s := by
  rcases a.look_cases w t with hlook | ⟨n, hlook, -, -⟩ | ⟨s', hfound⟩
  · simp [Actor.settle, hlook] at hground
  · simp [Actor.settle, hlook] at hground
  · rw [hfound.settle_eq] at hground ⊢
    obtain rfl : s' = s := Footing.grounded.inj hground
    obtain ⟨hagain, hkeeps⟩ := hw.findsGround_again hroot hsole hup ht hfound
      (b := { a with groundTrace := some (a.probe w t), position := (a.probe w t).finish }) rfl
      hstill
    exact ⟨hstill, hagain.look_eq, hkeeps⟩

/-- **Rest.** In an accepted level of one leaf and one solid, none of whose faces looks down, and
    under an accepted tuning, an actor without velocity that a look at the ground sets down stays
    there: another look finds the same ground and leaves the position, and any number of ticks
    without input, for any times, leaves position, velocity and footing. -/
theorem Accepted.rest_of_settle (hw : w.Accepted)
    (hroot : w.node? w.root = some (.leaf ids bounds)) (hsole : w.SoleSolid ids faces)
    (hup : ∀ face ∈ faces, 0 ≤ face.plane.normal.z) {t : Tuning K} (ht : t.fault? = none)
    {a : Actor K} {s : Support K} (hstill : a.velocity = 0)
    (hground : (a.settle w t).1 = .grounded s) :
    ((a.settle w t).2.settle w t).1 = .grounded s ∧
      ((a.settle w t).2.settle w t).2.position = (a.settle w t).2.position ∧
      ∀ times : List K,
        ((a.refoot w t).idle w t times).position = (a.settle w t).2.position ∧
          ((a.refoot w t).idle w t times).velocity = 0 ∧
          ((a.refoot w t).idle w t times).footing = .grounded s := by
  have hrests := hw.wellFormed.rests_of_settle hroot hsole hup ht hstill hground
  refine ⟨by rw [hrests.settle_eq], by rw [hrests.settle_eq], fun times => ?_⟩
  have hstands : Rests w t (a.refoot w t) s := hrests.of_together ⟨rfl, rfl⟩
  obtain ⟨hkept, hfooting⟩ := hstands.idle hground times
  exact ⟨hkept.position.symm, hkept.velocity.symm.trans hstands.still, hfooting⟩

end World

/-- A ridge of two slopes over the origin, a trigger that looks down, and a brush without faces. -/
def ridge : Builder ℚ where
  planes := #[⟨⟨3 / 5, 0, 4 / 5⟩, 0⟩, ⟨⟨-3 / 5, 0, 4 / 5⟩, 0⟩, ⟨⟨0, 0, -1⟩, 0⟩]
  brushes := #[⟨[.ofIndex 2], false⟩, ⟨[.ofIndex 0, .ofIndex 1], true⟩, ⟨[], true⟩]
  nodes := #[.leaf [.ofIndex 0, .ofIndex 1, .ofIndex 2] .everything]

/-- The faces of the ridge. -/
def slopes : List (Face ℚ) :=
  [⟨.ofIndex 0, ⟨3 / 5, 0, 4 / 5⟩, 0⟩, ⟨.ofIndex 1, ⟨-3 / 5, 0, 4 / 5⟩, 0⟩]

theorem ridge_accepted : (ridge.toWorld (.ofIndex 0)).Accepted :=
  World.accepted_of_defect?_eq_none (by decide +kernel)

theorem ridge_soleSolid :
    (ridge.toWorld (.ofIndex 0)).SoleSolid [.ofIndex 0, .ofIndex 1, .ofIndex 2] slopes where
  ne_nil := by simp [slopes]
  sole := by
    refine ⟨.ofIndex 1, ⟨_, rfl, rfl, rfl⟩, ?_⟩
    rintro other hother faces ⟨brush, hbrush, hcollidable, hfaces⟩ hne
    simp only [List.mem_cons, List.not_mem_nil, or_false] at hother
    rcases hother with rfl | rfl | rfl
    · obtain rfl := Option.some.inj hbrush
      cases hcollidable
    · rfl
    · obtain rfl := Option.some.inj hbrush
      exact absurd (Option.some.inj hfaces).symm hne

/-- An actor just above the ridge. -/
def climber : Actor ℚ := .ofPosition ⟨0, 0, 63 / 5⟩

/-- It is set down between the two slopes, on the first of them, and stays there. -/
theorem ridge_rest_of_settle :
    ∃ s, (climber.settle (ridge.toWorld (.ofIndex 0)) .classic).1 = .grounded s ∧
      s.plane = .ofIndex 0 ∧
      (climber.settle (ridge.toWorld (.ofIndex 0)) .classic).2.position ≠ climber.position ∧
      ∀ times : List ℚ,
        ((climber.refoot (ridge.toWorld (.ofIndex 0)) .classic).idle
          (ridge.toWorld (.ofIndex 0)) .classic times).position =
            (climber.settle (ridge.toWorld (.ofIndex 0)) .classic).2.position := by
  have hground : (climber.settle (ridge.toWorld (.ofIndex 0)) .classic).1 =
      .grounded ⟨.ofIndex 0, ⟨3 / 5, 0, 4 / 5⟩⟩ := by
    decide +kernel
  have hup : ∀ face ∈ slopes, 0 ≤ face.plane.normal.z := by decide +kernel
  have hrest := ridge_accepted.rest_of_settle rfl ridge_soleSolid hup (t := .classic)
    (by decide +kernel) rfl hground
  refine ⟨_, hground, rfl, by decide +kernel, fun times => (hrest.2.2 times).1⟩

end Stride
