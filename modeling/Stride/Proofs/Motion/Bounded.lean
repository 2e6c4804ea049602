import Mathlib
import Stride.Proofs.Motion.Bumps
import Stride.Proofs.Motion.Climb
import Stride.Proofs.Motion.Corners
import Stride.Proofs.Single.Vectors

namespace Stride

/-!
# Slides that cannot overflow

A clip makes no velocity more than sixteen times as large, and a slide makes fifteen of them at
most: a surface is clipped against once for each time that one is added to the list, and the list
has room for five.  All other bumps only nudge the velocity, by so little that it is lost next to
the bound.  In the same way a sweep moves the sphere by so little that it is lost next to a bound on
the position, so that no number of bumps takes the sphere beyond it.

* `Vec3.Within.clip`, `Vec3.Within.alongCrease` — one clip.
* `clipToPlanes?_within` — one clip for each surface of a list, at most.
* `Loaded.trace_within` — sweeps.
* `Slide.Bounded` — what every bump keeps; `Bounded.again`, `Bounded.stop` keep it.
* `Slide.bounded_slide`, `Stairs.bounded_stepSlide` — whole slides.
-/

open Single

/-! ### Parameters -/

/-- An overclip factor from one to two. -/
structure Tuning.ClipsMildly (overclip : Float32) : Prop where
  /-- It is at least one. -/
  one_le : 1 ≤ value overclip
  /-- It is at most two. -/
  le_two : Single.Within overclip 1 1

/-- Parameters with which nothing overflows. -/
structure Tuning.Tame (t : Tuning Float32) : Prop where
  /-- The overclip factor is mild. -/
  clipsMildly : ClipsMildly t.overclip
  /-- Gravity is bounded. -/
  gravity : Single.Within t.gravity 1 30
  /-- The speed on the ground is. -/
  maxSpeed : Single.Within t.maxSpeed 1 30
  /-- The size of the sphere is. -/
  playerRadius : Single.Within t.playerRadius 1 94
  /-- The height of a step is. -/
  stepHeight : Single.Within t.stepHeight 1 94
  /-- The reach of a look below the sphere is. -/
  groundCheckEpsilon : Single.Within t.groundCheckEpsilon 1 94

/-! ### Clipping -/

section

variable {v n m : Vec3 Float32} {overclip : Float32} {k : ℤ}

/-- **A clip** makes no velocity more than sixteen times as large. -/
theorem Vec3.Within.clip (hv : v.Within 1 k) (hn : n.Within 5 (-2))
    (hover : Tuning.ClipsMildly overclip) (hk : -100 ≤ k) (hk' : k ≤ 100) :
    (v.clip n overclip).Within 1 (k + 4) := by
  have hinto : Single.Within (v.dot n) 15 (k + -2) :=
    hv.dot hn (by norm_num) (by omega) (by omega)
  have htaken : Single.Within
      (if v.dot n < 0 then v.dot n * overclip else v.dot n / overclip) 15 (k - 1) := by
    split_ifs
    · have hmul := hinto.mul hover.le_two (by norm_num) (by omega) (by omega)
      exact hmul.coarser (i := 0) (by norm_num) (by omega)
    · have hdiv := hinto.div hover.le_two.isFinite hover.one_le (by norm_num) (by omega) (by omega)
      exact hdiv.coarser (i := 1) (by norm_num) (by omega)
  have hback := hn.scale htaken (by norm_num) (by omega) (by omega)
  have hv' : v.Within 8 (-2 + (k - 1)) := hv.finer (i := 3) (by norm_num) (by omega)
  exact (hv'.sub hback (by norm_num) (by omega) (by omega)).coarser (i := 7) (by norm_num)
    (by omega)

/-- **Along an edge** no velocity is more than sixteen times as large. -/
theorem Vec3.Within.alongCrease (hv : v.Within 1 k) (n m : Vec3 Float32) (hk : -100 ≤ k)
    (hk' : k ≤ 100) : (v.alongCrease n m).Within 1 (k + 4) := by
  have hcrease := (n.cross m).normalizeOrZero_within
  have hdot := hcrease.dot hv (by norm_num) (by omega) (by omega)
  exact (hcrease.scale hdot (by norm_num) (by omega) (by omega)).coarser (i := 8) (by norm_num)
    (by omega)

/-- Both velocities are bounded. -/
structure Velocities.Within (v : Velocities Float32) (k : ℤ) : Prop where
  /-- The velocity of the move is. -/
  move : v.move.Within 1 k
  /-- The velocity after the move is. -/
  final : v.final.Within 1 k

theorem Velocities.Within.exponent_le {v : Velocities Float32} {l : ℤ} (h : v.Within k)
    (hkl : k ≤ l) : v.Within l :=
  ⟨h.move.exponent_le hkl, h.final.exponent_le hkl⟩

/-- **A corner.** Against a list of surfaces a velocity is clipped at most once for each of them. -/
theorem clipToPlanes?_within {planes : List (Vec3 Float32)} {v v' : Velocities Float32}
    (hv : v.Within k) (hplanes : ∀ p ∈ planes, p.Within 5 (-2))
    (hover : Tuning.ClipsMildly overclip) (hk : 0 ≤ k) (hk' : k + 4 * planes.length ≤ 100)
    (h : clipToPlanes? planes v overclip = some v') : v'.Within (k + 4 * planes.length) := by
  rcases clipToPlanes?_cases h with ⟨rfl, -⟩ | ⟨i, plane, hplane, -, -, hturns⟩
  · exact hv.exponent_le (by omega)
  obtain ⟨hi, -⟩ := List.getElem?_eq_some_iff.1 hplane
  have hnormal := hplanes plane (List.mem_of_getElem? hplane)
  -- the first surface that is clipped against has no turn of its own
  have hcount := foldlM_zipIdx_induction
    (P := fun n c => c.Within (k + 4 * ((if i < n then n else n + 1 : ℕ) : ℤ))) ?_ ?_ hturns
  · rwa [if_pos hi] at hcount
  · rw [if_neg (Nat.not_lt_zero i)]
    exact ⟨hv.move.clip hnormal hover (by omega) (by omega),
      hv.final.clip hnormal hover (by omega) (by omega)⟩
  · intro n hn c c' hc hturn
    have hmem := hplanes _ (List.getElem_mem hn)
    rcases Velocities.turn?_cases hturn with ⟨rfl, -⟩ | ⟨rfl, hne, -⟩ | ⟨rfl, -⟩
    · refine hc.exponent_le ?_
      split_ifs <;> omega
    · have hclip : (c.clip planes[n] overclip).Within
          (k + 4 * ((if i < n then n else n + 1 : ℕ) : ℤ) + 4) := by
        refine ⟨hc.move.clip hmem hover ?_ ?_, hc.final.clip hmem hover ?_ ?_⟩ <;>
          split_ifs <;> omega
      refine hclip.exponent_le ?_
      split_ifs <;> omega
    · have halong : (v.alongCrease plane planes[n]).Within (k + 4) :=
        ⟨hv.move.alongCrease _ _ (by omega) (by omega),
          hv.final.alongCrease _ _ (by omega) (by omega)⟩
      refine halong.exponent_le ?_
      split_ifs <;> omega

end

/-! ### Sweeps -/

namespace World.Loaded

variable {w : World Float32} {start finish n : Vec3 Float32} {radius : Float32} {k : ℤ}

theorem plane_isSound (hw : w.Loaded) {id : PlaneId} {plane : Plane Float32}
    (h : w.plane? id = some plane) : plane.IsSound := by
  obtain ⟨b, root, hbuild⟩ := hw.exists_build
  obtain ⟨rfl, hsound, -⟩ := Builder.build_eq_ok_iff_wellFormed.1 hbuild
  exact hsound plane (Array.mem_of_getElem? h)

theorem trace_share (hw : w.Loaded) (start finish : Vec3 Float32) (radius : Float32) :
    IsShare (w.trace start finish radius).fraction := by
  obtain ⟨hzero, hone⟩ := (hw.wellFormed.coherent_trace start finish radius).fraction_mem
  exact isShare_of_mem hzero hone

/-- **A sweep** does not leave the bounds of its end points. -/
theorem trace_within (hw : w.Loaded) (hstart : start.Within 1 k) (hfinish : finish.Within 1 k)
    (radius : Float32) (hk : 0 ≤ k) (hk' : k ≤ 126) :
    (w.trace start finish radius).finish.Within 1 k := by
  have hshare := hw.trace_share start finish radius
  obtain ⟨c, -, htrace, -⟩ := hw.wellFormed.exists_hit ⟨start, finish, radius⟩
  rw [trace_eq_of_trace? htrace] at hshare ⊢
  simp only [report] at hshare ⊢
  split_ifs
  · exact hstart.lerp hfinish hshare hk hk'
  · exact hfinish

/-- The normal that a sweep reports is that of a sound plane. -/
theorem trace_normal_within (hw : w.Loaded) (h : (w.trace start finish radius).normal = some n) :
    n.Within 5 (-2) := by
  obtain ⟨id, plane, -, hplane, rfl⟩ :=
    (hw.wellFormed.coherent_trace start finish radius).exists_plane h
  exact (hw.plane_isSound hplane).normal_within

end World.Loaded

/-! ### Slides -/

namespace Slide

/-- The exponent of the bound on a velocity once so many surfaces were met. -/
def limit : ℕ → ℤ
  | 0 => 40
  | n + 1 => limit n + 4 * (n + 1 : ℕ)

theorem limit_mono : Monotone limit :=
  monotone_nat_of_le_succ fun n => by rw [limit]; omega

theorem le_limit (n : ℕ) : 40 ≤ limit n := limit_mono (Nat.zero_le n)

/-- What every bump keeps of a slide. -/
structure Bounded (s : State Float32) : Prop where
  /-- The position is bounded. -/
  position : s.position.Within 1 126
  /-- The directions not to run against are bounded. -/
  directions : ∀ p ∈ s.planes, p.Within 5 (-2)
  /-- There are not too many of them. -/
  few : s.planes.length ≤ maxClipPlanes
  /-- The bound on the velocities depends on how many there are. -/
  velocities : s.velocities.Within (limit s.planes.length)
  /-- No more than a second is left. -/
  timeLeft : IsShare s.timeLeft

/-- What holds of a slide after its last bump. -/
structure Halted (s : State Float32) : Prop where
  /-- The position is bounded. -/
  position : s.position.Within 1 126
  /-- The velocities are bounded. -/
  velocities : s.velocities.Within 100

/-- A request for no more than a second, on ground that has a direction. -/
structure Request.Tame (r : Request Float32) : Prop where
  /-- The time is a share of a second. -/
  deltaTime : IsShare r.deltaTime
  /-- The normal of the ground is bounded. -/
  ground : ∀ n ∈ r.ground, n.Within 5 (-2)

variable {w : World Float32} {t : Tuning Float32} {s s' : State Float32} {r : Request Float32}
  {position velocity : Vec3 Float32}

namespace Bounded

theorem limit_le (h : Bounded s) : limit s.planes.length ≤ 100 := limit_mono h.few

theorem halted (h : Bounded s) : Halted s :=
  ⟨h.position, h.velocities.exponent_le h.limit_le⟩

/-- The sweep of a bump goes on so little that the position stays bounded. -/
theorem swept_position (h : Bounded s) (hw : w.Loaded) :
    (s.swept (s.sweep w t)).position.Within 1 126 := by
  have hlimit := h.limit_le
  have hlow := le_limit s.planes.length
  have htarget : (s.position + s.velocities.move * s.timeLeft).Within 1 126 :=
    h.position.add_small (h.velocities.move.mul_share h.timeLeft (by omega) (by omega)) (by omega)
      (by norm_num) le_rfl
  rw [State.swept]
  split_ifs
  · exact hw.trace_within h.position htarget _ (by norm_num) le_rfl
  · exact h.position

/-- **A bump** that is not the last keeps the bounds. -/
theorem again (h : Bounded s) (hw : w.Loaded) (ht : t.Tame) (hbump : Bumped w t s (.again s')) :
    Bounded s' := by
  have hlow := le_limit s.planes.length
  have htime : IsShare (s.timeLeft - s.timeLeft * (s.sweep w t).fraction) :=
    h.timeLeft.sub_mul (hw.trace_share _ _ _)
  cases hbump with
  | nudged _ _ hnormal hroom _ =>
    -- a normal is too short to count against the bound of the velocity
    have hn := hw.trace_normal_within hnormal
    have hn' := hn.coarser (d := 1) (l := 1) (i := 3) (by norm_num) (by norm_num)
    exact ⟨h.swept_position hw, h.directions, h.few,
      ⟨h.velocities.move.add_small hn' (by omega) (by omega) (h.limit_le.trans (by norm_num)),
        h.velocities.final⟩, htime⟩
  | @clipped _ _ n hnormal hroom v hclip =>
    have hn := hw.trace_normal_within hnormal
    have hdirections : ∀ p ∈ s.planes ++ [n], p.Within 5 (-2) :=
      List.forall_mem_append.2 ⟨h.directions, List.forall_mem_singleton.2 hn⟩
    have hlength : (s.planes ++ [n]).length = s.planes.length + 1 := by simp
    have hlimit : limit (s.planes.length + 1) ≤ 100 := limit_mono (Nat.lt_of_not_le hroom)
    rw [limit] at hlimit
    have hv := clipToPlanes?_within h.velocities hdirections ht.clipsMildly (by omega)
      (by rwa [hlength]) hclip
    exact ⟨h.swept_position hw, hdirections, hlength ▸ Nat.lt_of_not_le hroom,
      by rwa [hlength] at hv ⊢, htime⟩

/-- **The last bump** keeps position and velocity bounded. -/
theorem stop (h : Bounded s) (hw : w.Loaded) {ending : Ending}
    (hbump : Bumped w t s (.stop ending s')) : Halted s' := by
  have hend := h.halted.velocities
  have hzero : (0 : Vec3 Float32).Within 1 100 := .zero 1 100
  cases hbump with
  | embedded => exact ⟨h.position, ⟨⟨hend.move.x, hend.move.y, .zero 1 100⟩, hend.final⟩⟩
  | finished => exact ⟨h.swept_position hw, hend⟩
  | unoriented | crowded | wedged => exact ⟨h.swept_position hw, hzero, hend.final⟩

end Bounded

/-- The velocities with which a slide starts. -/
theorem startVelocities_within (ht : t.Tame) (hr : r.Tame) (hvelocity : velocity.Within 1 35) :
    (startVelocities t r velocity).Within 40 := by
  rw [startVelocities]
  split_ifs
  · have hpull := (ht.gravity.mul_share hr.deltaTime (by norm_num) (by norm_num)).exponent_le
      (show (30 : ℤ) ≤ 35 by norm_num)
    have hfinal := (hvelocity.z.sub hpull (by norm_num) (by norm_num) (by norm_num)).coarser
      (d := 1) (l := 36) (i := 1) (by norm_num) (by norm_num)
    have hhalf : Single.Within 0.5 1 (-1) :=
      within_of_le (e := 0.5) (by decide +kernel) (by decide +kernel) (by decide +kernel)
        (by norm_num) (by norm_num)
    have hup := hvelocity.z.exponent_le (show (35 : ℤ) ≤ 36 by norm_num)
    -- the move starts with the mean of the velocities before and after the pull
    have hmean := ((hup.add hfinal (by norm_num) (by norm_num) (by norm_num)).mul hhalf
      (by norm_num) (by norm_num) (by norm_num)).coarser (d := 1) (l := 36) (i := 1) (by norm_num)
      (by norm_num)
    have hflat := hvelocity.exponent_le (show (35 : ℤ) ≤ 36 by norm_num)
    refine ⟨?_, ⟨(hflat.exponent_le (by norm_num)).x, (hflat.exponent_le (by norm_num)).y,
      hfinal.exponent_le (by norm_num)⟩⟩
    have hstart : ({ velocity with
        z := (velocity.z + (velocity.z - t.gravity * r.deltaTime)) * 0.5 } : Vec3 Float32).Within
          1 36 := ⟨hflat.x, hflat.y, hmean⟩
    cases hn : r.ground with
    | none => exact hstart.exponent_le (by norm_num)
    | some n => exact hstart.clip (hr.ground n hn) ht.clipsMildly (by norm_num) (by norm_num)
  · exact ⟨hvelocity.exponent_le (by norm_num), hvelocity.exponent_le (by norm_num)⟩

theorem start_bounded (ht : t.Tame) (hr : r.Tame) (hposition : position.Within 1 126)
    (hvelocity : velocity.Within 1 35) : Bounded (start t r position velocity) where
  position := hposition
  directions := forall_mem_planes_start hr.ground fun _ => Vec3.normalizeOrZero_within _
  few := length_planes_start_le t r position velocity
  velocities :=
    (startVelocities_within ht hr hvelocity).exponent_le (le_limit _)
  timeLeft := hr.deltaTime

end Slide

/-- A move that ends in bounds. -/
structure Moved.Bounded (m : Moved Float32) (k : ℤ) : Prop where
  /-- The position is bounded. -/
  position : m.position.Within 1 126
  /-- The velocity is bounded. -/
  velocity : m.velocity.Within 1 k

section

variable {w : World Float32} {t : Tuning Float32} {r : Slide.Request Float32}
  {position velocity : Vec3 Float32}

/-- **A slide** ends in bounds, whatever the number of its bumps. -/
theorem Slide.bounded_slide (hw : w.Loaded) (ht : t.Tame) (hr : r.Tame)
    (hposition : position.Within 1 126) (hvelocity : velocity.Within 1 35) :
    (slide w t r position velocity).Bounded 100 := by
  have hhalted : Halted (run w t r position velocity).2 :=
    bumps_induction (P := fun _ => Bounded) (Q := fun _ => Halted) (fun _ => Bounded.halted)
      (fun _ _ _ hs => hs.again hw ht) (fun _ _ _ _ hs => hs.stop hw) _ _
      (start_bounded ht hr hposition hvelocity)
  rw [slide]
  generalize run w t r position velocity = outcome at hhalted ⊢
  obtain ⟨ending, s⟩ := outcome
  cases ending with
  | finished =>
    refine ⟨hhalted.position, ?_⟩
    simp only [moved]
    split_ifs
    · exact hhalted.velocities.final
    · exact hhalted.velocities.move
  | embedded | unoriented | crowded | wedged => exact ⟨hhalted.position, hhalted.velocities.move⟩

/-! ### Steps -/

namespace Stairs

/-- The sweep up ends at most one step higher. -/
theorem rise_within (hw : w.Loaded) (ht : t.Tame) (hposition : position.Within 1 96) :
    (rise w t position).finish.Within 1 97 := by
  have htarget : (position + Vec3.up t.stepHeight).Within 2 96 :=
    hposition.add (Vec3.within_up (ht.stepHeight.exponent_le (by norm_num))) (by norm_num)
      (by norm_num) (by norm_num)
  exact hw.trace_within (hposition.exponent_le (by norm_num))
    (htarget.coarser (i := 1) (by norm_num) (by norm_num)) _ (by norm_num) (by norm_num)

/-- **An attempt** to step ends in bounds. -/
theorem landing_within (hw : w.Loaded) (ht : t.Tame) (hr : r.Tame)
    (hposition : position.Within 1 96) (hvelocity : velocity.Within 1 35) :
    (landing w t r position velocity).1.Within 1 126 ∧
    (landing w t r position velocity).2.Within 1 104 := by
  have hrise := rise_within hw ht hposition
  have hraised : (raised w t r position velocity).Bounded 100 :=
    Slide.bounded_slide hw ht hr (hrise.exponent_le (by norm_num)) hvelocity
  -- the height that was gained is lost next to the bound of a slide
  have hgained := (hrise.z.sub (hposition.z.exponent_le (by norm_num)) (by norm_num)
    (by norm_num) (by norm_num)).coarser (d := 1) (l := 98) (i := 1) (by norm_num) (by norm_num)
  have htarget := hraised.position.sub_small (Vec3.within_up hgained) (by norm_num)
    (by norm_num) le_rfl
  have hdescent : (descent w t r position velocity).finish.Within 1 126 :=
    hw.trace_within hraised.position htarget _ (by norm_num) le_rfl
  have hkept := hraised.velocity.exponent_le (show (100 : ℤ) ≤ 104 by norm_num)
  constructor
  · simp only [landing]
    split_ifs
    · exact hraised.position
    · exact hdescent
  · simp only [landing]
    cases hn : (descent w t r position velocity).normal with
    | none => exact hkept
    | some n =>
      dsimp only
      split_ifs
      · exact hraised.velocity.clip (hw.trace_normal_within hn) ht.clipsMildly (by norm_num)
          (by norm_num)
      · exact hkept

/-- **A slide over steps** ends in bounds. -/
theorem bounded_stepSlide (hw : w.Loaded) (ht : t.Tame) (hr : r.Tame)
    (hposition : position.Within 1 96) (hvelocity : velocity.Within 1 35) :
    (stepSlide w t r position velocity).Bounded 104 := by
  rcases stepSlide_cases hw.wellFormed t r position velocity with hplain | hstepped
  · have hslide :=
      Slide.bounded_slide hw ht hr (hposition.exponent_le (by norm_num)) hvelocity
    rw [hplain]
    exact ⟨hslide.position, hslide.velocity.exponent_le (by norm_num)⟩
  · obtain ⟨hlanded, hkept⟩ := landing_within hw ht hr hposition hvelocity
    rw [hstepped.eq_landing hw.wellFormed]
    exact ⟨hlanded, hkept⟩

end Stairs

end

end Stride
