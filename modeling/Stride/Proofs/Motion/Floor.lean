import Mathlib
import Stride.Proofs.Motion.Glide
import Stride.Proofs.Motion.Rest
import Stride.Proofs.Scalar.Reals
import Stride.Proofs.Scalar.Vectors
import Stride.Proofs.Sweep.Standoff

namespace Stride

/-!
# A flat floor

In exact arithmetic an actor that is spawned over a flat floor comes down on it, and however it is
told to move it goes along the floor: it is never let down further, never lifted, and every look at
the ground finds the floor.  A sphere that is at most `traceOffset` above the floor is stopped at
once by a sweep that goes down far enough, and not at all by one that goes sideways.

* `World.FlatFloor` — half of space is solid, up to a height, and nothing else is.
* `FlatFloor.trace_of_misses`, `FlatFloor.trace_of_enters` — sweeps that stay above the floor, and
  sweeps that go down to it.
* `Hovers` — an actor just above the floor that moves sideways if it moves at all.
* `Hovers.refoot_eq`, `Hovers.tick` — what a look at the ground and a tick make of it.
* `FlatFloor.spawn_eq` — where an actor comes down.
* `Accepted.stands_after_spawn` — a spawn and any ticks after it.
-/

variable {K : Type} [Field K] [LinearOrder K] [HasSqrt K] {w : World K} {t : Tuning K} {a : Actor K}
  {id : PlaneId} {height : K}

/-! ### The level -/

/-- A level of one leaf in which half of space is solid, up to a height, and nothing else is: of the
    brushes that are listed one is collidable, with the one face `id`, and so is any other. -/
structure World.FlatFloor {α : Type} [Scalar α] (w : World α) (id : PlaneId) (height : α) :
    Prop where
  /-- The face looks up. -/
  plane : w.plane? id = some ⟨Vec3.up 1, height⟩
  /-- The root is a leaf, and that is what it lists. -/
  leaf : ∃ ids bounds, w.node? w.root = some (.leaf ids bounds) ∧
    (∃ b ∈ ids, ∃ brush, w.brush? b = some brush ∧ brush.collidable = true ∧ brush.planes = [id]) ∧
    ∀ b ∈ ids, ∀ brush, w.brush? b = some brush → brush.collidable = true → brush.planes = [id]

/-- The face of the floor. -/
def floorFace {α : Type} [Scalar α] (id : PlaneId) (height : α) : Face α :=
  ⟨id, ⟨Vec3.up 1, height⟩⟩

/-- The solid of a collidable brush whose one face is the floor. -/
theorem World.FlatFloor.faces_eq {α : Type} [Scalar α] {w : World α} {height : α}
    (h : w.FlatFloor id height) {brush : Brush} (hplanes : brush.planes = [id]) :
    w.faces? brush = some [floorFace id height] := by
  simp [faces?, hplanes, h.plane, floorFace]

theorem distanceTo_floorFace (id : PlaneId) (height : K) (p : Vec3 K) :
    (floorFace id height).plane.distanceTo p = p.z - height := by
  simp [floorFace, Plane.distanceTo, Vec3.dot]

/-! ### Sweeps against one face -/

section

variable {s : Sweep K} {face : Face K}

/-- A face that the whole sweep is in front of is not hit. -/
theorem Contact.alone_of_misses (h : s.Misses face.plane) : alone s [face] = clear := by
  have hnone : s.span? [face] = none :=
    Sweep.span?_eq_none_iff.2 ⟨face, List.mem_singleton_self face, h⟩
  simp [alone, meet, hnone]

variable [IsStrictOrderedRing K]

/-- A face that the sweep enters by stops it at the entry, or at once. -/
theorem Contact.alone_of_enters (h : s.Enters face.plane) (hneg : -1 < s.enterAt face.plane) :
    alone s [face] = ⟨max (s.enterAt face.plane) 0, some face.id, false, false⟩ := by
  have hspan : s.span? [face] = some ⟨s.enterAt face.plane, 1, true, false, some face.id⟩ := by
    have hcross : Span.all.cross s face =
        some ⟨s.enterAt face.plane, 1, true, false, some face.id⟩ := by
      rw [Span.cross_of_enters h, Option.some.injEq, Span.mk.injEq]
      exact ⟨max_eq_right hneg.le, rfl, rfl, rfl, if_pos hneg⟩
    rw [Sweep.span?, List.foldlM_cons, hcross]
    rfl
  exact alone_eq_of_enters hspan rfl h.enterAt_lt_one hneg

/-- The report of a proper hit, part by part. -/
theorem World.report_of_proper (w : World K) (s : Sweep K) {c : Contact K} (hc : c.Proper) :
    w.report s c = ⟨c.fraction, s.at c.fraction, c.startSolid, c.allSolid, c.plane,
      c.plane.bind fun id => (w.plane? id).map (·.normal)⟩ := by
  obtain ⟨hfraction, hfinish⟩ := w.report_eq s hc
  have hparts : w.report s c = ⟨(w.report s c).fraction, (w.report s c).finish, c.startSolid,
      c.allSolid, c.plane, c.plane.bind fun id => (w.plane? id).map (·.normal)⟩ := rfl
  rw [hparts, hfraction, hfinish]

end

variable [IsStrictOrderedRing K]

namespace World

/-- On a flat floor a sweep meets the one face and nothing else. -/
theorem FlatFloor.trace_eq (h : w.FlatFloor id height) (hw : w.WellFormed) (start finish : Vec3 K)
    (radius : K) :
    w.trace start finish radius = w.report ⟨start, finish, radius⟩
      (Contact.alone ⟨start, finish, radius⟩ [floorFace id height]) := by
  obtain ⟨ids, bounds, hroot, ⟨b, hb, brush, hbrush, hcollidable, hplanes⟩, hsole⟩ := h.leaf
  obtain ⟨hids, htrace⟩ := hw.trace?_of_leaf hroot ⟨start, finish, radius⟩
  have hmem : [floorFace id height] ∈ w.solids ids :=
    (hw.mem_solids_iff hids _).2 ⟨b, hb, brush, hbrush, hcollidable, h.faces_eq hplanes⟩
  have honly (faces : List (Face K)) (hfaces : faces ∈ w.solids ids) :
      faces = [] ∨ faces = [floorFace id height] := by
    obtain ⟨b, hb, brush, hbrush, hcollidable, hlooked⟩ := (hw.mem_solids_iff hids faces).1 hfaces
    rw [h.faces_eq (hsole b hb brush hbrush hcollidable)] at hlooked
    exact .inr (Option.some.inj hlooked).symm
  rw [Contact.foldl_meet_eq_alone hmem honly] at htrace
  exact trace_eq_of_trace? htrace

/-- A sweep that stays above the floor is free. -/
theorem FlatFloor.trace_of_misses (h : w.FlatFloor id height) (hw : w.WellFormed)
    {start finish : Vec3 K} {radius : K} (hstart : 0 < start.z - height - radius)
    (hend : 0 < finish.z - height - radius) :
    w.trace start finish radius = Trace.noHit finish := by
  have hmiss : Sweep.Misses ⟨start, finish, radius⟩ (floorFace id height).plane := by
    simp only [Sweep.Misses, Sweep.startGap, Sweep.endGap, distanceTo_floorFace]
    exact ⟨hstart, hend⟩
  rw [h.trace_eq hw, Contact.alone_of_misses hmiss, report_clear]

/-- A sweep that goes down to the floor is stopped `traceOffset` above it, or at its start if that
    is nearer, unless it is so short that its entry counts for none. -/
theorem FlatFloor.trace_of_enters (h : w.FlatFloor id height) (hw : w.WellFormed)
    (start finish : Vec3 K) (radius : K) (hstart : 0 < start.z - height - radius)
    (hend : finish.z - height - radius ≤ 0)
    (hlong : traceOffset < start.z - height - radius + (start.z - finish.z)) :
    ∃ fraction, fraction < 1 ∧ (start.z - height - radius ≤ traceOffset → fraction = 0) ∧
      w.trace start finish radius =
        ⟨fraction, start.lerp finish fraction, false, false, some id, some (Vec3.up 1)⟩ ∧
      (start.lerp finish fraction).z - height - radius =
        min (start.z - height - radius) traceOffset := by
  set s : Sweep K := ⟨start, finish, radius⟩
  have hstartGap : s.startGap (floorFace id height).plane = start.z - height - radius := by
    rw [Sweep.startGap, distanceTo_floorFace]
  have hendGap : s.endGap (floorFace id height).plane = finish.z - height - radius := by
    rw [Sweep.endGap, distanceTo_floorFace]
  have henters : s.Enters (floorFace id height).plane := ⟨hstartGap ▸ hstart, hendGap ▸ hend⟩
  -- the sweep is long enough for its entry to count
  have hneg : -1 < s.enterAt (floorFace id height).plane := by
    rw [Sweep.enterAt, hstartGap, hendGap, lt_div_iff₀ (by linarith)]
    linarith
  have halone := Contact.alone_of_enters henters hneg
  have hproper := halone ▸ Contact.alone_proper s [floorFace id height]
  refine ⟨_, max_lt henters.enterAt_lt_one zero_lt_one, fun hnear => ?_, ?_, ?_⟩
  · refine max_eq_right (henters.enterAt_le_iff.2 ?_)
    rw [Sweep.gap_zero]
    exact hstartGap.trans_le hnear
  · rw [h.trace_eq hw, halone, w.report_of_proper s hproper]
    simp only [Option.bind_some, floorFace, h.plane, Option.map_some]
    rfl
  · have hgap := henters.gap_max_enterAt
    rw [← hstartGap, ← hgap, Sweep.gap]
    rw [distanceTo_floorFace]
    rfl

end World

/-! ### Sideways velocities -/

section

omit [IsStrictOrderedRing K]

variable {v : Vec3 K}

/-- A floor clips nothing off a velocity along it. -/
theorem Vec3.clip_up_of_flat (h : v.z = 0) (overclip : K) : v.clip (up 1) overclip = v := by
  have hdot : v.dot (up 1) = 0 := by simp [dot, h]
  simp only [clip, hdot, lt_irrefl, if_false, zero_div]
  ext <;> simp

theorem Vec3.normalizeOrZero_z (h : v.z = 0) : v.normalizeOrZero.z = 0 := by
  simp only [normalizeOrZero]
  split_ifs
  · rw [scale_z, h, zero_mul]
  · rfl

/-- What is wished for on a floor is a direction along it. -/
theorem Tuning.wish_direction_z (t : Tuning K) (input : Vec3 K) :
    (t.wish input (some (Vec3.up 1))).direction.z = 0 := by
  simp only [wish]
  split_ifs
  · exact Vec3.normalizeOrZero_z (by rw [Vec3.clip_up_of_flat rfl, Vec3.flat_z])
  · rfl

theorem Tuning.accelerate_z {wish : Wish K} (hwish : wish.direction.z = 0)
    (acceleration deltaTime : K) (v : Vec3 K) :
    (accelerate wish acceleration deltaTime v).z = v.z := by
  simp only [accelerate]
  split_ifs
  · rfl
  · rw [Vec3.add_z, Vec3.scale_z, hwish, zero_mul, add_zero]

/-- Friction acts sideways only. -/
theorem Tuning.rub_z (t : Tuning K) (deltaTime : K) (v : Vec3 K) : (t.rub deltaTime v).z = v.z := by
  simp only [rub]
  split_ifs <;> rfl

/-- An actor that stands on a floor and moves along it goes on to move along it. -/
theorem Tuning.walkVelocity_z (t : Tuning K) (h : a.velocity.z = 0) (input : Vec3 K)
    (deltaTime : K) : (a.walkVelocity t input (Vec3.up 1) deltaTime).z = 0 := by
  have hflat : (accelerate (t.wish input (some (Vec3.up 1))) t.groundAcceleration deltaTime
      (t.rub deltaTime a.velocity)).z = 0 := by
    rw [accelerate_z (t.wish_direction_z input), rub_z, h]
  rw [Actor.walkVelocity, Vec3.clip_up_of_flat hflat, hflat]

end

/-! ### Actors on the floor -/

/-- An actor that is at most `traceOffset` above a floor and neither rises nor falls. -/
structure Hovers (a : Actor K) (t : Tuning K) (height : K) : Prop where
  /-- It is above the floor. -/
  above : 0 < a.position.z - height - t.playerRadius
  /-- It is near the floor. -/
  near : a.position.z - height - t.playerRadius ≤ traceOffset
  /-- It moves sideways only. -/
  flat : a.velocity.z = 0

namespace Hovers

/-- **A look at the ground** finds the floor and leaves the actor where it is. -/
theorem refoot_eq (h : Hovers a t height) (hw : w.WellFormed) (hfloor : w.FlatFloor id height)
    (ht : t.fault? = none) (hreach : traceOffset ≤ t.reach) :
    a.refoot w t =
      { a with footing := .grounded ⟨id, Vec3.up 1⟩, groundTrace := some (a.probe w t) } := by
  obtain ⟨-, -, -, ⟨-, hnormal⟩, -⟩ := Tuning.fault?_eq_none_iff.1 ht
  obtain ⟨habove, hnear, hflat⟩ := h
  obtain ⟨fraction, hlt, hzero, hprobe, -⟩ := hfloor.trace_of_enters hw a.position
    (a.position - Vec3.up t.reach) t.playerRadius habove
    (by rw [Vec3.sub_z, Vec3.up_z]; linarith) (by rw [Vec3.sub_z, Vec3.up_z]; linarith)
  obtain rfl := hzero hnear
  replace hprobe : a.probe w t = _ := hprobe
  have hstays : ¬ t.Separates a.velocity (Vec3.up 1) := fun hrises => hrises.1.ne' hflat
  have hfound : a.FindsGround w t ⟨id, Vec3.up 1⟩ :=
    { free := by rw [hprobe]
      hit := by rw [hprobe]; exact hlt
      plane := by rw [hprobe]
      normal := by rw [hprobe]
      stays := hstays
      walkable := not_lt.2 hnormal }
  -- the sweep ends where it starts
  have hkeeps : (a.probe w t).finish = a.position := by
    rw [hprobe]
    ext <;> simp
  unfold Actor.refoot
  rw [hfound.settle_eq]
  simp only [hkeeps]

/-- **A walk** along the floor is a free slide. -/
theorem walk_eq (h : Hovers a t height) (hw : w.WellFormed) (hfloor : w.FlatFloor id height)
    (ht : t.fault? = none) (input : Vec3 K) (deltaTime : K) :
    a.walk w t input (Vec3.up 1) deltaTime =
      { a with
        position := a.position + a.walkVelocity t input (Vec3.up 1) deltaTime * deltaTime
        velocity := a.walkVelocity t input (Vec3.up 1) deltaTime } := by
  have hbumps : t.maxBumps ≠ 0 := (Tuning.fault?_eq_none_iff.1 ht).2.2.1
  have hflat := t.walkVelocity_z h.flat input deltaTime
  rw [Actor.walk]
  set v := a.walkVelocity t input (Vec3.up 1) deltaTime
  split_ifs with hstill
  · -- an actor that does not move sideways does not move
    obtain ⟨hx, hy⟩ := Bool.and_eq_true_iff.1 hstill
    simp only [Scalar.same, Bool.and_eq_true, decide_eq_true_eq] at hx hy
    have hstays : a.position + v * deltaTime = a.position := by
      ext <;> simp [le_antisymm hx.1 hx.2, le_antisymm hy.1 hy.2, hflat]
    rw [hstays]
  · set r : Slide.Request K := ⟨deltaTime, some (Vec3.up 1), false⟩
    have htarget : Slide.target t r a.position v = a.position + v * deltaTime := rfl
    have hfree : Slide.firstSweep w t r a.position v =
        Trace.noHit (Slide.target t r a.position v) := by
      apply hfloor.trace_of_misses hw h.above
      rw [htarget, Vec3.add_z, Vec3.scale_z, hflat, zero_mul, add_zero]
      exact h.above
    have hslide := Slide.slide_of_noHit hw hbumps hfree
    rw [stepSlide_of_clear (congrArg Moved.outcome hslide), hslide]
    rfl

/-- **A tick** moves the actor along the floor. -/
theorem tick (h : Hovers a t height) (hw : w.WellFormed) (hfloor : w.FlatFloor id height)
    (ht : t.fault? = none) (hreach : traceOffset ≤ t.reach) (input : Vec3 K) {frameTime : K}
    (htime : 0 < frameTime) :
    (a.tick w t input frameTime).position =
        a.position + a.walkVelocity t input (Vec3.up 1) (t.tickTime frameTime) *
          t.tickTime frameTime ∧
      (a.tick w t input frameTime).velocity =
        a.walkVelocity t input (Vec3.up 1) (t.tickTime frameTime) ∧
      (a.tick w t input frameTime).footing = .grounded ⟨id, Vec3.up 1⟩ ∧
      Hovers (a.tick w t input frameTime) t height := by
  have hflat := t.walkVelocity_z h.flat input (t.tickTime frameTime)
  rw [Actor.tick, if_pos htime, h.refoot_eq hw hfloor ht hreach]
  set b : Actor K :=
    { a with footing := .grounded ⟨id, Vec3.up 1⟩, groundTrace := some (a.probe w t) }
  have hb : Hovers b t height := ⟨h.above, h.near, h.flat⟩
  have hmove : b.move w t input (t.tickTime frameTime) =
      b.walk w t input (Vec3.up 1) (t.tickTime frameTime) := rfl
  rw [hmove, hb.walk_eq hw hfloor ht]
  have hvelocity : b.walkVelocity t input (Vec3.up 1) (t.tickTime frameTime) =
      a.walkVelocity t input (Vec3.up 1) (t.tickTime frameTime) := rfl
  rw [hvelocity]
  set v := a.walkVelocity t input (Vec3.up 1) (t.tickTime frameTime)
  set c : Actor K := { b with position := b.position + v * t.tickTime frameTime, velocity := v }
  -- the look after the move finds the floor again, for the height is the same
  have hz : c.position.z = a.position.z := by
    show a.position.z + v.z * t.tickTime frameTime = _
    rw [hflat, zero_mul, add_zero]
  have hc : Hovers c t height := ⟨hz ▸ h.above, hz ▸ h.near, hflat⟩
  rw [hc.refoot_eq hw hfloor ht hreach]
  exact ⟨rfl, rfl, rfl, hc.above, hc.near, hc.flat⟩

end Hovers

/-! ### Coming down -/

/-- How far above a floor the sphere of an actor is that is lifted by one step from a point. -/
def Tuning.dropHeight (t : Tuning K) (height : K) (point : Vec3 K) : K :=
  point.z + t.stepHeight - height - t.playerRadius

namespace World

/-- An actor that is spawned less than three steps above a floor, and no deeper than one step, comes
    down on it. -/
theorem FlatFloor.spawn_eq (hfloor : w.FlatFloor id height) (hw : w.WellFormed)
    (ht : t.fault? = none) (hstep : traceOffset ≤ t.stepHeight) (hreach : traceOffset ≤ t.reach)
    (a : Actor K) {point : Vec3 K} (habove : 0 < t.dropHeight height point)
    (hwithin : t.dropHeight height point ≤ 3 * t.stepHeight) :
    (a.spawn w t point).position =
        ⟨point.x, point.y,
          height + t.playerRadius + min (t.dropHeight height point) traceOffset⟩ ∧
      (a.spawn w t point).velocity = 0 ∧
      (a.spawn w t point).footing = .grounded ⟨id, Vec3.up 1⟩ ∧
      Hovers (a.spawn w t point) t height := by
  have htwo : (2.0 : K) = 2 := by norm_num
  set start := point + Vec3.up t.stepHeight
  set finish := point - Vec3.up t.stepHeight * (2.0 : K)
  have hstartz : start.z = point.z + t.stepHeight := by simp [start]
  have hfinishz : finish.z = point.z - t.stepHeight * 2 := by simp [finish, htwo]
  unfold Tuning.dropHeight at habove hwithin ⊢
  -- the sphere is lowered from one step above the point to one step below it
  obtain ⟨fraction, hlt, -, htrace, hgap⟩ := hfloor.trace_of_enters hw start finish
    t.playerRadius (by rw [hstartz]; exact habove)
    (by rw [hfinishz]; linarith) (by rw [hstartz, hfinishz]; linarith)
  rw [hstartz] at hgap
  have hposition : start.lerp finish fraction =
      ⟨point.x, point.y, height + t.playerRadius +
        min (point.z + t.stepHeight - height - t.playerRadius) traceOffset⟩ := by
    ext
    · simp [start, finish, ← mul_add]
    · simp [start, finish, ← mul_add]
    · rw [← hgap]
      ring
  have hpos : (0 : K) < traceOffset := Sweep.traceOffset_pos
  set landed : Actor K := { a with position := start.lerp finish fraction, velocity := 0 }
  have hspawn : a.spawn w t point = landed.refoot w t := by
    rw [Actor.spawn, htrace]
    have hhit : Trace.Hit ⟨fraction, start.lerp finish fraction, false, false, some id,
        some (Vec3.up 1)⟩ := hlt
    simp only [hhit, and_self, if_true, landed]
  -- where it is stopped, it hovers in reach of the floor
  have hlevel : Hovers landed t height :=
    ⟨hgap ▸ lt_min habove hpos, hgap ▸ min_le_right _ _, rfl⟩
  rw [hspawn, hlevel.refoot_eq hw hfloor ht hreach]
  exact ⟨hposition, rfl, rfl, hlevel.above, hlevel.near, hlevel.flat⟩

/-- **Standing on a floor.**  In exact arithmetic, on a level that a builder accepted and that is
    solid up to a height and nowhere else, an actor that is spawned within reach of the floor lands
    on it, at rest and right below the point, and however it is told to move from then on, it stands
    on the floor, at the same height and moving sideways only. -/
theorem Accepted.stands_after_spawn (hw : w.Accepted) (hfloor : w.FlatFloor id height)
    (ht : t.fault? = none) (hstep : traceOffset ≤ t.stepHeight)
    (hreach : traceOffset ≤ t.playerRadius + t.groundCheckEpsilon) (a : Actor K) {point : Vec3 K}
    (habove : 0 < t.dropHeight height point)
    (hwithin : t.dropHeight height point ≤ 3 * t.stepHeight) :
    ((a.spawn w t point).footing = .grounded ⟨id, Vec3.up 1⟩ ∧
        (a.spawn w t point).velocity = 0 ∧
        (a.spawn w t point).position = ⟨point.x, point.y,
          height + t.playerRadius + min (t.dropHeight height point) traceOffset⟩) ∧
      ∀ moves : List (Move K),
        ((a.spawn w t point).run w t (moves.map .move)).footing = .grounded ⟨id, Vec3.up 1⟩ ∧
          ((a.spawn w t point).run w t (moves.map .move)).position.z =
            height + t.playerRadius + min (t.dropHeight height point) traceOffset ∧
          ((a.spawn w t point).run w t (moves.map .move)).velocity.z = 0 := by
  have hw' := hw.wellFormed
  obtain ⟨hposition, hvelocity, hfooting, hlevel⟩ :=
    hfloor.spawn_eq hw' ht hstep hreach a habove hwithin
  refine ⟨⟨hfooting, hvelocity, hposition⟩, fun moves => ?_⟩
  set z := height + t.playerRadius + min (t.dropHeight height point) traceOffset
  -- what every tick keeps: where the actor stands, its height, and that it is near the floor
  suffices hrun : ((a.spawn w t point).run w t (moves.map .move)).footing =
        .grounded ⟨id, Vec3.up 1⟩ ∧
      ((a.spawn w t point).run w t (moves.map .move)).position.z = z ∧
      Hovers ((a.spawn w t point).run w t (moves.map .move)) t height from
    ⟨hrun.1, hrun.2.1, hrun.2.2.flat⟩
  refine Actor.run_induction (P := fun b => b.footing = .grounded ⟨id, Vec3.up 1⟩ ∧
    b.position.z = z ∧ Hovers b t height) ⟨hfooting, by rw [hposition], hlevel⟩ ?_
  rintro c hc b ⟨hb, hbz, hblevel⟩
  obtain ⟨m, -, rfl⟩ := List.mem_map.1 hc
  by_cases htime : 0 < m.frameTime
  · obtain ⟨hmoved, -, hstands, hlevel⟩ := hblevel.tick hw' hfloor ht hreach m.input htime
    refine ⟨hstands, ?_, hlevel⟩
    rw [Actor.obey, hmoved, Vec3.add_z, Vec3.scale_z, t.walkVelocity_z hblevel.flat, zero_mul,
      add_zero, hbz]
  · -- a frame time that is not positive changes nothing
    have hstill : b.obey w t (.move m) = b := if_neg htime
    rw [hstill]
    exact ⟨hb, hbz, hblevel⟩

end World

theorem realGround_flatFloor : realGround.FlatFloor (.ofIndex 0) 0 where
  plane := by
    have hread : realGround.plane? (.ofIndex 0) =
        some (Plane.map (fun q : ℚ => (q : ℝ)) ⟨⟨0, 0, 1⟩, 0⟩) := Array.getElem?_map
    rw [hread]
    simp [Plane.map, Vec3.map, Vec3.up]
  leaf := by
    refine ⟨[.ofIndex 0], .everything, rfl, ⟨_, List.mem_singleton_self _, _, rfl, rfl, rfl⟩, ?_⟩
    intro b hb brush hbrush _
    obtain rfl := List.mem_singleton.1 hb
    obtain rfl := Option.some.inj hbrush
    rfl

theorem Tuning.real_classic_accepted : (Tuning.classic : Tuning ℝ).fault? = none := by
  rw [fault?_eq_none_iff]
  simp only [classic, nonNegative]
  norm_num
  decide

/-- Over the reals, an actor that is spawned ten units above the ground comes down on it and stays
    down. -/
theorem ground_stands_after_spawn :
    ∃ w : World ℝ, w.Accepted ∧ w.FlatFloor (.ofIndex 0) 0 ∧
      (Tuning.classic : Tuning ℝ).fault? = none ∧
      ((default : Actor ℝ).spawn w .classic ⟨2, 3, 20⟩).position = ⟨2, 3, 321 / 32⟩ ∧
      ∀ moves : List (Move ℝ),
        (((default : Actor ℝ).spawn w .classic ⟨2, 3, 20⟩).run w .classic
          (moves.map .move)).position.z = 321 / 32 := by
  have hdrop : (Tuning.classic : Tuning ℝ).dropHeight 0 ⟨2, 3, 20⟩ = 28 := by
    norm_num [Tuning.dropHeight, Tuning.classic]
  have hheight : (0 : ℝ) + (Tuning.classic : Tuning ℝ).playerRadius +
      min ((Tuning.classic : Tuning ℝ).dropHeight 0 ⟨2, 3, 20⟩) traceOffset = 321 / 32 := by
    rw [hdrop, Sweep.traceOffset_eq]
    norm_num [Tuning.classic]
  have habove : 0 < (Tuning.classic : Tuning ℝ).dropHeight 0 ⟨2, 3, 20⟩ := by norm_num [hdrop]
  have hwithin : (Tuning.classic : Tuning ℝ).dropHeight 0 ⟨2, 3, 20⟩ ≤
      3 * (Tuning.classic : Tuning ℝ).stepHeight := by
    rw [hdrop]
    norm_num [Tuning.classic]
  obtain ⟨⟨-, -, hposition⟩, hstays⟩ := realGround_accepted.stands_after_spawn
    realGround_flatFloor Tuning.real_classic_accepted
    (by norm_num [Sweep.traceOffset_eq, Tuning.classic])
    (by norm_num [Sweep.traceOffset_eq, Tuning.classic]) default habove hwithin
  refine ⟨realGround, realGround_accepted, realGround_flatFloor, Tuning.real_classic_accepted, ?_,
    fun moves => ?_⟩
  · rw [hposition, hheight]
  · rw [(hstays moves).2.1, hheight]

end Stride
