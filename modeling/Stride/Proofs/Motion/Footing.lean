import Stride.Motion.Run
import Stride.Proofs.Sweep.Report

namespace Stride

/-!
# What an actor stands on

Between two commands the parts of an actor fit together: an actor that stands was set down where its
latest look at the ground ended, on a face of the level that is not too steep, and does not move
away from it; one in the air found nothing, or a face that is too steep.

* `Actor.FindsGround` — what a look has found that ends on ground.
* `Actor.look_cases`, `Actor.refoot_cases` — what a look can find, and what it makes of the actor.
* `Actor.StandsOn` — an actor that was set down on ground.
* `Actor.Settled` — what holds of an actor between two commands.
* `settled_refoot` — looking at the ground makes it so, whatever the actor was like before.
* `Loaded.settled_of_run` — so it holds after every run.
-/

variable {α : Type} [Scalar α]

namespace Actor

variable {w : World α} {t : Tuning α} {a : Actor α}

/-! ### A look at the ground -/

/-- A look finds ground that can be stood on: the sphere is not stuck, the sweep is cut short by a
    face that is not too steep, and the actor does not move away from it. -/
structure FindsGround (a : Actor α) (w : World α) (t : Tuning α) (s : Support α) : Prop where
  /-- The sphere is not stuck in a solid. -/
  free : (a.probe w t).allSolid = false
  /-- The sweep is cut short. -/
  hit : (a.probe w t).Hit
  /-- It names the face. -/
  plane : (a.probe w t).plane = some s.plane
  /-- It reports the normal. -/
  normal : (a.probe w t).normal = some s.normal
  /-- The actor does not move away from the face. -/
  stays : ¬ t.Separates a.velocity s.normal
  /-- The face is not too steep. -/
  walkable : ¬ s.normal.z < t.minGroundNormal

theorem FindsGround.look_eq {s : Support α} (h : a.FindsGround w t s) :
    a.look w t = .walkable (a.probe w t) s := by
  simp [look, h.free, h.hit, h.plane, h.normal, h.stays, h.walkable]

/-- **A look at the ground** finds nothing, or a face that is too steep, or ground. -/
theorem look_cases (a : Actor α) (w : World α) (t : Tuning α) :
    a.look w t = .nothing ∨
      (∃ n, a.look w t = .steep (a.probe w t) ∧ (a.probe w t).normal = some n ∧
        n.z < t.minGroundNormal) ∨
      ∃ s, a.FindsGround w t s := by
  simp only [look]
  split_ifs with hstuck
  · exact .inl rfl
  · split
    · rename_i plane normal hplane hnormal
      split_ifs with hleaves hsteep
      · exact .inl rfl
      · exact .inr (.inl ⟨normal, rfl, hnormal, hsteep⟩)
      · obtain ⟨hhit, hstays⟩ := not_or.1 hleaves
        exact .inr (.inr ⟨⟨plane, normal⟩, Bool.eq_false_of_not_eq_true hstuck, not_not.1 hhit,
          hplane, hnormal, hstays, hsteep⟩)
    · exact .inl rfl

/-- An actor whose look finds ground is set down on it. -/
theorem FindsGround.settle_eq {s : Support α} (h : a.FindsGround w t s) :
    a.settle w t = (.grounded s,
      { a with groundTrace := some (a.probe w t), position := (a.probe w t).finish }) := by
  unfold settle
  rw [h.look_eq]

theorem refoot_of_nothing (h : a.look w t = .nothing) :
    a.refoot w t = { a with footing := .airborne, groundTrace := none } := by
  unfold refoot settle
  rw [h]

/-- **What a look makes of an actor.** It is in the air and stays where it is, with a memory of the
    face that is too steep if there is one, or it is set down. -/
theorem refoot_cases (a : Actor α) (w : World α) (t : Tuning α) :
    a.refoot w t = { a with footing := .airborne, groundTrace := none } ∨
      (∃ n, (a.probe w t).normal = some n ∧ n.z < t.minGroundNormal ∧
        a.refoot w t = { a with footing := .airborne, groundTrace := some (a.probe w t) }) ∨
      ∃ s : Support α, a.FindsGround w t s ∧
        a.refoot w t =
          { a with
            footing := .grounded s
            groundTrace := some (a.probe w t)
            position := (a.probe w t).finish } := by
  rcases a.look_cases w t with hnothing | ⟨n, hlook, hnormal, hsteep⟩ | ⟨s, hfound⟩
  · exact .inl (refoot_of_nothing hnothing)
  · refine .inr (.inl ⟨n, hnormal, hsteep, ?_⟩)
    unfold refoot settle
    rw [hlook]
  · refine .inr (.inr ⟨s, hfound, ?_⟩)
    unfold refoot
    rw [hfound.settle_eq]

/-! ### Settled actors -/

/-- An actor that was set down on ground, when `trace` is what its latest look found. -/
structure StandsOn (a : Actor α) (w : World α) (t : Tuning α) (s : Support α) (trace : Trace α) :
    Prop where
  /-- It is the latest look. -/
  looked : a.groundTrace = some trace
  /-- The look found the face that the actor stands on. -/
  plane : trace.plane = some s.plane
  /-- It found its normal. -/
  normal : trace.normal = some s.normal
  /-- That is the normal of the face in the level. -/
  stored : ∃ plane, w.plane? s.plane = some plane ∧ plane.normal = s.normal
  /-- The face is not too steep. -/
  walkable : ¬ s.normal.z < t.minGroundNormal
  /-- The sphere is not stuck in a solid. -/
  free : trace.allSolid = false
  /-- The sweep is cut short. -/
  hit : trace.fraction < 1
  /-- The actor is where the sweep ended. -/
  setDown : a.position = trace.finish
  /-- It does not move upwards and away from the face. -/
  stays : ¬ (0 < a.velocity.z ∧ t.groundSeparationSpeed < a.velocity.dot s.normal)

/-- What holds of an actor between two commands. -/
structure Settled (a : Actor α) (w : World α) (t : Tuning α) : Prop where
  /-- An actor on the ground was set down there. -/
  grounded : ∀ s, a.footing = .grounded s → ∃ trace, a.StandsOn w t s trace
  /-- An actor in the air found no ground, or ground that is too steep. -/
  airborne : a.footing = .airborne → a.groundTrace = none ∨
    ∃ trace n, a.groundTrace = some trace ∧ trace.normal = some n ∧ n.z < t.minGroundNormal

/-- An actor that was just made is in the air and has not looked yet. -/
theorem settled_ofPosition (w : World α) (t : Tuning α) (p : Vec3 α) :
    (ofPosition p).Settled w t where
  grounded := nofun
  airborne _ := .inl rfl

variable [Scalar.Lawful α]

/-- **Looking at the ground** settles an actor, whatever it was like before. -/
theorem settled_refoot (hw : w.WellFormed) (a : Actor α) (t : Tuning α) :
    (a.refoot w t).Settled w t := by
  rcases a.refoot_cases w t with hnothing | ⟨n, hnormal, hsteep, hslides⟩ | ⟨s, hfound, hset⟩
  · rw [hnothing]
    exact ⟨nofun, fun _ => .inl rfl⟩
  · rw [hslides]
    exact ⟨nofun, fun _ => .inr ⟨_, n, rfl, hnormal, hsteep⟩⟩
  · rw [hset]
    refine ⟨fun s' h => ?_, nofun⟩
    obtain rfl : s = s' := Footing.grounded.inj h
    -- the normal that a sweep reports is that of the face
    have hcoherent := hw.coherent_trace a.position
      (a.position - Vec3.up (t.playerRadius + t.groundCheckEpsilon)) t.playerRadius
    obtain ⟨plane, hlookup, heq⟩ := hcoherent.normal_eq s.plane hfound.plane
    have hstored : plane.normal = s.normal := Option.some.inj (heq.symm.trans hfound.normal)
    exact ⟨a.probe w t, rfl, hfound.plane, hfound.normal, ⟨plane, hlookup, hstored⟩,
      hfound.walkable, hfound.free, hfound.hit, rfl, hfound.stays⟩

/-! ### Runs -/

/-- A command settles an actor, or leaves it as it was. -/
theorem settled_obey (hw : w.WellFormed) (h : a.Settled w t) (c : Command α) :
    (a.obey w t c).Settled w t := by
  cases c with
  | spawn point => exact settled_refoot hw _ t
  | move m =>
    rw [obey, tick]
    split_ifs
    · exact settled_refoot hw _ t
    · exact h

/-- **Every run** leaves an actor settled that started settled. -/
theorem settled_run (hw : w.WellFormed) (h : a.Settled w t) (cs : List (Command α)) :
    (a.run w t cs).Settled w t :=
  run_induction (P := fun b => b.Settled w t) h fun c _ _ hb => settled_obey hw hb c

end Actor

/-- **Settled actors.** On a level that is handed out and under any tuning, an actor that was made,
    and then spawned and moved any number of times with any arguments, has parts that fit
    together. -/
theorem World.Loaded.settled_of_run {w : World Float32} (hw : w.Loaded) (t : Tuning Float32)
    {a : Actor Float32} (ha : a = default ∨ ∃ p, a = .ofPosition p) (cs : List (Command Float32)) :
    (a.run w t cs).Settled w t := by
  refine Actor.settled_run hw.wellFormed ?_ cs
  rcases ha with rfl | ⟨p, rfl⟩
  · exact Actor.settled_ofPosition w t 0
  · exact Actor.settled_ofPosition w t p

/-- A floor at height zero and a slope of forty-five degrees and more that rises from it. -/
def hillside : Builder Float32 where
  planes := #[⟨⟨0, 0, 1⟩, 0⟩, ⟨⟨-0.8, 0, 0.6⟩, -80⟩]
  brushes := #[⟨[.ofIndex 0], true⟩, ⟨[.ofIndex 1], true⟩]
  nodes := #[.leaf [.ofIndex 0, .ofIndex 1] .everything]

theorem hillside_build : hillside.build (.ofIndex 0) = .ok (hillside.toWorld (.ofIndex 0)) :=
  Builder.build_of_defect?_eq_none (by decide +kernel)

/-- A spawn, a tick whose time is negative, and one tick towards the slope. -/
def arrival : List (Command Float32) :=
  [.spawn ⟨0, 0, 16⟩, .move ⟨⟨1, 0, 0⟩, -1⟩, .move ⟨⟨1, 0, 0⟩, 0.015625⟩]

/-- The actor is set down on the floor and stands there after it moved. -/
theorem hillside_settled_of_run :
    ∃ w, hillside.build (.ofIndex 0) = .ok w ∧
      ((default : Actor Float32).run w .classic arrival).Settled w .classic ∧
      ((default : Actor Float32).run w .classic arrival).onGround = true := by
  refine ⟨_, hillside_build,
    (World.Loaded.build hillside_build).settled_of_run .classic (.inl rfl) arrival, ?_⟩
  decide +kernel

end Stride
