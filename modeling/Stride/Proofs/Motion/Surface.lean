import Mathlib
import Stride.Proofs.Motion.Corners
import Stride.Proofs.Sweep.Inside

namespace Stride

/-!
# Clipping against one surface

A velocity that is clipped against a surface does not run into it any more, so a sphere in front of
the surface that moves along the velocity never meets what is behind, however close it is and
however far it goes.

* `distanceTo_add_scale` — the distance to a plane on the way along a velocity.
* `Contact.meet_of_leaves` — a sweep that does not get closer to a face misses the solid.
* `Vec3.clip_departs` — what one clip does to a velocity, and to the sweep along it.
-/

section

variable {K : Type} [Field K] [LinearOrder K] [HasSqrt K] {v normal : Vec3 K} {overclip : K}

/-- The distance to a plane on the way along a velocity. -/
theorem distanceTo_add_scale (p : Plane K) (point v : Vec3 K) (t : K) :
    p.distanceTo (point + v * t) = p.distanceTo point + v.dot p.normal * t := by
  simp only [Plane.distanceTo, Vec3.dot, Vec3.add_x, Vec3.add_y, Vec3.add_z, Vec3.scale_x,
    Vec3.scale_y, Vec3.scale_z]
  ring

/-- A velocity along the surface is left alone. -/
theorem Vec3.clip_of_dot_eq_zero (h : v.dot normal = 0) (overclip : K) :
    v.clip normal overclip = v := by
  have htaken : v.taken normal overclip = 0 := by
    rw [taken, h, if_neg (lt_irrefl 0), zero_div]
  rw [clip_eq, htaken]
  ext <;> simp

/-- A clip changes a velocity by a multiple of the normal. -/
theorem Vec3.clip_sub_self (v normal : Vec3 K) (overclip : K) :
    v.clip normal overclip - v = normal * -v.taken normal overclip := by
  rw [clip_eq]
  ext <;> simp

variable [IsStrictOrderedRing K]

/-- **A sweep away from a face** misses the solid: it starts in front of the face and does not get
    closer. -/
theorem Contact.meet_of_leaves {face : Face K} {faces : List (Face K)} (hface : face ∈ faces)
    (hleaves : 0 ≤ v.dot face.plane.normal) {start : Vec3 K} {radius time : K}
    (hahead : 0 < face.plane.distanceTo start - radius) (htime : 0 ≤ time) (c : Contact K) :
    c.meet ⟨start, start + v * time, radius⟩ faces = c := by
  have hend : 0 < face.plane.distanceTo (start + v * time) - radius := by
    rw [distanceTo_add_scale]
    linarith [mul_nonneg hleaves htime]
  have hnone : Sweep.span? ⟨start, start + v * time, radius⟩ faces = none :=
    Sweep.span?_eq_none_iff.2 ⟨face, hface, hahead, hend⟩
  rcases meet_cases _ faces with ⟨-, hpass⟩ | ⟨span, -, hspan, -⟩
  · exact hpass c
  · cases hnone.symm.trans hspan

end

/-- **One clip.**  A velocity that is clipped against a surface with a unit normal does not run into
    it, differs from before by a multiple of the normal, is no faster, and is the same if it was
    along the surface.  A sphere in front of a face with that normal, by however little, can move
    along the velocity for any time and does not meet the solid. -/
theorem Vec3.clip_departs (v : Vec3 ℝ) {normal : Vec3 ℝ} (hunit : normal.length = 1)
    {overclip : ℝ} (hover : 1 ≤ overclip) (htwice : overclip ≤ 2) :
    0 ≤ (v.clip normal overclip).dot normal ∧
      (∃ c : ℝ, v.clip normal overclip - v = normal * c) ∧
      (v.clip normal overclip).length ≤ v.length ∧
      (v.dot normal = 0 → v.clip normal overclip = v) ∧
      ∀ (face : Face ℝ) (faces : List (Face ℝ)) (start : Vec3 ℝ) (radius time : ℝ),
        face.plane.normal = normal → face ∈ faces →
        0 < face.plane.distanceTo start - radius → 0 ≤ time → ∀ c : Contact ℝ,
          c.meet ⟨start, start + v.clip normal overclip * time, radius⟩ faces = c := by
  have hleaves := v.dot_clip_nonneg (dot_self_of_length_eq_one hunit) hover
  refine ⟨hleaves, ⟨_, clip_sub_self v normal overclip⟩, v.length_clip_le hunit hover htwice,
    fun h => clip_of_dot_eq_zero h overclip, ?_⟩
  rintro face faces start radius time rfl hface hahead htime c
  exact Contact.meet_of_leaves hface hleaves hahead htime c

/-- The ground. -/
def groundFace {α : Type} [Scalar α] : Face α := ⟨.ofIndex 0, ⟨⟨0, 0, 1⟩, 0⟩⟩

/-- A sphere that came down on the ground bounces off a little, and moves on without meeting it. -/
theorem ground_clip_departs :
    ∃ v w start : Vec3 ℝ, v = ⟨3, 0, -4⟩ ∧ w = ⟨3, 0, 2⟩ ∧ start = ⟨0, 0, 1.01⟩ ∧
      groundFace.plane.normal.length = (1 : ℝ) ∧ v.clip groundFace.plane.normal (3 / 2) = w ∧
      0 < groundFace.plane.distanceTo start - 1 ∧
      Contact.meet ⟨start, start + w * (60 : ℝ), 1⟩ .clear [groundFace] = .clear := by
  have hunit : groundFace.plane.normal.length = (1 : ℝ) := by
    show Real.sqrt _ = 1
    norm_num [Vec3.dot, groundFace]
  have hclip : (⟨3, 0, -4⟩ : Vec3 ℝ).clip groundFace.plane.normal (3 / 2) = ⟨3, 0, 2⟩ := by
    rw [Vec3.clip_eq, Vec3.taken, if_pos (by norm_num [Vec3.dot, groundFace])]
    ext <;> norm_num [Vec3.dot, groundFace]
  have hahead : 0 < groundFace.plane.distanceTo (⟨0, 0, 1.01⟩ : Vec3 ℝ) - 1 := by
    norm_num [Plane.distanceTo, Vec3.dot, groundFace]
  refine ⟨_, _, _, rfl, rfl, rfl, hunit, hclip, hahead, ?_⟩
  obtain ⟨-, -, -, -, hmeet⟩ := Vec3.clip_departs ⟨3, 0, -4⟩ hunit
    (by norm_num : (1 : ℝ) ≤ 3 / 2) (by norm_num)
  rw [← hclip]
  exact hmeet _ _ _ _ _ rfl List.mem_cons_self hahead (by norm_num) _

end Stride
