import Mathlib
import Stride.Motion.Clip
import Stride.Proofs.Scalar.Products

namespace Stride

/-!
# What clipping leaves of a velocity

A velocity that is clipped against one surface does not run into it and is no faster than before.
Against several surfaces each gets one turn: after its turn the velocity leaves it, and an edge that
is run along leaves them all.  Only the first surface is looked at again, so a clip against a later
surface may drive the velocity back into one that had its turn.

* `Vec3.dot_clip_nonneg`, `Vec3.dot_clip_self_le` — one surface.
* `Velocities.turn?` — the turn of one more surface; `turn?_cases` says what it does.
* `Velocities.Cleared` — which surfaces the velocity leaves after some turns.
* `clipToPlanes?_leaves` — which surfaces it leaves in the end.
* `length_clipToPlanes?_le` — no velocity gets faster.
-/

/-! ### One surface -/

namespace Vec3

/-- How much of the normal a clip takes off a velocity. -/
def taken {α : Type} [Scalar α] (v normal : Vec3 α) (overclip : α) : α :=
  if v.dot normal < 0 then v.dot normal * overclip else v.dot normal / overclip

variable {K : Type} [Field K] [LinearOrder K] [HasSqrt K] (v normal p : Vec3 K) {overclip : K}

/-- A clip takes off a multiple of the normal. -/
theorem clip_eq (overclip : K) :
    v.clip normal overclip = v - normal * v.taken normal overclip := rfl

/-- How fast a clipped velocity is in any direction. -/
theorem dot_clip (overclip : K) :
    (v.clip normal overclip).dot p = v.dot p - normal.dot p * v.taken normal overclip := by
  rw [clip_eq, sub_dot, scale_dot]

/-- A clip leaves the part of a velocity along another surface alone if that is perpendicular. -/
theorem dot_clip_of_dot_eq_zero (h : normal.dot p = 0) (overclip : K) :
    (v.clip normal overclip).dot p = v.dot p := by
  rw [dot_clip, h, zero_mul, sub_zero]

variable [IsStrictOrderedRing K] {normal}

/-- What is taken off is at most the part along the normal. -/
theorem taken_le (hover : 1 ≤ overclip) : v.taken normal overclip ≤ v.dot normal := by
  rw [taken]
  split_ifs with h
  · exact mul_le_of_one_le_right h.le hover
  · exact div_le_self (not_lt.1 h) hover

/-- **A clipped velocity** does not run into the surface. -/
theorem dot_clip_nonneg (hunit : normal.dot normal = 1) (hover : 1 ≤ overclip) :
    0 ≤ (v.clip normal overclip).dot normal := by
  rw [dot_clip, hunit, one_mul, sub_nonneg]
  exact v.taken_le hover

/-- **A clipped velocity** is no faster: even twice the part along the normal only mirrors it. -/
theorem dot_clip_self_le (hunit : normal.dot normal = 1) (hover : 1 ≤ overclip)
    (htwice : overclip ≤ 2) :
    (v.clip normal overclip).dot (v.clip normal overclip) ≤ v.dot v := by
  set c := v.taken normal overclip with hc
  set d := v.dot normal with hd
  have hself : (v.clip normal overclip).dot (v.clip normal overclip) =
      v.dot v + c * (c - 2 * d) := by
    rw [dot_clip, dot_comm v, dot_clip, dot_comm normal (v.clip normal overclip), dot_clip, hunit,
      dot_comm normal v, ← hc, ← hd]
    ring
  -- what is taken off lies between nothing and twice the part along the normal
  have hbetween : (c ≤ 0 ∧ 2 * d ≤ c) ∨ (0 ≤ c ∧ c ≤ 2 * d) := by
    rw [hc, taken, ← hd]
    split_ifs with h
    · refine .inl ⟨mul_nonpos_of_nonpos_of_nonneg h.le (zero_le_one.trans hover), ?_⟩
      rw [mul_comm]
      exact mul_le_mul_of_nonpos_left htwice h.le
    · have hle : d / overclip ≤ d := div_le_self (not_lt.1 h) hover
      exact .inr ⟨div_nonneg (not_lt.1 h) (zero_le_one.trans hover), by linarith [not_lt.1 h]⟩
  have hloss : c * (c - 2 * d) ≤ 0 := by
    rcases hbetween with ⟨hneg, hle⟩ | ⟨hpos, hle⟩
    · exact mul_nonpos_of_nonpos_of_nonneg hneg (sub_nonneg.2 hle)
    · exact mul_nonpos_of_nonneg_of_nonpos hpos (sub_nonpos.2 hle)
  linarith

end Vec3

/-! ### One turn -/

section

variable {α : Type} [Scalar α]

/-- The turn of another surface, after surface `i` was clipped against. -/
def Velocities.turn? (planes : List (Vec3 α)) (unclipped : Velocities α) (overclip : α) (i : Nat)
    (plane : Vec3 α) (clipped : Velocities α) (other : Vec3 α × Nat) : Option (Velocities α) :=
  if other.2 = i ∨ clipped.move.Leaves other.1 then some clipped
  else if 0 ≤ (clipped.clip other.1 overclip).move.dot plane then
    some (clipped.clip other.1 overclip)
  else if runsIntoThird planes i other.2 (unclipped.alongCrease plane other.1).move then none
  else some (unclipped.alongCrease plane other.1)

variable {planes : List (Vec3 α)} {unclipped clipped v v' : Velocities α} {overclip : α} {i m : Nat}
  {plane q : Vec3 α}

/-- All other surfaces have their turns, in order. -/
theorem clipToOthers?_eq : clipToOthers? planes unclipped overclip i plane clipped =
    planes.zipIdx.foldlM (Velocities.turn? planes unclipped overclip i plane) clipped := rfl

/-- **A turn** changes nothing if the surface is left already; else it is clipped against, if that
    does not lead back into the first surface; else the edge with the first surface is run along, if
    that runs into no third one. -/
theorem Velocities.turn?_cases
    (h : turn? planes unclipped overclip i plane clipped (q, m) = some v') :
    (v' = clipped ∧ (m = i ∨ clipped.move.Leaves q)) ∨
      (v' = clipped.clip q overclip ∧ m ≠ i ∧ 0 ≤ v'.move.dot plane) ∨
      (v' = unclipped.alongCrease plane q ∧ runsIntoThird planes i m v'.move = false) := by
  simp only [turn?] at h
  split_ifs at h with hleaves hback hthird
  · cases h
    exact .inl ⟨rfl, hleaves⟩
  · cases h
    exact .inr (.inl ⟨rfl, fun hm => hleaves (.inl hm), hback⟩)
  · cases h
    exact .inr (.inr ⟨rfl, Bool.eq_false_of_not_eq_true hthird⟩)

/-- A velocity that runs into no third surface leaves all but the two. -/
theorem le_dot_of_runsIntoThird {j k : Nat} {u p : Vec3 α} (h : runsIntoThird planes i j u = false)
    (hp : planes[k]? = some p) (hi : k ≠ i) (hj : k ≠ j) : ¬ u.dot p < intoPlaneTolerance := by
  rw [runsIntoThird, List.any_eq_false] at h
  have hmem : (p, k) ∈ planes.zipIdx := List.mem_zipIdx_iff_getElem?.2 hp
  have hnot := h (p, k) hmem
  simpa [hi, hj] using hnot

/-- **The whole way.** A velocity that leaves all surfaces is kept.  Any other is clipped against
    the first surface that it does not leave, and then the surfaces have their turns. -/
theorem clipToPlanes?_cases (h : clipToPlanes? planes v overclip = some v') :
    (v' = v ∧ ∀ p ∈ planes, v.move.Leaves p) ∨
      ∃ i plane, planes[i]? = some plane ∧ ¬ v.move.Leaves plane ∧
        (∀ k < i, ∀ p, planes[k]? = some p → v.move.Leaves p) ∧
        planes.zipIdx.foldlM (Velocities.turn? planes v overclip i plane) (v.clip plane overclip) =
          some v' := by
  rw [clipToPlanes?] at h
  split at h
  · next hnone =>
    cases h
    refine .inl ⟨rfl, fun p hp => ?_⟩
    obtain ⟨i, hi, hip⟩ := List.mem_iff_getElem.1 hp
    have hmem : (p, i) ∈ planes.zipIdx :=
      List.mem_zipIdx_iff_getElem?.2 (List.getElem?_eq_some_iff.2 ⟨hi, hip⟩)
    simpa using List.find?_eq_none.1 hnone _ hmem
  · next plane i hsome =>
    obtain ⟨hinto, m, hm, hmi, hbefore⟩ := List.find?_eq_some_iff_getElem.1 hsome
    rw [List.length_zipIdx] at hm
    obtain ⟨rfl, rfl⟩ : planes[m] = plane ∧ m = i := by simpa using hmi
    rw [clipToOthers?_eq] at h
    refine .inr ⟨m, planes[m], List.getElem?_eq_getElem hm, by simpa using hinto, ?_, h⟩
    intro k hk p hp
    obtain ⟨hlt, rfl⟩ := List.getElem?_eq_some_iff.1 hp
    simpa using hbefore k hk

end

/-! ### All turns -/

/-- What holds before a fold over a numbered list and is kept by every step holds in the end; it may
    depend on the number of steps. -/
theorem foldlM_zipIdx_induction {β γ : Type} {f : β → γ × ℕ → Option β} {P : ℕ → β → Prop}
    {l : List γ} {b b' : β} (hb : P 0 b)
    (hstep : ∀ n (hn : n < l.length) c c', P n c → f c (l[n], n) = some c' → P (n + 1) c')
    (h : l.zipIdx.foldlM f b = some b') : P l.length b' := by
  have hprefix : ∀ n ≤ l.length, ∀ c, (l.zipIdx.take n).foldlM f b = some c → P n c := by
    intro n hn
    induction n with
    | zero =>
      intro c hc
      obtain rfl : b = c := Option.some.inj hc
      exact hb
    | succ n ih =>
      intro c hc
      have hlt : n < l.length := hn
      have hnext : l.zipIdx[n]? = some (l[n], n) := by simp [hlt]
      rw [List.take_add_one, hnext, List.foldlM_append] at hc
      obtain ⟨d, hd, hlast⟩ := Option.bind_eq_some_iff.1 hc
      exact hstep n hlt d c (ih hlt.le d hd) (by simpa using hlast)
  refine hprefix l.length le_rfl b' ?_
  rwa [List.take_of_length_le (by simp)]

variable {K : Type} [Field K] [LinearOrder K] [HasSqrt K]

/-- An edge is normal to both of its surfaces, and so is what runs along it. -/
theorem Vec3.alongCrease_dot (v first second : Vec3 K) :
    (v.alongCrease first second).dot first = 0 ∧ (v.alongCrease first second).dot second = 0 := by
  obtain ⟨c, hc⟩ := normalizeOrZero_eq_scale (first.cross second)
  constructor
  · rw [alongCrease, hc, scale_dot, scale_dot, cross_dot_left, zero_mul, zero_mul]
  · rw [alongCrease, hc, scale_dot, scale_dot, cross_dot_right, zero_mul, zero_mul]

/-- What the turns of the first `n` surfaces leave of a velocity, after surface `i` was clipped
    against. -/
structure Velocities.Cleared (v : Velocities K) (planes : List (Vec3 K)) (i : Nat) (plane : Vec3 K)
    (n : Nat) : Prop where
  /-- The first surface is left. -/
  first : 0 ≤ v.move.dot plane
  /-- A surface that is run into had its turn before another that is not perpendicular to it. -/
  later : ∀ j < n, ∀ p, planes[j]? = some p → v.move.dot p < 0 →
    ∃ m < n, ∃ q, planes[m]? = some q ∧ m ≠ i ∧ j < m ∧ q.dot p ≠ 0

variable [IsStrictOrderedRing K] {planes : List (Vec3 K)} {v v' clipped : Velocities K}
  {overclip : K} {i n : Nat} {plane q : Vec3 K}

theorem intoPlaneTolerance_pos : (0 : K) < intoPlaneTolerance := by
  have htenth : (intoPlaneTolerance : K) = 1 / 10 := by norm_num [intoPlaneTolerance]
  rw [htenth]
  positivity

namespace Velocities

namespace Cleared

omit [IsStrictOrderedRing K] in
/-- What is to blame for a surface is so after one more turn. -/
theorem later_succ (h : v.Cleared planes i plane n) : ∀ j < n, ∀ p, planes[j]? = some p →
    v.move.dot p < 0 → ∃ m < n + 1, ∃ q, planes[m]? = some q ∧ m ≠ i ∧ j < m ∧ q.dot p ≠ 0 := by
  intro j hj p hp hneg
  obtain ⟨m, hm, hrest⟩ := h.later j hj p hp hneg
  exact ⟨m, Nat.lt_succ_of_lt hm, hrest⟩

omit [IsStrictOrderedRing K] in
/-- The surface whose turn it was needs none to blame, for it is left. -/
theorem succ (hfirst : 0 ≤ v.move.dot plane) (hq : planes[n]? = some q) (hown : 0 ≤ v.move.dot q)
    (hlater : ∀ j < n, ∀ p, planes[j]? = some p → v.move.dot p < 0 →
      ∃ m < n + 1, ∃ q, planes[m]? = some q ∧ m ≠ i ∧ j < m ∧ q.dot p ≠ 0) :
    v.Cleared planes i plane (n + 1) where
  first := hfirst
  later j hj p hp hneg := by
    rcases Nat.lt_succ_iff_lt_or_eq.1 hj with hj | rfl
    · exact hlater j hj p hp hneg
    · obtain rfl : q = p := Option.some.inj (hq.symm.trans hp)
      exact absurd hown (not_le.2 hneg)

/-- A turn that clips is to blame for all surfaces that are not perpendicular to its own. -/
theorem clip (h : v.Cleared planes i plane n) (hover : 1 ≤ overclip) (hunit : q.dot q = 1)
    (hq : planes[n]? = some q) (hother : n ≠ i)
    (hfirst : 0 ≤ (v.clip q overclip).move.dot plane) :
    (v.clip q overclip).Cleared planes i plane (n + 1) := by
  refine succ hfirst hq (v.move.dot_clip_nonneg hunit hover) fun j hj p hp hneg => ?_
  by_cases hdot : q.dot p = 0
  · have hsame : (v.clip q overclip).move.dot p = v.move.dot p :=
      v.move.dot_clip_of_dot_eq_zero q p hdot overclip
    exact h.later_succ j hj p hp (hsame ▸ hneg)
  · exact ⟨n, Nat.lt_succ_self n, q, hq, hother, hj, hdot⟩

/-- A turn along the edge leaves its two surfaces, and all others were looked at. -/
theorem alongCrease (hplane : planes[i]? = some plane) (hq : planes[n]? = some q)
    (hthird : runsIntoThird planes i n (v.alongCrease plane q).move = false) :
    (v.alongCrease plane q).Cleared planes i plane (n + 1) := by
  obtain ⟨hfirst, hsecond⟩ := v.move.alongCrease_dot plane q
  refine succ hfirst.ge hq hsecond.ge fun j hj p hp hneg => absurd hneg (not_lt.2 ?_)
  by_cases hji : j = i
  · subst hji
    obtain rfl : plane = p := Option.some.inj (hplane.symm.trans hp)
    exact hfirst.ge
  · have hleaves := le_dot_of_runsIntoThird hthird hp hji hj.ne
    exact intoPlaneTolerance_pos.le.trans (not_lt.1 hleaves)

/-- **A turn** keeps what the turns before it left, and its own surface is left. -/
theorem turn? (h : clipped.Cleared planes i plane n) (hover : 1 ≤ overclip)
    (hunit : q.dot q = 1) (hplane : planes[i]? = some plane) (hq : planes[n]? = some q)
    (hturn : Velocities.turn? planes v overclip i plane clipped (q, n) = some v') :
    v'.Cleared planes i plane (n + 1) := by
  rcases turn?_cases hturn with ⟨rfl, hleft⟩ | ⟨rfl, hother, hfirst⟩ | ⟨rfl, hthird⟩
  · have hown : 0 ≤ v'.move.dot q := by
      rcases hleft with rfl | hleaves
      · obtain rfl : plane = q := Option.some.inj (hplane.symm.trans hq)
        exact h.first
      · exact intoPlaneTolerance_pos.le.trans hleaves
    exact succ h.first hq hown h.later_succ
  · exact h.clip hover hunit hq hother hfirst
  · exact alongCrease hplane hq hthird

end Cleared

/-- **All turns.**  By induction on their number. -/
theorem cleared_of_turns (hunit : ∀ p ∈ planes, p.dot p = 1) (hover : 1 ≤ overclip)
    (hplane : planes[i]? = some plane)
    (h : planes.zipIdx.foldlM (turn? planes v overclip i plane) (v.clip plane overclip) =
      some v') : v'.Cleared planes i plane planes.length := by
  refine foldlM_zipIdx_induction (P := fun n c => c.Cleared planes i plane n) ?_ ?_ h
  · have hfirst := v.move.dot_clip_nonneg (hunit plane (List.mem_of_getElem? hplane)) hover
    exact ⟨hfirst, fun j hj => absurd hj (Nat.not_lt_zero j)⟩
  · intro n hn clipped next hclipped hturn
    exact hclipped.turn? hover (hunit _ (List.getElem_mem hn)) hplane
      (List.getElem?_eq_getElem hn) hturn

end Velocities

/-! ### The surfaces that are left -/

/-- Surface `j` had its turn, and after it another one that is not perpendicular to it; and neither
    of them was the one that the velocity ran into first. -/
def Overruled (planes : List (Vec3 K)) (v : Vec3 K) (j : Nat) (p : Vec3 K) : Prop :=
  ∃ i first m later, planes[i]? = some first ∧ ¬ v.Leaves first ∧
    (∀ k < i, ∀ q, planes[k]? = some q → v.Leaves q) ∧ planes[m]? = some later ∧
    i ≠ j ∧ i ≠ m ∧ j < m ∧ later.dot p ≠ 0

/-- **What a clipped velocity leaves.**  In exact arithmetic, a velocity that is clipped against
    unit normals runs into a surface of the list only if that had its turn before another one that
    is not perpendicular to it, and a third one was run into before both.  So it leaves all surfaces
    if these are two, or perpendicular to each other. -/
theorem clipToPlanes?_leaves (hunit : ∀ p ∈ planes, p.dot p = 1) (hover : 1 ≤ overclip)
    (h : clipToPlanes? planes v overclip = some v') :
    (∀ j p, planes[j]? = some p → v'.move.dot p < 0 → Overruled planes v.move j p) ∧
      (planes.length ≤ 2 ∨ planes.Pairwise (fun p q => p.dot q = 0) →
        ∀ p ∈ planes, 0 ≤ v'.move.dot p) := by
  have hback : ∀ j p, planes[j]? = some p → v'.move.dot p < 0 → Overruled planes v.move j p := by
    intro j p hp hneg
    rcases clipToPlanes?_cases h with ⟨rfl, hleaves⟩ | ⟨i, first, hfirst, hinto, hfirst', hturns⟩
    · have hle := intoPlaneTolerance_pos.le.trans (hleaves p (List.mem_of_getElem? hp))
      exact absurd hle (not_le.2 hneg)
    · have hcleared := Velocities.cleared_of_turns hunit hover hfirst hturns
      obtain ⟨m, -, later, hlater, hmi, hjm, hdot⟩ :=
        hcleared.later j (List.getElem?_eq_some_iff.1 hp).1 p hp hneg
      refine ⟨i, first, m, later, hfirst, hinto, hfirst', hlater, ?_, hmi.symm, hjm, hdot⟩
      rintro rfl
      obtain rfl : first = p := Option.some.inj (hfirst.symm.trans hp)
      exact absurd hcleared.first (not_le.2 hneg)
  refine ⟨hback, fun hfew p hp => ?_⟩
  by_contra hneg
  obtain ⟨j, hj, hjp⟩ := List.mem_iff_getElem.1 hp
  obtain ⟨i, first, m, later, hfirst, -, -, hlater, hij, him, hjm, hdot⟩ :=
    hback j p (List.getElem?_eq_some_iff.2 ⟨hj, hjp⟩) (not_le.1 hneg)
  obtain ⟨hi, -⟩ := List.getElem?_eq_some_iff.1 hfirst
  obtain ⟨hm, hmq⟩ := List.getElem?_eq_some_iff.1 hlater
  rcases hfew with htwo | hperp
  · -- three different numbers below two
    omega
  · have hzero := List.pairwise_iff_getElem.1 hperp j m hj hm hjm
    rw [hjp, hmq, Vec3.dot_comm] at hzero
    exact hdot hzero

/-- A floor, a direction of travel along it, and two walls that close in on that direction. -/
def alcove {α : Type} [Scalar α] : List (Vec3 α) :=
  [Vec3.up 1, ⟨1, 0, 0⟩, ⟨-0.6, 0.8, 0⟩, ⟨-0.6, -0.8, 0⟩]

/-- A velocity along the first wall is clipped against the second.  That drives it back into the
    first, which had its turn before; the floor was run into before both. -/
theorem alcove_leaves :
    (∀ p ∈ (alcove : List (Vec3 ℚ)), p.dot p = 1) ∧
      clipToPlanes? (alcove : List (Vec3 ℚ)) ⟨⟨64, 48, 0⟩, ⟨64, 48, 0⟩⟩ 1 =
        some ⟨⟨17.92, -13.44, 0⟩, ⟨17.92, -13.44, 0⟩⟩ ∧
      Overruled (alcove : List (Vec3 ℚ)) ⟨64, 48, 0⟩ 2 ⟨-0.6, 0.8, 0⟩ := by
  have hunit : ∀ p ∈ (alcove : List (Vec3 ℚ)), p.dot p = 1 := by decide +kernel
  have hclipped : clipToPlanes? (alcove : List (Vec3 ℚ)) ⟨⟨64, 48, 0⟩, ⟨64, 48, 0⟩⟩ 1 =
      some ⟨⟨17.92, -13.44, 0⟩, ⟨17.92, -13.44, 0⟩⟩ := by decide +kernel
  exact ⟨hunit, hclipped, (clipToPlanes?_leaves hunit (le_refl 1) hclipped).1 2 _ rfl
    (by decide +kernel)⟩

/-- Over the reals, a velocity that was clipped against unit normals may run into one of them. -/
theorem alcove_runs_into_wall :
    (∀ p ∈ (alcove : List (Vec3 ℝ)), p.dot p = 1) ∧
      ∃ v', clipToPlanes? (alcove : List (Vec3 ℝ)) ⟨⟨64, 48, 0⟩, ⟨64, 48, 0⟩⟩ 1 = some v' ∧
        ∃ p ∈ (alcove : List (Vec3 ℝ)), v'.move.dot p < 0 := by
  refine ⟨?_, ⟨⟨17.92, -13.44, 0⟩, ⟨17.92, -13.44, 0⟩⟩, ?_, ⟨-0.6, 0.8, 0⟩, ?_, ?_⟩
  · norm_num [alcove, Vec3.dot, Vec3.up]
  · norm_num [alcove, clipToPlanes?, clipToOthers?, List.zipIdx, List.find?, Vec3.Leaves,
      intoPlaneTolerance, Velocities.clip, Vec3.clip, Vec3.dot, Vec3.up, Vec3.ext_iff]
  · simp [alcove]
  · norm_num [Vec3.dot]

/-! ### Speed -/

section

variable {planes : List (Vec3 ℝ)} {v v' : Velocities ℝ} {overclip : ℝ}

/-- Clipping against a unit normal makes no velocity faster. -/
theorem Vec3.length_clip_le (v : Vec3 ℝ) {normal : Vec3 ℝ} (hunit : normal.length = 1)
    (hover : 1 ≤ overclip) (htwice : overclip ≤ 2) :
    (v.clip normal overclip).length ≤ v.length :=
  length_le_of_dot_le (v.dot_clip_self_le (dot_self_of_length_eq_one hunit) hover htwice)

/-- **Speed.** A velocity that is clipped against unit normals gets no faster, whether it is clipped
    or taken along an edge. -/
theorem length_clipToPlanes?_le (hunit : ∀ p ∈ planes, p.length = 1) (hover : 1 ≤ overclip)
    (htwice : overclip ≤ 2) (h : clipToPlanes? planes v overclip = some v') :
    v'.move.length ≤ v.move.length := by
  rcases clipToPlanes?_cases h with ⟨rfl, -⟩ | ⟨i, plane, hplane, -, -, hturns⟩
  · exact le_refl _
  have hfirst : (v.clip plane overclip).move.length ≤ v.move.length :=
    v.move.length_clip_le (hunit plane (List.mem_of_getElem? hplane)) hover htwice
  refine foldlM_zipIdx_induction (P := fun _ c => c.move.length ≤ v.move.length) hfirst ?_ hturns
  intro n hn c c' hc hturn
  have hq : planes[n].length = 1 := hunit _ (List.getElem_mem hn)
  rcases Velocities.turn?_cases hturn with ⟨rfl, -⟩ | ⟨rfl, -⟩ | ⟨rfl, -⟩
  · exact hc
  · exact (c.move.length_clip_le hq hover htwice).trans hc
  · -- an edge is run along with a part of the velocity before any clipping
    exact Vec3.length_along_le v.move (plane.cross planes[n])

end

end Stride
