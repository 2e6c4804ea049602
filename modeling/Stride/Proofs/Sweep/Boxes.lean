import Mathlib
import Stride.Proofs.Single.Unrounded
import Stride.Proofs.Sweep.Search
import Stride.Proofs.World.Boxes

namespace Stride

/-!
# Boxes are solid where they are

In a level of boxes a position is not clear exactly if it lies in a collidable box that is grown by
the radius.  A position on a face, or between corners that are the wrong way round, is no exception,
and neither is a point in single precision: the distance to a face may be rounded or overflow there,
but it has the right sign.

* `Box.Reaches` — the box, grown by the radius of a sphere.
* `Box.behind_iff_exact`, `Box.IsFinite.behind_iff` — behind all six faces is inside.
* `Builder.boxes_not_clear` — the whole level, read exactly and in single precision.
-/

/-- The point lies in the box, if each side is moved outwards by the radius. -/
def Box.Reaches {α : Type} [Scalar α] (box : Box α) (point : Vec3 α) (radius : α) : Prop :=
  (box.mins.x - radius ≤ point.x ∧ point.x ≤ box.maxs.x + radius) ∧
    (box.mins.y - radius ≤ point.y ∧ point.y ≤ box.maxs.y + radius) ∧
    (box.mins.z - radius ≤ point.z ∧ point.z ≤ box.maxs.z + radius)

instance {α : Type} [Scalar α] (box : Box α) (point : Vec3 α) (radius : α) :
    Decidable (box.Reaches point radius) :=
  inferInstanceAs (Decidable ((_ ∧ _) ∧ (_ ∧ _) ∧ (_ ∧ _)))

/-! ### Levels of boxes -/

/-- **Levels of boxes** are built, whatever their corners are, if the faces are sound, and in them
    the positions that are not clear are those behind all faces of a collidable box. -/
theorem Builder.exists_world_ofBoxes {α : Type} [Scalar α] [Scalar.Lawful α] {boxes : List (Box α)}
    (h : ∀ box ∈ boxes, ∀ p ∈ box.faces, p.IsSound) :
    ∃ w, (ofBoxes boxes).buildSingleLeaf = .ok w ∧
      (6 * boxes.length ≤ UInt32.size → ∀ point radius, w.isClear point radius = false ↔
        ∃ box ∈ boxes, box.collidable = true ∧
          ∀ p ∈ box.faces, ¬ 0 < p.distanceTo point - radius) := by
  refine ⟨_, buildSingleLeaf_ofBoxes h, fun hnumbers point radius => ?_⟩
  rw [(World.ofBoxes_wellFormed boxes).isClear_eq_false_iff_of_leaf
    (World.node?_root_ofBoxes boxes)]
  exact World.exists_solid_ofBoxes_iff hnumbers (P := fun p => ¬ 0 < p.distanceTo point - radius)

/-! ### Exact arithmetic -/

section

variable {K : Type} [Field K] [LinearOrder K] [IsStrictOrderedRing K] [HasSqrt K]

/-- Behind all six faces is inside. -/
theorem Box.behind_iff_exact (box : Box K) (point : Vec3 K) (radius : K) :
    (∀ p ∈ box.faces, ¬ 0 < p.distanceTo point - radius) ↔ box.Reaches point radius := by
  simp only [forall_mem_faces, Plane.distanceTo, Vec3.dot, not_lt, Reaches, one_mul, zero_mul,
    neg_one_mul, add_zero, zero_add, sub_neg_eq_add]
  constructor
  · rintro ⟨hx, hx', hy, hy', hz, hz'⟩
    refine ⟨⟨?_, ?_⟩, ⟨?_, ?_⟩, ?_, ?_⟩ <;> linarith
  · rintro ⟨⟨hx, hx'⟩, ⟨hy, hy'⟩, hz, hz'⟩
    refine ⟨?_, ?_, ?_, ?_, ?_, ?_⟩ <;> linarith

/-- The faces of a box are sound, if the root of one is one. -/
theorem Box.sound_exact (hroot : HasSqrt.sqrt (1 : K) = 1) (box : Box K) :
    ∀ p ∈ box.faces, p.IsSound := by
  have hsound {n : Vec3 K} (hn : n.dot n = 1) (m : K) : (⟨n, m⟩ : Plane K).IsSound := by
    have hlength : n.length = 1 := by
      rw [Vec3.length, hn]
      exact hroot
    refine ⟨rfl, ?_, rfl⟩
    rw [hlength, sub_self, Scalar.abs, if_neg (lt_irrefl 0), Plane.normalTolerance]
    norm_num
  refine forall_mem_faces.2 ⟨?_, ?_, ?_, ?_, ?_, ?_⟩ <;> exact hsound (by simp [Vec3.dot]) _

end

/-! ### Single precision -/

namespace Single

variable {a b c r : Float32}

/-- A sphere without extent is not in front of an upper face, if the inner product is exact. -/
theorem not_pos_above_iff (ha : Exactly a (value c)) (hb : b.isFinite = true)
    (hc : c.isFinite = true) (hr : IsZero r) : ¬ 0 < a - b - r ↔ c ≤ b + r := by
  rw [pos_sub_zero_iff _ hr, pos_sub_iff ha.isFinite hb, ha.value_eq, not_lt,
    le_iff_of_alike (.refl c) (alike_add_zero hb hr), le_iff_value hc hb]

/-- The same of a lower face. -/
theorem not_pos_below_iff (ha : Exactly a (-value c)) (hb : b.isFinite = true)
    (hc : c.isFinite = true) (hr : IsZero r) : ¬ 0 < a - -b - r ↔ b - r ≤ c := by
  rw [pos_sub_zero_iff _ hr, pos_sub_iff ha.isFinite (isFinite_neg hb), ha.value_eq, value_neg hb,
    neg_lt_neg_iff, not_lt, le_iff_of_alike (alike_sub_zero hb hr) (.refl c), le_iff_value hb hc]

end Single

namespace Box

open Single

/-- The corners of the box are finite. -/
@[mk_iff]
structure IsFinite (box : Box Float32) : Prop where
  /-- The one corner is. -/
  mins : ∀ c ∈ box.mins.toList, c.isFinite = true
  /-- The other corner is. -/
  maxs : ∀ c ∈ box.maxs.toList, c.isFinite = true

instance (box : Box Float32) : Decidable box.IsFinite := decidable_of_iff' _ (isFinite_iff box)

namespace IsFinite

variable {box : Box Float32}

/-- **Behind all six faces** is inside, also where the corners are the wrong way round and where a
    distance overflows. -/
theorem behind_iff (hbox : box.IsFinite) {point : Vec3 Float32}
    (hpoint : ∀ c ∈ point.toList, c.isFinite = true) {radius : Float32}
    (hradius : Scalar.same radius 0 = true) :
    (∀ p ∈ box.faces, ¬ 0 < p.distanceTo point - radius) ↔ box.Reaches point radius := by
  have hzero := isZero_of_same hradius
  obtain ⟨hx, hy, hz⟩ := Vec3.forall_mem_toList.1 hpoint
  obtain ⟨hmins, hmins', hmins''⟩ := Vec3.forall_mem_toList.1 hbox.mins
  obtain ⟨hmaxs, hmaxs', hmaxs''⟩ := Vec3.forall_mem_toList.1 hbox.maxs
  -- of each inner product only one term is not zero
  have px := exactly_value hx
  have py := exactly_value hy
  have pz := exactly_value hz
  simp only [forall_mem_faces, Plane.distanceTo, Vec3.dot]
  rw [not_pos_above_iff ((px.one_mul.add_zero py.zero_mul).add_zero pz.zero_mul) hmaxs hx hzero,
    not_pos_below_iff ((px.neg_one_mul.add_zero py.zero_mul).add_zero pz.zero_mul) hmins hx hzero,
    not_pos_above_iff ((px.zero_mul.zero_add py.one_mul).add_zero pz.zero_mul) hmaxs' hy hzero,
    not_pos_below_iff ((px.zero_mul.zero_add py.neg_one_mul).add_zero pz.zero_mul) hmins' hy hzero,
    not_pos_above_iff ((px.zero_mul.zero_add py.zero_mul).zero_add pz.one_mul) hmaxs'' hz hzero,
    not_pos_below_iff ((px.zero_mul.zero_add py.zero_mul).zero_add pz.neg_one_mul) hmins'' hz hzero]
  rw [Reaches]
  tauto

/-- The faces of a box with finite corners are sound. -/
theorem sound (hbox : box.IsFinite) : ∀ p ∈ box.faces, p.IsSound := by
  have hnormals : ∀ n ∈ [⟨1, 0, 0⟩, ⟨-1, 0, 0⟩, ⟨0, 1, 0⟩, ⟨0, -1, 0⟩, ⟨0, 0, 1⟩,
      (⟨0, 0, -1⟩ : Vec3 Float32)], Scalar.isFinite n.length = true ∧
        ¬ Plane.normalTolerance < Scalar.abs (n.length - 1) := by
    decide +kernel
  have hsound {n : Vec3 Float32} (hn : n ∈ [⟨1, 0, 0⟩, ⟨-1, 0, 0⟩, ⟨0, 1, 0⟩, ⟨0, -1, 0⟩, ⟨0, 0, 1⟩,
      (⟨0, 0, -1⟩ : Vec3 Float32)]) {m : Float32} (hm : m.isFinite = true) :
      (⟨n, m⟩ : Plane Float32).IsSound := ⟨(hnormals n hn).1, (hnormals n hn).2, hm⟩
  obtain ⟨hmins, hmins', hmins''⟩ := Vec3.forall_mem_toList.1 hbox.mins
  obtain ⟨hmaxs, hmaxs', hmaxs''⟩ := Vec3.forall_mem_toList.1 hbox.maxs
  exact forall_mem_faces.2
    ⟨hsound (by simp) hmaxs, hsound (by simp) (isFinite_neg hmins), hsound (by simp) hmaxs',
      hsound (by simp) (isFinite_neg hmins'), hsound (by simp) hmaxs'',
      hsound (by simp) (isFinite_neg hmins'')⟩

end IsFinite

end Box

/-! ### The level -/

/-- **Boxes are solid where they are.**  However many boxes are added, with corners in any order,
    the level is built.  As long as the planes can be told apart by number, a position is not clear
    there exactly if it lies in a collidable box that is grown by the radius: in exact arithmetic
    for every position and radius, and in single precision for every finite position and a radius
    of zero. -/
theorem Builder.boxes_not_clear {K : Type} [Field K] [LinearOrder K] [IsStrictOrderedRing K]
    [HasSqrt K] (hroot : HasSqrt.sqrt (1 : K) = 1) (boxes : List (Box K))
    (singles : List (Box Float32)) (hfinite : ∀ box ∈ singles, box.IsFinite) :
    (∃ w, (ofBoxes boxes).buildSingleLeaf = .ok w ∧
      (6 * boxes.length ≤ UInt32.size → ∀ point radius, w.isClear point radius = false ↔
        ∃ box ∈ boxes, box.collidable = true ∧ box.Reaches point radius)) ∧
    ∃ w, (ofBoxes singles).buildSingleLeaf = .ok w ∧
      (6 * singles.length ≤ UInt32.size → ∀ point : Vec3 Float32,
        (∀ c ∈ point.toList, c.isFinite = true) → ∀ radius, Scalar.same radius 0 = true →
          (w.isClear point radius = false ↔
            ∃ box ∈ singles, box.collidable = true ∧ box.Reaches point radius)) := by
  constructor
  · have hsound : ∀ box ∈ boxes, ∀ p ∈ box.faces, p.IsSound := fun box _ => box.sound_exact hroot
    obtain ⟨w, hbuild, hclear⟩ := exists_world_ofBoxes hsound
    refine ⟨w, hbuild, fun hnumbers point radius => ?_⟩
    simp only [hclear hnumbers, Box.behind_iff_exact]
  · obtain ⟨w, hbuild, hclear⟩ := exists_world_ofBoxes fun box hbox => (hfinite box hbox).sound
    refine ⟨w, hbuild, fun hnumbers point hpoint radius hradius => ?_⟩
    rw [hclear hnumbers]
    exact exists_congr fun box => and_congr_right fun hbox => and_congr_right fun _ =>
      (hfinite box hbox).behind_iff hpoint hradius

/-- A crate, one whose corners are the wrong way round in one direction, and one that sweeps pass
    through. -/
def crates {α : Type} [Scalar α] : List (Box α) :=
  [⟨⟨-1, -1, 0⟩, ⟨1, 1, 0.1⟩, true⟩, ⟨⟨4.0, 0, 0⟩, ⟨2.0, 1, 1⟩, true⟩, ⟨0, ⟨1, 1, 8.0⟩, false⟩]

/-- The corner of the first crate is not clear; between the corners of the second it is clear,
    unless the radius bridges them, and within the third it is. -/
theorem crates_not_clear :
    (HasSqrt.sqrt (1 : ℚ) = 1 ∧ ∃ w, (Builder.ofBoxes (crates : List (Box ℚ))).buildSingleLeaf =
      .ok w ∧ ¬ w.isClear ⟨3, 0, 0⟩ (1 / 2) = false ∧ w.isClear ⟨3, 0, 0⟩ 1 = false) ∧
    (∀ box ∈ (crates : List (Box Float32)), box.IsFinite) ∧
      ∃ w, (Builder.ofBoxes (crates : List (Box Float32))).buildSingleLeaf = .ok w ∧
        w.isClear ⟨-1, 1, 0.1⟩ (-0) = false ∧ ¬ w.isClear ⟨3, 0, 0⟩ 0 = false ∧
        ¬ w.isClear ⟨0.5, 0.5, 4⟩ 0 = false := by
  have hroot : HasSqrt.sqrt (1 : ℚ) = 1 := by decide +kernel
  have hfinite : ∀ box ∈ (crates : List (Box Float32)), box.IsFinite := by decide +kernel
  obtain ⟨⟨v, hv, hexact⟩, w, hw, hsingle⟩ :=
    Builder.boxes_not_clear hroot (crates : List (Box ℚ)) crates hfinite
  have hnumbers : 6 * 3 ≤ UInt32.size := by decide
  refine ⟨⟨hroot, v, hv, ?_, ?_⟩, hfinite, w, hw, ?_, ?_, ?_⟩
  · rw [hexact hnumbers]
    decide +kernel
  · rw [hexact hnumbers]
    decide +kernel
  · rw [hsingle hnumbers _ (by decide +kernel) _ (by decide +kernel)]
    decide +kernel
  · rw [hsingle hnumbers _ (by decide +kernel) _ (by decide +kernel)]
    decide +kernel
  · rw [hsingle hnumbers _ (by decide +kernel) _ (by decide +kernel)]
    decide +kernel

end Stride
