import Stride.Proofs.Json.Digits

namespace Stride.Json

/-!
# Echoes

A reader echoes a text as a value if within any text, in front of whatever can follow a value, it
takes all of that text and reads the value.  Some values have no text that could be read, such as a
list with a NaN in it: then the reader fails, and always with the same fault.  What is built from
values that are echoed is echoed itself, and is legible if all of its parts are.

* `Echoes` — the relation between a reader, a text and a value.
* `Echoes.int64`, `Echoes.single`, `Echoes.boolean`, `Echoes.option` — values without brackets.
* `Echoes.read_eq` — a whole text.
-/

variable {β γ : Type} {fault : Fault} {r : Reader β} {text : List Char} {legible : Bool} {v : β}

/-- Whether a text starts with a character that is neither blank nor a closing bracket. -/
def Opens (text : List Char) : Prop := ∃ c cs, text = c :: cs ∧ isBlank c = false ∧ c ≠ ']'

/-- A reader that takes all of a text and reads the value if it is `legible`, and else fails. -/
structure Echoes (fault : Fault) (r : Reader β) (text : List Char) (legible : Bool) (v : β) :
    Prop where
  /-- The text starts as that of a value does. -/
  opens : Opens text
  /-- What is read in front of anything that can follow a value. -/
  reads : ∀ rest, Ends rest → r (text ++ rest) = if legible then .ok (v, rest) else .error fault

/-- The text of a value has no blanks in front. -/
theorem Opens.skipBlank (h : Opens text) (rest : List Char) :
    skipBlank (text ++ rest) = text ++ rest := by
  obtain ⟨c, cs, rfl, hblank, -⟩ := h
  exact skipBlank_cons hblank _

namespace Echoes

/-- A reader that is not disturbed by what follows echoes what it reads. -/
theorem of_local (hlocal : Local r) (hopens : Opens text) (h : r text = .ok (v, [])) :
    Echoes fault r text true v :=
  ⟨hopens, fun _ hrest => hlocal h hrest⟩

/-- What is legible never fails. -/
theorem of_legible {other : Fault} (h : Echoes fault r text true v) : Echoes other r text true v :=
  ⟨h.opens, h.reads⟩

/-- What is applied to a value. -/
theorem map (h : Echoes fault r text legible v) (f : β → γ) :
    Echoes fault (r.map f) text legible (f v) where
  opens := h.opens
  reads rest hrest := by
    rw [Reader.map, h.reads rest hrest]
    cases legible <;> rfl

/-! ### Values without brackets -/

end Echoes

theorem opens_of_startsNumber (h : ∃ c cs, text = c :: cs ∧ startsNumber c = true) :
    Opens text := by
  obtain ⟨c, cs, htext, hstarts⟩ := h
  refine ⟨c, cs, htext, isBlank_of_startsNumber hstarts, ?_⟩
  rintro rfl
  cases hstarts

theorem opens_writeInt (n : Int) : Opens (writeInt n) := opens_of_startsNumber (writeInt_eq_cons n)

namespace Echoes

theorem integer (expected : String) {lo hi n : Int} (hlo : lo ≤ n) (hhi : n ≤ hi)
    (hmin : Int64.minValue.toInt ≤ lo) (hmax : hi < UInt64.size) :
    Echoes fault (integer expected lo hi) (writeInt n) true n :=
  of_local (numeric_local _ _) (opens_writeInt n) (integer_writeInt expected hlo hhi hmin hmax)

theorem int32 (n : Int32) : Echoes fault int32 (writeInt n.toInt) true n := by
  have hecho : Echoes fault Json.int32 (writeInt n.toInt) true (Int32.ofInt n.toInt) :=
    (integer "i32" (Int32.le_toInt n) (Int32.toInt_le n) (by decide) (by decide)).map Int32.ofInt
  rwa [Int32.ofInt_toInt] at hecho

theorem int64 (n : Int64) : Echoes fault int64 (writeInt n.toInt) true n := by
  have hecho : Echoes fault Json.int64 (writeInt n.toInt) true (Int64.ofInt n.toInt) :=
    (integer "i64" (Int64.le_toInt n) (Int64.toInt_le n) (by decide) (by decide)).map Int64.ofInt
  rwa [Int64.ofInt_toInt] at hecho

theorem nat32 (n : UInt32) : Echoes fault nat32 (writeInt n.toNat) true n := by
  have hlt := n.toNat_lt_size
  have hinteger : Echoes fault (Json.integer "u32" 0 (UInt32.size - 1)) (writeInt n.toNat) true
      n.toNat := integer "u32" (by omega) (by omega) (by decide) (by decide)
  have hecho := hinteger.map fun n => UInt32.ofNat n.toNat
  rwa [Int.toNat_natCast, UInt32.ofNat_toNat] at hecho

theorem count (n : UInt64) : Echoes fault count (writeInt n.toNat) true n := by
  have hlt := n.toNat_lt_size
  have hinteger : Echoes fault (Json.integer "usize" 0 (UInt64.size - 1)) (writeInt n.toNat) true
      n.toNat := integer "usize" (by omega) (by omega) (by decide) (by decide)
  have hecho := hinteger.map fun n => UInt64.ofNat n.toNat
  rwa [Int.toNat_natCast, UInt64.ofNat_toNat] at hecho

theorem boolean (b : Bool) : Echoes fault boolean (writeBool b) true b := by
  cases b
  · exact ⟨⟨_, _, rfl, rfl, by decide⟩, fun _ _ => rfl⟩
  · exact ⟨⟨_, _, rfl, rfl, by decide⟩, fun _ _ => rfl⟩

end Echoes

/-- The fault of a single that is not finite: what is written for it is no number. -/
def Fault.nullSingle : Fault := .mismatch (.invalidType .null "f32")

namespace Echoes

/-- **A single** is legible if it is finite. -/
theorem single {a : Float32} (h : a.isFinite = true → ReadsBack a) :
    Echoes .nullSingle single (writeSingle a) a.isFinite a := by
  cases hfinite : a.isFinite with
  | true =>
    exact of_local (numeric_local _ _) (opens_of_startsNumber (writeSingle_of_isFinite hfinite))
      (h hfinite)
  | false =>
    rw [writeSingle_of_not_isFinite hfinite]
    exact ⟨⟨_, _, rfl, rfl, by decide⟩, fun _ _ => rfl⟩

theorem nullable_none : Echoes fault (nullable r) writeNull true none :=
  ⟨⟨_, _, rfl, rfl, by decide⟩, fun _ _ => rfl⟩

/-- A value that is not written like none. -/
theorem nullable_some (h : Echoes fault r text legible v) (hnull : text.head? ≠ some 'n') :
    Echoes fault (nullable r) text legible (some v) where
  opens := h.opens
  reads rest hrest := by
    have hskip := h.opens.skipBlank rest
    obtain ⟨c, cs, rfl, -, -⟩ := h.opens
    have hc : c ≠ 'n' := fun hc => hnull (by rw [hc]; rfl)
    rw [nullable, hskip]
    simp only [List.cons_append, hc, if_false]
    exact (h.map some).reads rest hrest

/-- **A value or none** is legible if all values are. -/
theorem option {write : β → List Char} (h : ∀ u, Echoes fault r (write u) true u)
    (hnull : ∀ u, (write u).head? ≠ some 'n') (v : Option β) :
    Echoes fault (nullable r) (writeOption write v) true v := by
  cases v with
  | none => exact nullable_none
  | some u => exact (h u).nullable_some (hnull u)

/-! ### Whole texts -/

/-- **A whole text** that is echoed is read as its value if that is legible. -/
theorem read_eq {decode : Decoder β} (h : Echoes fault (decode depthLimit) text legible v) :
    read decode text = if legible then .ok v else .error fault := by
  have hreads := h.reads [] .nil
  rw [List.append_nil] at hreads
  rw [read, hreads]
  cases legible <;> rfl

end Echoes

end Stride.Json
