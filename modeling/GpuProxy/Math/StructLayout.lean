import Mathlib.Data.List.Basic
import Mathlib.Data.List.Forall2
import Mathlib.Data.Nat.ModEq

/-!
# The layout of structures

Fields of some sizes are placed behind each other, each at a multiple of its alignment. The bytes
in between belong to no field and are never written.

## Main definitions

* `StructField`, `roundUp`, `offsets`, `layoutEnd` — where fields are placed
* `storeFields`, `loadFields` — all fields are stored into a block, or loaded from it

## Main results

* `offsets_spec` — fields are aligned, and do not overlap
* `loadFields_storeFields` — what was stored is loaded, whatever was in the block
-/

namespace GpuProxy.Math

/-- A field of a structure. -/
structure StructField where
  size : ℕ
  align : ℕ
  align_pos : 0 < align

/-- The least multiple of `a` that is not less than `n`. -/
def roundUp (n a : ℕ) : ℕ := (n + (a - 1)) / a * a

/-- Where fields are placed, from `start` on. -/
def offsets : ℕ → List StructField → List ℕ
  | _, [] => []
  | start, field :: fields =>
    let offset := roundUp start field.align
    offset :: offsets (offset + field.size) fields

/-- Where the last field ends. -/
def layoutEnd : ℕ → List StructField → ℕ
  | start, [] => start
  | start, field :: fields => layoutEnd (roundUp start field.align + field.size) fields

section Offsets

variable {n a start : ℕ} {fields : List StructField}

theorem le_roundUp (ha : 0 < a) : n ≤ roundUp n a := by
  have hlt := Nat.lt_div_mul_add ha (a := n + (a - 1))
  unfold roundUp
  omega

theorem dvd_roundUp : a ∣ roundUp n a := Nat.dvd_mul_left a _

@[simp] theorem offsets_nil : offsets start [] = [] := rfl

@[simp] theorem length_offsets : (offsets start fields).length = fields.length := by
  induction fields generalizing start with
  | nil => rfl
  | cons field fields ih => simp [offsets, ih]

theorem roundUp_add {k : ℕ} (h : a ∣ k) : roundUp (k + n) a = k + roundUp n a := by
  obtain ⟨j, rfl⟩ := h
  rcases Nat.eq_zero_or_pos a with rfl | ha
  · simp [roundUp]
  · rw [roundUp, Nat.add_assoc, Nat.mul_add_div ha, Nat.add_mul, Nat.mul_comm j, roundUp]

/-- A structure that begins with an aligned part is laid out as without it. -/
theorem offsets_add {k : ℕ} (start : ℕ) (h : ∀ field ∈ fields, field.align ∣ k) :
    offsets (k + start) fields = (offsets start fields).map (k + ·) ∧
      layoutEnd (k + start) fields = k + layoutEnd start fields := by
  induction fields generalizing start with
  | nil => exact ⟨rfl, rfl⟩
  | cons field fields ih =>
    have hround := roundUp_add (n := start) (h field List.mem_cons_self)
    obtain ⟨hoffsets, hend⟩ := ih (roundUp start field.align + field.size)
      fun field' hfield' => h field' (List.mem_cons_of_mem _ hfield')
    rw [← Nat.add_assoc] at hoffsets hend
    constructor
    · rw [offsets, hround, hoffsets, offsets, List.map_cons]
    · rw [layoutEnd, hround, hend, layoutEnd]

theorem le_layoutEnd (start : ℕ) (fields : List StructField) :
    start ≤ layoutEnd start fields := by
  induction fields generalizing start with
  | nil => exact le_rfl
  | cons field fields ih =>
    calc start ≤ roundUp start field.align := le_roundUp field.align_pos
      _ ≤ roundUp start field.align + field.size := Nat.le_add_right _ _
      _ ≤ layoutEnd start (field :: fields) := ih _

/-- Fields are aligned, begin where the structure begins or later, and end before the next one
begins and where the structure ends. -/
theorem offsets_spec (start : ℕ) (fields : List StructField) : List.Forall₂ (fun offset field =>
      field.align ∣ offset ∧ start ≤ offset ∧ offset + field.size ≤ layoutEnd start fields)
    (offsets start fields) fields ∧
    ((offsets start fields).zip fields).Pairwise fun p q => p.1 + p.2.size ≤ q.1 := by
  induction fields generalizing start with
  | nil => exact ⟨.nil, .nil⟩
  | cons field fields ih =>
    obtain ⟨hplaced, hapart⟩ := ih (roundUp start field.align + field.size)
    have hle : start ≤ roundUp start field.align := le_roundUp field.align_pos
    refine ⟨.cons ⟨dvd_roundUp, hle, le_layoutEnd ..⟩ (hplaced.imp ?_), ?_⟩
    · rintro offset field' ⟨hdvd, hstart, hend⟩
      exact ⟨hdvd, by omega, hend⟩
    · refine List.pairwise_cons.mpr ⟨fun p hp => ?_, hapart⟩
      exact (List.forall₂_zip hplaced hp).2.1

theorem offsets_append (start : ℕ) (fields behind : List StructField) :
    offsets start (fields ++ behind) =
      offsets start fields ++ offsets (layoutEnd start fields) behind := by
  induction fields generalizing start with
  | nil => rfl
  | cons field fields ih => rw [List.cons_append, offsets, ih, offsets, layoutEnd, List.cons_append]

end Offsets

/-! ### Blocks -/

variable {β : Type*} {block bytes : List β} {offset start n : ℕ} {fields : List StructField}
  {values : List (List β)}

/-- Bytes are stored into a block. -/
def storeAt (block : List β) (offset : ℕ) (bytes : List β) : List β :=
  block.take offset ++ bytes ++ block.drop (offset + bytes.length)

/-- Bytes are loaded from a block. -/
def loadAt (block : List β) (offset n : ℕ) : List β := (block.drop offset).take n

def storeFields (block : List β) (start : ℕ) (fields : List StructField)
    (values : List (List β)) : List β :=
  ((offsets start fields).zip values).foldl (fun block p => storeAt block p.1 p.2) block

def loadFields (block : List β) (start : ℕ) (fields : List StructField) : List (List β) :=
  List.zipWith (fun offset field => loadAt block offset field.size) (offsets start fields) fields

theorem length_storeAt (h : offset + bytes.length ≤ block.length) :
    (storeAt block offset bytes).length = block.length := by
  simp only [storeAt, List.length_append, List.length_take, List.length_drop]
  omega

theorem loadAt_storeAt (h : offset + bytes.length ≤ block.length) :
    loadAt (storeAt block offset bytes) offset bytes.length = bytes := by
  have hlength : (block.take offset).length = offset := by
    rw [List.length_take]
    omega
  rw [loadAt, storeAt, List.append_assoc, List.drop_append_of_le_length hlength.ge,
    List.drop_of_length_le hlength.le, List.nil_append, List.take_left]

/-- What is stored behind some bytes does not change them. -/
theorem loadAt_storeAt_of_le {offset' : ℕ} (hapart : offset' + n ≤ offset)
    (h : offset + bytes.length ≤ block.length) :
    loadAt (storeAt block offset bytes) offset' n = loadAt block offset' n := by
  have hlength : (block.take offset).length = offset := by
    rw [List.length_take]
    omega
  have htake : (storeAt block offset bytes).take offset = block.take offset := by
    rw [storeAt, List.append_assoc, List.take_append_of_le_length hlength.ge, List.take_take,
      Nat.min_self]
  calc loadAt (storeAt block offset bytes) offset' n
      = loadAt ((storeAt block offset bytes).take offset) offset' n := by
        rw [loadAt, loadAt, List.drop_take, List.take_take, Nat.min_eq_left (by omega)]
    _ = loadAt block offset' n := by
        rw [htake, loadAt, loadAt, List.drop_take, List.take_take, Nat.min_eq_left (by omega)]

/-- What the fields are given keeps what is before them. -/
theorem storeFields_spec (hvalues : List.Forall₂ (fun bytes field => bytes.length = field.size)
      values fields) (hblock : layoutEnd start fields ≤ block.length) :
    (storeFields block start fields values).length = block.length ∧
      (∀ offset n, offset + n ≤ start →
        loadAt (storeFields block start fields values) offset n = loadAt block offset n) ∧
      loadFields (storeFields block start fields values) start fields = values := by
  induction hvalues generalizing block start with
  | nil => exact ⟨rfl, fun _ _ _ => rfl, rfl⟩
  | @cons bytes field values fields hbytes hvalues ih =>
    rw [layoutEnd] at hblock
    have hend := le_layoutEnd (roundUp start field.align + field.size) fields
    have hstart := le_roundUp field.align_pos (n := start)
    have hfits : roundUp start field.align + bytes.length ≤ block.length := by omega
    have hlength := length_storeAt hfits
    obtain ⟨hlength', hbefore, hload⟩ := ih (hblock.trans hlength.ge)
    have hstore : storeFields block start (field :: fields) (bytes :: values) =
        storeFields (storeAt block (roundUp start field.align) bytes)
          (roundUp start field.align + field.size) fields values := rfl
    rw [hstore]
    refine ⟨hlength'.trans hlength, fun offset n hn => ?_, ?_⟩
    · rw [hbefore offset n (by omega), loadAt_storeAt_of_le (by omega) hfits]
    · have hfirst : loadAt (storeFields (storeAt block (roundUp start field.align) bytes)
          (roundUp start field.align + field.size) fields values) (roundUp start field.align)
          field.size = bytes := by
        rw [hbefore _ _ le_rfl, ← hbytes, loadAt_storeAt hfits]
      rw [loadFields, offsets, List.zipWith_cons_cons, hfirst, ← loadFields, hload]

/-- What was stored is loaded, whatever was in the block. -/
theorem loadFields_storeFields (hvalues : List.Forall₂ (fun bytes field =>
      bytes.length = field.size) values fields) (hblock : layoutEnd start fields ≤ block.length) :
    loadFields (storeFields block start fields values) start fields = values :=
  (storeFields_spec hvalues hblock).2.2

/-- The fields at the beginning are loaded, whatever is stored behind them. -/
theorem loadFields_storeFields_append {behind : List StructField} {others : List (List β)}
    (hvalues : List.Forall₂ (fun bytes field => bytes.length = field.size) values fields)
    (hothers : List.Forall₂ (fun bytes field => bytes.length = field.size) others behind)
    (hblock : layoutEnd start (fields ++ behind) ≤ block.length) :
    loadFields (storeFields block start (fields ++ behind) (values ++ others)) start fields =
      values := by
  have hload := loadFields_storeFields (List.rel_append hvalues hothers) hblock
  rw [loadFields, offsets_append, List.zipWith_append length_offsets] at hload
  refine (List.append_inj hload ?_).1
  rw [List.length_zipWith, length_offsets, Nat.min_self, hvalues.length_eq]

end GpuProxy.Math
