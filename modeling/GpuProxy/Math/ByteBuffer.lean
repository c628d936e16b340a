import Mathlib.Tactic.Ring

/-!
# Copying rows into a buffer

A buffer has a size and cells, of which those that were written have a value. Copying takes
a run of values from a source, which is a function on addresses; a copy that would pass the
end of the buffer has no result. Rows of one length that are copied behind each other, from
places a fixed step apart, fill the buffer as `copyRows_spec` says.

A program that copies may also be taken as the list of its copies, whether or not they stay in
the buffer they are meant for.

## Main definitions

* `ByteBuffer` — a size, and the cells written
* `ByteBuffer.alloc`, `ByteBuffer.copy`, `ByteBuffer.copyRows` — the operations
* `ByteBuffer.read` — a run of cells, all written
* `Copy`, `copiedRows` — one copy, and the copies of a row each
* `written` — the cells of a memory that a list of copies writes

## Main results

* `copy_spec`, `copyRows_spec` — the cells afterwards
* `read_eq_some_iff` — reading a run, cell by cell
* `copyRows_eq`, `cells_of_copyAll` — the list of copies does to a buffer what the
  program does, and writes the same cells
* `isSome_written_iff`, `totalCount_eq_of_written_eq` — copies behind each other write all
  cells up to the end of the last
-/

namespace GpuProxy.Math

/-- A buffer of which some cells were written. -/
structure ByteBuffer (α : Type*) where
  size : ℕ
  cells : ℕ → Option α
  cells_of_le : ∀ i, size ≤ i → cells i = none

namespace ByteBuffer

variable {α : Type*} {b b' : ByteBuffer α} {source : ℕ → α} {dest src count step n i : ℕ}

/-- A buffer of which nothing was written. -/
def alloc (size : ℕ) : ByteBuffer α := ⟨size, fun _ => none, fun _ _ => rfl⟩

/-- Copying `count` values from `src` on to `dest`. -/
def copy (b : ByteBuffer α) (dest : ℕ) (source : ℕ → α) (src count : ℕ) : Option (ByteBuffer α) :=
  if h : dest + count ≤ b.size then
    some {
      size := b.size
      cells := fun i =>
        if dest ≤ i ∧ i < dest + count then some (source (src + (i - dest))) else b.cells i
      cells_of_le := fun i hi => by
        have hout : ¬(dest ≤ i ∧ i < dest + count) := by omega
        rw [if_neg hout]
        exact b.cells_of_le i hi }
  else none

/-- Copying `n` rows of `count` values behind each other, with the addresses behind the last
one. -/
def copyRows (source : ℕ → α) (count step : ℕ) :
    ℕ → ByteBuffer α → ℕ → ℕ → Option (ByteBuffer α × ℕ × ℕ)
  | 0, b, dest, src => some (b, dest, src)
  | n + 1, b, dest, src => do
    let b ← b.copy dest source src count
    copyRows source count step n b (dest + count) (src + step)

/-- The run of `count` cells from `i` on, if all are written. -/
def read (b : ByteBuffer α) (i : ℕ) : ℕ → Option (List α)
  | 0 => some []
  | count + 1 => do
    let value ← b.cells i
    let values ← b.read (i + 1) count
    return value :: values

@[simp] theorem size_alloc (size : ℕ) : (alloc size : ByteBuffer α).size = size := rfl

@[simp] theorem cells_alloc (size i : ℕ) : (alloc size : ByteBuffer α).cells i = none := rfl

theorem copy_spec (source : ℕ → α) (src : ℕ) (h : dest + count ≤ b.size) :
    ∃ b', b.copy dest source src count = some b' ∧ b'.size = b.size ∧ ∀ i, b'.cells i =
      if dest ≤ i ∧ i < dest + count then some (source (src + (i - dest))) else b.cells i :=
  ⟨_, dif_pos h, rfl, fun _ => rfl⟩

/-- A cell that a row is copied to has the value from its place in its row; the others are as
they were. -/
theorem copyRows_spec (source : ℕ → α) (step src : ℕ) (h : dest + n * count ≤ b.size) :
    ∃ b', copyRows source count step n b dest src =
        some (b', dest + n * count, src + n * step) ∧ b'.size = b.size ∧
      ∀ i, b'.cells i =
        if dest ≤ i ∧ i < dest + n * count then
          some (source (src + (i - dest) / count * step + (i - dest) % count))
        else b.cells i := by
  induction n generalizing b dest src with
  | zero => exact ⟨b, by simp [copyRows], rfl, fun i => by rw [if_neg (by omega)]⟩
  | succ n ih =>
    have hrows : dest + (n + 1) * count = dest + count + n * count := by ring
    obtain ⟨b₁, hcopy, hsize, hcells⟩ :=
      copy_spec source src (by omega : dest + count ≤ b.size)
    obtain ⟨b₂, hrest, hsize₂, hcells₂⟩ :=
      ih (src + step) (by omega : dest + count + n * count ≤ b₁.size)
    refine ⟨b₂, ?_, hsize₂.trans hsize, fun i => ?_⟩
    · rw [copyRows, hcopy]
      simp only [Option.bind_eq_bind, Option.bind_some, hrest, hrows]
      rw [Nat.add_mul, Nat.one_mul, Nat.add_assoc src, Nat.add_comm step]
    · rw [hcells₂, hcells, hrows]
      by_cases hlow : dest ≤ i
      · obtain ⟨k, rfl⟩ := Nat.exists_eq_add_of_le hlow
        rw [Nat.add_sub_cancel_left]
        by_cases hfirst : k < count
        -- The first row.
        · have hdiv : k / count = 0 := Nat.div_eq_of_lt hfirst
          have hmod : k % count = k := Nat.mod_eq_of_lt hfirst
          rw [if_neg (by omega), if_pos (by omega), if_pos (by omega), hdiv, hmod]
          simp
        -- A later row.
        · obtain ⟨m, rfl⟩ := Nat.exists_eq_add_of_le (Nat.le_of_not_lt hfirst)
          have hrow : ¬(dest ≤ dest + (count + m) ∧ dest + (count + m) < dest + count) := by omega
          have hsub : dest + (count + m) - (dest + count) = m := by omega
          rw [if_neg hrow, hsub]
          by_cases hin : dest + (count + m) < dest + count + n * count
          · have hcount : 0 < count := by
              by_contra hzero
              have : n * count = 0 := by simp [Nat.eq_zero_of_not_pos hzero]
              omega
            rw [if_pos (by omega), if_pos (by omega), Nat.add_div_left _ hcount,
              Nat.add_mod_left, Nat.succ_mul]
            congr 2
            omega
          · rw [if_neg (by omega), if_neg (by omega)]
      · rw [if_neg (by omega), if_neg (by omega), if_neg (by omega)]

theorem read_eq_some_iff {values : ℕ → α} :
    b.read i count = some ((List.range count).map values) ↔
      ∀ k < count, b.cells (i + k) = some (values k) := by
  induction count generalizing i values with
  | zero => simp [read]
  | succ count ih =>
    have hcons : (List.range (count + 1)).map values =
        values 0 :: (List.range count).map fun k => values (k + 1) := by
      rw [List.range_succ_eq_map, List.map_cons, List.map_map]
      rfl
    have hread : b.read i (count + 1) = some ((List.range (count + 1)).map values) ↔
        b.cells i = some (values 0) ∧
          b.read (i + 1) count = some ((List.range count).map fun k => values (k + 1)) := by
      rw [hcons]
      cases hcell : b.cells i <;> cases hrest : b.read (i + 1) count <;> simp [read, hcell, hrest]
    rw [hread, ih]
    constructor
    · rintro ⟨hfirst, hrest⟩ k hk
      cases k with
      | zero => exact hfirst
      | succ k =>
        have hcell := hrest k (by omega)
        rwa [Nat.add_assoc, Nat.add_comm 1] at hcell
    · intro hall
      refine ⟨hall 0 (by omega), fun k hk => ?_⟩
      have hcell := hall (k + 1) (by omega)
      rwa [Nat.add_comm k 1, ← Nat.add_assoc, Nat.add_comm 1 k] at hcell

end ByteBuffer

/-! ### Lists of copies -/

/-- Copying `count` values from `src` on to `dest`. -/
structure Copy where
  dest : ℕ
  src : ℕ
  count : ℕ
  deriving DecidableEq, Repr

/-- Copying `n` rows of `count` values behind each other, from places `step` apart. -/
def copiedRows (count step : ℕ) : ℕ → ℕ → ℕ → List Copy
  | 0, _, _ => []
  | n + 1, dest, src => ⟨dest, src, count⟩ :: copiedRows count step n (dest + count) (src + step)

/-- Making the copies into a buffer one by one. -/
def ByteBuffer.copyAll {α : Type*} (source : ℕ → α) (copies : List Copy) (b : ByteBuffer α) :
    Option (ByteBuffer α) :=
  copies.foldlM (fun (b : ByteBuffer α) c => b.copy c.dest source c.src c.count) b

/-- All values a list of copies copies. -/
def totalCount (copies : List Copy) : ℕ := (copies.map Copy.count).sum

section Written

variable {α : Type*}

/-- The cells after one more copy. -/
def Copy.write (source : ℕ → α) (cells : ℕ → Option α) (c : Copy) : ℕ → Option α := fun i =>
  if c.dest ≤ i ∧ i < c.dest + c.count then some (source (c.src + (i - c.dest))) else cells i

/-- The cells a list of copies writes, where nothing was written before. -/
def written (source : ℕ → α) (copies : List Copy) : ℕ → Option α :=
  copies.foldl (Copy.write source) fun _ => none

variable {source : ℕ → α} {copies : List Copy} {cells : ℕ → Option α} {b b' : ByteBuffer α}
  {count step n dest src i : ℕ}

@[simp] theorem totalCount_nil : totalCount [] = 0 := rfl

@[simp] theorem totalCount_cons (c : Copy) :
    totalCount (c :: copies) = c.count + totalCount copies := by
  simp [totalCount]

@[simp] theorem totalCount_append (copies' : List Copy) :
    totalCount (copies ++ copies') = totalCount copies + totalCount copies' := by
  simp [totalCount]

theorem totalCount_copiedRows : totalCount (copiedRows count step n dest src) = n * count := by
  induction n generalizing dest src with
  | zero => simp [copiedRows]
  | succ n ih =>
    rw [copiedRows, totalCount_cons, ih, Nat.succ_mul, Nat.add_comm]

/-- Copying rows into a buffer is making the copies one by one. -/
theorem copyRows_eq : ByteBuffer.copyRows source count step n b dest src =
    (b.copyAll source (copiedRows count step n dest src)).map
      fun b => (b, dest + n * count, src + n * step) := by
  induction n generalizing b dest src with
  | zero => simp [ByteBuffer.copyRows, copiedRows, ByteBuffer.copyAll]
  | succ n ih =>
    rw [ByteBuffer.copyRows, copiedRows, ByteBuffer.copyAll, List.foldlM_cons]
    cases hcopy : b.copy dest source src count with
    | none => rfl
    | some b₁ =>
      simp only [Option.bind_eq_bind, Option.bind_some, ih, ByteBuffer.copyAll]
      congr 1
      funext b₂
      congr 2 <;> ring

/-- If all copies stay in the buffer, its cells are those that are written. -/
theorem cells_of_copyAll (h : b.copyAll source copies = some b') :
    b'.size = b.size ∧ b'.cells = copies.foldl (Copy.write source) b.cells := by
  induction copies generalizing b with
  | nil =>
    cases h
    exact ⟨rfl, rfl⟩
  | cons c copies ih =>
    rw [ByteBuffer.copyAll, List.foldlM_cons] at h
    obtain ⟨b₁, hcopy, hrest⟩ := Option.bind_eq_some_iff.mp h
    have hfirst : b₁.size = b.size ∧ b₁.cells = Copy.write source b.cells c := by
      unfold ByteBuffer.copy at hcopy
      split at hcopy
      · cases hcopy
        exact ⟨rfl, rfl⟩
      · cases hcopy
    obtain ⟨hsize, hcells⟩ := ih hrest
    rw [hfirst.2] at hcells
    exact ⟨hsize.trans hfirst.1, hcells⟩

/-- Copies behind each other, from `dest` on. -/
def Consecutive : ℕ → List Copy → Prop
  | _, [] => True
  | dest, c :: copies => c.dest = dest ∧ Consecutive (dest + c.count) copies

theorem consecutive_append {copies' : List Copy} : Consecutive dest (copies ++ copies') ↔
    Consecutive dest copies ∧ Consecutive (dest + totalCount copies) copies' := by
  induction copies generalizing dest with
  | nil => simp [Consecutive]
  | cons c copies ih =>
    simp only [List.cons_append, Consecutive, ih, totalCount_cons, and_assoc, Nat.add_assoc]

theorem consecutive_copiedRows : Consecutive dest (copiedRows count step n dest src) := by
  induction n generalizing dest src with
  | zero => trivial
  | succ n ih => exact ⟨rfl, ih⟩

/-- Copies behind each other write the cells up to the end of the last one. -/
theorem isSome_foldl_write_iff (h : Consecutive dest copies) :
    (copies.foldl (Copy.write source) cells i).isSome ↔
      (cells i).isSome ∨ dest ≤ i ∧ i < dest + totalCount copies := by
  induction copies generalizing dest cells with
  | nil => simp
  | cons c copies ih =>
    obtain ⟨rfl, hrest⟩ := h
    rw [List.foldl_cons, ih hrest, totalCount_cons, Copy.write]
    split
    next hin => simp only [Option.isSome_some, true_or, true_iff]; omega
    next hout =>
      constructor
      · rintro (hold | hnew)
        · exact .inl hold
        · exact .inr (by omega)
      · rintro (hold | hnew)
        · exact .inl hold
        · exact .inr (by omega)

theorem isSome_written_iff (h : Consecutive 0 copies) :
    (written source copies i).isSome ↔ i < totalCount copies := by
  rw [written, isSome_foldl_write_iff h]
  simp

/-- Copies behind each other that write the same cells copy as many values. -/
theorem totalCount_eq_of_written_eq {copies' : List Copy} (h : Consecutive 0 copies)
    (h' : Consecutive 0 copies') (heq : written source copies = written source copies') :
    totalCount copies = totalCount copies' := by
  have hlt : ∀ i, i < totalCount copies ↔ i < totalCount copies' := by
    intro i
    have hfirst : (written source copies i).isSome ↔ i < totalCount copies := isSome_written_iff h
    have hsecond : (written source copies' i).isSome ↔ i < totalCount copies' :=
      isSome_written_iff h'
    rw [← hfirst, ← hsecond, heq]
  apply Nat.le_antisymm
  · exact Nat.le_of_not_lt fun hless => Nat.lt_irrefl _ ((hlt _).mp hless)
  · exact Nat.le_of_not_lt fun hless => Nat.lt_irrefl _ ((hlt _).mpr hless)

end Written

end GpuProxy.Math
