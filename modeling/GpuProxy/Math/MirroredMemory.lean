import Mathlib.Data.List.Range
import Mathlib.Data.Nat.ModEq

/-!
# Memory mapped twice

A memory of `length` cells mapped twice in a row lets a reader run past its end:
address `a` and address `a + length` denote the same cell. Reading and writing a
run of cells then need no wrap-around, whatever the start address.

## Main definitions

* `Mirror.read` — the cells seen from an address
* `Mirror.write` — the memory after storing a list of cells at an address

## Main results

* `read_write_self` — what was written is read back
* `read_write_above`, `read_write_below`, `read_write_of_disjoint` — writes frame out the other
  addresses
* `read_mod`, `write_mod` — both views of a cell agree
-/

namespace GpuProxy.Math.Mirror

variable {β : Type*} {length : ℕ} {mem : ℕ → β} {a i j k m n : ℕ} {xs ys : List β}

/-- The `n` cells seen from address `a`. -/
def read (length : ℕ) (mem : ℕ → β) (a n : ℕ) : List β :=
  (List.range n).map fun i => mem ((a + i) % length)

/-- The memory after storing `xs` from address `a` on. -/
def write (length : ℕ) (mem : ℕ → β) (a : ℕ) : List β → ℕ → β
  | [] => mem
  | x :: xs => write length (Function.update mem (a % length) x) (a + 1) xs

@[simp] theorem length_read : (read length mem a n).length = n := by simp [read]

@[simp] theorem read_zero : read length mem a 0 = [] := rfl

@[simp] theorem write_nil : write length mem a [] = mem := rfl

theorem getElem_read (h : i < (read length mem a n).length) :
    (read length mem a n)[i] = mem ((a + i) % length) := by
  simp [read]

/-- Reading `m + n` cells is reading `m` cells and then the `n` cells after them. -/
theorem read_add : read length mem a (m + n) =
    read length mem a m ++ read length mem (a + m) n := by
  simp [read, List.range_add, Function.comp_def, Nat.add_assoc]

theorem take_read (h : m ≤ n) : (read length mem a n).take m = read length mem a m := by
  obtain ⟨k, rfl⟩ := Nat.exists_eq_add_of_le h
  rw [read_add, List.take_left' (by simp)]

theorem drop_read (h : m ≤ n) :
    (read length mem a n).drop m = read length mem (a + m) (n - m) := by
  obtain ⟨k, rfl⟩ := Nat.exists_eq_add_of_le h
  rw [read_add, List.drop_left' (by simp), Nat.add_sub_cancel_left]

theorem read_congr {mem' : ℕ → β} (h : ∀ i < n, mem ((a + i) % length) = mem' ((a + i) % length)) :
    read length mem a n = read length mem' a n := by
  apply List.map_congr_left
  intro i hi
  exact h i (List.mem_range.mp hi)

/-- Both addresses of a cell read alike. -/
@[simp] theorem read_mod : read length mem (a % length) n = read length mem a n := by
  simp [read]

/-- Both addresses of a cell read alike, also as the base of an offset. -/
@[simp] theorem read_mod_add : read length mem (a % length + k) n = read length mem (a + k) n := by
  simp only [read, Nat.add_assoc, Nat.mod_add_mod]

/-- Reading part of a run of cells is taking that part of what the run reads. -/
theorem read_sub (h : m + n ≤ k) :
    read length mem (a + m) n = ((read length mem a k).drop m).take n := by
  rw [drop_read (by omega), take_read (by omega)]

/-- Both addresses of a cell are written alike. -/
@[simp] theorem write_mod : write length mem (a % length) xs = write length mem a xs := by
  have step : ∀ (xs : List β) (mem : ℕ → β) (a b : ℕ), a % length = b % length →
      write length mem a xs = write length mem b xs := by
    intro xs
    induction xs with
    | nil => intro mem a b _; rfl
    | cons x xs ih =>
      intro mem a b h
      rw [write, write, h]
      exact ih _ _ _ (Nat.ModEq.add_right 1 h)
  exact step xs mem _ _ (Nat.mod_mod a length)

/-- Two offsets less than a full turn apart denote different cells. -/
theorem offset_ne (hij : i < j) (hj : j < i + length) : (a + i) % length ≠ (a + j) % length := by
  intro h
  have hd : length ∣ (a + j) - (a + i) :=
    Nat.dvd_of_mod_eq_zero (Nat.sub_mod_eq_zero_of_mod_eq h.symm)
  have := Nat.eq_zero_of_dvd_of_lt hd (by omega)
  omega

/-- A cell that no written address denotes keeps its value. -/
theorem write_of_ne (h : ∀ i < xs.length, (a + i) % length ≠ k) :
    write length mem a xs k = mem k := by
  induction xs generalizing mem a with
  | nil => rfl
  | cons x xs ih =>
    have hhead : a % length ≠ k := by simpa using h 0 (by simp)
    rw [write, ih fun i hi => ?_, Function.update_of_ne hhead.symm]
    have := h (i + 1) (by simpa using hi)
    rwa [show a + 1 + i = a + (i + 1) by omega]

/-- A cell that two memories agree on is one they agree on after the same write. -/
theorem write_congr {mem' : ℕ → β} (h : mem k = mem' k) :
    write length mem a xs k = write length mem' a xs k := by
  induction xs generalizing mem mem' a with
  | nil => exact h
  | cons x xs ih =>
    apply ih
    by_cases hk : k = a % length
    · rw [hk, Function.update_self, Function.update_self]
    · rw [Function.update_of_ne hk, Function.update_of_ne hk, h]

/-- The `i`-th written address holds the `i`-th written value. -/
theorem write_at (hlen : xs.length ≤ length) (hi : i < xs.length) :
    write length mem a xs ((a + i) % length) = xs[i] := by
  induction xs generalizing mem a i with
  | nil => simp at hi
  | cons x xs ih =>
    rw [List.length_cons] at hlen hi
    cases i with
    | zero =>
      rw [write, write_of_ne fun j hj => ?_]
      · simp
      · rw [show a + 1 + j = a + (1 + j) by omega]
        exact (offset_ne (by omega) (by omega)).symm
    | succ i =>
      rw [write, show a + (i + 1) = a + 1 + i by omega]
      simpa using ih (by omega) (by omega)

/-- What was written is read back. -/
theorem read_write_self (hlen : xs.length ≤ length) :
    read length (write length mem a xs) a xs.length = xs := by
  apply List.ext_getElem (by simp)
  intro i _ hi
  rw [getElem_read, write_at hlen hi]

/-- Runs of cells that two memories agree on are ones they agree on after the same write. -/
theorem read_write_congr {mem' : ℕ → β} (h : read length mem a n = read length mem' a n) :
    read length (write length mem k xs) a n = read length (write length mem' k xs) a n := by
  apply read_congr
  intro i hi
  apply write_congr
  exact List.map_inj_left.mp h i (List.mem_range.mpr hi)

/-- A write above a run of cells, and within a turn of its start, leaves it as it was. -/
theorem read_write_above (hnk : n ≤ k) (hk : k + xs.length ≤ length) :
    read length (write length mem (a + k) xs) a n = read length mem a n := by
  apply read_congr
  intro i hi
  apply write_of_ne
  intro j hj
  rw [Nat.add_assoc]
  exact (offset_ne (by omega) (by omega)).symm

/-- A write below a run of cells, within a turn of its end, leaves it as it was. -/
theorem read_write_below (hk : xs.length ≤ k) (hn : k + n ≤ length) :
    read length (write length mem a xs) (a + k) n = read length mem (a + k) n := by
  apply read_congr
  intro i hi
  apply write_of_ne
  intro j hj
  rw [Nat.add_assoc]
  exact offset_ne (by omega) (by omega)

/-- A write beside a run of cells, and within a turn of it, leaves it as it was. -/
theorem read_write_of_disjoint
    (h : k + xs.length ≤ a ∧ a + n ≤ k + length ∨ a + n ≤ k ∧ k + xs.length ≤ a + length) :
    read length (write length mem k xs) a n = read length mem a n := by
  obtain ⟨hbelow, hturn⟩ | ⟨habove, hturn⟩ := h
  · obtain ⟨m, rfl⟩ := Nat.exists_eq_add_of_le (Nat.le_of_add_right_le hbelow)
    exact read_write_below (by omega) (by omega)
  · obtain ⟨m, rfl⟩ := Nat.exists_eq_add_of_le (Nat.le_of_add_right_le habove)
    exact read_write_above (by omega) (by omega)

/-- Writing inside a run of cells replaces that part of it. -/
theorem read_write_within (hm : m + xs.length ≤ n) (hn : n ≤ length) :
    read length (write length mem (a + m) xs) a n =
      read length mem a m ++ xs ++ read length mem (a + m + xs.length) (n - (m + xs.length)) := by
  obtain ⟨k, rfl⟩ := Nat.exists_eq_add_of_le hm
  have hlow : read length (write length mem (a + m) xs) a m = read length mem a m :=
    read_write_above le_rfl (by omega)
  have hmid : read length (write length mem (a + m) xs) (a + m) xs.length = xs :=
    read_write_self (by omega)
  have hhigh : read length (write length mem (a + m) xs) (a + m + xs.length) k =
      read length mem (a + m + xs.length) k :=
    read_write_below le_rfl (by omega)
  rw [read_add, read_add, hlow, hmid, Nat.add_sub_cancel_left, ← Nat.add_assoc, hhigh]

end GpuProxy.Math.Mirror
