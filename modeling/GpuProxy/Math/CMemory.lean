import Mathlib.Data.Int.DivMod
import Mathlib.Tactic.Ring

/-!
# Sizes and blocks of memory

What a program sees of the memory behind a pointer is the list of the values from there to the end
of the block. Reading past the end has no result. Sizes are values of the type `size_t`, which has
the width of a pointer.

## Main definitions

* `DataModel` — the two widths
* `DataModel.sizeT` — the value of an expression as a `size_t`
* `memcpy`, `strlen` — copying a number of values, and looking for the zero that ends a string

## Main results

* `strlen_take_append` — the length of a string that was cut off
-/

namespace GpuProxy.Math

/-- Pointers of 4 bytes, or of 8. -/
inductive DataModel
  | ilp32
  | lp64
  deriving DecidableEq

namespace DataModel

variable {m : DataModel}

/-- The bytes of a pointer. -/
def pointerSize : DataModel → ℕ
  | ilp32 => 4
  | lp64 => 8

/-- The number of values of a `size_t`. -/
def sizeCount (m : DataModel) : ℕ := 256 ^ m.pointerSize

/-- The value of an expression as a `size_t`. -/
def sizeT (m : DataModel) (z : ℤ) : ℕ := (z % m.sizeCount).toNat

@[simp] theorem sizeCount_ilp32 : sizeCount ilp32 = 4294967296 := rfl

@[simp] theorem sizeCount_lp64 : sizeCount lp64 = 18446744073709551616 := rfl

theorem sizeCount_pos : 0 < m.sizeCount := Nat.pow_pos (by decide)

theorem sizeT_natCast {n : ℕ} (h : n < m.sizeCount) : m.sizeT n = n := by
  rw [sizeT, ← Int.natCast_emod, Int.toNat_natCast, Nat.mod_eq_of_lt h]

theorem sizeT_lt (z : ℤ) : m.sizeT z < m.sizeCount := by
  have hpos : (0 : ℤ) < m.sizeCount := by exact_mod_cast sizeCount_pos
  have hlt := Int.emod_lt_of_pos z hpos
  have hnonneg := Int.emod_nonneg z hpos.ne'
  unfold sizeT
  omega

@[simp] theorem sizeT_sizeT (z : ℤ) : m.sizeT (m.sizeT z) = m.sizeT z :=
  sizeT_natCast (sizeT_lt z)

end DataModel

variable {β : Type*} {source : List β} {size count n : ℕ}

/-- `memcpy` to a block of some size: the values in the block. -/
def memcpy (size : ℕ) (source : List β) (count : ℕ) : Option (List β) :=
  if count ≤ size ∧ count ≤ source.length then some (source.take count) else none

theorem memcpy_eq (hsize : count ≤ size) (hsource : count ≤ source.length) :
    memcpy size source count = some (source.take count) := if_pos ⟨hsize, hsource⟩

/-- The copy has the first `n` values only if it is of `n` values. -/
theorem memcpy_eq_take_iff (h : n ≤ source.length) :
    memcpy size source size = some (source.take n) ↔ size = n := by
  constructor
  · intro hcopy
    rw [memcpy] at hcopy
    split_ifs at hcopy with hroom
    have hlength := congrArg List.length (Option.some.inj hcopy)
    simp only [List.length_take] at hlength
    omega
  · rintro rfl
    exact memcpy_eq le_rfl h

section Strings

variable [DecidableEq β] {zero : β} {memory : List β}

/-- `strlen`, where `zero` ends a string. -/
def strlen (zero : β) : List β → Option ℕ
  | [] => none
  | b :: memory => if b = zero then some 0 else (strlen zero memory).map (· + 1)

theorem strlen_lt (h : strlen zero memory = some n) : n < memory.length := by
  induction memory generalizing n with
  | nil => cases h
  | cons b memory ih =>
    rw [strlen] at h
    split_ifs at h with hb
    · rw [← Option.some.inj h]
      exact Nat.succ_pos _
    · obtain ⟨n, hn, rfl⟩ := Option.map_eq_some_iff.mp h
      exact Nat.succ_lt_succ (ih hn)

theorem strlen_append {text behind : List β} (h : zero ∉ text) :
    strlen zero (text ++ zero :: behind) = some text.length := by
  induction text with
  | nil => simp [strlen]
  | cons b text ih =>
    rw [List.mem_cons, not_or] at h
    rw [List.cons_append, strlen, if_neg (Ne.symm h.1), ih h.2]
    rfl

/-- A string without what is behind its end. -/
theorem strlen_take (h : strlen zero memory = some n) :
    strlen zero (memory.take (n + 1)) = some n := by
  induction memory generalizing n with
  | nil => cases h
  | cons b memory ih =>
    rw [strlen] at h
    rw [List.take_succ_cons, strlen]
    split_ifs at h ⊢ with hb
    · exact h
    · obtain ⟨n, hn, rfl⟩ := Option.map_eq_some_iff.mp h
      rw [ih hn, Option.map_some]

/-- A string that is cut off and ended there. -/
theorem strlen_take_append (h : strlen zero memory = some n) (k : ℕ) :
    strlen zero (memory.take k ++ [zero]) = some (min k n) := by
  induction memory generalizing n k with
  | nil => cases h
  | cons b memory ih =>
    cases k with
    | zero => simp [strlen]
    | succ k =>
      rw [strlen] at h
      rw [List.take_succ_cons, List.cons_append, strlen]
      split_ifs at h ⊢ with hb
      · rw [← Option.some.inj h, Nat.min_zero]
      · obtain ⟨n, hn, rfl⟩ := Option.map_eq_some_iff.mp h
        rw [ih hn, Option.map_some, Nat.add_min_add_right]

end Strings

end GpuProxy.Math
