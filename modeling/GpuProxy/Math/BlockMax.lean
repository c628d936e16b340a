import Mathlib.Data.Finset.Lattice.Fold
import Mathlib.Data.List.FinRange
import Mathlib.Order.Lattice.Nat

/-!
# Maxima by blocks

The maximum of the first `n` values of a sequence, by a loop over the values; and by a loop over
blocks of them that keeps a maximum for each place in a block, followed by loops over the places
and over the values behind the last whole block. A maximum is known by its upper bounds, so all
of these are the supremum of the values.

## Main definitions

* `scanMax` — the loop over the values
* `laneMax`, `foldLanes` — the loop over the blocks, and the one over the places

## Main results

* `scanMax_eq_sup` — the loop has the supremum
* `scanMax_foldLanes` — the loops over the blocks have it too
-/

namespace GpuProxy.Math

variable {α : Type*} [LinearOrder α] {ι : Type*} {x : ℕ → α} {first n lanes num : ℕ} {acc b : α}

/-- The larger one of a maximum and the next `n` values, one by one. -/
def scanMax (x : ℕ → α) (first n : ℕ) (acc : α) : α :=
  (List.range n).foldl
    (fun acc i => if acc < x (first + i) then x (first + i) else acc) acc

theorem foldl_max_le_iff {f : ι → α} {l : List ι} :
    l.foldl (fun acc i => if acc < f i then f i else acc) acc ≤ b ↔
      acc ≤ b ∧ ∀ i ∈ l, f i ≤ b := by
  induction l generalizing acc with
  | nil => simp
  | cons i l ih =>
    have hstep : (if acc < f i then f i else acc) ≤ b ↔ acc ≤ b ∧ f i ≤ b := by
      split
      next hlt => exact ⟨fun h => ⟨hlt.le.trans h, h⟩, fun h => h.2⟩
      next hle => exact ⟨fun h => ⟨h, (not_lt.mp hle).trans h⟩, fun h => h.1⟩
    rw [List.foldl_cons, ih, hstep, List.forall_mem_cons, and_assoc]

theorem scanMax_le_iff : scanMax x first n acc ≤ b ↔ acc ≤ b ∧ ∀ i < n, x (first + i) ≤ b := by
  rw [scanMax, foldl_max_le_iff]
  simp

section Lanes

variable [OrderBot α]

/-- The maximum of each place in the first `num` blocks. -/
def laneMax (lanes : ℕ) (x : ℕ → α) (num : ℕ) : Fin lanes → α :=
  (List.range num).foldl (fun result i j => max (x (i * lanes + j)) (result j)) fun _ => ⊥

/-- The maximum of all places. -/
def foldLanes (result : Fin lanes → α) : α :=
  (List.finRange lanes).foldl (fun acc j => if acc < result j then result j else acc) ⊥

theorem laneMax_le_iff {j : Fin lanes} :
    laneMax lanes x num j ≤ b ↔ ∀ i < num, x (i * lanes + j) ≤ b := by
  induction num with
  | zero => simp [laneMax]
  | succ num ih =>
    have hstep : laneMax lanes x (num + 1) j =
        max (x (num * lanes + j)) (laneMax lanes x num j) := by
      rw [laneMax, List.range_succ, List.foldl_append]
      rfl
    rw [hstep, max_le_iff, ih, Nat.forall_lt_succ_right, and_comm]

theorem foldLanes_le_iff {result : Fin lanes → α} : foldLanes result ≤ b ↔ ∀ j, result j ≤ b := by
  rw [foldLanes, foldl_max_le_iff]
  simp

theorem scanMax_eq_sup : scanMax x 0 n ⊥ = (Finset.range n).sup x := by
  apply eq_of_forall_ge_iff
  intro b
  rw [scanMax_le_iff, Finset.sup_le_iff]
  simp

/-- A property of all values is one of all places of all blocks, and of the values behind. -/
theorem forall_lt_iff_blocks {p : ℕ → Prop} (hlanes : 0 < lanes) : (∀ i < n, p i) ↔
    (∀ j : Fin lanes, ∀ i < n / lanes, p (i * lanes + j)) ∧
      ∀ i < n - n / lanes * lanes, p (n / lanes * lanes + i) := by
  have hle : n / lanes * lanes ≤ n := Nat.div_mul_le_self n lanes
  constructor
  · intro h
    constructor
    · intro j i hi
      apply h
      calc i * lanes + j < i * lanes + lanes := Nat.add_lt_add_left j.2 _
        _ = (i + 1) * lanes := (Nat.succ_mul i lanes).symm
        _ ≤ n / lanes * lanes := Nat.mul_le_mul_right _ hi
        _ ≤ n := hle
    · intro i hi
      apply h
      omega
  · rintro ⟨hblocks, hrest⟩ i hi
    rcases Nat.lt_or_ge i (n / lanes * lanes) with hlt | hge
    · have hblock : i / lanes < n / lanes := (Nat.div_lt_iff_lt_mul hlanes).mpr hlt
      have hplace := hblocks ⟨i % lanes, Nat.mod_lt _ hlanes⟩ (i / lanes) hblock
      rwa [Nat.div_add_mod' i lanes] at hplace
    · have hplace := hrest (i - n / lanes * lanes) (by omega)
      rwa [Nat.add_sub_of_le hge] at hplace

/-- The maximum by blocks is the maximum. -/
theorem scanMax_foldLanes (hlanes : 0 < lanes) :
    scanMax x (n / lanes * lanes) (n - n / lanes * lanes)
      (foldLanes (laneMax lanes x (n / lanes))) = scanMax x 0 n ⊥ := by
  apply eq_of_forall_ge_iff
  intro b
  rw [scanMax_le_iff, scanMax_le_iff, foldLanes_le_iff, and_iff_right bot_le]
  simp only [laneMax_le_iff, Nat.zero_add]
  exact (forall_lt_iff_blocks (p := fun i => x i ≤ b) hlanes).symm

end Lanes

end GpuProxy.Math
