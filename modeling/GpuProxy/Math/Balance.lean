import Mathlib.Data.Finset.SDiff

/-!
# Names that are in use or left

A pool hands out names from a supply and takes them back. What is said of a supply is
only how often it still has each name. A pool is balanced when each name it deals in is
either in use or left, and left once. Names then are handed out at most once, and none of
them is in use; and none is lost.

## Main definitions

* `Balanced` — every name is in use or left once

## Main results

* `Balanced.take` — names taken out of the supply are new, and the pool stays balanced
* `Balanced.give_iff` — giving names back keeps the balance if and only if they were in use,
  and each is given back once
* `Balanced.claim_iff` — so does putting a name to use without handing it out, if and only
  if just this name leaves the supply
-/

namespace GpuProxy.Math

variable {α : Type*} [DecidableEq α] {range : Set α} {supply supply' : α → ℕ}
  {live : Finset α} {names : List α} {a b : α}

/-- Every name in `range` is in use or left in the supply once, and no other name is either. -/
structure Balanced (range : Set α) (supply : α → ℕ) (live : Finset α) : Prop where
  inside : ∀ a ∈ range, supply a + (if a ∈ live then 1 else 0) = 1
  outside : ∀ a ∉ range, supply a = 0 ∧ a ∉ live

namespace Balanced

theorem supply_le_one (h : Balanced range supply live) : supply a ≤ 1 := by
  by_cases ha : a ∈ range
  · have := h.inside a ha
    omega
  · rw [(h.outside a ha).1]
    omega

theorem supply_eq_zero (h : Balanced range supply live) (ha : a ∈ live) : supply a = 0 := by
  by_cases hrange : a ∈ range
  · have hone := h.inside a hrange
    rw [if_pos ha] at hone
    omega
  · exact (h.outside a hrange).1

theorem supply_eq_one (h : Balanced range supply live) (hrange : a ∈ range) (ha : a ∉ live) :
    supply a = 1 := by
  simpa [ha] using h.inside a hrange

theorem mem_range (h : Balanced range supply live) (ha : supply a ≠ 0) : a ∈ range := by
  by_contra hrange
  exact ha (h.outside a hrange).1

theorem notMem_live (h : Balanced range supply live) (ha : supply a ≠ 0) : a ∉ live :=
  fun hlive => ha (h.supply_eq_zero hlive)

/-- Names that left the supply are new, and the pool stays balanced when they are in use. -/
theorem take (h : Balanced range supply live)
    (htake : ∀ a, supply' a + names.count a = supply a) :
    names.Nodup ∧ (∀ a ∈ names, a ∈ range ∧ a ∉ live) ∧
      Balanced range supply' (live ∪ names.toFinset) := by
  have hleft : ∀ a ∈ names, supply a ≠ 0 := by
    intro a ha hzero
    have hcount := List.count_pos_iff.mpr ha
    have := htake a
    omega
  refine ⟨List.nodup_iff_count_le_one.mpr fun a => ?_,
    fun a ha => ⟨h.mem_range (hleft a ha), h.notMem_live (hleft a ha)⟩,
    fun a hrange => ?_, fun a hrange => ?_⟩
  · have hone := h.supply_le_one (a := a)
    have := htake a
    omega
  · have hold := h.inside a hrange
    have htaken := htake a
    by_cases ha : a ∈ names
    · have hcount := List.count_pos_iff.mpr ha
      simp only [Finset.mem_union, List.mem_toFinset, ha, or_true, if_true]
      split at hold <;> omega
    · rw [List.count_eq_zero_of_not_mem ha] at htaken
      simp only [Finset.mem_union, List.mem_toFinset, ha, or_false]
      omega
  · have hzero := (h.outside a hrange).1
    have htaken := htake a
    have hcount : names.count a = 0 := by omega
    refine ⟨by omega, ?_⟩
    rw [Finset.mem_union, List.mem_toFinset]
    exact not_or.mpr ⟨(h.outside a hrange).2, List.count_eq_zero.mp hcount⟩

/-- Giving names back keeps the balance if and only if all of them were in use and none is
given back twice. -/
theorem give_iff (h : Balanced range supply live)
    (hgive : ∀ a, supply' a = supply a + names.count a) :
    Balanced range supply' (live \ names.toFinset) ↔ names.Nodup ∧ ∀ a ∈ names, a ∈ live := by
  constructor
  · intro h'
    refine ⟨List.nodup_iff_count_le_one.mpr fun a => ?_, fun a ha => ?_⟩
    · have hone := h'.supply_le_one (a := a)
      have := hgive a
      omega
    · by_contra hlive
      have hcount := List.count_pos_iff.mpr ha
      have hgiven := hgive a
      have hrange : a ∈ range := h'.mem_range (by omega)
      have hone := h'.supply_le_one (a := a)
      have hold := h.supply_eq_one hrange hlive
      omega
  · rintro ⟨honce, hlive⟩
    refine ⟨fun a hrange => ?_, fun a hrange => ?_⟩
    · have hold := h.inside a hrange
      rw [hgive a]
      by_cases ha : a ∈ names
      · rw [List.count_eq_one_of_mem honce ha, h.supply_eq_zero (hlive a ha)]
        simp [ha]
      · rw [List.count_eq_zero_of_not_mem ha]
        simpa [ha] using hold
    · have hnames : a ∉ names := fun ha => (h.outside a hrange).2 (hlive a ha)
      rw [hgive a, List.count_eq_zero_of_not_mem hnames, (h.outside a hrange).1]
      simp [(h.outside a hrange).2]

/-- Putting a name to use without handing it out keeps the balance if and only if this name
leaves the supply and all others stay. -/
theorem claim_iff (h : Balanced range supply live) (hb : b ∈ range) :
    Balanced range supply' (insert b live) ↔
      ∀ a, supply' a = if a = b then 0 else supply a := by
  constructor
  · intro h' a
    split
    next heq => exact h'.supply_eq_zero (by simp [heq])
    next hne =>
      by_cases hrange : a ∈ range
      · have hnew := h'.inside a hrange
        have hold := h.inside a hrange
        simp only [Finset.mem_insert, hne, false_or] at hnew
        omega
      · rw [(h'.outside a hrange).1, (h.outside a hrange).1]
  · intro hsupply
    refine ⟨fun a hrange => ?_, fun a hrange => ?_⟩
    · rw [hsupply a]
      by_cases ha : a = b
      · simp [ha]
      · simpa [ha] using h.inside a hrange
    · have hne : a ≠ b := fun heq => hrange (heq ▸ hb)
      rw [hsupply a, if_neg hne]
      simpa [hne] using h.outside a hrange

end Balanced

end GpuProxy.Math
