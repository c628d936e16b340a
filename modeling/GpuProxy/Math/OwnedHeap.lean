import Mathlib.Data.Finset.Basic
import Mathlib.Data.List.Nodup
import Mathlib.Logic.Function.Basic

/-!
# Memory of which some blocks are one's own

A memory with the blocks that were allocated in it, and not yet freed. Nobody else gets to know
of these blocks, and the rest of the memory belongs to others, who may do with it what they
like. Freeing what is not such a block has no result.

## Main definitions

* `OwnedHeap` — what is behind each pointer, and which blocks are one's own
* `OwnedHeap.malloc`, `OwnedHeap.free`, `OwnedHeap.freeAll` — blocks are allocated and freed
* `OwnedHeap.store` — a block is written to
* `OwnedHeap.rest`, `OwnedHeap.setRest` — what belongs to others

## Main results

* `malloc_spec`, `free_spec`, `store_spec`, `freeAll_spec` — these concern their blocks only
-/

namespace GpuProxy.Math

/-- What is behind each pointer, and one's own blocks. -/
structure OwnedHeap (β : Type*) where
  memory : ℕ → Option β
  blocks : Finset ℕ
  zero_notMem : 0 ∉ blocks
  mapped : ∀ p ∈ blocks, (memory p).isSome

namespace OwnedHeap

variable {β : Type*} {h h' : OwnedHeap β} {p q : ℕ} {contents : β} {ps : List ℕ}
  {others : ℕ → Option β}

/-- Memory in which nothing was allocated yet. -/
def ofRest (others : ℕ → Option β) : OwnedHeap β := ⟨others, ∅, by simp, by simp⟩

/-- What belongs to others. -/
def rest (h : OwnedHeap β) : ℕ → Option β := fun p => if p ∈ h.blocks then none else h.memory p

/-- Others change what belongs to them. -/
def setRest (h : OwnedHeap β) (others : ℕ → Option β) : OwnedHeap β where
  memory p := if p ∈ h.blocks then h.memory p else others p
  blocks := h.blocks
  zero_notMem := h.zero_notMem
  mapped p hp := by
    rw [if_pos hp]
    exact h.mapped p hp

/-- A block is allocated at an address where there is nothing yet. -/
def malloc (h : OwnedHeap β) (p : ℕ) (contents : β) : Option (OwnedHeap β) :=
  if hp : p = 0 ∨ (h.memory p).isSome then none
  else some {
    memory := Function.update h.memory p (some contents)
    blocks := insert p h.blocks
    zero_notMem := by
      rw [Finset.mem_insert, not_or]
      exact ⟨fun h0 => hp (.inl h0.symm), h.zero_notMem⟩
    mapped := by
      intro q hq
      rcases eq_or_ne q p with rfl | hne
      · rw [Function.update_self]
        rfl
      · rw [Function.update_of_ne hne]
        exact h.mapped q (Finset.mem_of_mem_insert_of_ne hq hne) }

/-- A block is freed. -/
def free (h : OwnedHeap β) (p : ℕ) : Option (OwnedHeap β) :=
  if p ∈ h.blocks then some {
    memory := Function.update h.memory p none
    blocks := h.blocks.erase p
    zero_notMem := fun h0 => h.zero_notMem (Finset.mem_of_mem_erase h0)
    mapped := by
      intro q hq
      rw [Function.update_of_ne (Finset.ne_of_mem_erase hq)]
      exact h.mapped q (Finset.mem_of_mem_erase hq) }
  else none

/-- A block is written to. -/
def store (h : OwnedHeap β) (p : ℕ) (contents : β) : Option (OwnedHeap β) :=
  if p ∈ h.blocks then some {
    memory := Function.update h.memory p (some contents)
    blocks := h.blocks
    zero_notMem := h.zero_notMem
    mapped := by
      intro q hq
      rcases eq_or_ne q p with rfl | hne
      · rw [Function.update_self]
        rfl
      · rw [Function.update_of_ne hne]
        exact h.mapped q hq }
  else none

/-- Blocks are freed one after the other. -/
def freeAll (h : OwnedHeap β) (ps : List ℕ) : Option (OwnedHeap β) := ps.foldlM free h

@[simp] theorem blocks_setRest : (h.setRest others).blocks = h.blocks := rfl

@[simp] theorem blocks_ofRest : (ofRest others : OwnedHeap β).blocks = ∅ := rfl

theorem memory_setRest (hp : p ∈ h.blocks) : (h.setRest others).memory p = h.memory p := if_pos hp

theorem rest_of_mem (hp : p ∈ h.blocks) : h.rest p = none := if_pos hp

theorem rest_of_notMem (hp : p ∉ h.blocks) : h.rest p = h.memory p := if_neg hp

theorem rest_setRest (hrest : ∀ p ∈ h.blocks, others p = none) :
    (h.setRest others).rest = others := by
  funext p
  by_cases hp : p ∈ h.blocks
  · rw [hrest p hp]
    exact if_pos hp
  · have hp' : p ∉ (h.setRest others).blocks := hp
    rw [rest_of_notMem hp']
    exact if_neg hp

/-- What allocating a block does. -/
theorem malloc_spec (hmalloc : h.malloc p contents = some h') :
    p ≠ 0 ∧ h.memory p = none ∧ h'.blocks = insert p h.blocks ∧ h'.memory p = some contents ∧
      (∀ q ≠ p, h'.memory q = h.memory q) ∧ ∀ q ≠ p, h'.rest q = h.rest q := by
  rw [malloc] at hmalloc
  split_ifs at hmalloc with hp
  rw [not_or, Option.not_isSome_iff_eq_none] at hp
  obtain rfl := Option.some.inj hmalloc
  refine ⟨hp.1, hp.2, rfl, Function.update_self .., fun q hq => Function.update_of_ne hq .., ?_⟩
  intro q hq
  simp only [rest, Finset.mem_insert, hq, false_or, Function.update_of_ne hq]

theorem notMem_of_memory_eq_none (hp : h.memory p = none) : p ∉ h.blocks := by
  intro hmem
  have hmapped := h.mapped p hmem
  rw [hp] at hmapped
  cases hmapped

/-- Others have the same as before a block was allocated. -/
theorem rest_malloc (hmalloc : h.malloc p contents = some h') : h'.rest = h.rest := by
  obtain ⟨-, hnone, hblocks, -, -, hrest⟩ := malloc_spec hmalloc
  funext q
  rcases eq_or_ne q p with rfl | hq
  · have hnew : q ∈ h'.blocks := hblocks ▸ Finset.mem_insert_self ..
    rw [rest, if_pos hnew, rest_of_notMem (notMem_of_memory_eq_none hnone), hnone]
  · exact hrest q hq

/-- What was in memory is still there. -/
theorem memory_malloc (hmalloc : h.malloc p contents = some h') {b : β}
    (hq : h.memory q = some b) : h'.memory q = some b := by
  obtain ⟨-, hnone, -, -, hmemory, -⟩ := malloc_spec hmalloc
  rw [hmemory q, hq]
  rintro rfl
  rw [hnone] at hq
  cases hq

/-- What belongs to others is in memory. -/
theorem memory_of_rest {b : β} (hq : h.rest q = some b) : h.memory q = some b := by
  rw [rest] at hq
  split_ifs at hq
  exact hq

/-- What freeing a block does. -/
theorem free_spec (hp : p ∈ h.blocks) : ∃ h', h.free p = some h' ∧ h'.blocks = h.blocks.erase p ∧
    (∀ q ≠ p, h'.memory q = h.memory q) ∧ h'.rest = h.rest := by
  refine ⟨_, if_pos hp, rfl, fun q hq => Function.update_of_ne hq .., ?_⟩
  funext q
  rcases eq_or_ne q p with rfl | hq
  · simp [rest, hp]
  · simp only [rest, Finset.mem_erase, ne_eq, hq, not_false_eq_true, true_and,
      Function.update_of_ne hq]

/-- What writing to a block does. -/
theorem store_spec (hp : p ∈ h.blocks) (contents : β) :
    ∃ h', h.store p contents = some h' ∧ h'.blocks = h.blocks ∧ h'.memory p = some contents ∧
      (∀ q ≠ p, h'.memory q = h.memory q) ∧ h'.rest = h.rest := by
  refine ⟨_, if_pos hp, rfl, Function.update_self .., fun q hq => Function.update_of_ne hq .., ?_⟩
  funext q
  rcases eq_or_ne q p with rfl | hq
  · simp [rest, hp]
  · simp only [rest, Function.update_of_ne hq]

/-- Different blocks of one's own can all be freed. -/
theorem freeAll_spec (hnodup : ps.Nodup) (hps : ∀ p ∈ ps, p ∈ h.blocks) :
    ∃ h', h.freeAll ps = some h' ∧ h'.blocks = h.blocks \ ps.toFinset ∧
      (∀ q ∉ ps, h'.memory q = h.memory q) ∧ h'.rest = h.rest := by
  induction ps generalizing h with
  | nil => exact ⟨h, rfl, by simp, fun _ _ => rfl, rfl⟩
  | cons p ps ih =>
    obtain ⟨hp, hnodup⟩ := List.nodup_cons.mp hnodup
    obtain ⟨h₁, hfree, hblocks₁, hmemory₁, hrest₁⟩ := free_spec (hps p List.mem_cons_self)
    have hps₁ : ∀ q ∈ ps, q ∈ h₁.blocks := by
      intro q hq
      rw [hblocks₁, Finset.mem_erase]
      exact ⟨fun heq => hp (heq ▸ hq), hps q (List.mem_cons_of_mem _ hq)⟩
    obtain ⟨h', hall, hblocks, hmemory, hrest⟩ := ih hnodup hps₁
    refine ⟨h', ?_, ?_, fun q hq => ?_, hrest.trans hrest₁⟩
    · rw [freeAll, List.foldlM_cons, hfree]
      exact hall
    · rw [hblocks, hblocks₁, List.toFinset_cons, Finset.sdiff_insert, Finset.erase_sdiff_comm]
    · rw [List.mem_cons, not_or] at hq
      rw [hmemory q hq.2, hmemory₁ q hq.1]

/-- Blocks can be freed one after the other only if they are different blocks of one's own. -/
theorem freeAll_isSome_iff : (h.freeAll ps).isSome ↔ ps.Nodup ∧ ∀ p ∈ ps, p ∈ h.blocks := by
  constructor
  · intro hsome
    induction ps generalizing h with
    | nil => simp
    | cons p ps ih =>
      obtain ⟨h', hall⟩ := Option.isSome_iff_exists.mp hsome
      rw [freeAll, List.foldlM_cons] at hall
      obtain ⟨h₁, hfree, hall⟩ := Option.bind_eq_some_iff.mp hall
      have hp : p ∈ h.blocks := by
        by_contra hp
        rw [free, if_neg hp] at hfree
        cases hfree
      obtain ⟨h₂, hfree₂, hblocks, -⟩ := free_spec hp
      obtain rfl := Option.some.inj (hfree.symm.trans hfree₂)
      obtain ⟨hnodup, hps⟩ := ih (Option.isSome_of_eq_some hall)
      rw [hblocks] at hps
      refine ⟨List.nodup_cons.mpr ⟨fun hmem => Finset.notMem_erase p _ (hps p hmem), hnodup⟩, ?_⟩
      rintro q hq
      obtain rfl | hq := List.mem_cons.mp hq
      · exact hp
      · exact Finset.mem_of_mem_erase (hps q hq)
  · rintro ⟨hnodup, hps⟩
    obtain ⟨h', hall, -⟩ := freeAll_spec hnodup hps
    exact Option.isSome_of_eq_some hall

end OwnedHeap

end GpuProxy.Math
