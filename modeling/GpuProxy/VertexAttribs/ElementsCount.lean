import GpuProxy.Math.BlockMax
import GpuProxy.Math.LittleEndian
import GpuProxy.VertexAttribs.Draw

/-!
# Counting the vertices of a draw

`_get_elements_count` of `caching_client.c` has two variants. The portable one looks at the
indices one by one. The one for `__ARM_NEON__` keeps the maxima of the places in blocks of 16
bytes, looks for the largest of them, and then at the indices behind the last whole block. The
type of the indices is `GL_UNSIGNED_BYTE`, and all other types are read as unsigned shorts.

## Main definitions

* `indexAt` — an index in the memory of the application
* `getElementsCountPortable`, `getElementsCountNeon` — the two variants

## Main results

* `getElementsCountNeon_eq_portable` — they agree, and return one more than the largest index
-/

namespace GpuProxy.VertexAttribs

open Math

/-- The element `i` of the index array, on a little-endian machine. -/
def indexAt (type : ℕ) (memory : ℕ → UInt8) (i : ℕ) : ℕ :=
  if type = glUnsignedByte then (memory i).toNat
  else LittleEndian.ofBytes [memory (2 * i), memory (2 * i + 1)]

/-- The indices in an array of `count`. -/
def indexList (type : ℕ) (memory : ℕ → UInt8) (count : ℕ) : List ℕ :=
  (List.range count).map (indexAt type memory)

section Variants

variable (type : ℕ) (memory : ℕ → UInt8) (count : ℕ)

/-- `_get_elements_count` without `__ARM_NEON__`. -/
def getElementsCountPortable : ℕ := scanMax (indexAt type memory) 0 count 0 + 1

/-- The elements of a `uint8x16_t` or a `uint16x8_t`. -/
def neonLanes : ℕ := if type = glUnsignedByte then 16 else 8

/-- `_get_elements_count` with `__ARM_NEON__`. -/
def getElementsCountNeon : ℕ :=
  let num := count / neonLanes type
  let remain := count - num * neonLanes type
  let result := laneMax (neonLanes type) (indexAt type memory) num
  let elementsCount := foldLanes result
  scanMax (indexAt type memory) (num * neonLanes type) remain elementsCount + 1

end Variants

variable {type count : ℕ} {memory : ℕ → UInt8}

theorem neonLanes_pos : 0 < neonLanes type := by
  unfold neonLanes
  split <;> decide

/-- The draw call counts as the portable variant does. -/
theorem getElementsCount_indexList :
    getElementsCount (indexList type memory count) =
      getElementsCountPortable type memory count := by
  have hmax : ∀ acc : ℕ, (indexList type memory count).foldl max acc =
      scanMax (indexAt type memory) 0 count acc := by
    intro acc
    apply eq_of_forall_ge_iff
    intro b
    have hfold : ∀ l : List ℕ, ∀ acc, l.foldl max acc ≤ b ↔ acc ≤ b ∧ ∀ i ∈ l, i ≤ b := by
      intro l
      induction l with
      | nil => simp
      | cons i l ih =>
        intro acc
        rw [List.foldl_cons, ih, max_le_iff, List.forall_mem_cons, and_assoc]
    rw [hfold, scanMax_le_iff]
    simp [indexList]
  rw [getElementsCount, hmax, getElementsCountPortable]

/-- For every number of indices, and whatever they are: both variants return one more than the
largest one, and 1 if there are none. -/
theorem getElementsCountNeon_eq_portable (type : ℕ) (memory : ℕ → UInt8) (count : ℕ) :
    getElementsCountNeon type memory count = getElementsCountPortable type memory count ∧
      getElementsCountPortable type memory count =
        (Finset.range count).sup (indexAt type memory) + 1 := by
  constructor
  · have hlanes : 0 < neonLanes type := neonLanes_pos
    exact congrArg (· + 1) (scanMax_foldLanes hlanes)
  · rw [getElementsCountPortable]
    congr 1
    exact scanMax_eq_sup

/-- A whole block of bytes, and a byte behind it. -/
example : getElementsCountNeon glUnsignedByte (fun i => UInt8.ofNat (3 * i)) 17 = 49 := by decide

end GpuProxy.VertexAttribs
