import GpuProxy.Math.MachineInt
import Mathlib.Logic.Basic

/-!
# The size of an image

`gles2_utils.c`: the bytes of a group of components, and the bytes that `glTexImage2D`
accesses. The sizes are computed with unsigned integers of 32 bits, and a computation that
overflows is given up.

## Main definitions

* `PixelFormat`, `PixelType`, `computeImageGroupSize` — groups of components
* `safeMultiply`, `safeAdd` — arithmetic with overflow checks
* `ImageSizes`, `computeImageDataSizes` — the sizes of an image

## Main results

* `safeMultiply_eq_some_iff`, `safeAdd_eq_some_iff` — the exact result, or none
* `computeImageDataSizes_spec` — the sizes, when there is a result
* `computeImageDataSizes_exact` — they are exact, and given up only if they are too large
-/

namespace GpuProxy.Textures

open Math

/-- The formats that `elements_per_group` tells apart. -/
inductive PixelFormat
  | rgb
  | luminanceAlpha
  | rgba
  | bgraExt
  | alpha
  | luminance
  | depthComponent
  | depthComponent24Oes
  | depthComponent32Oes
  | depthComponent16
  | depth24Stencil8Oes
  | depthStencilOes
  | other (value : ℕ)
  deriving DecidableEq, Repr

/-- The types that `elements_per_group` and `bytes_per_element` tell apart. -/
inductive PixelType
  | unsignedShort565
  | unsignedShort4444
  | unsignedShort5551
  | unsignedInt248Oes
  | float
  | unsignedInt
  | halfFloatOes
  | unsignedShort
  | short
  | unsignedByte
  | byte
  | other (value : ℕ)
  deriving DecidableEq, Repr

/-- `elements_per_group`. -/
def elementsPerGroup (format : PixelFormat) (type : PixelType) : ℕ :=
  match type with
  | .unsignedShort565 | .unsignedShort4444 | .unsignedShort5551 | .unsignedInt248Oes => 1
  | _ =>
    match format with
    | .rgb => 3
    | .luminanceAlpha => 2
    | .rgba | .bgraExt => 4
    | .alpha | .luminance | .depthComponent | .depthComponent24Oes | .depthComponent32Oes
    | .depthComponent16 | .depth24Stencil8Oes | .depthStencilOes => 1
    | .other _ => 0

/-- `bytes_per_element`. -/
def bytesPerElement : PixelType → ℕ
  | .float | .unsignedInt248Oes | .unsignedInt => 4
  | .halfFloatOes | .unsignedShort | .short | .unsignedShort565 | .unsignedShort4444
  | .unsignedShort5551 => 2
  | .unsignedByte | .byte => 1
  | .other _ => 0

/-- `compute_image_group_size`. -/
def computeImageGroupSize (format : PixelFormat) (type : PixelType) : ℕ :=
  bytesPerElement type * elementsPerGroup format type

/-! ### Arithmetic with overflow checks -/

/-- `safe_multiply`. There is no result when it returns `false`. -/
def safeMultiply (a b : ℕ) : Option ℕ :=
  if b = 0 then some 0
  else
    let v := uint (a * b)
    if v / b ≠ a then none else some v

/-- `safe_add`. -/
def safeAdd (a b : ℕ) : Option ℕ :=
  if uint (a + b) < a then none else some (uint (a + b))

variable {a b v : ℕ}

theorem safeMultiply_eq_some_iff :
    safeMultiply a b = some v ↔ v = a * b ∧ a * b < 2 ^ 32 := by
  unfold safeMultiply
  rw [← Int.natCast_mul, uint_natCast]
  by_cases hb : b = 0
  · subst hb
    simp [eq_comm]
  · rw [if_neg hb]
    simp only
    by_cases hlt : a * b < 2 ^ 32
    · have hdiv : a * b / b = a := Nat.mul_div_cancel a (Nat.pos_of_ne_zero hb)
      rw [Nat.mod_eq_of_lt hlt, hdiv, if_neg (not_not.mpr rfl), Option.some.injEq,
        and_iff_left hlt, eq_comm]
    -- The product is too large, and what is left of it is not `a` times `b`.
    · have hmod : a * b % 2 ^ 32 < a * b := Nat.lt_of_lt_of_le (Nat.mod_lt _ (by decide))
        (Nat.le_of_not_lt hlt)
      have hdiv : a * b % 2 ^ 32 / b < a := Nat.div_lt_of_lt_mul (by rwa [Nat.mul_comm b])
      rw [if_pos (Nat.ne_of_lt hdiv)]
      exact iff_of_false (by simp) fun h => hlt h.2

theorem safeAdd_eq_some_iff (ha : a < 2 ^ 32) (hb : b < 2 ^ 32) :
    safeAdd a b = some v ↔ v = a + b ∧ a + b < 2 ^ 32 := by
  unfold safeAdd
  rw [← Int.natCast_add, uint_natCast]
  by_cases hlt : a + b < 2 ^ 32
  · rw [Nat.mod_eq_of_lt hlt, if_neg (by omega), Option.some.injEq, and_iff_left hlt, eq_comm]
  · have hmod : (a + b) % 2 ^ 32 < a := by omega
    rw [if_pos hmod]
    exact iff_of_false (by simp) fun h => hlt h.2

/-! ### The sizes of an image -/

/-- What `compute_image_data_sizes` returns. -/
structure ImageSizes where
  size : ℕ
  unpaddedRowSize : ℕ
  paddedRowSize : ℕ
  deriving DecidableEq, Repr

/-- The groups of a row: those of the row length, if one is set. -/
def rowGroups (width unpackRowLength : ℕ) : ℕ :=
  if unpackRowLength > 0 then unpackRowLength else width

/-- `compute_image_data_sizes`. There is no result when it returns `false`. -/
def computeImageDataSizes (width height : ℕ) (format : PixelFormat) (type : PixelType)
    (unpackAlignment unpackRowLength unpackSkipRows : ℕ) : Option ImageSizes := do
  let bytesPerGroup := computeImageGroupSize format type
  let rowSize ← safeMultiply (rowGroups width unpackRowLength) bytesPerGroup
  if height > 1 then
    let temp ← safeAdd rowSize (unpackAlignment - 1)
    let paddedRowSize := temp / unpackAlignment * unpackAlignment
    let sizeOfAllButLastRow ←
      safeMultiply (uint ((height : ℤ) - unpackSkipRows - 1)) paddedRowSize
    -- The last row is not padded.
    let size ← safeAdd sizeOfAllButLastRow rowSize
    return ⟨size, rowSize, paddedRowSize⟩
  else
    let size ← safeMultiply (uint ((height : ℤ) - unpackSkipRows)) rowSize
    return ⟨size, rowSize, rowSize⟩

/-- Rounding up to a multiple of the alignment. -/
def alignUp (n alignment : ℕ) : ℕ := (n + alignment - 1) / alignment * alignment

variable {width height unpackAlignment unpackRowLength unpackSkipRows : ℕ}
  {format : PixelFormat} {type : PixelType} {sizes : ImageSizes}

theorem le_alignUp {n alignment : ℕ} (h : 0 < alignment) : n ≤ alignUp n alignment := by
  have hlt := Nat.lt_div_mul_add (a := n + alignment - 1) h
  unfold alignUp
  omega

theorem alignUp_mono {m n alignment : ℕ} (h : m ≤ n) :
    alignUp m alignment ≤ alignUp n alignment := by
  apply Nat.mul_le_mul_right
  apply Nat.div_le_div_right
  omega

/-- The sizes, when they do not overflow. -/
theorem computeImageDataSizes_spec
    (halignment : 0 < unpackAlignment ∧ unpackAlignment < 2 ^ 32)
    (h : computeImageDataSizes width height format type unpackAlignment unpackRowLength
      unpackSkipRows = some sizes) :
    sizes.unpaddedRowSize =
        rowGroups width unpackRowLength * computeImageGroupSize format type ∧
      if height > 1 then
        sizes.paddedRowSize = alignUp sizes.unpaddedRowSize unpackAlignment ∧
          sizes.size = uint ((height : ℤ) - unpackSkipRows - 1) * sizes.paddedRowSize +
            sizes.unpaddedRowSize ∧ sizes.size < 2 ^ 32
      else
        sizes.paddedRowSize = sizes.unpaddedRowSize ∧
          sizes.size = uint ((height : ℤ) - unpackSkipRows) * sizes.unpaddedRowSize ∧
          sizes.size < 2 ^ 32 := by
  unfold computeImageDataSizes at h
  obtain ⟨rowSize, hrow, h⟩ := Option.bind_eq_some_iff.mp h
  obtain ⟨rfl, hlt⟩ := safeMultiply_eq_some_iff.mp hrow
  split at h
  next hheight =>
    obtain ⟨temp, htemp, h⟩ := Option.bind_eq_some_iff.mp h
    obtain ⟨rest, hrest, h⟩ := Option.bind_eq_some_iff.mp h
    obtain ⟨size, hsize, h⟩ := Option.bind_eq_some_iff.mp h
    cases h
    obtain ⟨rfl, -⟩ := (safeAdd_eq_some_iff hlt (by omega)).mp htemp
    obtain ⟨rfl, hrestlt⟩ := safeMultiply_eq_some_iff.mp hrest
    obtain ⟨rfl, hsizelt⟩ := (safeAdd_eq_some_iff hrestlt hlt).mp hsize
    rw [if_pos hheight]
    refine ⟨rfl, ?_, rfl, hsizelt⟩
    rw [alignUp, Nat.add_sub_assoc halignment.1]
  next hheight =>
    obtain ⟨size, hsize, h⟩ := Option.bind_eq_some_iff.mp h
    cases h
    obtain ⟨rfl, hsizelt⟩ := safeMultiply_eq_some_iff.mp hsize
    rw [if_neg hheight]
    exact ⟨rfl, rfl, rfl, hsizelt⟩

/-! ### Exact, or given up -/

/-- The sizes of an image, with integers of any size. -/
def exactSizes (width height : ℕ) (format : PixelFormat) (type : PixelType)
    (unpackAlignment unpackRowLength unpackSkipRows : ℕ) : ImageSizes :=
  let row := rowGroups width unpackRowLength * computeImageGroupSize format type
  let padded := if height > 1 then alignUp row unpackAlignment else row
  ⟨(height - unpackSkipRows - 1) * padded + row, row, padded⟩

/-- All sizes are below the bound of an `unsigned int`. -/
structure ImageSizes.Representable (sizes : ImageSizes) : Prop where
  size_lt : sizes.size < 2 ^ 32
  unpaddedRowSize_lt : sizes.unpaddedRowSize < 2 ^ 32
  paddedRowSize_lt : sizes.paddedRowSize < 2 ^ 32

/-- Rounding up to a multiple of the alignment passes the bound if the sum before it does. -/
theorem le_alignUp_of_overflow {n alignment : ℕ} (hdvd : alignment ∣ 2 ^ 32)
    (hpos : 0 < alignment) (h : 2 ^ 32 ≤ n + (alignment - 1)) : 2 ^ 32 ≤ alignUp n alignment := by
  obtain ⟨k, hk⟩ := hdvd
  have hle : k ≤ (n + alignment - 1) / alignment := by
    apply (Nat.le_div_iff_mul_le hpos).mpr
    rw [Nat.mul_comm, ← hk]
    omega
  calc 2 ^ 32 = k * alignment := by rw [hk, Nat.mul_comm]
    _ ≤ alignUp n alignment := Nat.mul_le_mul_right _ hle

theorem rows_mul_le (rowSize : ℕ) (hskip : unpackSkipRows < height) {padded : ℕ}
    (hle : rowSize ≤ padded) :
    (height - unpackSkipRows - 1) * padded + rowSize ≤ (height - unpackSkipRows) * padded := by
  obtain ⟨rows, hrows⟩ := Nat.exists_eq_add_of_lt hskip
  have hsub : height - unpackSkipRows = rows + 1 := by omega
  rw [hsub, Nat.add_sub_cancel, Nat.succ_mul]
  exact Nat.add_le_add_left hle _

/-- What is left of the rows when some are skipped, but not all. -/
theorem uint_rows (hheight : height < 2 ^ 32) (hskip : unpackSkipRows < height) :
    uint ((height : ℤ) - unpackSkipRows - 1) = height - unpackSkipRows - 1 := by
  have hcast : ((height : ℤ) - unpackSkipRows - 1) = (height - unpackSkipRows - 1 : ℕ) := by
    omega
  rw [hcast]
  apply uint_natCast_of_lt
  omega

/-- If the rows, each of them padded, have a representable size, there is a result. -/
theorem computeImageDataSizes_eq_some (hdvd : unpackAlignment ∣ 2 ^ 32)
    (halignment : 0 < unpackAlignment ∧ unpackAlignment < 2 ^ 32) (hheight : height < 2 ^ 32)
    (hskip : unpackSkipRows < height)
    (hfits : (height - unpackSkipRows) *
      alignUp (rowGroups width unpackRowLength * computeImageGroupSize format type)
        unpackAlignment < 2 ^ 32) :
    computeImageDataSizes width height format type unpackAlignment unpackRowLength
      unpackSkipRows = some (exactSizes width height format type unpackAlignment unpackRowLength
        unpackSkipRows) := by
  unfold computeImageDataSizes exactSizes
  generalize hgroups : rowGroups width unpackRowLength = groups at hfits ⊢
  generalize hgroup : computeImageGroupSize format type = group at hfits ⊢
  generalize hrow : groups * group = row at hfits ⊢
  have hle : row ≤ alignUp row unpackAlignment := le_alignUp halignment.1
  have hone : alignUp row unpackAlignment ≤
      (height - unpackSkipRows) * alignUp row unpackAlignment :=
    Nat.le_mul_of_pos_left _ (Nat.sub_pos_of_lt hskip)
  have hmultiply : safeMultiply groups group = some row :=
    safeMultiply_eq_some_iff.mpr ⟨hrow.symm, by omega⟩
  simp only [hmultiply, Option.bind_eq_bind, Option.bind_some, uint_rows hheight hskip]
  split
  next hmany =>
    have htemp : safeAdd row (unpackAlignment - 1) = some (row + (unpackAlignment - 1)) := by
      apply (safeAdd_eq_some_iff (by omega) (by omega)).mpr
      refine ⟨rfl, Nat.lt_of_not_le fun hlarge => ?_⟩
      have := le_alignUp_of_overflow hdvd halignment.1 hlarge
      omega
    have hpadded : (row + (unpackAlignment - 1)) / unpackAlignment * unpackAlignment =
        alignUp row unpackAlignment := by
      rw [alignUp, Nat.add_sub_assoc halignment.1]
    have hsum := rows_mul_le row hskip hle
    have hrest : safeMultiply (height - unpackSkipRows - 1) (alignUp row unpackAlignment) =
        some ((height - unpackSkipRows - 1) * alignUp row unpackAlignment) :=
      safeMultiply_eq_some_iff.mpr ⟨rfl, by omega⟩
    have hsize : safeAdd ((height - unpackSkipRows - 1) * alignUp row unpackAlignment) row =
        some ((height - unpackSkipRows - 1) * alignUp row unpackAlignment + row) :=
      (safeAdd_eq_some_iff (by omega) (by omega)).mpr ⟨rfl, by omega⟩
    simp only [htemp, hpadded, hrest, hsize, Option.bind_some]
    rfl
  next hfew =>
    -- One row, and none skipped.
    have hheight : height = 1 := by omega
    have hnone : unpackSkipRows = 0 := by omega
    subst hheight hnone
    have hsize : safeMultiply 1 row = some row :=
      safeMultiply_eq_some_iff.mpr ⟨(Nat.one_mul row).symm, by omega⟩
    have hall : uint (((1 : ℕ) : ℤ) - (0 : ℕ)) = 1 := rfl
    simp only [hall, hsize, Option.bind_some]
    simp

theorem representable_of_eq_some
    (halignment : 0 < unpackAlignment ∧ unpackAlignment < 2 ^ 32)
    (h : computeImageDataSizes width height format type unpackAlignment unpackRowLength
      unpackSkipRows = some sizes) : sizes.Representable := by
  unfold computeImageDataSizes at h
  obtain ⟨rowSize, hrow, h⟩ := Option.bind_eq_some_iff.mp h
  obtain ⟨rfl, hlt⟩ := safeMultiply_eq_some_iff.mp hrow
  split at h
  next hheight =>
    obtain ⟨temp, htemp, h⟩ := Option.bind_eq_some_iff.mp h
    obtain ⟨rest, hrest, h⟩ := Option.bind_eq_some_iff.mp h
    obtain ⟨size, hsize, h⟩ := Option.bind_eq_some_iff.mp h
    cases h
    obtain ⟨rfl, htemplt⟩ := (safeAdd_eq_some_iff hlt (by omega)).mp htemp
    obtain ⟨rfl, hrestlt⟩ := safeMultiply_eq_some_iff.mp hrest
    obtain ⟨rfl, hsizelt⟩ := (safeAdd_eq_some_iff hrestlt hlt).mp hsize
    exact ⟨hsizelt, hlt, Nat.lt_of_le_of_lt (Nat.div_mul_le_self _ _) htemplt⟩
  next hheight =>
    obtain ⟨size, hsize, h⟩ := Option.bind_eq_some_iff.mp h
    cases h
    obtain ⟨rfl, hsizelt⟩ := safeMultiply_eq_some_iff.mp hsize
    exact ⟨hsizelt, hlt, hlt⟩

/-- The sizes are those with integers of any size. -/
theorem eq_exactSizes (halignment : 0 < unpackAlignment ∧ unpackAlignment < 2 ^ 32)
    (hheight : height < 2 ^ 31) (hskip : unpackSkipRows < height)
    (hsizes : computeImageDataSizes width height format type unpackAlignment unpackRowLength
      unpackSkipRows = some sizes) :
    sizes = exactSizes width height format type unpackAlignment unpackRowLength
      unpackSkipRows := by
  obtain ⟨hrow, hcases⟩ := computeImageDataSizes_spec halignment hsizes
  obtain ⟨size, row, padded⟩ := sizes
  simp only at hrow hcases
  subst hrow
  unfold exactSizes
  split at hcases
  next hmany =>
    obtain ⟨rfl, rfl, -⟩ := hcases
    simp only [if_pos hmany, uint_rows (by omega) hskip]
  next hfew =>
    obtain ⟨rfl, rfl, -⟩ := hcases
    have hall : uint ((height : ℤ) - unpackSkipRows) = height - unpackSkipRows - 1 + 1 := by
      have hcast : ((height : ℤ) - unpackSkipRows) = (height - unpackSkipRows - 1 + 1 : ℕ) := by
        omega
      rw [hcast]
      apply uint_natCast_of_lt
      omega
    simp only [if_neg hfew, hall, Nat.succ_mul]

/-- The sizes are those with integers of any size; and they are given up only if the rows, each
of them padded, have more bytes than 32 bits can count. -/
theorem computeImageDataSizes_exact
    (halignment : unpackAlignment = 1 ∨ unpackAlignment = 2 ∨ unpackAlignment = 4 ∨
      unpackAlignment = 8) (hheight : height < 2 ^ 31) (hskip : unpackSkipRows < height) :
    (∀ sizes, computeImageDataSizes width height format type unpackAlignment unpackRowLength
        unpackSkipRows = some sizes →
      sizes = exactSizes width height format type unpackAlignment unpackRowLength
        unpackSkipRows ∧ sizes.Representable) ∧
      (computeImageDataSizes width height format type unpackAlignment unpackRowLength
          unpackSkipRows = none →
        2 ^ 32 ≤ (height - unpackSkipRows) *
          alignUp (rowGroups width unpackRowLength * computeImageGroupSize format type)
            unpackAlignment) := by
  have hdvd : unpackAlignment ∣ 2 ^ 32 := by
    rcases halignment with rfl | rfl | rfl | rfl <;> decide
  have hrange : 0 < unpackAlignment ∧ unpackAlignment < 2 ^ 32 := by omega
  constructor
  · intro sizes hsizes
    exact ⟨eq_exactSizes hrange hheight hskip hsizes, representable_of_eq_some hrange hsizes⟩
  · intro hnone
    by_cases hfits : 2 ^ 32 ≤ (height - unpackSkipRows) *
        alignUp (rowGroups width unpackRowLength * computeImageGroupSize format type)
          unpackAlignment
    · exact hfits
    · have hsome := computeImageDataSizes_eq_some hdvd hrange (by omega) hskip
        (Nat.lt_of_not_le hfits)
      rw [hnone] at hsome
      cases hsome

/-- An image of two rows of three bytes each. -/
theorem computeImageDataSizes_exact_two :
    exactSizes 1 2 .rgb .unsignedByte 4 0 0 = ⟨7, 3, 4⟩ ∧
      ∀ sizes, computeImageDataSizes 1 2 .rgb .unsignedByte 4 0 0 = some sizes →
        sizes = exactSizes 1 2 .rgb .unsignedByte 4 0 0 := by
  refine ⟨rfl, fun sizes hsizes => ?_⟩
  have halignment : 4 = 1 ∨ 4 = 2 ∨ 4 = 4 ∨ 4 = 8 := by decide
  exact ((computeImageDataSizes_exact halignment (by decide) (by decide)).1 sizes hsizes).1

end GpuProxy.Textures
