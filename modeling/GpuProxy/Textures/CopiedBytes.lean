import GpuProxy.Textures.Staging

/-!
# The copies made to stage an image

`copy_rect_to_buffer` taken as the list of its calls of `memcpy`: how many there are, and how
many bytes they copy. An image has as many rows to copy as are not skipped; if all are, the
bound of the loop wraps around. `command_gltexsubimage2d_init` makes the same copies as
`command_glteximage2d_init`, but computes the sizes from the row length and the skipped rows in
each other's place, and leaves the field `pixels` as it was if that fails.

## Main definitions

* `copyRectRows`, `copyRectCopies` — the rounds of the loop, and the calls of `memcpy`
* `StagesExactly` — the copies fill what was allocated, with no more rounds than rows
* `commandGlTexSubImage2DInit` — the other function
* `StagesAlike` — both functions leave the same in the field `pixels`

## Main results

* `copyRectToBuffer_eq` — the calls do what the function does
* `stagesExactly_iff` — some row must be left
* `stagesAlike_iff` — the row length must be the number of rows skipped
-/

namespace GpuProxy.Textures

open Math

/-- The rounds of the loop of `copy_rect_to_buffer`. The bound is unsigned, and the index wraps
around. -/
def copyRectRows (height unpackSkipRows pixelsPaddedRowSize bufferPaddedRowSize : ℕ) : ℕ :=
  if pixelsPaddedRowSize ≠ bufferPaddedRowSize then height - 1
  else uint ((height : ℤ) - unpackSkipRows - 1)

/-- The calls of `memcpy` of `copy_rect_to_buffer`. -/
def copyRectCopies (format : PixelFormat) (type : PixelType) (height unpackSkipPixels
    unpackSkipRows unpaddedRowSize pixelsPaddedRowSize bufferPaddedRowSize : ℕ) : List Copy :=
  let skipElements := uint (unpackSkipPixels * computeImageGroupSize format type)
  let source := uint (unpackSkipRows * pixelsPaddedRowSize) + skipElements
  let rows := copyRectRows height unpackSkipRows pixelsPaddedRowSize bufferPaddedRowSize
  let step :=
    if pixelsPaddedRowSize ≠ bufferPaddedRowSize then pixelsPaddedRowSize
    else uint (pixelsPaddedRowSize + skipElements)
  copiedRows bufferPaddedRowSize step rows 0 source ++
    [⟨rows * bufferPaddedRowSize, source + rows * step, unpaddedRowSize⟩]

/-- The calls of `memcpy` of `command_glteximage2d_init`. -/
def stagingCopies (store : PixelStore) (image : TexImage2D) (sizes : ImageSizes) : List Copy :=
  copyRectCopies image.format image.type image.height store.unpackSkipPixels store.unpackSkipRows
    sizes.unpaddedRowSize sizes.paddedRowSize sizes.paddedRowSize

/-- The copies write as many bytes as are allocated, and the loop has no more rounds than there
are rows. -/
def StagesExactly (store : PixelStore) (image : TexImage2D) (sizes : ImageSizes) : Prop :=
  totalCount (stagingCopies store image sizes) = sizes.size ∧
    copyRectRows image.height store.unpackSkipRows sizes.paddedRowSize sizes.paddedRowSize <
      image.height + 1

/-! ### The other function -/

/-- What is in the field `pixels` of a command: a pointer, or what `malloc` returned, with the
bytes copied to it and behind it. -/
inductive Pixels
  | pointer (address : ℕ)
  | block (size : ℕ) (bytes : ℕ → Option UInt8)

/-- The field after `command_glteximage2d_init`. -/
def texImage2DPixels (store : PixelStore) (image : TexImage2D) (pixels : ℕ → UInt8) : Pixels :=
  match computeImageDataSizes image.width image.height image.format image.type
    store.unpackAlignment store.unpackRowLength store.unpackSkipRows with
  | none => .pointer 0
  | some sizes => .block sizes.size (written pixels (stagingCopies store image sizes))

/-- The arguments of `glTexSubImage2D`, which refuses negative sizes. -/
structure TexSubImage2D where
  target : ℕ
  level : ℤ
  xoffset : ℤ
  yoffset : ℤ
  width : ℕ
  height : ℕ
  format : PixelFormat
  type : PixelType
  width_lt : width < 2 ^ 31
  height_lt : height < 2 ^ 31

/-- `command_gltexsubimage2d_t`. -/
structure CommandGlTexSubImage2D where
  image : TexSubImage2D
  pixels : Pixels

/-- `command_gltexsubimage2d_init`, with the pointer that is in the memory of the command before.
The skipped rows and the row length are passed in each other's place. -/
def commandGlTexSubImage2DInit (store : PixelStore) (image : TexSubImage2D) (pixels : ℕ → UInt8)
    (prior : ℕ) : CommandGlTexSubImage2D :=
  match computeImageDataSizes image.width image.height image.format image.type
    store.unpackAlignment store.unpackSkipRows store.unpackRowLength with
  | none => ⟨image, .pointer prior⟩
  | some sizes =>
    ⟨image, .block sizes.size (written pixels (copyRectCopies image.format image.type image.height
      store.unpackSkipPixels store.unpackSkipRows sizes.unpaddedRowSize sizes.paddedRowSize
      sizes.paddedRowSize))⟩

/-- A part of the size of a whole image. -/
def TexImage2D.sub (image : TexImage2D) (xoffset yoffset : ℤ) : TexSubImage2D where
  target := image.target
  level := image.level
  xoffset := xoffset
  yoffset := yoffset
  width := image.width
  height := image.height
  format := image.format
  type := image.type
  width_lt := image.width_lt
  height_lt := image.height_lt

/-- Both functions allocate the same and copy the same to it, or leave `NULL`. -/
def StagesAlike (store : PixelStore) (image : TexImage2D) (xoffset yoffset : ℤ) (prior : ℕ) :
    Prop :=
  ∀ pixels, (commandGlTexSubImage2DInit store (image.sub xoffset yoffset) pixels prior).pixels =
    texImage2DPixels store image pixels

variable {store : PixelStore} {image : TexImage2D} {sizes sizes' : ImageSizes}
  {pixels : ℕ → UInt8} {format : PixelFormat} {type : PixelType}
  {height skipPixels skipRows unpadded padded prior : ℕ} {xoffset yoffset : ℤ}

/-! ### The calls of `memcpy` -/

/-- As long as its loop counts within the range of its `int`, the function makes the copies. -/
theorem copyRectToBuffer_eq {buffer : ByteBuffer UInt8} {pixelsPadded bufferPadded : ℕ}
    (hrows : pixelsPadded = bufferPadded →
      copyRectRows height skipRows pixelsPadded bufferPadded ≤ intMax) :
    copyRectToBuffer pixels buffer format type height skipPixels skipRows unpadded pixelsPadded
        bufferPadded =
      buffer.copyAll pixels (copyRectCopies format type height skipPixels skipRows unpadded
        pixelsPadded bufferPadded) := by
  have hlast : ∀ (copies : List Copy) (last : Copy), buffer.copyAll pixels (copies ++ [last]) =
      (buffer.copyAll pixels copies).bind
        fun b => b.copy last.dest pixels last.src last.count := by
    intro copies last
    simp [ByteBuffer.copyAll, List.foldlM_append]
  unfold copyRectToBuffer copyRectCopies copyRectRows at *
  simp only [hlast]
  split
  next hne => simp [copyRows_eq, Option.bind_map]
  next heq =>
    have heq := not_not.mp heq
    subst heq
    simp only [ne_eq, not_true_eq_false, if_false, forall_const] at hrows
    rw [if_neg (Nat.not_lt.mpr hrows)]
    simp [copyRows_eq, Option.bind_map]

theorem consecutive_copyRectCopies : Consecutive 0
    (copyRectCopies format type height skipPixels skipRows unpadded padded padded) := by
  apply consecutive_append.mpr
  refine ⟨consecutive_copiedRows, ?_, trivial⟩
  rw [totalCount_copiedRows, Nat.zero_add]

theorem totalCount_copyRectCopies :
    totalCount (copyRectCopies format type height skipPixels skipRows unpadded padded padded) =
      copyRectRows height skipRows padded padded * padded + unpadded := by
  rw [copyRectCopies, totalCount_append, totalCount_copiedRows]
  rfl

/-- The field that `commandGlTexImage2DInit` leaves, if the copies stay in the buffer. -/
theorem texImage2DPixels_of_init {command : CommandGlTexImage2D}
    (h : commandGlTexImage2DInit store image (some pixels) = some command) :
    texImage2DPixels store image pixels =
      match command.pixels with
      | none => .pointer 0
      | some buffer => .block buffer.size buffer.cells := by
  unfold commandGlTexImage2DInit at h
  unfold texImage2DPixels
  cases hsizes : computeImageDataSizes image.width image.height image.format image.type
      store.unpackAlignment store.unpackRowLength store.unpackSkipRows with
  | none =>
    simp only [hsizes] at h
    cases h
    rfl
  | some sizes =>
    simp only [hsizes] at h
    obtain ⟨buffer, hcopy, rfl⟩ := Option.map_eq_some_iff.mp h
    have hrows : copyRectRows image.height store.unpackSkipRows sizes.paddedRowSize
        sizes.paddedRowSize ≤ intMax := by
      by_contra hmany
      have hmany : uint ((image.height : ℤ) - store.unpackSkipRows - 1) > intMax := by
        simpa [copyRectRows] using hmany
      simp [copyRectToBuffer, hmany] at hcopy
    rw [copyRectToBuffer_eq fun _ => hrows] at hcopy
    obtain ⟨hsize, hcells⟩ := cells_of_copyAll hcopy
    simp only [hsize, hcells]
    rfl

/-! ### As many bytes as are allocated -/

/-- The copies fill what was allocated if and only if there is a row that is not skipped. -/
theorem stagesExactly_iff
    (hsizes : computeImageDataSizes image.width image.height image.format image.type
      store.unpackAlignment store.unpackRowLength store.unpackSkipRows = some sizes) :
    StagesExactly store image sizes ↔ store.unpackSkipRows < image.height := by
  have hheight := image.height_lt
  have hskips := store.toNat_value_lt .unpackSkipRows
  have hskips : store.unpackSkipRows < 2 ^ 31 := hskips
  have halignment := store.unpackAlignment_mem
  have hrows : copyRectRows image.height store.unpackSkipRows sizes.paddedRowSize
      sizes.paddedRowSize = uint ((image.height : ℤ) - store.unpackSkipRows - 1) := by
    simp [copyRectRows]
  unfold StagesExactly stagingCopies
  rw [totalCount_copyRectCopies, hrows]
  constructor
  · rintro ⟨-, hfew⟩
    -- With all rows skipped the bound of the loop wraps around.
    unfold uint at hfew
    omega
  · intro hskip
    have hexact := eq_exactSizes (by omega) hheight hskip hsizes
    rw [uint_rows (by omega) hskip, hexact]
    exact ⟨rfl, by omega⟩

/-- An image without rows. -/
def TexImage2D.flat : TexImage2D where
  target := 0x0DE1
  level := 0
  internalformat := 0x1908
  width := 1
  height := 0
  border := 0
  format := .rgba
  type := .unsignedByte
  width_lt := by decide
  height_lt := by decide

theorem stagesExactly_square : StagesExactly .initial .square ⟨16, 8, 8⟩ := by
  apply (stagesExactly_iff _).mpr
  · decide
  · decide

/-- For an image without rows nothing is allocated, and the loop has 4294967295 rounds. -/
theorem exists_overrunning_image : ∃ image sizes,
    computeImageDataSizes image.width image.height image.format image.type
      PixelStore.initial.unpackAlignment PixelStore.initial.unpackRowLength
      PixelStore.initial.unpackSkipRows = some sizes ∧ ¬StagesExactly .initial image sizes := by
  refine ⟨.flat, ⟨0, 4, 4⟩, by decide, fun h => ?_⟩
  have hrows : copyRectRows 0 0 4 4 < 1 := h.2
  exact absurd hrows (by decide)

/-! ### The same in both functions -/

/-- A longer row gives more bytes, in as many rows. -/
theorem row_eq_of_total_eq {rows row row' : ℕ} {pad : ℕ → ℕ} (hpad : Monotone pad)
    (h : rows * pad row + row = rows * pad row' + row') : row = row' := by
  rcases Nat.lt_trichotomy row row' with hlt | heq | hlt
  · have hle : rows * pad row ≤ rows * pad row' := Nat.mul_le_mul_left _ (hpad hlt.le)
    omega
  · exact heq
  · have hle : rows * pad row' ≤ rows * pad row := Nat.mul_le_mul_left _ (hpad hlt.le)
    omega

theorem rowGroups_eq_zero {width rowLength : ℕ} (h : rowGroups width rowLength = 0) :
    rowLength = 0 := by
  unfold rowGroups at h
  split at h <;> omega

/-- A row and its padding, as `compute_image_data_sizes` computes it. -/
def padRow (height alignment row : ℕ) : ℕ := if height > 1 then alignUp row alignment else row

theorem monotone_padRow {alignment : ℕ} : Monotone (padRow height alignment) := by
  intro row row' hle
  unfold padRow
  split
  · exact alignUp_mono hle
  · exact hle

theorem paddedRowSize_eq {width alignment rowLength rows : ℕ}
    (halignment : 0 < alignment ∧ alignment < 2 ^ 32)
    (h : computeImageDataSizes width height format type alignment rowLength rows = some sizes) :
    sizes.paddedRowSize = padRow height alignment sizes.unpaddedRowSize := by
  obtain ⟨-, hcases⟩ := computeImageDataSizes_spec halignment h
  unfold padRow
  split at hcases
  next hmany => rw [if_pos hmany, hcases.1]
  next hfew => rw [if_neg hfew, hcases.1]

/-- Rows of equal length are allocated as often only if as many are skipped. -/
theorem rows_eq_of_size_eq {width alignment rowLength rowLength' rows rows' : ℕ}
    (halignment : 0 < alignment ∧ alignment < 2 ^ 32) (hrows : rows < 2 ^ 31)
    (hrows' : rows' < 2 ^ 31)
    (h : computeImageDataSizes width height format type alignment rowLength rows = some sizes)
    (h' : computeImageDataSizes width height format type alignment rowLength' rows' =
      some sizes')
    (hsize : sizes.size = sizes'.size) (hrow : sizes.unpaddedRowSize = sizes'.unpaddedRowSize) :
    rows = rows' ∨ sizes.unpaddedRowSize = 0 := by
  have hpadded := paddedRowSize_eq halignment h
  have hpadded' := paddedRowSize_eq halignment h'
  rw [← hrow, ← hpadded] at hpadded'
  obtain ⟨-, hcases⟩ := computeImageDataSizes_spec halignment h
  obtain ⟨-, hcases'⟩ := computeImageDataSizes_spec halignment h'
  split at hcases
  next hmany =>
    rw [if_pos hmany] at hcases'
    rw [hcases.2.1, hcases'.2.1, hpadded', ← hrow] at hsize
    have hproduct := Nat.add_right_cancel hsize
    rcases Nat.eq_zero_or_pos sizes.paddedRowSize with hzero | hpos
    · right
      have hle := le_alignUp (n := sizes.unpaddedRowSize) halignment.1
      rw [← hcases.1, hzero] at hle
      exact Nat.le_zero.mp hle
    · left
      have hequal := Nat.eq_of_mul_eq_mul_right hpos hproduct
      unfold uint at hequal
      omega
  next hfew =>
    rw [if_neg hfew] at hcases'
    rw [hcases.2.1, hcases'.2.1, ← hrow] at hsize
    rcases Nat.eq_zero_or_pos sizes.unpaddedRowSize with hzero | hpos
    · exact .inr hzero
    · left
      have hequal := Nat.eq_of_mul_eq_mul_right hpos hsize
      unfold uint at hequal
      omega

/-- If both functions have sizes and make copies that fill the same bytes, the parameters that
are exchanged are equal, or there are no bytes. -/
theorem eq_or_group_eq_zero
    (h : computeImageDataSizes image.width image.height image.format image.type
      store.unpackAlignment store.unpackRowLength store.unpackSkipRows = some sizes)
    (h' : computeImageDataSizes image.width image.height image.format image.type
      store.unpackAlignment store.unpackSkipRows store.unpackRowLength = some sizes')
    (hsize : sizes.size = sizes'.size)
    (htotal : totalCount (stagingCopies store image sizes) =
      totalCount (stagingCopies store image sizes')) :
    store.unpackRowLength = store.unpackSkipRows ∨ image.group = 0 := by
  have hmem := store.unpackAlignment_mem
  have halignment : 0 < store.unpackAlignment ∧ store.unpackAlignment < 2 ^ 32 := by omega
  have hlength : store.unpackRowLength < 2 ^ 31 := store.toNat_value_lt .unpackRowLength
  have hskips : store.unpackSkipRows < 2 ^ 31 := store.toNat_value_lt .unpackSkipRows
  unfold stagingCopies at htotal
  rw [totalCount_copyRectCopies, totalCount_copyRectCopies, paddedRowSize_eq halignment h,
    paddedRowSize_eq halignment h'] at htotal
  simp only [copyRectRows, ne_eq, not_true_eq_false, if_false] at htotal
  have hrow := row_eq_of_total_eq monotone_padRow htotal
  rcases rows_eq_of_size_eq halignment hskips hlength h h' hsize hrow with
    heq | hzero
  · exact .inl heq.symm
  -- Rows without bytes: the two row lengths are 0, or a group has no bytes.
  have hzero' : sizes'.unpaddedRowSize = 0 := hrow ▸ hzero
  rw [(computeImageDataSizes_spec halignment h).1] at hzero
  rw [(computeImageDataSizes_spec halignment h').1] at hzero'
  rcases Nat.mul_eq_zero.mp hzero with hgroups | hgroup
  · rcases Nat.mul_eq_zero.mp hzero' with hgroups' | hgroup
    · left
      rw [rowGroups_eq_zero hgroups, rowGroups_eq_zero hgroups']
    · exact .inr hgroup
  · exact .inr hgroup

/-- Without bytes in a group the sizes are 0, whatever the parameters. -/
theorem computeImageDataSizes_of_group_eq_zero {width alignment rowLength rows : ℕ}
    (halignment : 0 < alignment ∧ alignment < 2 ^ 32)
    (hgroup : computeImageGroupSize format type = 0) :
    computeImageDataSizes width height format type alignment rowLength rows =
      some ⟨0, 0, 0⟩ := by
  have hrow : safeMultiply (rowGroups width rowLength) 0 = some 0 := rfl
  have htemp : safeAdd 0 (alignment - 1) = some (alignment - 1) := by
    apply (safeAdd_eq_some_iff (by decide) (by omega)).mpr
    omega
  have hpadded : (alignment - 1) / alignment = 0 := Nat.div_eq_of_lt (by omega)
  have hrest : ∀ n, safeMultiply n 0 = some 0 := fun _ => rfl
  unfold computeImageDataSizes
  simp only [hgroup, hrow, Option.bind_eq_bind, Option.bind_some, htemp, hpadded, Nat.zero_mul,
    hrest]
  split <;> rfl

/-- If the sizes can be computed and both functions stage the same, the parameters are equal, or
there are no bytes. -/
theorem eq_or_group_of_stagesAlike (halike : StagesAlike store image xoffset yoffset prior)
    (h : computeImageDataSizes image.width image.height image.format image.type
      store.unpackAlignment store.unpackRowLength store.unpackSkipRows = some sizes) :
    store.unpackRowLength = store.unpackSkipRows ∨ image.group = 0 := by
  unfold StagesAlike texImage2DPixels commandGlTexSubImage2DInit TexImage2D.sub at halike
  rw [h] at halike
  have hall := halike fun _ => 0
  cases h' : computeImageDataSizes image.width image.height image.format image.type
      store.unpackAlignment store.unpackSkipRows store.unpackRowLength with
  | none =>
    rw [h'] at hall
    cases hall
  | some sizes' =>
    simp only [h', Pixels.block.injEq] at hall
    obtain ⟨hsize, hbytes⟩ := hall
    have htotal := totalCount_eq_of_written_eq consecutive_copyRectCopies
      consecutive_copyRectCopies hbytes
    exact eq_or_group_eq_zero h h' hsize.symm htotal.symm

/-- Both functions stage the same if and only if the sizes can be computed and the row length is
the number of rows skipped (or there are no bytes to copy), or they can be computed by neither
function, and there was `NULL` in the command before. -/
theorem stagesAlike_iff : StagesAlike store image xoffset yoffset prior ↔
    computeImageDataSizes image.width image.height image.format image.type
        store.unpackAlignment store.unpackRowLength store.unpackSkipRows ≠ none ∧
      (store.unpackRowLength = store.unpackSkipRows ∨ image.group = 0) ∨
    computeImageDataSizes image.width image.height image.format image.type
        store.unpackAlignment store.unpackRowLength store.unpackSkipRows = none ∧
      computeImageDataSizes image.width image.height image.format image.type
        store.unpackAlignment store.unpackSkipRows store.unpackRowLength = none ∧ prior = 0 := by
  have hmem := store.unpackAlignment_mem
  have halignment : 0 < store.unpackAlignment ∧ store.unpackAlignment < 2 ^ 32 := by omega
  unfold StagesAlike texImage2DPixels commandGlTexSubImage2DInit TexImage2D.sub
  cases h : computeImageDataSizes image.width image.height image.format image.type
      store.unpackAlignment store.unpackRowLength store.unpackSkipRows with
  | none =>
    cases h' : computeImageDataSizes image.width image.height image.format image.type
        store.unpackAlignment store.unpackSkipRows store.unpackRowLength with
    | none => simp
    | some sizes' => simp
  | some sizes =>
    simp only [ne_eq, reduceCtorEq, not_false_eq_true, true_and, false_and, or_false]
    constructor
    · intro hall
      have halike : StagesAlike store image xoffset yoffset prior := by
        unfold StagesAlike texImage2DPixels commandGlTexSubImage2DInit TexImage2D.sub
        rw [h]
        exact hall
      exact eq_or_group_of_stagesAlike halike h
    · rintro (heq | hgroup) pixels
      · rw [heq] at h ⊢
        simp only [h]
        rfl
      · have hzero : ∀ rowLength rows, computeImageDataSizes image.width image.height image.format
            image.type store.unpackAlignment rowLength rows = some ⟨0, 0, 0⟩ :=
          fun _ _ => computeImageDataSizes_of_group_eq_zero halignment hgroup
        rw [hzero] at h
        cases h
        simp only [hzero]
        rfl

/-- Two rows of two bytes, the first of which is skipped: one function allocates two bytes and
copies two, the other takes the rows to be one byte long and none to be skipped, so that with
their padding it allocates five, and copies one. -/
def TexImage2D.small : TexImage2D :=
  { TexImage2D.square with internalformat := 0x1906, format := .alpha }

theorem exists_staged_apart : ∃ param prior,
    ¬StagesAlike (glPixelStorei .initial (some .unpackSkipRows) param).store .small 0 0 prior := by
  refine ⟨⟨1, by decide⟩, 0, fun halike => ?_⟩
  obtain heq | hgroup := eq_or_group_of_stagesAlike halike
    (by decide : computeImageDataSizes 2 2 .alpha .unsignedByte 4 0 1 = some ⟨2, 2, 4⟩)
  · exact absurd heq (by decide)
  · exact absurd hgroup (by decide)

end GpuProxy.Textures
