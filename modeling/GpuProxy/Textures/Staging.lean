import GpuProxy.Math.ByteBuffer
import GpuProxy.Textures.ImageSize
import GpuProxy.Textures.PixelStore

/-!
# Staging a texture

`command_glteximage2d_init` copies the image into a buffer of the command, for the driver of
the server to read. Of the parameters that say how the image lies in memory only the
alignment is forwarded, so that the copy has to lie as one without row length and skips.

## Main definitions

* `copyRectToBuffer`, `commandGlTexImage2DInit` — the code
* `clientGroup`, `stagedGroup` — a group of the image in the memory of the client, and in the
  buffer as the driver reads it
* `PreservesImage` — these are the same for the whole image
* `StagesRight` — the images and parameters for which they are

## Main results

* `commandGlTexImage2DInit_spec` — which byte of the memory is in which byte of the buffer
* `preservesImage_iff` — a staged image is preserved if and only if it is staged right
* `exists_torn_image` — two rows and a skipped pixel
-/

namespace GpuProxy.Textures

open Math

/-- The arguments of `glTexImage2D`, which refuses negative sizes. -/
structure TexImage2D where
  target : ℕ
  level : ℤ
  internalformat : ℤ
  width : ℕ
  height : ℕ
  border : ℤ
  format : PixelFormat
  type : PixelType
  width_lt : width < 2 ^ 31
  height_lt : height < 2 ^ 31

/-- `command_glteximage2d_t`. -/
structure CommandGlTexImage2D where
  image : TexImage2D
  pixels : Option (ByteBuffer UInt8)

/-- `INT_MAX`. -/
def intMax : ℕ := 2 ^ 31 - 1

/-- `copy_rect_to_buffer`, for the memory from `pixels` on. There is no result when a copy
would pass the end of the buffer, or the loop would count beyond the range of its `int`. -/
def copyRectToBuffer (pixels : ℕ → UInt8) (buffer : ByteBuffer UInt8) (format : PixelFormat)
    (type : PixelType) (height unpackSkipPixels unpackSkipRows unpaddedRowSize
      pixelsPaddedRowSize bufferPaddedRowSize : ℕ) : Option (ByteBuffer UInt8) :=
  let skipElements := uint (unpackSkipPixels * computeImageGroupSize format type)
  let source := uint (unpackSkipRows * pixelsPaddedRowSize) + skipElements
  -- The command passes one row size for both.
  if pixelsPaddedRowSize ≠ bufferPaddedRowSize then
    (buffer.copyRows pixels bufferPaddedRowSize pixelsPaddedRowSize (height - 1) 0 source).bind
      fun (buffer, dest, source) => buffer.copy dest pixels source unpaddedRowSize
  else
    -- The bound of the loop is unsigned.
    let rows := uint ((height : ℤ) - unpackSkipRows - 1)
    if rows > intMax then none
    else
      (buffer.copyRows pixels pixelsPaddedRowSize (uint (pixelsPaddedRowSize + skipElements)) rows
        0 source).bind
          fun (buffer, dest, source) => buffer.copy dest pixels source unpaddedRowSize

/-- `command_glteximage2d_init`. -/
def commandGlTexImage2DInit (store : PixelStore) (image : TexImage2D)
    (pixels : Option (ℕ → UInt8)) : Option CommandGlTexImage2D :=
  match pixels with
  | none => some ⟨image, none⟩
  | some pixels =>
    match computeImageDataSizes image.width image.height image.format image.type
      store.unpackAlignment store.unpackRowLength store.unpackSkipRows with
    | none => some ⟨image, none⟩
    | some sizes =>
      (copyRectToBuffer pixels (.alloc sizes.size) image.format image.type image.height
        store.unpackSkipPixels store.unpackSkipRows sizes.unpaddedRowSize sizes.paddedRowSize
        sizes.paddedRowSize).map fun buffer => ⟨image, some buffer⟩

/-! ### Decoding an image -/

/-- The bytes of a group of the image. -/
def TexImage2D.group (image : TexImage2D) : ℕ := computeImageGroupSize image.format image.type

/-- The bytes of a row of the application's image, without padding. -/
def TexImage2D.row (image : TexImage2D) (store : PixelStore) : ℕ :=
  rowGroups image.width store.unpackRowLength * image.group

/-- Where a group lies in the memory of the application: behind the rows skipped and the
groups skipped, with rows of the row length that are padded to the alignment. -/
def TexImage2D.clientIndex (image : TexImage2D) (store : PixelStore) (r c : ℕ) : ℕ :=
  (store.unpackSkipRows + r) * alignUp (image.row store) store.unpackAlignment +
    (store.unpackSkipPixels + c) * image.group

/-- Where the driver of the server looks for a group: it knows the alignment only. -/
def TexImage2D.serverIndex (image : TexImage2D) (store : PixelStore) (r c : ℕ) : ℕ :=
  r * alignUp (image.width * image.group) store.unpackAlignment + c * image.group

/-- A group of the application's image. -/
def clientGroup (store : PixelStore) (image : TexImage2D) (pixels : ℕ → UInt8) (r c : ℕ) :
    List UInt8 :=
  (List.range image.group).map fun k => pixels (image.clientIndex store r c + k)

/-- A group of the image that is staged. -/
def stagedGroup (store : PixelStore) (image : TexImage2D) (pixels : ℕ → UInt8) (r c : ℕ) :
    Option (List UInt8) := do
  let command ← commandGlTexImage2DInit store image (some pixels)
  let buffer ← command.pixels
  buffer.read (image.serverIndex store r c) image.group

/-- Whatever is in the memory of the application, each group of the image is staged where the
driver looks for it. -/
def PreservesImage (store : PixelStore) (image : TexImage2D) : Prop :=
  ∀ pixels, ∀ r < image.height, ∀ c < image.width,
    stagedGroup store image pixels r c = some (clientGroup store image pixels r c)

/-- No rows are skipped, the rows are long enough, and the groups skipped do not overflow.
More than one row needs rows that are equally long on both sides, and no groups skipped. An
image without columns has nothing to stage. -/
def StagesRight (store : PixelStore) (image : TexImage2D) : Prop :=
  image.width = 0 ∨
    store.unpackSkipRows = 0 ∧ image.width ≤ rowGroups image.width store.unpackRowLength ∧
      store.unpackSkipPixels * image.group < 2 ^ 32 ∧
      (image.height = 1 ∨ store.unpackSkipPixels = 0 ∧
        alignUp (image.row store) store.unpackAlignment =
          alignUp (image.width * image.group) store.unpackAlignment)

/-! ### What is staged -/

variable {store : PixelStore} {image : TexImage2D} {sizes : ImageSizes} {pixels : ℕ → UInt8}

/-- The number of rows copied before the last one. -/
def stagedRows (store : PixelStore) (image : TexImage2D) : ℕ :=
  uint ((image.height : ℤ) - store.unpackSkipRows - 1)

/-- The place of the first byte copied. -/
def firstIndex (store : PixelStore) (image : TexImage2D) (padded : ℕ) : ℕ :=
  uint (store.unpackSkipRows * padded) + uint (store.unpackSkipPixels * image.group)

/-- The distance between rows copied. -/
def rowStep (store : PixelStore) (image : TexImage2D) (padded : ℕ) : ℕ :=
  uint (padded + uint (store.unpackSkipPixels * image.group))

/-- The place of the byte copied to the byte `i` of the buffer. -/
def copiedIndex (store : PixelStore) (image : TexImage2D) (padded i : ℕ) : ℕ :=
  if i < stagedRows store image * padded then
    firstIndex store image padded + i / padded * rowStep store image padded + i % padded
  else
    firstIndex store image padded + stagedRows store image * rowStep store image padded +
      (i - stagedRows store image * padded)

/-- The loop counts within its range if some row is not skipped. -/
theorem stagedRows_le_iff (hheight : 0 < image.height) :
    stagedRows store image ≤ intMax ↔ store.unpackSkipRows < image.height := by
  have hlt := image.height_lt
  have hskip := store.toNat_value_lt .unpackSkipRows
  unfold stagedRows uint intMax PixelStore.unpackSkipRows
  omega

theorem stagedRows_eq (h : store.unpackSkipRows < image.height) :
    stagedRows store image = image.height - store.unpackSkipRows - 1 := by
  have hlt := image.height_lt
  unfold stagedRows uint
  omega

/-- The sizes of an image of which some row is not skipped. -/
theorem sizes_eq (hheight : 0 < image.height) (hskip : store.unpackSkipRows < image.height)
    (hsizes : computeImageDataSizes image.width image.height image.format image.type
      store.unpackAlignment store.unpackRowLength store.unpackSkipRows = some sizes) :
    sizes.unpaddedRowSize = image.row store ∧
      sizes.size = stagedRows store image * sizes.paddedRowSize + image.row store ∧
      sizes.size < 2 ^ 32 ∧
      (1 < image.height →
        sizes.paddedRowSize = alignUp (image.row store) store.unpackAlignment) := by
  have halignment := store.unpackAlignment_mem
  obtain ⟨hrow, hrest⟩ := computeImageDataSizes_spec (by omega) hsizes
  have hrow : sizes.unpaddedRowSize = image.row store := hrow
  split at hrest
  next hmany =>
    obtain ⟨hpadded, hsize, hlt⟩ := hrest
    rw [hrow] at hpadded hsize
    exact ⟨hrow, hsize, hlt, fun _ => hpadded⟩
  next hone =>
    obtain ⟨hpadded, hsize, hlt⟩ := hrest
    obtain ⟨hheight, hskip⟩ : image.height = 1 ∧ store.unpackSkipRows = 0 := by omega
    refine ⟨hrow, ?_, hlt, fun hmany => absurd hmany hone⟩
    rw [hsize, hrow, stagedRows, hheight, hskip]
    simp [uint]

/-- If some row is not skipped, the image is staged, and the bytes of the buffer are those
copied. -/
theorem commandGlTexImage2DInit_spec (pixels : ℕ → UInt8) (hheight : 0 < image.height)
    (hskip : store.unpackSkipRows < image.height)
    (hsizes : computeImageDataSizes image.width image.height image.format image.type
      store.unpackAlignment store.unpackRowLength store.unpackSkipRows = some sizes) :
    ∃ buffer, commandGlTexImage2DInit store image (some pixels) = some ⟨image, some buffer⟩ ∧
      ∀ i, buffer.cells i =
        if i < stagedRows store image * sizes.paddedRowSize + image.row store then
          some (pixels (copiedIndex store image sizes.paddedRowSize i))
        else none := by
  obtain ⟨hrow, hsize, -, -⟩ := sizes_eq hheight hskip hsizes
  have hfit : 0 + stagedRows store image * sizes.paddedRowSize ≤
      (ByteBuffer.alloc sizes.size : ByteBuffer UInt8).size := by
    rw [ByteBuffer.size_alloc, hsize]
    omega
  obtain ⟨b, hrows, hbsize, hcells⟩ := ByteBuffer.copyRows_spec pixels
    (rowStep store image sizes.paddedRowSize) (firstIndex store image sizes.paddedRowSize) hfit
  have hlast : 0 + stagedRows store image * sizes.paddedRowSize + image.row store ≤ b.size := by
    rw [hbsize, ByteBuffer.size_alloc, hsize, Nat.zero_add]
  obtain ⟨buffer, hcopy, -, hbuffer⟩ := ByteBuffer.copy_spec pixels
    (firstIndex store image sizes.paddedRowSize +
      stagedRows store image * rowStep store image sizes.paddedRowSize) hlast
  refine ⟨buffer, ?_, fun i => ?_⟩
  · have hrange : ¬stagedRows store image > intMax :=
      Nat.not_lt.mpr ((stagedRows_le_iff hheight).mpr hskip)
    have hstaged : copyRectToBuffer pixels (.alloc sizes.size) image.format image.type image.height
        store.unpackSkipPixels store.unpackSkipRows sizes.unpaddedRowSize sizes.paddedRowSize
        sizes.paddedRowSize = some buffer := by
      rw [copyRectToBuffer, if_neg (not_not.mpr rfl)]
      change (if stagedRows store image > intMax then none
        else (ByteBuffer.copyRows pixels sizes.paddedRowSize
          (rowStep store image sizes.paddedRowSize) (stagedRows store image)
          (.alloc sizes.size) 0 (firstIndex store image sizes.paddedRowSize)).bind
            fun p => p.1.copy p.2.1 pixels p.2.2 sizes.unpaddedRowSize) = some buffer
      rw [if_neg hrange, hrows, Option.bind_some, hrow]
      exact hcopy
    simp only [commandGlTexImage2DInit, hsizes, hstaged, Option.map_some]
  · rw [hbuffer, hcells, copiedIndex]
    simp only [Nat.zero_add, Nat.zero_le, true_and, Nat.sub_zero, ByteBuffer.cells_alloc]
    by_cases hrest : i < stagedRows store image * sizes.paddedRowSize
    · rw [if_neg (by omega), if_pos hrest, if_pos (by omega), if_pos hrest]
    · rw [if_neg hrest, if_neg hrest]
      by_cases hin : i < stagedRows store image * sizes.paddedRowSize + image.row store
      · rw [if_pos (by omega), if_pos hin]
      · rw [if_neg (by omega), if_neg hin]

/-- If all rows are skipped, the loop runs out of its range. -/
theorem commandGlTexImage2DInit_eq_none (hheight : 0 < image.height)
    (hskip : ¬store.unpackSkipRows < image.height)
    (hsizes : computeImageDataSizes image.width image.height image.format image.type
      store.unpackAlignment store.unpackRowLength store.unpackSkipRows = some sizes) :
    commandGlTexImage2DInit store image (some pixels) = none := by
  have hrange : stagedRows store image > intMax :=
    Nat.not_le.mp fun hle => hskip ((stagedRows_le_iff hheight).mp hle)
  simp only [commandGlTexImage2DInit, hsizes, Option.map_eq_none_iff]
  rw [copyRectToBuffer, if_neg (not_not.mpr rfl)]
  exact if_pos hrange

/-- A group is staged right for every memory if its bytes are copied from their places. -/
theorem stagedGroup_eq_iff {r c : ℕ} (hheight : 0 < image.height)
    (hsizes : computeImageDataSizes image.width image.height image.format image.type
      store.unpackAlignment store.unpackRowLength store.unpackSkipRows = some sizes) :
    (∀ pixels, stagedGroup store image pixels r c = some (clientGroup store image pixels r c)) ↔
      store.unpackSkipRows < image.height ∧ ∀ k < image.group,
        image.serverIndex store r c + k <
            stagedRows store image * sizes.paddedRowSize + image.row store ∧
          copiedIndex store image sizes.paddedRowSize (image.serverIndex store r c + k) =
            image.clientIndex store r c + k := by
  by_cases hskip : store.unpackSkipRows < image.height
  · have hgroupAt : ∀ pixels, stagedGroup store image pixels r c =
        some (clientGroup store image pixels r c) ↔ ∀ k < image.group,
          image.serverIndex store r c + k <
              stagedRows store image * sizes.paddedRowSize + image.row store ∧
            pixels (copiedIndex store image sizes.paddedRowSize
              (image.serverIndex store r c + k)) = pixels (image.clientIndex store r c + k) := by
      intro pixels
      obtain ⟨buffer, hstaged, hcells⟩ :=
        commandGlTexImage2DInit_spec pixels hheight hskip hsizes
      have hread : stagedGroup store image pixels r c =
          buffer.read (image.serverIndex store r c) image.group := by
        rw [stagedGroup, hstaged]
        rfl
      rw [hread, clientGroup, ByteBuffer.read_eq_some_iff]
      refine forall₂_congr fun k _ => ?_
      rw [hcells]
      split
      next hin => simp [hin]
      next hout => simp [hout]
    rw [and_iff_right hskip]
    constructor
    -- A memory that is 1 at one place only tells the places apart.
    · intro hall k hk
      obtain ⟨hin, heq⟩ := (hgroupAt fun i =>
        if i = image.clientIndex store r c + k then 1 else 0).mp (hall _) k hk
      refine ⟨hin, ?_⟩
      by_contra hne
      simp [hne] at heq
    · intro hall pixels
      refine (hgroupAt pixels).mpr fun k hk => ⟨(hall k hk).1, ?_⟩
      rw [(hall k hk).2]
  · refine iff_of_false (fun hall => ?_) fun h => hskip h.1
    have hstaged := hall fun _ => 0
    rw [stagedGroup, commandGlTexImage2DInit_eq_none hheight hskip hsizes] at hstaged
    cases hstaged

/-- The byte `i` of the row `r` copied. -/
theorem copiedIndex_row {padded r i : ℕ} (hr : r ≤ stagedRows store image) (hi : i < padded) :
    copiedIndex store image padded (r * padded + i) =
      firstIndex store image padded + r * rowStep store image padded + i := by
  have hpadded : 0 < padded := by omega
  rw [copiedIndex]
  rcases Nat.lt_or_eq_of_le hr with hlt | rfl
  · have hin : r * padded + i < stagedRows store image * padded := by
      calc r * padded + i < r * padded + padded := by omega
        _ = (r + 1) * padded := by rw [Nat.add_mul, Nat.one_mul]
        _ ≤ stagedRows store image * padded := Nat.mul_le_mul_right _ hlt
    have hdiv : (r * padded + i) / padded = r := by
      rw [Nat.mul_comm, Nat.mul_add_div hpadded, Nat.div_eq_of_lt hi, Nat.add_zero]
    have hmod : (r * padded + i) % padded = i := by
      rw [Nat.mul_comm, Nat.mul_add_mod, Nat.mod_eq_of_lt hi]
    rw [if_pos hin, hdiv, hmod]
  · rw [if_neg (by omega), Nat.add_sub_cancel_left]

/-- The only row. -/
theorem copiedIndex_one {padded i : ℕ} (hrows : stagedRows store image = 0) :
    copiedIndex store image padded i = firstIndex store image padded + i := by
  simp [copiedIndex, hrows]

/-! ### Rows, steps and skips -/

/-- Each byte of the image is copied from its place. -/
def CopiesImage (store : PixelStore) (image : TexImage2D) (padded : ℕ) : Prop :=
  ∀ r < image.height, ∀ c < image.width, ∀ k < image.group,
    image.serverIndex store r c + k < stagedRows store image * padded + image.row store ∧
      copiedIndex store image padded (image.serverIndex store r c + k) =
        image.clientIndex store r c + k

theorem uint_natCast_le (n : ℕ) : uint n ≤ n := by
  rw [uint_natCast]
  exact Nat.mod_le _ _

theorem uint_natCast_lt (n : ℕ) : uint n < 2 ^ 32 := by
  rw [uint_natCast]
  exact Nat.mod_lt _ (by decide)

theorem preservesImage_iff_copiesImage (hheight : 0 < image.height)
    (hsizes : computeImageDataSizes image.width image.height image.format image.type
      store.unpackAlignment store.unpackRowLength store.unpackSkipRows = some sizes) :
    PreservesImage store image ↔ image.width = 0 ∨
      store.unpackSkipRows < image.height ∧ CopiesImage store image sizes.paddedRowSize := by
  constructor
  · intro hall
    by_cases hwidth : image.width = 0
    · exact .inl hwidth
    · have hgroup : ∀ r < image.height, ∀ c < image.width, _ := fun r hr c hc =>
        (stagedGroup_eq_iff hheight hsizes).mp fun pixels => hall pixels r hr c hc
      exact .inr ⟨(hgroup 0 hheight 0 (Nat.pos_of_ne_zero hwidth)).1,
        fun r hr c hc => (hgroup r hr c hc).2⟩
  · rintro (hwidth | ⟨hskip, hcopies⟩) pixels r hr c hc
    · omega
    · exact (stagedGroup_eq_iff hheight hsizes).mpr ⟨hskip, hcopies r hr c hc⟩ pixels

/-- A byte of a row that is long enough. -/
theorem mul_group_add_lt_row {c k : ℕ}
    (hwidth : image.width ≤ rowGroups image.width store.unpackRowLength) (hc : c < image.width)
    (hk : k < image.group) : c * image.group + k < image.row store := by
  calc c * image.group + k < (c + 1) * image.group := by rw [Nat.add_mul]; omega
    _ ≤ image.row store := Nat.mul_le_mul_right _ (Nat.le_trans hc hwidth)

/-- A single row is copied from behind the groups skipped. -/
theorem copiesImage_of_one {padded : ℕ} (hone : image.height = 1)
    (hskip : store.unpackSkipRows = 0)
    (hwidth : image.width ≤ rowGroups image.width store.unpackRowLength)
    (hlt : store.unpackSkipPixels * image.group < 2 ^ 32) : CopiesImage store image padded := by
  have hrows : stagedRows store image = 0 := by
    rw [stagedRows_eq (by omega), hone, hskip]
  have hfirst : firstIndex store image padded = store.unpackSkipPixels * image.group := by
    rw [firstIndex, hskip, ← Int.natCast_mul, ← Int.natCast_mul, uint_natCast_of_lt hlt]
    simp [uint]
  -- There is nothing to step over, so only the start of the row matters.
  intro r hr c hc k hk
  obtain rfl : r = 0 := by omega
  have hin := mul_group_add_lt_row hwidth hc hk
  rw [copiedIndex_one hrows, hfirst, hrows, TexImage2D.serverIndex, TexImage2D.clientIndex, hskip,
    Nat.add_mul store.unpackSkipPixels]
  omega

/-- Rows that are equally long on both sides are copied one by one. -/
theorem copiesImage_of_many {padded : ℕ} (hmany : 1 < image.height)
    (hpadded : padded = alignUp (image.row store) store.unpackAlignment)
    (hlt : stagedRows store image * padded + image.row store < 2 ^ 32)
    (hskip : store.unpackSkipRows = 0)
    (hwidth : image.width ≤ rowGroups image.width store.unpackRowLength)
    (hpixels : store.unpackSkipPixels = 0)
    (hstrides : padded = alignUp (image.width * image.group) store.unpackAlignment) :
    CopiesImage store image padded := by
  have halignment := store.unpackAlignment_mem
  have hrows : stagedRows store image = image.height - 1 := by
    rw [stagedRows_eq (by omega), hskip, Nat.sub_zero]
  have hrow : image.row store ≤ padded := hpadded ▸ le_alignUp (by omega)
  have hone : 1 * padded ≤ stagedRows store image * padded :=
    Nat.mul_le_mul_right _ (by omega)
  have hfirst : firstIndex store image padded = 0 := by
    rw [firstIndex, hskip, hpixels]
    simp [uint]
  have hstep : rowStep store image padded = padded := by
    have hzero : uint (store.unpackSkipPixels * image.group) = 0 := by
      rw [hpixels]
      simp [uint]
    rw [rowStep, hzero, ← Int.natCast_add, uint_natCast_of_lt (by omega), Nat.add_zero]
  intro r hr c hc k hk
  have hin := mul_group_add_lt_row hwidth hc hk
  have hle : r * padded ≤ stagedRows store image * padded := Nat.mul_le_mul_right _ (by omega)
  have hserver : image.serverIndex store r c + k = r * padded + (c * image.group + k) := by
    rw [TexImage2D.serverIndex, ← hstrides, Nat.add_assoc]
  have hclient : image.clientIndex store r c + k = r * padded + (c * image.group + k) := by
    rw [TexImage2D.clientIndex, ← hpadded, hskip, hpixels, Nat.zero_add, Nat.zero_add,
      Nat.add_assoc]
  rw [hserver, hclient, copiedIndex_row (by omega) (by omega), hfirst, hstep]
  omega

/-- Copying starts where the image does only if no skip overflows. -/
theorem skips_lt_of_firstIndex_eq (padded : ℕ) (h : firstIndex store image padded =
      store.unpackSkipRows * padded + store.unpackSkipPixels * image.group) :
    store.unpackSkipPixels * image.group < 2 ^ 32 := by
  have hrows := uint_natCast_le (store.unpackSkipRows * padded)
  have hpixels := uint_natCast_le (store.unpackSkipPixels * image.group)
  have hlt := uint_natCast_lt (store.unpackSkipPixels * image.group)
  rw [firstIndex, ← Int.natCast_mul, ← Int.natCast_mul] at h
  omega

/-- The last byte of a row of the image. -/
theorem last_group_add_last (hwidth : 0 < image.width) (hgroup : 0 < image.group) :
    (image.width - 1) * image.group + (image.group - 1) + 1 = image.width * image.group := by
  have hle := Nat.le_mul_of_pos_left image.group hwidth
  rw [Nat.sub_mul, Nat.one_mul]
  omega

/-- A single row that is copied right is staged right. -/
theorem stagesRight_of_one {padded : ℕ} (hone : image.height = 1) (hwidth : 0 < image.width)
    (hgroup : 0 < image.group) (hskip : store.unpackSkipRows = 0)
    (hcopies : CopiesImage store image padded) : StagesRight store image := by
  have hrows : stagedRows store image = 0 := by
    rw [stagedRows_eq (by omega), hone, hskip]
  refine .inr ⟨hskip, ?_, ?_, .inl hone⟩
  · obtain ⟨hin, -⟩ := hcopies 0 (by omega) (image.width - 1) (by omega) (image.group - 1)
      (by omega)
    have hlast := last_group_add_last hwidth hgroup
    rw [hrows, TexImage2D.serverIndex, Nat.zero_mul, Nat.zero_mul, Nat.zero_add,
      Nat.zero_add] at hin
    exact Nat.le_of_mul_le_mul_right (by rw [← hlast]; exact hin) hgroup
  · obtain ⟨-, hfirst⟩ := hcopies 0 (by omega) 0 hwidth 0 hgroup
    apply skips_lt_of_firstIndex_eq padded
    rw [copiedIndex_one hrows, TexImage2D.serverIndex, TexImage2D.clientIndex, hskip] at hfirst
    simpa [hskip] using hfirst

/-- The rows of an image that is copied right are equally long on both sides, and none is
skipped. -/
theorem strides_eq_of_many {padded : ℕ} (hmany : 1 < image.height) (hwidth : 0 < image.width)
    (hgroup : 0 < image.group) (hskip : store.unpackSkipRows < image.height)
    (hpadded : padded = alignUp (image.row store) store.unpackAlignment)
    (hfirst : firstIndex store image padded = image.clientIndex store 0 0)
    (hcopies : CopiesImage store image padded) :
    alignUp (image.width * image.group) store.unpackAlignment = padded ∧
      store.unpackSkipRows = 0 ∧ image.width * image.group ≤ image.row store := by
  have halignment := store.unpackAlignment_mem
  have hrows := stagedRows_eq hskip
  have hrow : image.row store ≤ padded := hpadded ▸ le_alignUp (by omega)
  have hpos : 0 < image.width * image.group := Nat.mul_pos hwidth hgroup
  -- The second row is copied from the place it has on the side of the client.
  have hle : padded ≤ alignUp (image.width * image.group) store.unpackAlignment := by
    by_contra hlong
    have hshort := Nat.lt_of_not_le hlong
    obtain ⟨-, hsecond⟩ := hcopies 1 hmany 0 hwidth 0 hgroup
    have hcopied := copiedIndex_row (Nat.zero_le _ : 0 ≤ stagedRows store image) hshort
    have hclient : image.clientIndex store 1 0 = image.clientIndex store 0 0 + padded := by
      rw [TexImage2D.clientIndex, TexImage2D.clientIndex, ← hpadded]
      ring
    rw [TexImage2D.serverIndex, Nat.one_mul, Nat.zero_mul, Nat.add_zero, Nat.add_zero,
      hclient] at hsecond
    rw [Nat.zero_mul, Nat.zero_mul, Nat.add_zero, Nat.zero_add, hsecond, hfirst] at hcopied
    omega
  -- The last row is in the buffer.
  obtain ⟨hlastrow, -⟩ := hcopies (image.height - 1) (by omega) (image.width - 1) (by omega)
    (image.group - 1) (by omega)
  have hlast := last_group_add_last hwidth hgroup
  have hstrides : (image.height - 1) * padded ≤
      (image.height - 1) * alignUp (image.width * image.group) store.unpackAlignment :=
    Nat.mul_le_mul_left _ hle
  have hstaged : stagedRows store image * padded + store.unpackSkipRows * padded =
      (image.height - 1) * padded := by
    rw [← Nat.add_mul, hrows]
    congr 1
    omega
  rw [TexImage2D.serverIndex] at hlastrow
  have hwide : image.width * image.group ≤ image.row store := by omega
  have heq : alignUp (image.width * image.group) store.unpackAlignment = padded :=
    Nat.le_antisymm (hpadded ▸ alignUp_mono hwide) hle
  refine ⟨heq, ?_, hwide⟩
  by_contra hskipped
  have hone : padded ≤ store.unpackSkipRows * padded :=
    Nat.le_mul_of_pos_left _ (Nat.pos_of_ne_zero hskipped)
  omega

/-- Rows that are copied right are staged right. -/
theorem stagesRight_of_many {padded : ℕ} (hmany : 1 < image.height) (hwidth : 0 < image.width)
    (hgroup : 0 < image.group) (hskip : store.unpackSkipRows < image.height)
    (hpadded : padded = alignUp (image.row store) store.unpackAlignment)
    (hcopies : CopiesImage store image padded) : StagesRight store image := by
  have halignment := store.unpackAlignment_mem
  have hrow : image.row store ≤ padded := hpadded ▸ le_alignUp (by omega)
  have hpos : 0 < padded := by
    obtain ⟨hin, -⟩ := hcopies 0 (by omega) 0 hwidth 0 hgroup
    by_contra hzero
    rw [Nat.eq_zero_of_not_pos hzero] at hin
    omega
  have hcopied (r : ℕ) (hr : r ≤ stagedRows store image) :
      copiedIndex store image padded (r * padded) =
        firstIndex store image padded + r * rowStep store image padded :=
    copiedIndex_row hr hpos
  have hfirst : firstIndex store image padded = image.clientIndex store 0 0 := by
    obtain ⟨-, hplace⟩ := hcopies 0 (by omega) 0 hwidth 0 hgroup
    have hzero := hcopied 0 (Nat.zero_le _)
    rw [TexImage2D.serverIndex, Nat.zero_mul, Nat.zero_mul] at hplace
    rw [Nat.zero_mul, Nat.zero_mul] at hzero
    exact hzero.symm.trans hplace
  obtain ⟨hstrides, hskipped, hwide⟩ :=
    strides_eq_of_many hmany hwidth hgroup hskip hpadded hfirst hcopies
  have hclient (r : ℕ) : image.clientIndex store r 0 =
      r * padded + store.unpackSkipPixels * image.group := by
    rw [TexImage2D.clientIndex, ← hpadded, hskipped, Nat.zero_add, Nat.add_zero]
  have hpixels : store.unpackSkipPixels * image.group < 2 ^ 32 := by
    apply skips_lt_of_firstIndex_eq padded
    rw [hfirst, hclient, hskipped]
  refine .inr ⟨hskipped, Nat.le_of_mul_le_mul_right hwide hgroup, hpixels, .inr ⟨?_, ?_⟩⟩
  -- The second row is copied from one row behind the first.
  · obtain ⟨-, hsecond⟩ := hcopies 1 hmany 0 hwidth 0 hgroup
    have hrows := stagedRows_eq hskip
    have hmul : 1 * padded ≤ stagedRows store image * padded :=
      Nat.mul_le_mul_right _ (by omega)
    have hcopied := hcopied 1 (by omega)
    rw [TexImage2D.serverIndex, hstrides, Nat.zero_mul, Nat.add_zero, Nat.add_zero, hcopied,
      hfirst, hclient, hclient, rowStep, ← Int.natCast_mul, uint_natCast_of_lt hpixels,
      ← Int.natCast_add, uint_natCast] at hsecond
    have hzero : store.unpackSkipPixels * image.group = 0 := by omega
    exact (Nat.mul_eq_zero.mp hzero).resolve_right (by omega)
  · rw [hstrides, hpadded]

/-- A staged image is preserved, for every memory, if and only if it is staged right. -/
theorem preservesImage_iff (hheight : 0 < image.height) (hgroup : 0 < image.group)
    (hsizes : computeImageDataSizes image.width image.height image.format image.type
      store.unpackAlignment store.unpackRowLength store.unpackSkipRows = some sizes) :
    PreservesImage store image ↔ StagesRight store image := by
  rw [preservesImage_iff_copiesImage hheight hsizes]
  by_cases hwidth : image.width = 0
  · exact iff_of_true (.inl hwidth) (.inl hwidth)
  have hpos := Nat.pos_of_ne_zero hwidth
  constructor
  · rintro (hzero | ⟨hskip, hcopies⟩)
    · exact .inl hzero
    · obtain ⟨-, -, -, hpadded⟩ := sizes_eq hheight hskip hsizes
      rcases Nat.lt_or_eq_of_le hheight with hmany | hone
      · exact stagesRight_of_many hmany hpos hgroup hskip (hpadded hmany) hcopies
      · exact stagesRight_of_one hone.symm hpos hgroup (by omega) hcopies
  · rintro (hzero | ⟨hskip, hlong, hpixels, hrows⟩)
    · exact .inl hzero
    · obtain ⟨-, hsize, hlt, hpadded⟩ := sizes_eq hheight (by omega) hsizes
      refine .inr ⟨by omega, ?_⟩
      rcases Nat.lt_or_eq_of_le hheight with hmany | hone
      · obtain ⟨hnone, hstrides⟩ := hrows.resolve_left (by omega)
        exact copiesImage_of_many hmany (hpadded hmany) (hsize ▸ hlt) hskip hlong hnone
          ((hpadded hmany).trans hstrides)
      · exact copiesImage_of_one hone.symm hskip hlong hpixels

/-- An image of two rows of two groups. -/
def TexImage2D.square : TexImage2D where
  target := 0x0DE1
  level := 0
  internalformat := 0x1908
  width := 2
  height := 2
  border := 0
  format := .rgba
  type := .unsignedByte
  width_lt := by decide
  height_lt := by decide

/-- With the parameters an application starts with, it is preserved. -/
theorem preservesImage_square : PreservesImage .initial .square := by
  have hsizes : computeImageDataSizes 2 2 .rgba .unsignedByte 4 0 0 = some ⟨16, 8, 8⟩ := by decide
  apply (preservesImage_iff (by decide) (by decide) hsizes).mpr
  exact .inr ⟨by decide, by decide, by decide, .inr ⟨by decide, by decide⟩⟩

/-- If the application skips a group, the second row is copied from one group behind its
place. -/
theorem exists_torn_image : ∃ param pixels,
    let store := (glPixelStorei .initial (some .unpackSkipPixels) param).store
    stagedGroup store .square pixels 1 0 = some [16, 17, 18, 19] ∧
      clientGroup store .square pixels 1 0 = [12, 13, 14, 15] ∧ ¬PreservesImage store .square := by
  have hstaged : stagedGroup
      (glPixelStorei .initial (some .unpackSkipPixels) ⟨1, by decide⟩).store .square UInt8.ofNat 1 0
        = some [16, 17, 18, 19] := by
    decide
  have hclient : clientGroup
      (glPixelStorei .initial (some .unpackSkipPixels) ⟨1, by decide⟩).store .square UInt8.ofNat 1 0
        = [12, 13, 14, 15] := by
    decide
  refine ⟨⟨1, by decide⟩, UInt8.ofNat, hstaged, hclient, fun hall => ?_⟩
  have hgroup := hall UInt8.ofNat 1 (by decide) 0 (by decide)
  rw [hstaged, hclient] at hgroup
  cases hgroup

end GpuProxy.Textures
