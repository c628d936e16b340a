import GpuProxy.Objects.State
import GpuProxy.VertexAttribs.Chunks
import GpuProxy.VertexAttribs.DrawWindow

/-!
# Drawing with indices in client memory

`caching_client_glDrawElements` from its checks on. If the draw is accepted, and the attributes
and the indices are in the memory of the application, the server is to receive one draw command
with a copy of the indices, and with all the vertices these refer to.

It does not in four cases: indices of the type `GL_UNSIGNED_INT` have no size, and nothing is
drawn; a draw call that is too big leaves out attributes or publishes the command elsewhere; with
a counter that is not exact the draw command is elsewhere; and a chunk may be copied too short.

## Main definitions

* `glDrawElements` — the call
* `Forwarded` — what the server is to receive
* `Forwardable` — the draws for which it does

## Main results

* `recordsOrForwards_iff` — the condition is exact
* `exists_dropped_draw` — a draw with indices of the type `GL_UNSIGNED_INT`
-/

namespace GpuProxy.VertexAttribs

open Math RingBuffer

/-! ### The call -/

/-- The arguments of `glDrawElements`; the indices are at an address of the application. -/
structure ElementsArgs where
  mode : ℕ
  count : ℤ
  type : ℕ
  indices : ℕ

/-- The parts of `egl_state_t` that the call looks at. -/
structure DrawContext where
  objects : Objects.State
  /-- The attributes that `enabled_attribs` leads to. -/
  attribs : List VertexAttrib
  enabledCount : ℤ

/-- A command without any data: `client_get_space_for_command`, and the command. -/
def sendCommand (layout : Layout) (size : ℕ) (command : DrawCommand) (s : DrawMemory) :
    DrawMemory × Ending :=
  match s.getSpace size with
  | (s, .at a) =>
    let s := s.writeHeader layout a size command
    let s := s.initCommand layout a size command
    (s.publish a size command, .returns)
  | (s, .blocked) => (s, .waits)
  | (s, .null) => (s, .faults)

section Call

variable (app : ℕ → UInt8) (c : DrawContext) (args : ElementsArgs)

/-- The sizes of the call; a negative counter is converted to a `size_t`. -/
def elementsSizes : DrawSizes :=
  drawElementsSizes (sizeT c.enabledCount) args.count args.type
    (indexList args.type (fun i => app (args.indices + i)) args.count.toNat)

/-- The draw command, whose indices are behind the chunks if there was space. -/
def ElementsArgs.command (space : Option (ℕ × ℕ)) : DrawCommand :=
  .drawElements args.mode args.count args.type
    (space.map fun (a, arraySize) => a + drawElementsSize + arraySize)

/-- `caching_client_glDrawElements`: the error that is recorded, and what is written. -/
def glDrawElements (layout : Layout) (s : DrawMemory) : Option ℕ × DrawMemory × Ending :=
  if ¬Objects.isValidDrawMode args.mode then (some glInvalidEnum, s, .returns)
  else if ¬(args.type = glUnsignedByte ∨ args.type = glUnsignedShort ∨
      c.objects.supportsElementIndexUint ∧ args.type = glUnsignedInt) then
    (some glInvalidEnum, s, .returns)
  else if args.count < 0 then (some glInvalidValue, s, .returns)
  else if args.count = 0 then (none, s, .returns)
  else if c.objects.vertexArrayBinding = 0 ∧ ¬c.objects.hasVertexAttribArraySet then
    (none, s, .returns)
  else if c.objects.isIncomplete then (some Objects.glInvalidFramebufferOperation, s, .returns)
  else
    let indexArraySize := calculateIndexArraySize args.type args.count
    let copyIndices := c.objects.vertexArrayBinding = 0 ∧ c.objects.elementArrayBufferBinding = 0
    if c.objects.elementArrayBufferBinding = 0 ∧ args.indices = 0 ∨
        copyIndices ∧ indexArraySize = 0 then (none, s, .returns)
    else if copyIndices then
      (none, runDrawMemory layout app (elementsSizes app c args) s c.attribs args.command
        (some (copyBytes app args.indices indexArraySize)))
    else (none, sendCommand layout drawElementsSize (args.command none) s)

end Call

/-! ### What the server is to receive -/

/-- The bytes of an index. -/
def indexSize (type : ℕ) : ℕ :=
  if type = glUnsignedByte then 1 else if type = glUnsignedShort then 2 else 4

/-- The value of an index. -/
def elementAt (type : ℕ) (memory : ℕ → UInt8) (i : ℕ) : ℕ :=
  LittleEndian.ofBytes (copyBytes memory (indexSize type * i) (indexSize type))

/-- The vertices from 0 to the largest index. -/
def vertexCount (app : ℕ → UInt8) (args : ElementsArgs) : ℕ :=
  (Finset.range args.count.toNat).sup (elementAt args.type fun i => app (args.indices + i)) + 1

/-- The bytes of all indices. -/
def indexBytes (app : ℕ → UInt8) (args : ElementsArgs) : List UInt8 :=
  copyBytes app args.indices (indexSize args.type * args.count.toNat)

/-- The bytes that are published with a command, from an address in the mappings on, hold some
data. -/
def Publication.Carries (p : Publication) (offset : ℕ) (xs : List UInt8) : Prop :=
  p.offset ≤ offset ∧ offset + xs.length ≤ p.offset + p.size ∧
    offset + xs.length ≤ 2 * p.buffer.length ∧ p.buffer.load offset xs.length = xs

/-- The indices of a draw command are those of the application: in the ring, or in memory that was
allocated for them. -/
def HasIndices (app : ℕ → UInt8) (args : ElementsArgs) (s : DrawMemory) (draw : Publication) :
    Option ℕ → Prop
  | some offset => draw.Carries offset (indexBytes app args)
  | none => s.allocated = some (indexBytes app args)

/-- The published commands are those of some chunks and one draw command. It has the indices, and
every chunk has all the vertices of its attributes. -/
structure Forwarded (app : ℕ → UInt8) (head : ℕ) (attribs : List VertexAttrib)
    (args : ElementsArgs) (s : DrawMemory) (sent : List Publication) (draw : Publication)
    (index : Option ℕ) (chunks : List ((VertexAttrib × List VertexAttrib) × ℕ)) : Prop where
  published : s.state.published = sent ++ [draw]
  wellFramed : ∀ p ∈ s.state.published, p.WellFramed
  offsets : s.state.published.map Publication.offset = commandOffsets head (attribs.length + 1)
  runs : chunks.map Prod.fst = chunkRuns attribs
  locations : s.locations = chunks.map Prod.snd
  commands : sent.map Publication.command = chunkCommands chunks
  command : draw.command = .drawElements args.mode args.count args.type index
  indices : HasIndices app args s draw index
  vertices : ∀ chunk ∈ chunks, draw.Carries chunk.2
      (copyBytes app chunk.1.1.pointer (chunkSizeOf (vertexCount app args) chunk.1)) ∧
    ∀ a ∈ chunk.1.1 :: chunk.1.2, Covered chunk.1 (vertexCount app args) a

/-- A call that returns records an error, or forwards the draw. -/
def RecordsOrForwards (app : ℕ → UInt8) (head : ℕ) (attribs : List VertexAttrib)
    (args : ElementsArgs) : Option ℕ × DrawMemory × Ending → Prop
  | (error, s, ending) => error ≠ none ∨ ending = .waits ∨
    ending = .returns ∧ ∃ sent draw index chunks, Forwarded app head attribs args s sent draw index
      chunks

/-- The draws whose checks do not fail: from client memory, with an attribute, and with valid
arguments. -/
structure AcceptedDraw (c : DrawContext) (args : ElementsArgs) : Prop where
  vertexArrayBinding : c.objects.vertexArrayBinding = 0
  elementArrayBufferBinding : c.objects.elementArrayBufferBinding = 0
  complete : c.objects.isIncomplete = false
  attribSet : c.objects.hasVertexAttribArraySet = true
  mode : Objects.isValidDrawMode args.mode
  count : 1 ≤ args.count ∧ args.count < 2 ^ 31
  type : args.type = glUnsignedByte ∨ args.type = glUnsignedShort ∨
    c.objects.supportsElementIndexUint ∧ args.type = glUnsignedInt
  indices : args.indices ≠ 0

/-- The attributes as the entry points store them. -/
structure StoredAttribs (c : DrawContext) : Prop where
  stored : ∀ a ∈ c.attribs, StoredArray a
  length_lt : c.attribs.length < 2 ^ 31
  enabledCount : -2 ^ 31 ≤ c.enabledCount ∧ c.enabledCount < 2 ^ 31

/-- The indices have a size, and either there are no attributes in client memory, and no space for
the indices but for the command; or the counter is exact, no chunk is given up, everything fits in
the mappings, and every chunk reaches far enough. -/
def Forwardable (app : ℕ → UInt8) (b : Buffer UInt8) (c : DrawContext) (args : ElementsArgs) :
    Prop :=
  args.type ≠ glUnsignedInt ∧
    (c.attribs = [] ∧ b.length < (elementsSizes app c args).initialRequest ∧
        drawElementsSize ≤ b.length ∨
      c.enabledCount = c.attribs.length ∧ (elementsSizes app c args).initialRequest ≤ b.length ∧
        ChunksPass (elementsSizes app c args) b.length (chunkRuns c.attribs) 0 0 ∧
        b.head + drawExtent (elementsSizes app c args) c.attribs ≤ 2 * b.length ∧
        ∀ run ∈ chunkRuns c.attribs, ReachesFar (2 ^ 32) (vertexCount app args) run)

/-! ### The checks -/

variable {layout : Layout} {app : ℕ → UInt8} {d : DrawSizes} {c : DrawContext}
  {args : ElementsArgs} {s t : DrawMemory} {b : Buffer UInt8} {base sent size arraySize k n : ℕ}
  {command : DrawCommand} {run : VertexAttrib × List VertexAttrib}
  {runs : List (VertexAttrib × List VertexAttrib)} {draw : Option (ℕ × ℕ) → DrawCommand}

/-- The errors are those of the entry point. -/
theorem glDrawElements_error (e : ℕ) :
    .setError e ∈ (c.objects.glDrawElements args.mode args.count args.type
        (decide (args.indices ≠ 0))).2 ↔
      (glDrawElements app c args layout s).1 = some e := by
  have hbyte : Objects.glUnsignedByte = glUnsignedByte := rfl
  have hshort : Objects.glUnsignedShort = glUnsignedShort := rfl
  have huint : Objects.glUnsignedInt = glUnsignedInt := rfl
  have henum : GlState.glInvalidEnum = glInvalidEnum := rfl
  have hvalue : GlState.glInvalidValue = glInvalidValue := rfl
  unfold Objects.State.glDrawElements glDrawElements
  rw [hbyte, hshort, huint, henum, hvalue]
  have herror : ∀ x, .setError e ∈ ([.setError x] : Objects.Effects) ↔ some x = some e := by
    intro x
    rw [List.mem_singleton, GlState.Effect.setError.injEq, Option.some.injEq]
    exact eq_comm
  have hnone : .setError e ∈ ([] : Objects.Effects) ↔ none = some e := by simp
  by_cases hmode : Objects.isValidDrawMode args.mode = true
  swap
  · rw [if_pos hmode, if_pos hmode]
    exact herror _
  by_cases htype : args.type = glUnsignedByte ∨ args.type = glUnsignedShort ∨
      c.objects.supportsElementIndexUint ∧ args.type = glUnsignedInt
  swap
  · rw [if_neg (not_not.2 hmode), if_neg (not_not.2 hmode), if_pos htype, if_pos htype]
    exact herror _
  rw [if_neg (not_not.2 hmode), if_neg (not_not.2 htype), if_neg (not_not.2 hmode),
    if_neg (not_not.2 htype)]
  by_cases hnegative : args.count < 0
  · rw [if_pos hnegative, if_pos hnegative]
    exact herror _
  by_cases hzero : args.count = 0
  · rw [if_neg hnegative, if_neg hnegative, if_pos hzero, if_pos hzero]
    exact hnone
  rw [if_neg hnegative, if_neg hnegative, if_neg hzero, if_neg hzero]
  by_cases hset : c.objects.vertexArrayBinding = 0 ∧ ¬c.objects.hasVertexAttribArraySet
  · rw [if_pos hset, if_pos hset]
    exact hnone
  by_cases hincomplete : c.objects.isIncomplete = true
  · rw [if_neg hset, if_neg hset, if_pos hincomplete, if_pos hincomplete]
    exact herror _
  rw [if_neg hset, if_neg hset, if_neg hincomplete, if_neg hincomplete]
  -- From here on no error is recorded.
  apply iff_of_false
  · split_ifs <;> simp
  · simp only
    split_ifs <;> simp

theorem indexSize_pos (type : ℕ) : 0 < indexSize type := by
  unfold indexSize
  split_ifs <;> decide

/-- The indices as the code counts them. -/
theorem calculateIndexArraySize_eq (hcount : 0 ≤ args.count ∧ args.count < 2 ^ 31)
    (htype : args.type = glUnsignedByte ∨ args.type = glUnsignedShort) :
    calculateIndexArraySize args.type args.count = indexSize args.type * args.count.toNat := by
  unfold calculateIndexArraySize indexSize sizeT
  obtain htype | htype := htype
  · simp only [htype, if_true]
    omega
  · have hne : glUnsignedShort ≠ glUnsignedByte := by decide
    simp only [htype, hne, if_true, if_false]
    omega

theorem calculateIndexArraySize_uint (count : ℤ) :
    calculateIndexArraySize glUnsignedInt count = 0 := rfl

/-- The vertices as the code counts them. -/
theorem count_elementsSizes (app : ℕ → UInt8) (c : DrawContext)
    (htype : args.type = glUnsignedByte ∨ args.type = glUnsignedShort) :
    (elementsSizes app c args).count = vertexCount app args := by
  have hvalue : elementAt args.type (fun i => app (args.indices + i)) =
      indexAt args.type fun i => app (args.indices + i) := by
    funext i
    unfold elementAt indexSize indexAt copyBytes
    obtain htype | htype := htype
    · simp [htype, LittleEndian.ofBytes]
    · have hne : glUnsignedShort ≠ glUnsignedByte := by decide
      simp [htype, hne, LittleEndian.ofBytes, List.range_succ]
  change getElementsCount _ = _
  rw [getElementsCount_indexList, getElementsCountPortable, vertexCount, hvalue]
  congr 1
  exact scanMax_eq_sup

/-- An accepted draw whose indices have a size gets as far as the ring. -/
theorem glDrawElements_of_accepted (h : AcceptedDraw c args)
    (htype : args.type = glUnsignedByte ∨ args.type = glUnsignedShort) :
    glDrawElements app c args layout s = (none, runDrawMemory layout app
      (elementsSizes app c args) s c.attribs args.command (some (indexBytes app args))) := by
  have hcount := h.count
  have hmode := not_not.2 h.mode
  have hsize := calculateIndexArraySize_eq ⟨by omega, hcount.2⟩ htype
  have hpos : calculateIndexArraySize args.type args.count ≠ 0 := by
    rw [hsize]
    exact (Nat.mul_pos (indexSize_pos _) (by omega)).ne'
  unfold glDrawElements
  rw [if_neg hmode, if_neg (not_not.2 h.type), if_neg (by omega), if_neg (by omega),
    if_neg (by simp [h.attribSet]), if_neg (by simp [h.complete])]
  simp only [h.elementArrayBufferBinding, h.vertexArrayBinding, h.indices, hpos, and_self,
    and_false, or_self, if_true, if_false]
  rw [indexBytes, ← hsize]

/-- With indices of the type `GL_UNSIGNED_INT` nothing happens. -/
theorem glDrawElements_of_uint (h : AcceptedDraw c args) (htype : args.type = glUnsignedInt) :
    glDrawElements app c args layout s = (none, s, .returns) := by
  have hcount := h.count
  unfold glDrawElements
  rw [if_neg (not_not.2 h.mode), if_neg (not_not.2 h.type), if_neg (by omega), if_neg (by omega),
    if_neg (by simp [h.attribSet]), if_neg (by simp [h.complete])]
  simp only [h.elementArrayBufferBinding, h.vertexArrayBinding, htype, calculateIndexArraySize_uint,
    and_self, or_true, if_true]

/-! ### The condition is needed -/

theorem RecordsOrForwards.forwarded {head : ℕ} {attribs : List VertexAttrib}
    (h : RecordsOrForwards app head attribs args (none, s, .returns)) :
    ∃ sent draw index chunks, Forwarded app head attribs args s sent draw index chunks := by
  obtain herror | hwaits | ⟨-, hforwarded⟩ := h
  · exact absurd rfl herror
  · cases hwaits
  · exact hforwarded

/-- Nothing is published when nothing happens. -/
theorem not_recordsOrForwards_of_uint {head : ℕ} {attribs : List VertexAttrib} {releases : List ℕ}
    (h : AcceptedDraw c args) (htype : args.type = glUnsignedInt) :
    ¬RecordsOrForwards app head attribs args
      (glDrawElements app c args layout (.start b releases)) := by
  rw [glDrawElements_of_uint h htype]
  intro hrun
  obtain ⟨sent, draw, index, chunks, hforwarded⟩ := hrun.forwarded
  have hpublished := congrArg List.length hforwarded.published
  simp [DrawMemory.start] at hpublished

theorem finishMemory_of_none {a : ℕ} {indices : Option (List UInt8)}
    (hspace : DrawMemory.getSpace { s with allocated := indices } d.drawCommandSize =
      (t, .at a)) :
    finishMemory layout d draw indices (s, .done none arraySize) =
      (((t.writeHeader layout a d.drawCommandSize (draw none)).initCommand layout a
        d.drawCommandSize (draw none)).publish a d.drawCommandSize (draw none), .returns) := by
  simp only [finishMemory, hspace]

theorem setupMemory_of_null {attribs : List VertexAttrib}
    (hlong : s.state.buffer.length < d.initialRequest) :
    setupMemory layout app d s attribs = (s, .done none 0) := by
  simp only [setupMemory, DrawMemory.getSpace, getSpaceForSize, if_pos hlong]

theorem drawCommandSize_elementsSizes (app : ℕ → UInt8) (h : AcceptedDraw c args)
    (htype : args.type = glUnsignedByte ∨ args.type = glUnsignedShort) :
    (elementsSizes app c args).drawCommandSize = drawElementsSize ∧
      (elementsSizes app c args).indexArraySize = (indexBytes app args).length ∧
        (elementsSizes app c args).indexArraySize ≠ 0 ∧
          (elementsSizes app c args).indexArraySize < 2 ^ 33 := by
  have hcount := h.count
  have hsize := calculateIndexArraySize_eq ⟨by omega, hcount.2⟩ htype
  have hbytes : indexSize args.type ≤ 2 := by
    obtain htype | htype := htype <;> rw [htype] <;> decide
  have hle := Nat.mul_le_mul_right args.count.toNat hbytes
  have hpos := Nat.mul_pos (indexSize_pos args.type) (by omega : 0 < args.count.toNat)
  have hindices : (elementsSizes app c args).indexArraySize =
      indexSize args.type * args.count.toNat := hsize
  have hne : (elementsSizes app c args).indexArraySize ≠ 0 := by
    rw [hindices]
    exact hpos.ne'
  refine ⟨if_pos hne, ?_, hne, by omega⟩
  rw [hindices, indexBytes, length_copyBytes]

/-- Without space for the indices, there must be space for the command, and no attribute. -/
theorem forwardable_of_null (h : AcceptedDraw c args)
    (htype : args.type = glUnsignedByte ∨ args.type = glUnsignedShort) (hb : Ring b)
    (hpos : 0 < b.length) (hlong : b.length < (elementsSizes app c args).initialRequest)
    (hall : ∀ releases, RecordsOrForwards app b.head c.attribs args
      (glDrawElements app c args layout (.start b releases))) :
    c.attribs = [] ∧ drawElementsSize ≤ b.length := by
  obtain ⟨hcommand, hindices, -, -⟩ := drawCommandSize_elementsSizes app h htype
  have hrun := hall [b.length + attribCommandSize]
  rw [glDrawElements_of_accepted h htype, runDrawMemory, setupMemory_of_null hlong] at hrun
  by_cases hshort : b.length < drawElementsSize
  · have hnull : finishMemory layout (elementsSizes app c args) args.command
        (some (indexBytes app args))
        (DrawMemory.start b [b.length + attribCommandSize], .done none 0) =
          (⟨⟨b, [b.length + attribCommandSize], []⟩, [], [], some (indexBytes app args)⟩,
            .faults) := by
      simp only [finishMemory, DrawMemory.getSpace, getSpaceForSize, DrawMemory.start, hcommand,
        if_pos hshort]
    rw [hnull] at hrun
    obtain herror | hwaits | ⟨hreturns, -⟩ := hrun
    · exact absurd rfl herror
    · cases hwaits
    · cases hreturns
  · have hreading : Reading (b.length + attribCommandSize) 1
        (⟨b, [b.length + attribCommandSize], []⟩ : DrawState) := by
      have hfill := hb.fill_le
      exact ⟨⟨[], rfl⟩, by simp only; omega⟩
    obtain ⟨t, hspace, -, -, -, hlocations, -⟩ := Reading.getSpace
      (s := ⟨⟨b, [b.length + attribCommandSize], []⟩, [], [], some (indexBytes app args)⟩)
      hreading hpos (hcommand ▸ Nat.not_lt.1 hshort)
    rw [finishMemory_of_none hspace] at hrun
    obtain ⟨sent, draw, index, chunks, hforwarded⟩ := hrun.forwarded
    have hchunks : chunks = [] := by
      have hempty := hforwarded.locations.symm.trans hlocations
      exact List.map_eq_nil_iff.1 hempty
    have hruns := hforwarded.runs
    rw [hchunks] at hruns
    refine ⟨?_, Nat.not_lt.1 hshort⟩
    have hcount := attribCount_chunkRuns c.attribs
    rw [← hruns] at hcount
    exact List.length_eq_zero_iff.1 hcount.symm

theorem reachesFar_iff_of_mem (hs : StoredAttribs c) (hrun : run ∈ chunkRuns c.attribs) :
    (∀ a ∈ run.1 :: run.2, Covered run n a) ↔ ReachesFar (2 ^ 32) n run := by
  obtain ⟨hsub, -⟩ := chunkRuns_spec hrun
  apply forall_covered_iff (hs.stored _ (hsub.subset lastOf_mem))
  intro hfew
  exact absurd hfew (lt_irrefl _)

/-- The counter is the number of attributes if the `size_t` is. -/
theorem StoredAttribs.enabledCount_eq (hs : StoredAttribs c)
    (h : sizeT c.enabledCount = c.attribs.length) : c.enabledCount = c.attribs.length := by
  have hlength := hs.length_lt
  have hcounter := hs.enabledCount
  unfold sizeT at h
  omega

/-- With space for the commands and the indices, everything has to be sent, and the counter has to
be exact. -/
theorem exists_forwarded_of_fits (h : AcceptedDraw c args)
    (htype : args.type = glUnsignedByte ∨ args.type = glUnsignedShort) (hs : StoredAttribs c)
    (hb : Ring b) (hpos : 0 < b.length)
    (hfits : (elementsSizes app c args).initialRequest ≤ b.length)
    (hall : ∀ releases, RecordsOrForwards app b.head c.attribs args
      (glDrawElements app c args layout (.start b releases))) :
    c.enabledCount = c.attribs.length ∧
      ChunksPass (elementsSizes app c args) b.length (chunkRuns c.attribs) 0 0 ∧
      ∃ s sent draw index chunks, Forwarded app b.head c.attribs args s sent draw index chunks ∧
        s.locations = chunkLocations (elementsSizes app c args) b.head (chunkRuns c.attribs) 0 ∧
        draw.buffer.length = b.length ∧
        draw.command = args.command (some (b.head + attribCommandSize * c.attribs.length,
          arraySizeAfter (elementsSizes app c args) (chunkRuns c.attribs) 0)) := by
  set d := elementsSizes app c args with hd
  obtain ⟨releases, u, a, arraySize, hsetup, hu, hpassed, hfew⟩ :=
    exists_setupMemory layout app d c.attribs hb hpos hfits
  have hrun := hall releases
  rw [glDrawElements_of_accepted h htype, runDrawMemory, ← hd, hsetup, finishMemory_of_some] at hrun
  obtain ⟨sent, draw, index, chunks, hforwarded⟩ := hrun.forwarded
  have hoffsets := hforwarded.offsets
  rw [published_publish, published_writeDraw, List.map_append, commandOffsets_add] at hoffsets
  -- There is a command for every attribute, so the draw command is behind as many.
  have hcount := congrArg List.length hoffsets
  simp only [List.length_append, List.length_map, List.length_singleton, commandOffsets,
    List.length_range] at hcount
  have hpass : ChunksPass d b.length (chunkRuns c.attribs) 0 0 := by
    by_contra hnot
    have := hfew hnot
    omega
  obtain ⟨rfl, rfl, hplaced, -, -⟩ := hpassed hpass
  obtain ⟨-, hlast⟩ := List.append_inj' hoffsets rfl
  have hcounter : d.enabledCount = c.attribs.length := by
    simp only [List.map_cons, List.map_nil, List.range_one, Nat.add_zero, List.cons.injEq,
      and_true] at hlast
    exact Nat.eq_of_mul_eq_mul_left (by decide) (Nat.add_left_cancel hlast)
  have hpublished' := hforwarded.published
  rw [published_publish, published_writeDraw] at hpublished'
  obtain ⟨-, hdraw⟩ := List.append_inj' hpublished' rfl
  obtain rfl := List.singleton_inj.1 hdraw
  refine ⟨hs.enabledCount_eq hcounter, hpass, _, sent, _, index, chunks, hforwarded,
    locations_writeDraw.trans hplaced, ?_, ?_⟩
  · rw [length_serve, length_writeDraw, hu]
  · rw [← hcounter]

theorem bounded_elementsSizes (app : ℕ → UInt8) (h : AcceptedDraw c args)
    (htype : args.type = glUnsignedByte ∨ args.type = glUnsignedShort) (hs : StoredAttribs c)
    (hcounter : c.enabledCount = c.attribs.length) :
    (elementsSizes app c args).Bounded ∧
      c.attribs.length = (elementsSizes app c args).enabledCount := by
  have hlength := hs.length_lt
  have hcount : (elementsSizes app c args).enabledCount = c.attribs.length := by
    change sizeT c.enabledCount = _
    rw [hcounter]
    exact sizeT_of_lt (by omega)
  exact ⟨⟨hcount ▸ hlength, (drawCommandSize_elementsSizes app h htype).2.2.2⟩, hcount.symm⟩

/-- What was forwarded ends in the mappings. -/
theorem Forwarded.extent_le {sent : List Publication} {p : Publication} {index : Option ℕ}
    {chunks : List ((VertexAttrib × List VertexAttrib) × ℕ)} (h : AcceptedDraw c args)
    (htype : args.type = glUnsignedByte ∨ args.type = glUnsignedShort) (hs : StoredAttribs c)
    (hb : Ring b) (hpos : 0 < b.length) (hmapped : 2 * b.length < 2 ^ 64)
    (hfits : (elementsSizes app c args).initialRequest ≤ b.length)
    (hcounter : c.enabledCount = c.attribs.length)
    (hforwarded : Forwarded app b.head c.attribs args s sent p index chunks)
    (hlocations : s.locations =
      chunkLocations (elementsSizes app c args) b.head (chunkRuns c.attribs) 0)
    (hlength : p.buffer.length = b.length)
    (hcommand : p.command = args.command (some (b.head + attribCommandSize * c.attribs.length,
      arraySizeAfter (elementsSizes app c args) (chunkRuns c.attribs) 0))) :
    b.head + drawExtent (elementsSizes app c args) c.attribs ≤ 2 * b.length := by
  obtain ⟨hsize, hindices, -, -⟩ := drawCommandSize_elementsSizes app h htype
  have hvertices := count_elementsSizes app c htype
  obtain ⟨hd, hcount⟩ := bounded_elementsSizes app h htype hs hcounter
  have hinitial := hd.initialRequest_eq
  have hhead := hb.head_lt hpos
  have hzip := List.zip_of_prod hforwarded.runs (hforwarded.locations.symm.trans hlocations)
  have hends : ∀ p ∈ (chunkRuns c.attribs).zip (chunkLocations (elementsSizes app c args) b.head
      (chunkRuns c.attribs) 0),
      p.2 + chunkSizeOf (elementsSizes app c args).count p.1 ≤ 2 * b.length := by
    intro chunk hchunk
    obtain ⟨⟨-, -, hend, -⟩, -⟩ := hforwarded.vertices chunk (hzip ▸ hchunk)
    rwa [length_copyBytes, hlength, ← hvertices] at hend
  obtain ⟨hsum, hplace⟩ := arraySizeAfter_eq hd hmapped (by omega) hends
  have hindex := hforwarded.command
  rw [hcommand, ElementsArgs.command, Option.map_some, DrawCommand.drawElements.injEq] at hindex
  have hcarried := hforwarded.indices
  rw [← hindex.2.2.2] at hcarried
  obtain ⟨-, -, hend, -⟩ := hcarried
  rw [hlength, ← hindices, hsum, hcount] at hend
  simp only at hend
  unfold drawExtent
  omega

/-- If every schedule ends well, the draw is forwardable. -/
theorem forwardable_of_recordsOrForwards (h : AcceptedDraw c args) (hs : StoredAttribs c)
    (hb : Ring b) (hpos : 0 < b.length) (hmapped : 2 * b.length < 2 ^ 64)
    (hall : ∀ releases, RecordsOrForwards app b.head c.attribs args
      (glDrawElements app c args layout (.start b releases))) : Forwardable app b c args := by
  by_cases hlong : args.type = glUnsignedInt
  · exact absurd (hall []) (not_recordsOrForwards_of_uint h hlong)
  have htype : args.type = glUnsignedByte ∨ args.type = glUnsignedShort := by
    obtain htype | htype | ⟨-, htype⟩ := h.type
    · exact .inl htype
    · exact .inr htype
    · exact absurd htype hlong
  refine ⟨hlong, ?_⟩
  by_cases hfits : (elementsSizes app c args).initialRequest ≤ b.length
  · obtain ⟨hcounter, hpass, s, sent, draw, index, chunks, hforwarded, hlocations, hlength,
      hcommand⟩ := exists_forwarded_of_fits h htype hs hb hpos hfits hall
    refine .inr ⟨hcounter, hfits, hpass, hforwarded.extent_le h htype hs hb hpos hmapped hfits
      hcounter hlocations hlength hcommand, fun run hrun => ?_⟩
    rw [← reachesFar_iff_of_mem hs hrun]
    rw [← hforwarded.runs] at hrun
    obtain ⟨chunk, hchunk, rfl⟩ := List.mem_map.1 hrun
    exact (hforwarded.vertices chunk hchunk).2
  · have hlong := Nat.not_le.1 hfits
    obtain ⟨hnil, hshort⟩ := forwardable_of_null h htype hb hpos hlong hall
    exact .inl ⟨hnil, hlong, hshort⟩

/-! ### The condition is enough -/

theorem drawCall_elements (app : ℕ → UInt8) (h : AcceptedDraw c args)
    (htype : args.type = glUnsignedByte ∨ args.type = glUnsignedShort) :
    DrawCall (elementsSizes app c args) args.command (some (indexBytes app args)) := by
  obtain ⟨hsize, hindices, hne, -⟩ := drawCommandSize_elementsSizes app h htype
  exact ⟨fun _ => hsize.symm, hne, hindices.symm⟩

/-- Without attributes, the command goes out alone, and the indices are in memory that was
allocated. -/
theorem recordsOrForwards_of_null (h : AcceptedDraw c args)
    (htype : args.type = glUnsignedByte ∨ args.type = glUnsignedShort) (hb : Ring b)
    (hnil : c.attribs = []) (hlong : b.length < (elementsSizes app c args).initialRequest)
    (hshort : drawElementsSize ≤ b.length) (releases : List ℕ) :
    RecordsOrForwards app b.head c.attribs args
      (glDrawElements app c args layout (.start b releases)) := by
  obtain ⟨hsize, -, -, -⟩ := drawCommandSize_elementsSizes app h htype
  rw [glDrawElements_of_accepted h htype, runDrawMemory, setupMemory_of_null hlong]
  have hhead := hb.head_lt (lt_of_lt_of_le (by decide) hshort)
  have hstart : Placing b.length b.head 0 (b.length - b.fillCount)
      { DrawMemory.start b releases with allocated := some (indexBytes app args) } :=
    ⟨hb.sending releases, by simp [DrawMemory.start]⟩
  obtain ⟨t, space, hspace⟩ : ∃ t space, DrawMemory.getSpace
      { DrawMemory.start b releases with allocated := some (indexBytes app args) }
        (elementsSizes app c args).drawCommandSize = (t, space) := ⟨_, _, rfl⟩
  obtain ⟨-, hnull, hat⟩ := hstart.getSpace hspace
  have hkept : t.state.published = [] ∧ t.locations = [] ∧
      t.allocated = some (indexBytes app args) := by
    obtain rfl : t = (DrawMemory.getSpace _ _).1 := (congrArg Prod.fst hspace).symm
    exact ⟨published_getSpace, rfl, rfl⟩
  obtain ⟨hpublished, hlocations, hallocated⟩ := hkept
  cases space with
  | null => exact absurd (hnull.1 rfl) (by omega)
  | blocked =>
    refine .inr (.inl ?_)
    simp only [hspace]
  | «at» a =>
    obtain ⟨ha, ht⟩ := hat a rfl
    rw [hb.head_mod] at ha
    subst ha
    have hcommand : (args.command none).structSize = drawElementsSize := rfl
    have hwritten := ht.writeCommand layout (args.command none) drawElementsSize
      (by omega) (by omega)
    rw [Nat.mul_zero, Nat.add_zero] at hwritten
    rw [finishMemory_of_none hspace, hsize]
    set written := (t.writeHeader layout b.head drawElementsSize (args.command none)).initCommand
      layout b.head drawElementsSize (args.command none)
    refine .inr (.inr ⟨rfl, [], ⟨b.head, drawElementsSize, args.command none,
      written.state.serve.buffer⟩, none, [], ?_⟩)
    exact
      { published := by
          rw [published_publish, published_initCommand, published_writeHeader, hpublished]
        wellFramed := hwritten.sending.wellFramed rfl (by omega)
        offsets := by
          rw [published_publish, published_initCommand, published_writeHeader, hpublished, hnil]
          rfl
        runs := by rw [hnil]; rfl
        locations := hlocations
        commands := rfl
        command := rfl
        indices := hallocated
        vertices := by simp }

section WriteDraw

variable {s : DrawMemory} {d : DrawSizes} {draw : Option (ℕ × ℕ) → DrawCommand}
  {indices : Option (List UInt8)} {xs : List UInt8} {command : DrawCommand}
  {a arraySize size x : ℕ}

/-- The written command carries the indices behind the window of the vertices. -/
theorem carries_indices_writeDraw (layout : Layout) (hcall : DrawCall d draw (some xs))
    (hsize : size = d.drawCommandSize + arraySize + d.indexArraySize)
    (hturn : size ≤ s.state.buffer.length) (hend : a + size ≤ 2 * s.state.buffer.length) :
    Publication.Carries ⟨a, size, command,
      (writeDraw layout d draw (some xs) a arraySize s).state.serve.buffer⟩
        (a + drawElementsSize + arraySize) xs := by
  obtain ⟨hne, hlength⟩ := hcall.indices_size
  have helements : d.drawCommandSize = drawElementsSize := if_pos hne
  refine ⟨by simp only; omega, by simp only; omega, ?_, ?_⟩
  · simp only [length_serve, length_writeDraw]
    omega
  · simp only [load_serve]
    exact load_writeDraw_indices hcall (hsize ▸ hturn)

/-- It carries what its window held before. -/
theorem carries_vertices_writeDraw (layout : Layout) (hcall : DrawCall d draw indices)
    (hsize : size = d.drawCommandSize + arraySize + d.indexArraySize)
    (hturn : size ≤ s.state.buffer.length) (hend : a + size ≤ 2 * s.state.buffer.length)
    (hbehind : a + d.drawCommandSize ≤ x)
    (hwindow : x + xs.length ≤ a + d.drawCommandSize + arraySize)
    (hload : s.state.buffer.load x xs.length = xs) :
    Publication.Carries ⟨a, size, command,
      (writeDraw layout d draw indices a arraySize s).state.serve.buffer⟩ x xs := by
  refine ⟨by simp only; omega, by simp only; omega, ?_, ?_⟩
  · simp only [length_serve, length_writeDraw]
    omega
  · simp only [load_serve]
    rw [load_writeDraw hcall hbehind hwindow (hsize ▸ hturn), hload]

end WriteDraw

/-- With everything sent, the draw is forwarded. -/
theorem recordsOrForwards_of_extent (h : AcceptedDraw c args)
    (htype : args.type = glUnsignedByte ∨ args.type = glUnsignedShort) (hs : StoredAttribs c)
    (hb : Ring b) (hmapped : 2 * b.length < 2 ^ 64)
    (hcounter : c.enabledCount = c.attribs.length)
    (hfits : (elementsSizes app c args).initialRequest ≤ b.length)
    (hpass : ChunksPass (elementsSizes app c args) b.length (chunkRuns c.attribs) 0 0)
    (hextent : b.head + drawExtent (elementsSizes app c args) c.attribs ≤ 2 * b.length)
    (hfar : ∀ run ∈ chunkRuns c.attribs, ReachesFar (2 ^ 32) (vertexCount app args) run)
    (releases : List ℕ) :
    RecordsOrForwards app b.head c.attribs args
      (glDrawElements app c args layout (.start b releases)) := by
  obtain ⟨hd, hcount⟩ := bounded_elementsSizes app h htype hs hcounter
  obtain ⟨u, result, heq, -, hresult⟩ :=
    setupMemory_of_extent layout app hd hb hmapped hcount hfits hpass hextent releases
  rw [glDrawElements_of_accepted h htype, runDrawMemory, heq]
  obtain rfl | ⟨rfl, hu, chunks, hruns, hprepared⟩ := hresult
  · exact .inr (.inl rfl)
  have hcall := drawCall_elements app h htype
  obtain ⟨hsize, hindices, -, -⟩ := drawCommandSize_elementsSizes app h htype
  have hvertices := count_elementsSizes app c htype
  unfold drawExtent at hextent
  rw [finishMemory_of_some]
  set d := elementsSizes app c args
  set a := b.head + attribCommandSize * d.enabledCount
  set arraySize := arrayExtent d (chunkRuns c.attribs)
  have hdraw : d.drawSize arraySize = d.drawCommandSize + arraySize + d.indexArraySize :=
    DrawSizes.drawSize_of_lt (by omega)
  have hwritten := hu.writeDraw layout hcall (by omega)
  have hlength := hu.sending.length_eq
  have hroom := hu.sending.room
  set written := writeDraw layout d args.command (some (indexBytes app args)) a arraySize u
  refine .inr (.inr ⟨rfl, u.state.published, ⟨a, d.drawSize arraySize,
    args.command (some (a, arraySize)), written.state.serve.buffer⟩,
    some (a + drawElementsSize + arraySize), chunks, ?_⟩)
  exact
    { published := by rw [published_publish, published_writeDraw]
      wellFramed := hwritten.sending.wellFramed rfl hdraw.le
      offsets := by
        rw [published_publish, published_writeDraw, List.map_append, hprepared.offsets, hcount,
          commandOffsets_add]
        rfl
      runs := hruns
      locations := locations_writeDraw.trans hprepared.locations
      commands := hprepared.commands
      command := rfl
      indices := carries_indices_writeDraw layout hcall hdraw (by omega) (by omega)
      vertices := fun chunk hchunk => by
        have hrun : chunk.1 ∈ chunkRuns c.attribs := hruns ▸ List.mem_map_of_mem hchunk
        obtain ⟨hbehind, hend, hload⟩ := hprepared.copied chunk hchunk
        rw [hvertices] at hend hload
        refine ⟨?_, (reachesFar_iff_of_mem hs hrun).2 (hfar _ hrun)⟩
        apply carries_vertices_writeDraw layout hcall hdraw (by omega) (by omega) (by omega)
        · rw [length_copyBytes]
          omega
        · rwa [length_copyBytes] }

/-- For every context, ring and memory of the application, and every draw that passes the checks:
whatever the server gives back and when, the call waits on or forwards the draw, if and only if it
is forwardable. -/
theorem recordsOrForwards_iff (layout : Layout) (app : ℕ → UInt8) (h : AcceptedDraw c args)
    (hs : StoredAttribs c) (hb : Ring b) (hpos : 0 < b.length) (hmapped : 2 * b.length < 2 ^ 64) :
    (∀ releases, RecordsOrForwards app b.head c.attribs args
        (glDrawElements app c args layout (.start b releases))) ↔ Forwardable app b c args := by
  constructor
  · exact forwardable_of_recordsOrForwards h hs hb hpos hmapped
  · rintro ⟨hne, hcases⟩ releases
    have htype : args.type = glUnsignedByte ∨ args.type = glUnsignedShort := by
      obtain htype | htype | ⟨-, htype⟩ := h.type
      · exact .inl htype
      · exact .inr htype
      · exact absurd htype hne
    obtain ⟨hnil, hlong, hshort⟩ | ⟨hcounter, hfits, hpass, hextent, hfar⟩ := hcases
    · exact recordsOrForwards_of_null h htype hb hnil hlong hshort releases
    · exact recordsOrForwards_of_extent h htype hs hb hmapped hcounter hfits hpass hextent hfar
        releases

/-- A context with one array of floats, and with indices of the type `GL_UNSIGNED_INT`. -/
def floatContext : DrawContext where
  objects := { Objects.State.init 0 with
    supportsElementIndexUint := true, hasVertexAttribArraySet := true }
  attribs := [⟨0, 0, true, 1, 0, glFloat, 0x1000, false, none, 0⟩]
  enabledCount := 1

/-- Three points. -/
def threePoints (type : ℕ) : ElementsArgs := ⟨0, 3, type, 0x2000⟩

theorem acceptedDraw_threePoints {type : ℕ}
    (htype : type = glUnsignedByte ∨ type = glUnsignedInt) :
    AcceptedDraw floatContext (threePoints type) where
  vertexArrayBinding := rfl
  elementArrayBufferBinding := rfl
  complete := rfl
  attribSet := rfl
  mode := (by decide : Objects.isValidDrawMode 0 = true)
  count := (by decide : (1 : ℤ) ≤ 3 ∧ (3 : ℤ) < 2 ^ 31)
  type := htype.imp_right fun h => .inr ⟨rfl, h⟩
  indices := (by decide : 0x2000 ≠ 0)

theorem storedAttribs_floatContext : StoredAttribs floatContext where
  stored a ha := by
    obtain rfl := List.mem_singleton.1 ha
    exact ⟨by decide, by decide, by decide⟩
  length_lt := by decide
  enabledCount := by decide

/-- An application whose bytes count up to 2. -/
def countingMemory (address : ℕ) : UInt8 := UInt8.ofNat (address % 3)

/-- With bytes for indices the three points are forwarded, near the end of the ring. -/
theorem recordsOrForwards_bytes : Forwardable countingMemory (emptyAt 1024 1000) floatContext
      (threePoints glUnsignedByte) ∧
    ∀ releases, RecordsOrForwards countingMemory 1000 floatContext.attribs
      (threePoints glUnsignedByte) (glDrawElements countingMemory floatContext
        (threePoints glUnsignedByte) zeroLayout (.start (emptyAt 1024 1000) releases)) := by
  have hforwardable : Forwardable countingMemory (emptyAt 1024 1000) floatContext
      (threePoints glUnsignedByte) := by
    refine ⟨by decide, .inr ⟨rfl, by decide, ⟨by decide, by decide, trivial⟩, by decide, ?_⟩⟩
    intro run hrun
    obtain rfl := List.mem_singleton.1 hrun
    refine ⟨by simp, by decide, fun a ha => ?_⟩
    obtain rfl := List.mem_singleton.1 ha
    decide
  have hall := (recordsOrForwards_iff zeroLayout countingMemory
    (acceptedDraw_threePoints (.inl rfl)) storedAttribs_floatContext
    (ring_emptyAt 1024 1000 (by decide) (by decide)) (by decide) (by decide)).2 hforwardable
  exact ⟨hforwardable, hall⟩

/-- Indices of the type `GL_UNSIGNED_INT` are accepted with the extension, and nothing is drawn. -/
theorem exists_dropped_draw : AcceptedDraw floatContext (threePoints glUnsignedInt) ∧
    StoredAttribs floatContext ∧ Ring (emptyAt 1024 0) ∧
    ¬RecordsOrForwards (fun _ => 0) 0 floatContext.attribs (threePoints glUnsignedInt)
      (glDrawElements (fun _ => 0) floatContext (threePoints glUnsignedInt) zeroLayout
        (.start (emptyAt 1024 0) [])) := by
  have haccepted := acceptedDraw_threePoints (.inr rfl)
  exact ⟨haccepted, storedAttribs_floatContext, ring_emptyAt 1024 0 (by decide) (by decide),
    not_recordsOrForwards_of_uint haccepted rfl⟩

end GpuProxy.VertexAttribs
