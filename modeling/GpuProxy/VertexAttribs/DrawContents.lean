import GpuProxy.VertexAttribs.DrawFraming
import GpuProxy.VertexAttribs.DrawMemory

/-!
# What the ring holds while a draw call runs

A draw call writes its commands from the write position on, and behind them the chunks and the
indices. As long as all that fits in a turn behind the position, and in the two mappings, nothing
that is written later touches what was written before.

## Main definitions

* `Write.InWindow` — the bytes are mapped, and free
* `ChunksPass` — no chunk is empty, and none is too big
* `drawExtent` — all that a draw call writes
* `Placing` — what is known at the write position
* `Preparing` — what has been published and copied

## Main results

* `setupMemory_of_extent` — if all fits, everything is published and copied, or the call waits on
-/

namespace GpuProxy.VertexAttribs

open Math RingBuffer

/-- A byte that the server has not to read any more. -/
def Released (b : Buffer UInt8) (offset : ℕ) : Prop :=
  ∃ j < b.length - b.fillCount, offset % b.length = (b.head + j) % b.length

/-- All bytes lie behind the position at which the call started and in the double mapping, and are
released. -/
def Write.InWindow (head length : ℕ) (w : Write) : Prop :=
  ∀ i < w.size, head ≤ w.offset + i ∧ w.offset + i < 2 * length ∧ Released w.buffer (w.offset + i)

/-- Every chunk has a size and passes the check for space. -/
def ChunksPass (d : DrawSizes) (length : ℕ) :
    List (VertexAttrib × List VertexAttrib) → (arraySize sent : ℕ) → Prop
  | [], _, _ => True
  | run :: runs, arraySize, sent =>
    chunkSizeOf d.count run ≠ 0 ∧
      d.request (sizeT (arraySize + chunkSizeOf d.count run)) sent ≤ length ∧
      ChunksPass d length runs (sizeT (arraySize + chunkSizeOf d.count run))
        (sent + (run.2.length + 1))

/-- The draw command and the indices of one of the two draw calls. -/
structure DrawCall (d : DrawSizes) (draw : Option (ℕ × ℕ) → DrawCommand)
    (indices : Option (List UInt8)) : Prop where
  command_size : ∀ space, (draw space).structSize = d.drawCommandSize
  indices_size : match indices with
    | none => d.indexArraySize = 0
    | some xs => d.indexArraySize ≠ 0 ∧ xs.length = d.indexArraySize

/-- The sizes of some chunks together. -/
def arrayExtent (d : DrawSizes) (runs : List (VertexAttrib × List VertexAttrib)) : ℕ :=
  (runs.map (chunkSizeOf d.count)).sum

/-- The bytes of the commands, the chunks and the indices. -/
def drawExtent (d : DrawSizes) (attribs : List VertexAttrib) : ℕ :=
  attribCommandSize * d.enabledCount + d.drawCommandSize + arrayExtent d (chunkRuns attribs) +
    d.indexArraySize

variable {layout : Layout} {app : ℕ → UInt8} {d : DrawSizes} {s t : DrawMemory}
  {b : Buffer UInt8} {length head sent free size arraySize y : ℕ} {xs : List UInt8}
  {command : DrawCommand} {run : VertexAttrib × List VertexAttrib}
  {runs : List (VertexAttrib × List VertexAttrib)} {attribs : List VertexAttrib}
  {draw : Option (ℕ × ℕ) → DrawCommand} {indices : Option (List UInt8)}

@[simp] theorem arrayExtent_nil : arrayExtent d [] = 0 := rfl

@[simp] theorem arrayExtent_cons :
    arrayExtent d (run :: runs) = chunkSizeOf d.count run + arrayExtent d runs := by
  simp [arrayExtent]

/-! ### Sizes that do not wrap around -/

/-- The request is for what is still to be written. -/
theorem DrawSizes.Bounded.request_of_lt (hd : d.Bounded) (arraySize : ℕ)
    (hsent : sent ≤ d.enabledCount)
    (hlt : attribCommandSize * d.enabledCount + d.drawCommandSize + arraySize + d.indexArraySize <
      2 ^ 64) :
    d.request arraySize sent + attribCommandSize * sent =
      attribCommandSize * d.enabledCount + d.drawCommandSize + arraySize + d.indexArraySize := by
  have hmul := Nat.mul_le_mul_left attribCommandSize hsent
  rw [DrawSizes.request, hd.commandsSize_eq]
  unfold sizeT
  omega

theorem DrawSizes.drawSize_of_lt (hlt : d.drawCommandSize + arraySize + d.indexArraySize <
    2 ^ 64) : d.drawSize arraySize = d.drawCommandSize + arraySize + d.indexArraySize := by
  unfold DrawSizes.drawSize sizeT
  omega

/-- `chunk_location`: behind the commands and the chunks before. -/
theorem DrawSizes.Bounded.chunkLocation_eq (hd : d.Bounded) (chunkSize : ℕ)
    (hlt : head + (attribCommandSize * d.enabledCount + d.drawCommandSize) + arraySize < 2 ^ 64) :
    sizeT (head + d.commandsSize + (sizeT (arraySize + chunkSize) : ℕ) - chunkSize) =
      head + (attribCommandSize * d.enabledCount + d.drawCommandSize) + arraySize := by
  rw [hd.commandsSize_eq]
  unfold sizeT
  omega

/-! ### What stays in the window -/

/-- What is known at the write position, and that all was written in the window. -/
structure Placing (length head sent free : ℕ) (s : DrawMemory) : Prop where
  sending : Sending length head sent free s.state
  inWindow : ∀ w ∈ s.writes, w.InWindow head length

theorem Placing.mono (h : Placing length head sent free s) {n : ℕ} (hle : n ≤ free) :
    Placing length head sent n s :=
  ⟨h.sending.mono hle, h.inWindow⟩

/-- What is written behind the write position, and ends in the bytes that are known to be free,
is in the window. -/
theorem Placing.store (h : Placing length head sent free s) (y : ℕ) (xs : List UInt8)
    (hfree : y + xs.length ≤ free)
    (hmapped : head + attribCommandSize * sent + y + xs.length ≤ 2 * length) :
    Placing length head sent free (s.store (head + attribCommandSize * sent + y) xs) := by
  obtain ⟨hlength, hhead, hroom, hpublished⟩ := h.sending
  refine ⟨⟨hlength, hhead, hroom, hpublished⟩, fun w hw => ?_⟩
  obtain hw | hw := List.mem_append.1 hw
  · exact h.inWindow w hw
  · obtain rfl := List.mem_singleton.1 hw
    intro i hi
    refine ⟨by simp only; omega, by simp only at hi ⊢; omega, y + i, ?_, ?_⟩
    · simp only at hi ⊢
      omega
    · simp only [hlength, hhead, Nat.mod_add_mod, Nat.add_assoc]

theorem Placing.locate (h : Placing length head sent free s) (location : ℕ) :
    Placing length head sent free (s.locate location) :=
  ⟨h.sending, h.inWindow⟩

theorem Placing.getSpace {space : Space} (h : Placing length head sent free s)
    (hspace : s.getSpace size = (t, space)) :
    Placing length head sent free t ∧ (space = .null ↔ length < size) ∧
      ∀ a, space = .at a → a = (head + attribCommandSize * sent) % length ∧
        Placing length head sent (max free size) t := by
  obtain ⟨state, space', hget⟩ : ∃ state space', getSpaceForSize s.state size = (state, space') :=
    ⟨_, _, rfl⟩
  simp only [DrawMemory.getSpace, hget] at hspace
  cases hspace
  obtain ⟨hsending, hnull, hat⟩ := getSpaceForSize_spec h.sending hget
  exact ⟨⟨hsending, h.inWindow⟩, hnull, fun a ha => ⟨(hat a ha).1, (hat a ha).2, h.inWindow⟩⟩

theorem le_structSize (command : DrawCommand) : commandHeaderSize ≤ command.structSize := by
  cases command with
  | vertexAttribPointer => exact (by decide : commandHeaderSize ≤ attribCommandSize)
  | drawArrays => exact (by decide : commandHeaderSize ≤ drawArraysSize)
  | drawElements => exact (by decide : commandHeaderSize ≤ drawElementsSize)

theorem length_take_bytes (layout : Layout) (command : DrawCommand) (size : ℕ) :
    ((layout.bytes command size).take commandHeaderSize).length = commandHeaderSize := by
  rw [List.length_take, layout.length_bytes]
  exact min_eq_left (le_structSize command)

theorem length_drop_bytes (layout : Layout) (command : DrawCommand) (size : ℕ) :
    ((layout.bytes command size).drop commandHeaderSize).length =
      command.structSize - commandHeaderSize := by
  rw [List.length_drop, layout.length_bytes]

/-- A command is written at the write position. -/
theorem Placing.writeCommand (h : Placing length head sent free s) (layout : Layout)
    (command : DrawCommand) (size : ℕ) (hfree : command.structSize ≤ free)
    (hmapped : head + attribCommandSize * sent + command.structSize ≤ 2 * length) :
    Placing length head sent free
      ((s.writeHeader layout (head + attribCommandSize * sent) size command).initCommand layout
        (head + attribCommandSize * sent) size command) := by
  have hle := le_structSize command
  have htake := length_take_bytes layout command size
  have hdrop := length_drop_bytes layout command size
  have hheader := h.store 0 ((layout.bytes command size).take commandHeaderSize)
    (by rw [htake]; omega) (by rw [htake]; omega)
  exact hheader.store commandHeaderSize _ (by rw [hdrop]; omega) (by rw [hdrop]; omega)

theorem Placing.publish (h : Placing length head sent free s) (command : DrawCommand)
    (hfree : attribCommandSize ≤ free) :
    Placing length head (sent + 1) (free - attribCommandSize)
      (s.publish (head + attribCommandSize * sent) attribCommandSize command) :=
  ⟨h.sending.runCommandAsync command rfl hfree, h.inWindow⟩

/-- The attributes of one chunk are written one behind the other. -/
theorem Placing.sendAttribs (layout : Layout) (chunkLocation : ℕ) (first : VertexAttrib)
    (attribs : List VertexAttrib) (h : Placing length head sent free s)
    (hfree : attribCommandSize * attribs.length ≤ free)
    (hmapped : head + attribCommandSize * (sent + attribs.length) ≤ 2 * length) :
    Placing length head (sent + attribs.length) (free - attribCommandSize * attribs.length)
      (sendAttribsMemory layout head chunkLocation first attribs sent s) := by
  induction attribs generalizing sent free s with
  | nil => exact h
  | cons last rest ih =>
    have hmul : attribCommandSize * (rest.length + 1) =
      attribCommandSize * rest.length + attribCommandSize := Nat.mul_succ _ _
    have hsum : attribCommandSize * (sent + (rest.length + 1)) =
      attribCommandSize * sent + attribCommandSize * (rest.length + 1) := Nat.mul_add _ _ _
    rw [List.length_cons] at hfree hmapped ⊢
    have hsize : (attribCommand chunkLocation first last).structSize = attribCommandSize := rfl
    have hwritten := h.writeCommand layout (attribCommand chunkLocation first last)
      attribCommandSize (by rw [hsize]; omega) (by rw [hsize]; omega)
    -- The command goes out, and leaves the room for the others.
    have hsent := hwritten.publish (attribCommand chunkLocation first last) (by omega)
    have hrest := ih hsent (by omega) (by rwa [Nat.add_assoc, Nat.add_comm 1])
    rw [Nat.add_comm rest.length, ← Nat.add_assoc, Nat.mul_add, Nat.mul_one, ← Nat.sub_sub]
    exact hrest

theorem length_copyBytes (app : ℕ → UInt8) (address n : ℕ) :
    (copyBytes app address n).length = n := by
  simp [copyBytes]

/-- A chunk is written behind the commands and the chunks before it. -/
theorem Placing.sendChunk (layout : Layout) (app : ℕ → UInt8)
    (run : VertexAttrib × List VertexAttrib) (arraySize : ℕ) (hd : d.Bounded)
    (hmapped : 2 * length < 2 ^ 64) (h : Placing length head sent free s)
    (hsent : sent + (run.2.length + 1) ≤ d.enabledCount)
    (hfree : attribCommandSize * d.enabledCount + d.drawCommandSize +
      (arraySize + chunkSizeOf d.count run) ≤ free + attribCommandSize * sent)
    (hextent : head + (attribCommandSize * d.enabledCount + d.drawCommandSize) +
      (arraySize + chunkSizeOf d.count run) ≤ 2 * length) :
    Placing length head (sent + (run.2.length + 1))
      (free - attribCommandSize * (run.2.length + 1))
      (sendChunkMemory layout app d head run (arraySize + chunkSizeOf d.count run) sent s) := by
  have hsum : sizeT (arraySize + chunkSizeOf d.count run) =
    arraySize + chunkSizeOf d.count run := sizeT_of_lt (by omega)
  have hlocation := hd.chunkLocation_eq (chunkSizeOf d.count run)
    (by omega : head + (attribCommandSize * d.enabledCount + d.drawCommandSize) + arraySize <
      2 ^ 64)
  have hmul := Nat.mul_le_mul_left attribCommandSize hsent
  have hadd := Nat.mul_add attribCommandSize sent (run.2.length + 1)
  have hlength := length_copyBytes app run.1.pointer (chunkSizeOf d.count run)
  have hplace : head + (attribCommandSize * d.enabledCount + d.drawCommandSize) + arraySize =
      head + attribCommandSize * sent + (attribCommandSize * d.enabledCount + d.drawCommandSize +
        arraySize - attribCommandSize * sent) := by
    omega
  rw [hsum] at hlocation
  rw [sendChunkMemory, hlocation, hplace]
  have hstored := h.store (attribCommandSize * d.enabledCount + d.drawCommandSize + arraySize -
    attribCommandSize * sent) (copyBytes app run.1.pointer (chunkSizeOf d.count run))
    (by rw [hlength]; omega) (by rw [hlength]; omega)
  exact (hstored.locate _).sendAttribs layout _ run.1 (run.1 :: run.2)
    (by rw [List.length_cons]; omega) (by rw [List.length_cons]; omega)

/-! ### What has been published and copied -/

/-- The commands for the attributes of chunks at some locations. -/
def chunkCommands (chunks : List ((VertexAttrib × List VertexAttrib) × ℕ)) : List DrawCommand :=
  chunks.flatMap fun chunk => (chunk.1.1 :: chunk.1.2).map (attribCommand chunk.2 chunk.1.1)

/-- The addresses of the first commands of a draw call. -/
def commandOffsets (head n : ℕ) : List ℕ := (List.range n).map fun i => head + attribCommandSize * i

/-- The commands of some chunks are published, one behind the other, and the chunks are in the
ring. -/
structure Preparing (app : ℕ → UInt8) (d : DrawSizes) (head : ℕ)
    (chunks : List ((VertexAttrib × List VertexAttrib) × ℕ)) (arraySize sent : ℕ)
    (s : DrawMemory) : Prop where
  commands : s.state.published.map Publication.command = chunkCommands chunks
  offsets : s.state.published.map Publication.offset = commandOffsets head sent
  locations : s.locations = chunks.map Prod.snd
  copied : ∀ chunk ∈ chunks,
    head + (attribCommandSize * d.enabledCount + d.drawCommandSize) ≤ chunk.2 ∧
      chunk.2 + chunkSizeOf d.count chunk.1 ≤
        head + (attribCommandSize * d.enabledCount + d.drawCommandSize) + arraySize ∧
      s.state.buffer.load chunk.2 (chunkSizeOf d.count chunk.1) =
        copyBytes app chunk.1.1.pointer (chunkSizeOf d.count chunk.1)

variable {chunks : List ((VertexAttrib × List VertexAttrib) × ℕ)} {x n offset chunkLocation : ℕ}
  {first : VertexAttrib}

@[simp] theorem load_serve (s : DrawState) : s.serve.buffer.load x n = s.buffer.load x n := by
  unfold DrawState.serve
  split <;> rfl

@[simp] theorem load_publish :
    (s.publish offset size command).state.buffer.load x n = s.state.buffer.load x n :=
  load_serve s.state

@[simp] theorem length_serve (s : DrawState) : s.serve.buffer.length = s.buffer.length := by
  unfold DrawState.serve
  split <;> rfl

@[simp] theorem length_publish :
    (s.publish offset size command).state.buffer.length = s.state.buffer.length :=
  length_serve s.state

@[simp] theorem published_publish : (s.publish offset size command).state.published =
    s.state.published ++ [⟨offset, size, command, s.state.serve.buffer⟩] :=
  published_runCommandAsync

@[simp] theorem published_writeHeader :
    (s.writeHeader layout offset size command).state.published = s.state.published := rfl

@[simp] theorem published_initCommand :
    (s.initCommand layout offset size command).state.published = s.state.published := rfl

/-- A command's bytes are not those of the data behind it. -/
theorem load_writeHeader (hbehind : offset + commandHeaderSize ≤ x)
    (hturn : x + n ≤ offset + s.state.buffer.length) :
    (s.writeHeader layout offset size command).state.buffer.load x n =
      s.state.buffer.load x n := by
  have htake := length_take_bytes layout command size
  exact load_store_of_disjoint (.inl ⟨by rw [htake]; exact hbehind, hturn⟩)

theorem load_initCommand (hbehind : offset + command.structSize ≤ x)
    (hturn : x + n ≤ offset + s.state.buffer.length) :
    (s.initCommand layout offset size command).state.buffer.load x n =
      s.state.buffer.load x n := by
  have hle := le_structSize command
  have hdrop := length_drop_bytes layout command size
  exact load_store_of_disjoint (.inl ⟨by rw [hdrop]; omega, by omega⟩)

/-- Commands do not touch the data behind them. -/
theorem load_sendAttribsMemory (attribs : List VertexAttrib)
    (hbehind : head + attribCommandSize * (sent + attribs.length) ≤ x)
    (hturn : x + n ≤ head + attribCommandSize * sent + s.state.buffer.length) :
    (sendAttribsMemory layout head chunkLocation first attribs sent s).state.buffer.load x n =
      s.state.buffer.load x n := by
  induction attribs generalizing sent s with
  | nil => rfl
  | cons last rest ih =>
    rw [List.length_cons] at hbehind
    have hsum : attribCommandSize * (sent + (rest.length + 1)) =
      attribCommandSize * sent + attribCommandSize + attribCommandSize * rest.length := by ring
    have hsize : (attribCommand chunkLocation first last).structSize = attribCommandSize := rfl
    have hheader : commandHeaderSize ≤ attribCommandSize := by decide
    let command := attribCommand chunkLocation first last
    let place := head + attribCommandSize * sent
    let written := (s.writeHeader layout place attribCommandSize command).initCommand layout place
      attribCommandSize command
    have hlength : (written.publish place attribCommandSize command).state.buffer.length =
        s.state.buffer.length := length_publish
    calc
      _ = (written.publish place attribCommandSize command).state.buffer.load x n :=
        ih (by rwa [Nat.add_assoc, Nat.add_comm 1]) (by rw [hlength, Nat.mul_add]; omega)
      _ = written.state.buffer.load x n := load_publish
      _ = (s.writeHeader layout place attribCommandSize command).state.buffer.load x n :=
        load_initCommand (by rw [hsize]; omega) hturn
      _ = s.state.buffer.load x n := load_writeHeader (by omega) hturn

/-- The commands go out one behind the other. -/
theorem published_sendAttribsMemory (attribs : List VertexAttrib) :
    (sendAttribsMemory layout head chunkLocation first attribs sent s).state.published.map
        Publication.command =
      s.state.published.map Publication.command ++ attribs.map (attribCommand chunkLocation first) ∧
    (sendAttribsMemory layout head chunkLocation first attribs sent s).state.published.map
        Publication.offset =
      s.state.published.map Publication.offset ++
        (List.range attribs.length).map fun i => head + attribCommandSize * (sent + i) := by
  induction attribs generalizing sent s with
  | nil => simp [sendAttribsMemory]
  | cons last rest ih =>
    have hrange : (List.range (rest.length + 1)).map (fun i => head + attribCommandSize *
        (sent + i)) = (head + attribCommandSize * sent) ::
          (List.range rest.length).map fun i => head + attribCommandSize * (sent + 1 + i) := by
      rw [List.range_succ_eq_map, List.map_cons, List.map_map]
      congr 1
      apply List.map_congr_left
      intro i _
      rw [Function.comp_apply, Nat.succ_eq_add_one, Nat.add_assoc, Nat.add_comm 1]
    rw [sendAttribsMemory, List.length_cons, hrange]
    constructor
    · rw [ih.1]
      simp
    · rw [ih.2]
      simp

theorem locations_sendAttribsMemory (attribs : List VertexAttrib) :
    (sendAttribsMemory layout head chunkLocation first attribs sent s).locations =
      s.locations := by
  induction attribs generalizing sent s with
  | nil => rfl
  | cons last rest ih => exact ih


theorem load_waitForSpace (b : Buffer UInt8) (releases : List ℕ) :
    (waitForSpace size b releases).1.load x n = b.load x n := by
  induction releases generalizing b with
  | nil =>
    rw [waitForSpace]
    split <;> rfl
  | cons k releases ih =>
    rw [waitForSpace]
    split
    · rfl
    · exact ih (release b k)

/-- Waiting for space leaves the bytes of the ring. -/
theorem load_getSpace : (s.getSpace size).1.state.buffer.load x n = s.state.buffer.load x n := by
  change (getSpaceForSize s.state size).1.buffer.load x n = _
  unfold getSpaceForSize
  split
  · rfl
  · exact load_waitForSpace _ _

theorem published_getSpace : (s.getSpace size).1.state.published = s.state.published := by
  change (getSpaceForSize s.state size).1.published = _
  unfold getSpaceForSize
  split <;> rfl

theorem Preparing.getSpace {space : Space} (h : Preparing app d head chunks arraySize sent s)
    (hspace : s.getSpace size = (t, space)) : Preparing app d head chunks arraySize sent t := by
  obtain rfl : t = (s.getSpace size).1 := by rw [hspace]
  obtain ⟨hcommands, hoffsets, hlocations, hcopied⟩ := h
  refine ⟨?_, ?_, hlocations, fun chunk hchunk => ?_⟩
  · rwa [published_getSpace]
  · rwa [published_getSpace]
  · rw [load_getSpace]
    exact hcopied chunk hchunk

theorem published_sendChunkMemory :
    (sendChunkMemory layout app d head run arraySize sent s).state.published.map
        Publication.command =
      s.state.published.map Publication.command ++ (run.1 :: run.2).map (attribCommand
        (sizeT (head + d.commandsSize + arraySize - chunkSizeOf d.count run)) run.1) ∧
    (sendChunkMemory layout app d head run arraySize sent s).state.published.map
        Publication.offset =
      s.state.published.map Publication.offset ++ (List.range (run.2.length + 1)).map fun i =>
        head + attribCommandSize * (sent + i) :=
  published_sendAttribsMemory (run.1 :: run.2)

theorem locations_sendChunkMemory :
    (sendChunkMemory layout app d head run arraySize sent s).locations =
      s.locations ++ [sizeT (head + d.commandsSize + arraySize - chunkSizeOf d.count run)] :=
  locations_sendAttribsMemory _

theorem chunkCommands_append_singleton (location : ℕ) :
    chunkCommands (chunks ++ [(run, location)]) =
      chunkCommands chunks ++ (run.1 :: run.2).map (attribCommand location run.1) := by
  rw [chunkCommands, List.flatMap_append, List.flatMap_singleton]
  rfl

theorem commandOffsets_add (head m n : ℕ) :
    commandOffsets head (m + n) =
      commandOffsets head m ++ (List.range n).map fun i => head + attribCommandSize * (m + i) := by
  rw [commandOffsets, List.range_add, List.map_append, List.map_map]
  rfl

/-- Another chunk is copied behind the others, and its commands go out. -/
theorem Preparing.sendChunk (layout : Layout) (run : VertexAttrib × List VertexAttrib)
    (hd : d.Bounded) (h : Preparing app d head chunks arraySize sent s)
    (hsent : sent + (run.2.length + 1) ≤ d.enabledCount)
    (hturn : attribCommandSize * d.enabledCount + d.drawCommandSize +
      (arraySize + chunkSizeOf d.count run) ≤ s.state.buffer.length + attribCommandSize * sent)
    (hlt : head + (attribCommandSize * d.enabledCount + d.drawCommandSize) +
      (arraySize + chunkSizeOf d.count run) < 2 ^ 64) :
    Preparing app d head (chunks ++ [(run, head + (attribCommandSize * d.enabledCount +
        d.drawCommandSize) + arraySize)]) (arraySize + chunkSizeOf d.count run)
      (sent + (run.2.length + 1))
      (sendChunkMemory layout app d head run (arraySize + chunkSizeOf d.count run) sent s) := by
  have hmul := Nat.mul_le_mul_left attribCommandSize hsent
  have hadd := Nat.mul_add attribCommandSize sent (run.2.length + 1)
  have hsum : sizeT (arraySize + chunkSizeOf d.count run) =
    arraySize + chunkSizeOf d.count run := sizeT_of_lt (by omega)
  have hlocation := hd.chunkLocation_eq (chunkSizeOf d.count run)
    (by omega : head + (attribCommandSize * d.enabledCount + d.drawCommandSize) + arraySize <
      2 ^ 64)
  rw [hsum] at hlocation
  have hlength := length_copyBytes app run.1.pointer (chunkSizeOf d.count run)
  refine ⟨?_, ?_, ?_, fun chunk hchunk => ?_⟩
  · rw [published_sendChunkMemory.1, hlocation, chunkCommands_append_singleton, ← h.commands]
  · rw [published_sendChunkMemory.2, commandOffsets_add, ← h.offsets]
  · rw [locations_sendChunkMemory, hlocation, List.map_append, ← h.locations]
    rfl
  · rw [sendChunkMemory, hlocation]
    set location := head + (attribCommandSize * d.enabledCount + d.drawCommandSize) + arraySize
    rw [List.mem_append, List.mem_singleton] at hchunk
    obtain hchunk | rfl := hchunk
    · obtain ⟨hbehind, hend, hload⟩ := h.copied chunk hchunk
      refine ⟨hbehind, by omega, ?_⟩
      rw [load_sendAttribsMemory _ (by rw [List.length_cons]; omega)
        (by simp only [DrawMemory.locate, DrawMemory.store, store_length]; omega)]
      exact (load_store_of_disjoint (.inr ⟨hend, by rw [hlength]; omega⟩)).trans hload
    · have hself : (s.state.buffer.store location (copyBytes app run.1.pointer
          (chunkSizeOf d.count run))).load location (copyBytes app run.1.pointer
            (chunkSizeOf d.count run)).length = copyBytes app run.1.pointer
              (chunkSizeOf d.count run) := load_store_self (by rw [hlength]; omega)
      rw [hlength] at hself
      refine ⟨Nat.le_add_right _ _, by simp only [location]; omega, ?_⟩
      simp only
      rw [load_sendAttribsMemory _ (by rw [List.length_cons]; omega)
        (by simp only [DrawMemory.locate, DrawMemory.store, store_length]; omega)]
      exact hself

/-- The chunks are written while there is room for all that is still to come. -/
theorem Placing.sendChunks (layout : Layout) (hd : d.Bounded) (hmapped : 2 * length < 2 ^ 64)
    (h : Placing length head sent free s) (hp : Preparing app d head chunks arraySize sent s)
    (hcount : sent + attribCount runs = d.enabledCount)
    (hfree : attribCommandSize * d.enabledCount + d.drawCommandSize + arraySize +
      d.indexArraySize ≤ free + attribCommandSize * sent)
    (hextent : head + (attribCommandSize * d.enabledCount + d.drawCommandSize) + arraySize +
      arrayExtent d runs + d.indexArraySize ≤ 2 * length)
    (hpass : ChunksPass d length runs arraySize sent) :
    ∃ u result, sendChunksMemory layout app d head runs arraySize sent s = (u, result) ∧
      (∀ w ∈ u.writes, w.InWindow head length) ∧
      (result = .blocked ∨
        result = .done (some (head + attribCommandSize * d.enabledCount))
          (arraySize + arrayExtent d runs) ∧
        Placing length head d.enabledCount (d.drawCommandSize + (arraySize + arrayExtent d runs) +
          d.indexArraySize) u ∧
        ∃ chunks', chunks'.map Prod.fst = chunks.map Prod.fst ++ runs ∧
          Preparing app d head chunks' (arraySize + arrayExtent d runs) d.enabledCount u) := by
  induction runs generalizing arraySize sent free s chunks with
  | nil =>
    obtain rfl : sent = d.enabledCount := hcount
    exact ⟨s, _, rfl, h.inWindow, .inr ⟨rfl, h.mono (by rw [arrayExtent_nil]; omega), chunks,
      (List.append_nil _).symm, hp⟩⟩
  | cons run runs ih =>
    obtain ⟨hsize, hrequest, hrest⟩ := hpass
    rw [attribCount_cons] at hcount
    rw [arrayExtent_cons] at hextent
    have hsum : sizeT (arraySize + chunkSizeOf d.count run) =
      arraySize + chunkSizeOf d.count run := sizeT_of_lt (by omega)
    have hask := hd.request_of_lt (arraySize + chunkSizeOf d.count run)
      (by omega : sent ≤ d.enabledCount) (by omega)
    obtain ⟨t, space, hspace⟩ : ∃ t space,
        s.getSpace (d.request (sizeT (arraySize + chunkSizeOf d.count run)) sent) = (t, space) :=
      ⟨_, _, rfl⟩
    obtain ⟨ht, hnull, hat⟩ := h.getSpace hspace
    cases space with
    | null => exact absurd (hnull.1 rfl) (by omega)
    | blocked => exact ⟨t, _, sendChunksMemory_of_blocked hsize hspace, ht.inWindow, .inl rfl⟩
    | «at» a =>
      obtain ⟨-, ht⟩ := hat a rfl
      have hpt := hp.getSpace hspace
      have hmul := Nat.mul_add attribCommandSize sent (run.2.length + 1)
      have hroom := ht.sending.room
      have hlength := ht.sending.length_eq
      rw [sendChunksMemory_of_at hsize hspace]
      rw [hsum] at hrest ht hroom ⊢
      have hchunk := ht.sendChunk layout app run arraySize hd hmapped (by omega) (by omega)
        (by omega)
      have hcopied := hpt.sendChunk layout run hd (by omega) (by omega) (by omega)
      obtain ⟨u, result, heq, hwrites, hresult⟩ :=
        ih hchunk hcopied (by omega) (by omega) (by omega) hrest
      rw [arrayExtent_cons, ← Nat.add_assoc arraySize]
      refine ⟨u, result, heq, hwrites, hresult.imp_right fun
        ⟨hdone, hplaced, chunks', hruns, hprepared⟩ => ⟨hdone, hplaced, chunks', ?_, hprepared⟩⟩
      rw [hruns, List.map_append, List.append_assoc]
      rfl

/-! ### The draw command -/

/-- The draw command at an address, and the indices behind it and the chunks. -/
def writeDraw (layout : Layout) (d : DrawSizes) (draw : Option (ℕ × ℕ) → DrawCommand)
    (indices : Option (List UInt8)) (a arraySize : ℕ) (s : DrawMemory) : DrawMemory :=
  ((s.writeHeader layout a (d.drawSize arraySize) (draw (some (a, arraySize)))).copyIndices
    (a + drawElementsSize + arraySize) indices).initCommand layout a (d.drawSize arraySize)
      (draw (some (a, arraySize)))

theorem finishMemory_of_some (a arraySize : ℕ) :
    finishMemory layout d draw indices (s, .done (some a) arraySize) =
      ((writeDraw layout d draw indices a arraySize s).publish a (d.drawSize arraySize)
        (draw (some (a, arraySize))), .returns) := rfl

theorem published_writeDraw {a : ℕ} :
    (writeDraw layout d draw indices a arraySize s).state.published = s.state.published := by
  cases indices <;> rfl

theorem locations_writeDraw {a : ℕ} :
    (writeDraw layout d draw indices a arraySize s).locations = s.locations := by
  cases indices <;> rfl

theorem length_writeDraw {a : ℕ} :
    (writeDraw layout d draw indices a arraySize s).state.buffer.length =
      s.state.buffer.length := by
  cases indices <;> rfl

/-- It is written in the window. -/
theorem Placing.writeDraw (layout : Layout) (hcall : DrawCall d draw indices)
    (h : Placing length head d.enabledCount (d.drawCommandSize + arraySize + d.indexArraySize) s)
    (hextent : head + (attribCommandSize * d.enabledCount + d.drawCommandSize) + arraySize +
      d.indexArraySize ≤ 2 * length) :
    Placing length head d.enabledCount (d.drawCommandSize + arraySize + d.indexArraySize)
      (writeDraw layout d draw indices (head + attribCommandSize * d.enabledCount) arraySize
        s) := by
  set a := head + attribCommandSize * d.enabledCount
  set command := draw (some (a, arraySize)) with hcommand
  have hsize : command.structSize = d.drawCommandSize := hcall.command_size _
  have hle := le_structSize command
  have htake := length_take_bytes layout command (d.drawSize arraySize)
  have hdrop := length_drop_bytes layout command (d.drawSize arraySize)
  have hheader := h.store 0 ((layout.bytes command (d.drawSize arraySize)).take
    commandHeaderSize) (by rw [htake]; omega) (by rw [htake]; omega)
  have hcopied : Placing length head d.enabledCount (d.drawCommandSize + arraySize +
      d.indexArraySize) ((s.writeHeader layout a (d.drawSize arraySize) command).copyIndices
        (a + drawElementsSize + arraySize) indices) := by
    have hindices := hcall.indices_size
    cases indices with
    | none => exact hheader
    | some xs =>
      obtain ⟨hne, hlength⟩ := hindices
      have helements : d.drawCommandSize = drawElementsSize := if_pos hne
      have hoffset : a + drawElementsSize + arraySize = a + (d.drawCommandSize + arraySize) := by
        omega
      rw [hoffset]
      exact hheader.store (d.drawCommandSize + arraySize) xs (by omega) (by omega)
  rw [VertexAttribs.writeDraw, ← hcommand]
  exact hcopied.store commandHeaderSize _ (by rw [hdrop]; omega) (by rw [hdrop]; omega)

theorem DrawCall.length_indices (h : DrawCall d draw indices) :
    (indices.getD []).length = d.indexArraySize := by
  have hindices := h.indices_size
  cases indices with
  | none => exact hindices.symm
  | some xs => exact hindices.2

@[simp] theorem length_copyIndices :
    (s.copyIndices offset indices).state.buffer.length = s.state.buffer.length := by
  cases indices <;> rfl

theorem load_copyIndices (hbelow : x + n ≤ offset)
    (hturn : offset + (indices.getD []).length ≤ x + s.state.buffer.length) :
    (s.copyIndices offset indices).state.buffer.load x n = s.state.buffer.load x n := by
  cases indices with
  | none => rfl
  | some xs => exact load_store_of_disjoint (.inr ⟨hbelow, hturn⟩)

/-- The chunks are left as they are. -/
theorem load_writeDraw {a : ℕ} (hcall : DrawCall d draw indices)
    (hbehind : a + d.drawCommandSize ≤ x) (hend : x + n ≤ a + d.drawCommandSize + arraySize)
    (hturn : d.drawCommandSize + arraySize + d.indexArraySize ≤ s.state.buffer.length) :
    (writeDraw layout d draw indices a arraySize s).state.buffer.load x n =
      s.state.buffer.load x n := by
  have hsize := hcall.command_size (some (a, arraySize))
  have hheader := le_structSize (draw (some (a, arraySize)))
  have hdraw := le_drawCommandSize d
  have helements : drawElementsSize = 48 := rfl
  have hlength : (s.writeHeader layout a (d.drawSize arraySize)
    (draw (some (a, arraySize)))).state.buffer.length = s.state.buffer.length := rfl
  have hindices := hcall.length_indices
  rw [writeDraw, load_initCommand (by omega) (by rw [length_copyIndices]; omega),
    load_copyIndices (by omega) (by omega), load_writeHeader (by omega) (by omega)]

/-- The indices are behind the chunks. -/
theorem load_writeDraw_indices {a : ℕ} (hcall : DrawCall d draw (some xs))
    (hturn : d.drawCommandSize + arraySize + d.indexArraySize ≤ s.state.buffer.length) :
    (writeDraw layout d draw (some xs) a arraySize s).state.buffer.load
      (a + drawElementsSize + arraySize) xs.length = xs := by
  obtain ⟨hne, hlength⟩ := hcall.indices_size
  have hsize := hcall.command_size (some (a, arraySize))
  have helements : d.drawCommandSize = drawElementsSize := if_pos hne
  rw [writeDraw, load_initCommand (by omega) (by rw [length_copyIndices]; exact (by
    change _ ≤ _ + s.state.buffer.length; omega))]
  exact load_store_self (by change _ ≤ s.state.buffer.length; omega)

theorem setupMemory_of_at {a : ℕ} (h : s.getSpace d.initialRequest = (t, .at a)) :
    setupMemory layout app d s attribs =
      sendChunksMemory layout app d a (chunkRuns attribs) 0 0 t := by
  rw [setupMemory, h]

/-- If all fits in the two mappings, the setup waits on, or everything is published and copied. -/
theorem setupMemory_of_extent (layout : Layout) (app : ℕ → UInt8) (hd : d.Bounded) (hb : Ring b)
    (hmapped : 2 * b.length < 2 ^ 64) (hcount : attribs.length = d.enabledCount)
    (hfits : d.initialRequest ≤ b.length) (hpass : ChunksPass d b.length (chunkRuns attribs) 0 0)
    (hextent : b.head + drawExtent d attribs ≤ 2 * b.length) (releases : List ℕ) :
    ∃ u result, setupMemory layout app d (.start b releases) attribs = (u, result) ∧
      (∀ w ∈ u.writes, w.InWindow b.head b.length) ∧
      (result = .blocked ∨
        result = .done (some (b.head + attribCommandSize * d.enabledCount))
          (arrayExtent d (chunkRuns attribs)) ∧
        Placing b.length b.head d.enabledCount (d.drawCommandSize +
          arrayExtent d (chunkRuns attribs) + d.indexArraySize) u ∧
        ∃ chunks, chunks.map Prod.fst = chunkRuns attribs ∧
          Preparing app d b.head chunks (arrayExtent d (chunkRuns attribs)) d.enabledCount u) := by
  have hinitial := hd.initialRequest_eq
  have hstart : Placing b.length b.head 0 (b.length - b.fillCount) (.start b releases) :=
    ⟨hb.sending releases, by simp [DrawMemory.start]⟩
  have hnothing : Preparing app d b.head [] 0 0 (.start b releases) := ⟨rfl, rfl, rfl, by simp⟩
  obtain ⟨t, space, hspace⟩ : ∃ t space,
      (DrawMemory.start b releases).getSpace d.initialRequest = (t, space) := ⟨_, _, rfl⟩
  obtain ⟨ht, hnull, hat⟩ := hstart.getSpace hspace
  unfold drawExtent at hextent
  cases space with
  | null => exact absurd (hnull.1 rfl) (by omega)
  | blocked => exact ⟨t, .blocked, by rw [setupMemory, hspace], ht.inWindow, .inl rfl⟩
  | «at» a =>
    obtain ⟨rfl, ht⟩ := hat a rfl
    rw [setupMemory_of_at hspace, hb.head_mod]
    obtain ⟨u, result, heq, hwrites, hresult⟩ := ht.sendChunks layout hd hmapped
      (hnothing.getSpace hspace) (by rw [attribCount_chunkRuns, hcount, Nat.zero_add]) (by omega)
      (by omega) hpass
    rw [Nat.zero_add] at hresult
    exact ⟨u, result, heq, hwrites, hresult⟩

end GpuProxy.VertexAttribs
