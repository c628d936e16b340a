import GpuProxy.VertexAttribs.Draw
import GpuProxy.VertexAttribs.ElementsCount

/-!
# What a draw call writes

The draw calls write their commands, the attribute data and the indices at addresses computed
from the position at which the first check for space left them, whatever was published since.
Here the calls are followed with all their writes, and with what the ring holds after them.

## Main definitions

* `Layout` — the bytes of the commands
* `Write`, `DrawMemory` — the writes of a call, and the state with them
* `runDrawMemory` — both draw calls from the setup on

## Main results

* `forget_runDrawMemory` — but for the memory, this is `runDraw`
-/

namespace GpuProxy.VertexAttribs

open Math RingBuffer

/-- `sizeof (command_t)`, on a 64-bit machine. -/
def commandHeaderSize : ℕ := 24

/-- `command_get_size`. -/
def DrawCommand.structSize : DrawCommand → ℕ
  | .vertexAttribPointer .. => attribCommandSize
  | .drawArrays .. => drawArraysSize
  | .drawElements .. => drawElementsSize

/-- The bytes of a command's struct whose header has a size. How the fields are laid out is up to
the compiler. -/
structure Layout where
  bytes : DrawCommand → ℕ → List UInt8
  length_bytes : ∀ command size, (bytes command size).length = command.structSize

/-- Bytes that are written to the ring: the offset from `buffer.address`, how many they are, and
the ring before. -/
structure Write where
  offset : ℕ
  size : ℕ
  buffer : Buffer UInt8

/-- The state of a draw call, with what it has written. -/
structure DrawMemory where
  state : DrawState
  writes : List Write
  /-- `chunk_location` of every chunk, as an offset. -/
  locations : List ℕ
  /-- What is in the block for the indices that `malloc` returned. -/
  allocated : Option (List UInt8)

/-- How a draw call ends. -/
inductive Ending
  /-- The loop of `client_get_space_for_size` waits on. -/
  | waits
  /-- A command is written through a null pointer. -/
  | faults
  | returns
  deriving DecidableEq, Repr

namespace DrawMemory

variable (layout : Layout) (s : DrawMemory)

/-- A ring that nothing is written to yet. -/
def start (b : Buffer UInt8) (releases : List ℕ) : DrawMemory := ⟨⟨b, releases, []⟩, [], [], none⟩

/-- A write. -/
def store (offset : ℕ) (xs : List UInt8) : DrawMemory :=
  { s with
    state := { s.state with buffer := s.state.buffer.store offset xs }
    writes := s.writes ++ [⟨offset, xs.length, s.state.buffer⟩] }

/-- A chunk has been copied to a location. -/
def locate (location : ℕ) : DrawMemory := { s with locations := s.locations ++ [location] }

/-- `client_get_space_for_size`. -/
def getSpace (size : ℕ) : DrawMemory × Space :=
  let (state, space) := getSpaceForSize s.state size
  ({ s with state := state }, space)

/-- `client_run_command_async`. -/
def publish (offset size : ℕ) (command : DrawCommand) : DrawMemory :=
  { s with state := runCommandAsync s.state offset size command }

/-- The type, the size and the token of a command. -/
def writeHeader (offset size : ℕ) (command : DrawCommand) : DrawMemory :=
  s.store offset ((layout.bytes command size).take commandHeaderSize)

/-- The `init` function of a command. -/
def initCommand (offset size : ℕ) (command : DrawCommand) : DrawMemory :=
  s.store (offset + commandHeaderSize) ((layout.bytes command size).drop commandHeaderSize)

/-- The copy of the indices, if there are any. -/
def copyIndices (offset : ℕ) : Option (List UInt8) → DrawMemory
  | none => s
  | some indices => s.store offset indices

end DrawMemory

/-- The bytes of the application from an address on. -/
def copyBytes (app : ℕ → UInt8) (address n : ℕ) : List UInt8 :=
  (List.range n).map fun i => app (address + i)

variable (layout : Layout) (app : ℕ → UInt8) (d : DrawSizes)

/-- The command of an attribute whose chunk is at a location. -/
def attribCommand (chunkLocation : ℕ) (first last : VertexAttrib) : DrawCommand :=
  .vertexAttribPointer last.index last.size last.type last.arrayNormalized last.stride
    (sizeT (chunkLocation + (last.pointer - first.pointer)))

/-- The loop that publishes the attributes of one chunk. -/
def sendAttribsMemory (base chunkLocation : ℕ) (first : VertexAttrib) :
    List VertexAttrib → ℕ → DrawMemory → DrawMemory
  | [], _, s => s
  | last :: rest, sent, s =>
    let command := attribCommand chunkLocation first last
    let offset := base + attribCommandSize * sent
    let s := s.writeHeader layout offset attribCommandSize command
    let s := s.initCommand layout offset attribCommandSize command
    sendAttribsMemory base chunkLocation first rest (sent + 1)
      (s.publish offset attribCommandSize command)

/-- What is done for a chunk when there is space for it: the copy, and the commands. `arraySize`
has its size already. -/
def sendChunkMemory (base : ℕ) (run : VertexAttrib × List VertexAttrib) (arraySize sent : ℕ)
    (s : DrawMemory) : DrawMemory :=
  let chunkSize := chunkSizeOf d.count run
  let chunkLocation := sizeT (base + d.commandsSize + arraySize - chunkSize)
  let s := (s.store chunkLocation (copyBytes app run.1.pointer chunkSize)).locate chunkLocation
  sendAttribsMemory layout base chunkLocation run.1 (run.1 :: run.2) sent s

/-- The loop over the chunks. -/
def sendChunksMemory (base : ℕ) : List (VertexAttrib × List VertexAttrib) →
    (arraySize sent : ℕ) → DrawMemory → DrawMemory × SetupResult
  | [], arraySize, _, s => (s, .done (some (base + attribCommandSize * d.enabledCount)) arraySize)
  | run :: runs, arraySize, sent, s =>
    let chunkSize := chunkSizeOf d.count run
    if chunkSize = 0 then (s, .done (some base) arraySize)
    else
      let arraySize := sizeT (arraySize + chunkSize)
      match s.getSpace (d.request arraySize sent) with
      | (s, .null) => (s, .done (some base) arraySize)
      | (s, .blocked) => (s, .blocked)
      | (s, .at _) =>
        sendChunksMemory base runs arraySize (sent + (run.2.length + 1))
          (sendChunkMemory layout app d base run arraySize sent s)

/-- `caching_client_setup_vertex_attrib_pointer_if_necessary`. -/
def setupMemory (s : DrawMemory) (attribs : List VertexAttrib) : DrawMemory × SetupResult :=
  match s.getSpace d.initialRequest with
  | (s, .null) => (s, .done none 0)
  | (s, .blocked) => (s, .blocked)
  | (s, .at base) => sendChunksMemory layout app d base (chunkRuns attribs) 0 0 s

/-- The end of both draw calls, with the indices to be copied. -/
def finishMemory (command : Option (ℕ × ℕ) → DrawCommand) (indices : Option (List UInt8)) :
    DrawMemory × SetupResult → DrawMemory × Ending
  | (s, .blocked) => (s, .waits)
  | (s, .done none _) =>
    let s := { s with allocated := indices }
    match s.getSpace d.drawCommandSize with
    | (s, .at a) =>
      let s := s.writeHeader layout a d.drawCommandSize (command none)
      let s := s.initCommand layout a d.drawCommandSize (command none)
      (s.publish a d.drawCommandSize (command none), .returns)
    | (s, .blocked) => (s, .waits)
    | (s, .null) => (s, .faults)
  | (s, .done (some a) arraySize) =>
    let command := command (some (a, arraySize))
    let s := s.writeHeader layout a (d.drawSize arraySize) command
    let s := s.copyIndices (a + drawElementsSize + arraySize) indices
    let s := s.initCommand layout a (d.drawSize arraySize) command
    (s.publish a (d.drawSize arraySize) command, .returns)

/-- Both draw calls from the setup on. -/
def runDrawMemory (s : DrawMemory) (attribs : List VertexAttrib)
    (command : Option (ℕ × ℕ) → DrawCommand) (indices : Option (List UInt8)) :
    DrawMemory × Ending :=
  finishMemory layout d command indices (setupMemory layout app d s attribs)

section Cases

variable {base arraySize sent a : ℕ} {run : VertexAttrib × List VertexAttrib}
  {runs : List (VertexAttrib × List VertexAttrib)} {s t : DrawMemory} {layout app d}

theorem sendChunksMemory_of_null (hsize : chunkSizeOf d.count run ≠ 0)
    (hspace : s.getSpace (d.request (sizeT (arraySize + chunkSizeOf d.count run)) sent) =
      (t, .null)) :
    sendChunksMemory layout app d base (run :: runs) arraySize sent s =
      (t, .done (some base) (sizeT (arraySize + chunkSizeOf d.count run))) := by
  simp only [sendChunksMemory, if_neg hsize, hspace]

theorem sendChunksMemory_of_blocked (hsize : chunkSizeOf d.count run ≠ 0)
    (hspace : s.getSpace (d.request (sizeT (arraySize + chunkSizeOf d.count run)) sent) =
      (t, .blocked)) :
    sendChunksMemory layout app d base (run :: runs) arraySize sent s = (t, .blocked) := by
  simp only [sendChunksMemory, if_neg hsize, hspace]

theorem sendChunksMemory_of_at (hsize : chunkSizeOf d.count run ≠ 0)
    (hspace : s.getSpace (d.request (sizeT (arraySize + chunkSizeOf d.count run)) sent) =
      (t, .at a)) :
    sendChunksMemory layout app d base (run :: runs) arraySize sent s =
      sendChunksMemory layout app d base runs (sizeT (arraySize + chunkSizeOf d.count run))
        (sent + (run.2.length + 1))
        (sendChunkMemory layout app d base run (sizeT (arraySize + chunkSizeOf d.count run)) sent
          t) := by
  simp only [sendChunksMemory, if_neg hsize, hspace]

end Cases

/-! ### Without the memory -/

/-- A ring whose bytes are not looked at. -/
def forget (b : Buffer UInt8) : Buffer UInt8 := { b with memory := fun _ => 0 }

/-- A state whose bytes are not looked at. -/
def DrawState.forget (s : DrawState) : DrawState where
  buffer := VertexAttribs.forget s.buffer
  releases := s.releases
  published := s.published.map fun p => { p with buffer := VertexAttribs.forget p.buffer }

variable {s : DrawState} {m : DrawMemory} {size offset base chunkLocation sent arraySize : ℕ}
  {command : DrawCommand} {layout app d}

theorem serve_forget : s.forget.serve = s.serve.forget := by
  obtain ⟨buffer, releases, published⟩ := s
  cases releases <;> rfl

theorem waitForSpace_forget (b : Buffer UInt8) (releases : List ℕ) :
    waitForSpace size (forget b) releases =
      (forget (waitForSpace size b releases).1, (waitForSpace size b releases).2) := by
  induction releases generalizing b with
  | nil =>
    have hspace : spaceFor (forget b) size = spaceFor b size := rfl
    rw [waitForSpace, waitForSpace, hspace]
    cases spaceFor b size <;> rfl
  | cons n releases ih =>
    have hrelease : release (forget b) n = forget (release b n) := rfl
    have hspace : spaceFor (forget (release b n)) size = spaceFor (release b n) size := rfl
    rw [waitForSpace, waitForSpace, hrelease, hspace]
    cases spaceFor (release b n) size with
    | none => exact ih (release b n)
    | some a => rfl

theorem getSpaceForSize_forget :
    getSpaceForSize s.forget size =
      ((getSpaceForSize s size).1.forget, (getSpaceForSize s size).2) := by
  have hlength : s.forget.buffer.length = s.buffer.length := rfl
  unfold getSpaceForSize
  rw [hlength]
  by_cases hlong : s.buffer.length < size
  · rw [if_pos hlong, if_pos hlong]
  · rw [if_neg hlong, if_neg hlong]
    have hwait : waitForSpace size s.forget.buffer s.forget.releases = _ :=
      waitForSpace_forget s.buffer s.releases
    rw [hwait]
    rfl

theorem runCommandAsync_forget :
    runCommandAsync s.forget offset size command =
      (runCommandAsync s offset size command).forget := by
  unfold runCommandAsync
  rw [serve_forget]
  simp only [DrawState.forget, List.map_append]
  rfl

@[simp] theorem forget_store (xs : List UInt8) :
    (m.store offset xs).state.forget = m.state.forget :=
  rfl

theorem forget_copyIndices (indices : Option (List UInt8)) :
    (m.copyIndices offset indices).state.forget = m.state.forget := by
  cases indices <;> rfl

theorem forget_sendAttribsMemory (first : VertexAttrib) (attribs : List VertexAttrib) :
    (sendAttribsMemory layout base chunkLocation first attribs sent m).state.forget =
      sendAttribs base chunkLocation first attribs sent m.state.forget := by
  induction attribs generalizing sent m with
  | nil => rfl
  | cons last rest ih =>
    rw [sendAttribsMemory, sendAttribs, ih]
    congr 1
    exact runCommandAsync_forget.symm

variable (layout app) in
theorem forget_sendChunksMemory (runs : List (VertexAttrib × List VertexAttrib)) :
    sendChunks d base runs arraySize sent m.state.forget =
      ((sendChunksMemory layout app d base runs arraySize sent m).1.state.forget,
        (sendChunksMemory layout app d base runs arraySize sent m).2) := by
  induction runs generalizing arraySize sent m with
  | nil => rfl
  | cons run runs ih =>
    simp only [sendChunks, sendChunksMemory]
    by_cases hzero : chunkSizeOf d.count run = 0
    · rw [if_pos hzero, if_pos hzero]
    · rw [if_neg hzero, if_neg hzero]
      simp only [DrawMemory.getSpace, getSpaceForSize_forget]
      cases (getSpaceForSize m.state
          (d.request (sizeT (arraySize + chunkSizeOf d.count run)) sent)).2 with
      | null => rfl
      | blocked => rfl
      | «at» a =>
        simp only
        rw [← ih, sendChunkMemory, forget_sendAttribsMemory]
        rfl

theorem forget_finishMemory {draw : Option (ℕ × ℕ) → DrawCommand} (indices : Option (List UInt8))
    (result : SetupResult) :
    (finishMemory layout d draw indices (m, result)).1.state.forget =
      finishDraw d draw (m.state.forget, result) := by
  cases result with
  | blocked => rfl
  | done command arraySize =>
    cases command with
    | none =>
      simp only [finishMemory, finishDraw, DrawMemory.getSpace, getSpaceForSize_forget]
      cases (getSpaceForSize m.state d.drawCommandSize).2 with
      | null => rfl
      | blocked => rfl
      | «at» a => exact runCommandAsync_forget.symm
    | some a =>
      simp only [finishMemory, finishDraw, DrawMemory.publish]
      rw [← runCommandAsync_forget]
      congr 1
      rw [DrawMemory.initCommand, forget_store, forget_copyIndices, DrawMemory.writeHeader,
        forget_store]

/-- The commands are published as if the bytes were not written. -/
theorem forget_runDrawMemory (attribs : List VertexAttrib) (draw : Option (ℕ × ℕ) → DrawCommand)
    (indices : Option (List UInt8)) :
    (runDrawMemory layout app d m attribs draw indices).1.state.forget =
      runDraw d m.state.forget attribs draw := by
  unfold runDrawMemory runDraw setupMemory setupVertexAttribPointerIfNecessary
  rw [getSpaceForSize_forget]
  simp only [DrawMemory.getSpace]
  cases (getSpaceForSize m.state d.initialRequest).2 with
  | null => exact forget_finishMemory indices _
  | blocked => rfl
  | «at» a =>
    let u : DrawMemory := { m with state := (getSpaceForSize m.state d.initialRequest).1 }
    have hchunks : sendChunks d a (chunkRuns attribs) 0 0 u.state.forget = _ :=
      forget_sendChunksMemory layout app (chunkRuns attribs)
    simp only
    rw [hchunks]
    exact forget_finishMemory indices _

end GpuProxy.VertexAttribs
