import GpuProxy.RingBuffer.Buffer
import GpuProxy.VertexAttribs.Attrib

/-!
# Draw calls

The part of `caching_client_glDrawArrays` and `caching_client_glDrawElements` that puts
commands into the ring when the attributes and the indices are in client memory: one
`glVertexAttribPointer` for each enabled attribute, with a copy of the attribute data
behind the draw command, then the draw command.

The server gives back bytes while this runs. A schedule lists how many bytes it gives
back before each access of the client to `fill_count`: each check of
`client_get_space_for_size` and each `buffer_write_advance`. When the list is exhausted
the server gives back nothing more, and a client that still waits for space waits on.

## Main definitions

* `DrawState` — the ring, the schedule, and the commands published so far
* `setupVertexAttribPointerIfNecessary` — the attribute commands
* `drawArrays`, `drawElements` — the two draw calls
* `Publication.WellFramed` — a command lies at `head` and fits in the free space
-/

namespace GpuProxy.VertexAttribs

open Math RingBuffer

/-- `command_get_size (COMMAND_GLVERTEXATTRIBPOINTER)`, on a 64-bit machine. -/
def attribCommandSize : ℕ := 56

/-- `command_get_size (COMMAND_GLDRAWARRAYS)`. -/
def drawArraysSize : ℕ := 40

/-- `command_get_size (COMMAND_GLDRAWELEMENTS)`. -/
def drawElementsSize : ℕ := 48

/-- The commands of a draw call. Addresses in the ring are offsets from its start;
indices outside the ring are `none`. -/
inductive DrawCommand
  | vertexAttribPointer (index : ℕ) (size : ℤ) (type : ℕ) (normalized : Bool) (stride : ℤ)
      (data : ℕ)
  | drawArrays (mode : ℕ) (first count : ℤ)
  | drawElements (mode : ℕ) (count : ℤ) (type : ℕ) (indices : Option ℕ)
  deriving DecidableEq, Repr

/-- A call of `client_run_command_async`: the command's address, its size, and the ring
just before `buffer_write_advance`. -/
structure Publication where
  offset : ℕ
  size : ℕ
  command : DrawCommand
  buffer : Buffer UInt8

/-- The command lies at the write position of the ring, and the bytes advanced by are
free. -/
def Publication.WellFramed (p : Publication) : Prop :=
  p.offset % p.buffer.length = p.buffer.head ∧ p.size ≤ p.buffer.length - p.buffer.fillCount

instance (p : Publication) : Decidable p.WellFramed := inferInstanceAs (Decidable (_ ∧ _))

/-- The ring, and what the client has done with it. -/
structure DrawState where
  buffer : Buffer UInt8
  /-- The bytes the server gives back before each coming access. -/
  releases : List ℕ
  published : List Publication

/-- The server gives back `n` of the bytes it has to read. -/
def release (b : Buffer UInt8) (n : ℕ) : Buffer UInt8 := bufferReadAdvance b (min n b.fillCount)

/-- The server runs before the client's next access. -/
def DrawState.serve (s : DrawState) : DrawState :=
  match s.releases with
  | [] => s
  | n :: rest => { s with buffer := release s.buffer n, releases := rest }

/-- The test of the loop in `client_get_space_for_size`. -/
def spaceFor (b : Buffer UInt8) (size : ℕ) : Option ℕ :=
  match bufferWriteAddress b with
  | (_, none) => none
  | (available, some a) => if available < size then none else some a

/-- What `client_get_space_for_size` comes to. -/
inductive Space
  /-- NULL: the size exceeds the length of the ring. -/
  | null
  /-- The loop waits on. -/
  | blocked
  | at (offset : ℕ)
  deriving DecidableEq, Repr

/-- The loop of `client_get_space_for_size`. -/
def waitForSpace (size : ℕ) (b : Buffer UInt8) : List ℕ → Buffer UInt8 × List ℕ × Space
  | [] =>
    match spaceFor b size with
    | some a => (b, [], .at a)
    | none => (b, [], .blocked)
  | n :: rest =>
    match spaceFor (release b n) size with
    | some a => (release b n, rest, .at a)
    | none => waitForSpace size (release b n) rest

/-- `client_get_space_for_size`. -/
def getSpaceForSize (s : DrawState) (size : ℕ) : DrawState × Space :=
  if s.buffer.length < size then (s, .null)
  else
    let (b, releases, space) := waitForSpace size s.buffer s.releases
    ({ s with buffer := b, releases := releases }, space)

/-- `client_run_command_async`, for a command at `offset` whose header has `size`. -/
def runCommandAsync (s : DrawState) (offset size : ℕ) (command : DrawCommand) : DrawState :=
  let s := s.serve
  { s with
    buffer := bufferWriteAdvance s.buffer size
    published := s.published ++ [⟨offset, size, command, s.buffer⟩] }

/-- The enabled attributes in runs of one `chunk`: what the loop
`while (enabled_attrib && (first->chunk == enabled_attrib->chunk))` passes over, the first
attribute and the others. -/
def chunkRuns : List VertexAttrib → List (VertexAttrib × List VertexAttrib)
  | [] => []
  | a :: rest =>
    match chunkRuns rest with
    | [] => [(a, [])]
    | (b, others) :: runs =>
      if a.chunk = b.chunk then (a, b :: others) :: runs else (a, []) :: (b, others) :: runs

/-- The loop that publishes the attributes of one chunk. `sent` is `attrib_count`. -/
def sendAttribs (base chunkLocation : ℕ) (first : VertexAttrib) :
    List VertexAttrib → ℕ → DrawState → DrawState
  | [], _, s => s
  | last :: rest, sent, s =>
    let data := sizeT (chunkLocation + (last.pointer - first.pointer))
    sendAttribs base chunkLocation first rest (sent + 1)
      (runCommandAsync s (base + attribCommandSize * sent) attribCommandSize
        (.vertexAttribPointer last.index last.size last.type last.arrayNormalized last.stride data))

/-- What `caching_client_setup_vertex_attrib_pointer_if_necessary` leaves in `*command`
and `*array_size`. -/
inductive SetupResult
  | blocked
  | done (command : Option ℕ) (arraySize : ℕ)
  deriving DecidableEq, Repr

/-- The sizes of one draw call. -/
structure DrawSizes where
  /-- `enabled_count`. -/
  enabledCount : ℕ
  /-- `count`: the number of vertices. -/
  count : ℕ
  indexArraySize : ℕ

variable (d : DrawSizes)

/-- `draw_command_size`. -/
def DrawSizes.drawCommandSize : ℕ :=
  if d.indexArraySize ≠ 0 then drawElementsSize else drawArraysSize

/-- `commands_size`. -/
def DrawSizes.commandsSize : ℕ := sizeT (attribCommandSize * d.enabledCount + d.drawCommandSize)

/-- The space asked for before the first attribute. -/
def DrawSizes.initialRequest : ℕ := sizeT (d.commandsSize + d.indexArraySize)

/-- The space asked for when the chunks up to the present one have `arraySize` bytes and
`sent` attributes are published. -/
def DrawSizes.request (arraySize sent : ℕ) : ℕ :=
  sizeT (d.commandsSize + arraySize + d.indexArraySize - attribCommandSize * sent)

/-- `command->size` of the draw command. -/
def DrawSizes.drawSize (arraySize : ℕ) : ℕ :=
  sizeT (d.drawCommandSize + arraySize + d.indexArraySize)

/-- The size of a chunk, `caching_client_vertex_chunk_size (first, last, count)`. -/
def chunkSizeOf (count : ℕ) (run : VertexAttrib × List VertexAttrib) : ℕ :=
  vertexChunkSize run.1 (run.2.getLastD run.1) count

/-- The loop over the chunks. A chunk without a size returns with `*command` as it is, and
so does one that does not fit (`BIG_DATA`). -/
def sendChunks (base : ℕ) : List (VertexAttrib × List VertexAttrib) → (arraySize sent : ℕ) →
    DrawState → DrawState × SetupResult
  | [], arraySize, _, s => (s, .done (some (base + attribCommandSize * d.enabledCount)) arraySize)
  | run :: runs, arraySize, sent, s =>
    let chunkSize := chunkSizeOf d.count run
    if chunkSize = 0 then (s, .done (some base) arraySize)
    else
      let arraySize := sizeT (arraySize + chunkSize)
      match getSpaceForSize s (d.request arraySize sent) with
      | (s, .null) => (s, .done (some base) arraySize)
      | (s, .blocked) => (s, .blocked)
      | (s, .at _) =>
        let chunkLocation := sizeT (base + d.commandsSize + arraySize - chunkSize)
        sendChunks base runs arraySize (sent + (run.2.length + 1))
          (sendAttribs base chunkLocation run.1 (run.1 :: run.2) sent s)

/-- `caching_client_setup_vertex_attrib_pointer_if_necessary`. -/
def setupVertexAttribPointerIfNecessary (s : DrawState) (attribs : List VertexAttrib) :
    DrawState × SetupResult :=
  match getSpaceForSize s d.initialRequest with
  | (s, .null) => (s, .done none 0)
  | (s, .blocked) => (s, .blocked)
  | (s, .at base) => sendChunks d base (chunkRuns attribs) 0 0 s

/-- The end of both draw calls. Without space from the setup the command goes to
`client_get_space_for_command`, whose size is that of the bare command; with it, the header
is written at `*command` with all the data behind it. -/
def finishDraw (command : Option (ℕ × ℕ) → DrawCommand) : DrawState × SetupResult → DrawState
  | (s, .blocked) => s
  | (s, .done none _) =>
    match getSpaceForSize s d.drawCommandSize with
    | (s, .at a) => runCommandAsync s a d.drawCommandSize (command none)
    -- The caller does not check for NULL.
    | (s, _) => s
  | (s, .done (some a) arraySize) =>
    runCommandAsync s a (d.drawSize arraySize) (command (some (a, arraySize)))

/-- Both draw calls from the setup on. -/
def runDraw (s : DrawState) (attribs : List VertexAttrib)
    (command : Option (ℕ × ℕ) → DrawCommand) : DrawState :=
  finishDraw d command (setupVertexAttribPointerIfNecessary d s attribs)

/-- The sizes of `glDrawArrays`: with `first` greater than 0 the vertices before it count. -/
def drawArraysSizes (enabledCount : ℕ) (first count : ℤ) : DrawSizes where
  enabledCount := enabledCount
  count := sizeT (if 0 < first then Int.bmod (first + count) (2 ^ 32) else count)
  indexArraySize := 0

/-- `caching_client_glDrawArrays` after its checks. -/
def drawArrays (s : DrawState) (attribs : List VertexAttrib) (enabledCount mode : ℕ)
    (first count : ℤ) : DrawState :=
  runDraw (drawArraysSizes enabledCount first count) s attribs
    fun _ => .drawArrays mode first count

/-- `_get_elements_count`. -/
def getElementsCount (indices : List ℕ) : ℕ := indices.foldl max 0 + 1

/-- `calculate_index_array_size`. -/
def calculateIndexArraySize (type : ℕ) (count : ℤ) : ℕ :=
  if type = glUnsignedByte then sizeT count
  else if type = glUnsignedShort then sizeT (2 * count)
  else 0

def drawElementsSizes (enabledCount : ℕ) (count : ℤ) (type : ℕ) (indices : List ℕ) :
    DrawSizes where
  enabledCount := enabledCount
  count := getElementsCount indices
  indexArraySize := calculateIndexArraySize type count

/-- `caching_client_glDrawElements` after its checks; `indices` are the elements the
pointer argument leads to. Without an index array size nothing is drawn. -/
def drawElements (s : DrawState) (attribs : List VertexAttrib) (enabledCount mode : ℕ)
    (count : ℤ) (type : ℕ) (indices : List ℕ) : DrawState :=
  let d := drawElementsSizes enabledCount count type indices
  if d.indexArraySize = 0 then s
  else runDraw d s attribs fun space =>
    .drawElements mode count type (space.map fun (a, arraySize) => a + drawElementsSize + arraySize)

end GpuProxy.VertexAttribs
