import GpuProxy.VertexAttribs.Draw
import Mathlib.Tactic.Ring

/-!
# When a draw call keeps the command stream framed

A draw call reserves space for all its commands, publishes the attribute commands one
by one from the front, and at the end the draw command. It is right when it sends all
chunks, or gives up before it has published anything. When it gives up later it still
writes the draw command at the place of the first attribute command, which the server
may be reading; and a draw command is advanced over with the size of all the data, also
when the room for the data was never there.

## Main definitions

* `Ring` — the ring invariant a draw call starts from
* `ChunksFit` — every chunk has a size and passes its check, and so does the draw command
* `Sendable` — the condition under which a draw call keeps the stream framed

## Main results

* `wellFramed_of_sendable`, `sendable_of_wellFramed` — the condition is exact
* `draw_wellFramed_iff` — the same for both draw calls
-/

namespace GpuProxy.VertexAttribs

open Math RingBuffer

/-- The ring invariant; the two copies of the mapping lie in the address space. -/
structure Ring (b : Buffer UInt8) : Prop where
  fill_le : b.fillCount ≤ b.length
  head_eq : b.head = (b.tail + b.fillCount) % b.length
  mapped : 2 * b.length ≤ 2 ^ 64

/-- Every chunk from the first of the given ones on has a size and passes the check for
space, and the draw command with all the data is no longer than the ring. -/
def ChunksFit (d : DrawSizes) (length : ℕ) :
    List (VertexAttrib × List VertexAttrib) → (arraySize sent : ℕ) → Prop
  | [], arraySize, _ => d.drawSize arraySize ≤ length
  | run :: runs, arraySize, sent =>
    chunkSizeOf d.count run ≠ 0 ∧
      d.request (sizeT (arraySize + chunkSizeOf d.count run)) sent ≤ length ∧
      ChunksFit d length runs (sizeT (arraySize + chunkSizeOf d.count run))
        (sent + (run.2.length + 1))

/-- The draw call sends everything, or gives up before the first attribute command: for
want of space for the commands, because the first chunk has no size, or because it is too
big, when the draw command with the first chunk's size fits in what is free then. -/
def Sendable (d : DrawSizes) (length free : ℕ) (attribs : List VertexAttrib) : Prop :=
  length < d.initialRequest ∨ ChunksFit d length (chunkRuns attribs) 0 0 ∨
    ∃ run runs, chunkRuns attribs = run :: runs ∧
      (chunkSizeOf d.count run = 0 ∨
        length < d.request (chunkSizeOf d.count run) 0 ∧
          d.drawSize (chunkSizeOf d.count run) ≤ max free d.initialRequest)

/-- The number of attributes in a list of chunks. -/
def attribCount (runs : List (VertexAttrib × List VertexAttrib)) : ℕ :=
  (runs.map fun run => run.2.length + 1).sum

@[simp] theorem attribCount_nil : attribCount [] = 0 := rfl

@[simp] theorem attribCount_cons (run : VertexAttrib × List VertexAttrib)
    (runs : List (VertexAttrib × List VertexAttrib)) :
    attribCount (run :: runs) = run.2.length + 1 + attribCount runs := rfl

theorem attribCount_chunkRuns (attribs : List VertexAttrib) :
    attribCount (chunkRuns attribs) = attribs.length := by
  induction attribs with
  | nil => rfl
  | cons a rest ih =>
    rw [chunkRuns, List.length_cons, ← ih]
    split
    next hnil => simp [hnil]
    next b others runs hcons =>
      rw [hcons]
      split <;> simp <;> omega

/-! ### The sizes -/

section Sizes

variable {d : DrawSizes}

theorem le_drawCommandSize (d : DrawSizes) : 40 ≤ d.drawCommandSize ∧ d.drawCommandSize ≤ 48 := by
  unfold DrawSizes.drawCommandSize drawElementsSize drawArraysSize
  split <;> omega

/-- The sizes are those of one process: nothing before the array data wraps around. -/
structure DrawSizes.Bounded (d : DrawSizes) : Prop where
  enabledCount_lt : d.enabledCount < 2 ^ 31
  indexArraySize_lt : d.indexArraySize < 2 ^ 33

theorem DrawSizes.Bounded.commandsSize_eq (h : d.Bounded) :
    d.commandsSize = attribCommandSize * d.enabledCount + d.drawCommandSize := by
  have hle := le_drawCommandSize d
  have hcount := h.enabledCount_lt
  unfold DrawSizes.commandsSize sizeT attribCommandSize
  omega

theorem DrawSizes.Bounded.initialRequest_eq (h : d.Bounded) :
    d.initialRequest =
      attribCommandSize * d.enabledCount + d.drawCommandSize + d.indexArraySize := by
  have hle := le_drawCommandSize d
  have hcount := h.enabledCount_lt
  have hindex := h.indexArraySize_lt
  rw [DrawSizes.initialRequest, h.commandsSize_eq]
  unfold sizeT attribCommandSize
  omega

/-- With `rest` attribute commands still to come, the request is for them and for the
draw command, unless that is more than an address can count. -/
theorem DrawSizes.Bounded.request_eq (h : d.Bounded) {arraySize sent rest length : ℕ}
    (hrest : sent + rest = d.enabledCount) (hmapped : 2 * length ≤ 2 ^ 64)
    (hroom : attribCommandSize * rest < length) (hfit : d.drawSize arraySize ≤ length) :
    d.request arraySize sent = attribCommandSize * rest + d.drawSize arraySize := by
  have hexpr : ((d.commandsSize : ℕ) : ℤ) + arraySize + d.indexArraySize -
      attribCommandSize * sent =
      (d.drawCommandSize + arraySize + d.indexArraySize : ℤ) +
        ((attribCommandSize * rest : ℕ) : ℤ) := by
    rw [h.commandsSize_eq, ← hrest]
    push_cast
    ring
  unfold DrawSizes.drawSize at hfit ⊢
  rw [DrawSizes.request, hexpr, sizeT_add (by omega), Nat.add_comm]

end Sizes

/-! ### Single accesses -/

variable {s t : DrawState} {b b' : Buffer UInt8} {length head sent free size n a : ℕ}

@[simp] theorem release_length : (release b n).length = b.length := rfl

@[simp] theorem release_head : (release b n).head = b.head := rfl

theorem release_fillCount_le : (release b n).fillCount ≤ b.fillCount := Nat.sub_le _ _

theorem spaceFor_eq_some (h : spaceFor b size = some a) :
    a = b.head ∧ b.fillCount + size ≤ b.length := by
  unfold spaceFor bufferWriteAddress at h
  split at h
  next => cases h
  next available a' heq =>
    simp only [Prod.mk.injEq] at heq
    obtain ⟨rfl, hoffset⟩ := heq
    split at hoffset
    · cases hoffset
    · cases hoffset
      split at h
      · cases h
      · cases h
        exact ⟨rfl, by omega⟩

/-- What the client knows at the write position `sent` attribute commands past `head`:
at least `free` bytes are free, and every command so far was well framed. -/
structure Sending (length head sent free : ℕ) (s : DrawState) : Prop where
  length_eq : s.buffer.length = length
  head_eq : s.buffer.head = (head + attribCommandSize * sent) % length
  room : s.buffer.fillCount + free ≤ length
  published : ∀ p ∈ s.published, p.WellFramed

theorem Sending.mono (h : Sending length head sent free s) (hle : n ≤ free) :
    Sending length head sent n s :=
  { h with room := by have := h.room; omega }

theorem Sending.serve (h : Sending length head sent free s) :
    Sending length head sent free s.serve := by
  unfold DrawState.serve
  split
  next => exact h
  next n rest _ =>
    have hroom := h.room
    have hle := release_fillCount_le (b := s.buffer) (n := n)
    exact ⟨h.length_eq, h.head_eq, by simp only; omega, h.published⟩

/-- Waiting for space gives back bytes, and ends with enough of them free. -/
theorem waitForSpace_spec {releases rest : List ℕ} {space : Space}
    (h : waitForSpace size b releases = (b', rest, space)) :
    b'.length = b.length ∧ b'.head = b.head ∧ b'.fillCount ≤ b.fillCount ∧ space ≠ .null ∧
      ∀ a, space = .at a → a = b.head ∧ b'.fillCount + size ≤ b.length := by
  induction releases generalizing b with
  | nil =>
    rw [waitForSpace] at h
    split at h
    next a' hspace =>
      cases h
      refine ⟨rfl, rfl, le_rfl, nofun, fun a ha => ?_⟩
      cases ha
      exact spaceFor_eq_some hspace
    next =>
      cases h
      exact ⟨rfl, rfl, le_rfl, nofun, nofun⟩
  | cons n releases ih =>
    have hle := release_fillCount_le (b := b) (n := n)
    rw [waitForSpace] at h
    split at h
    next a' hspace =>
      cases h
      refine ⟨rfl, rfl, hle, nofun, fun a ha => ?_⟩
      cases ha
      exact spaceFor_eq_some hspace
    next =>
      obtain ⟨hlength, hhead, hfill, hnull, hat⟩ := ih h
      exact ⟨hlength, hhead, hfill.trans hle, hnull, hat⟩

theorem getSpaceForSize_spec {space : Space} (hs : Sending length head sent free s)
    (h : getSpaceForSize s size = (t, space)) :
    Sending length head sent free t ∧
      (space = .null ↔ length < size) ∧
      ∀ a, space = .at a → a = (head + attribCommandSize * sent) % length ∧
        Sending length head sent (max free size) t := by
  unfold getSpaceForSize at h
  split at h
  next hlong =>
    cases h
    rw [hs.length_eq] at hlong
    exact ⟨hs, by simp [hlong], nofun⟩
  next hshort =>
    rw [hs.length_eq] at hshort
    split at h
    next b' releases space' hwait =>
      cases h
      obtain ⟨hlength, hhead, hfill, hnull, hat⟩ := waitForSpace_spec hwait
      have hroom := hs.room
      refine ⟨⟨hlength.trans hs.length_eq, hhead.trans hs.head_eq, ?_, hs.published⟩, ?_, ?_⟩
      · simp only
        omega
      · simp [hnull, hshort]
      · rintro a rfl
        obtain ⟨rfl, hsize⟩ := hat a rfl
        rw [hs.length_eq] at hsize
        refine ⟨hs.head_eq, hlength.trans hs.length_eq, hhead.trans hs.head_eq, ?_, hs.published⟩
        simp only
        omega

@[simp] theorem serve_published : s.serve.published = s.published := by
  unfold DrawState.serve
  split <;> rfl

@[simp] theorem published_runCommandAsync {command : DrawCommand} :
    (runCommandAsync s a size command).published =
      s.published ++ [⟨a, size, command, s.serve.buffer⟩] := by
  simp [runCommandAsync]

/-- A command at the write position that fits is well framed, whatever the server gives
back before it is published. -/
theorem Sending.wellFramed (hs : Sending length head sent free s) {command : DrawCommand}
    (ha : a % length = (head + attribCommandSize * sent) % length) (hsize : size ≤ free) :
    ∀ p ∈ (runCommandAsync s a size command).published, p.WellFramed := by
  have hserve := hs.serve
  have hroom := hserve.room
  intro p hp
  rw [published_runCommandAsync, List.mem_append, List.mem_singleton] at hp
  rcases hp with hold | rfl
  · exact hs.published p hold
  · refine ⟨?_, ?_⟩
    · simp only [hserve.length_eq, hserve.head_eq]
      exact ha
    · simp only [hserve.length_eq]
      omega

theorem Sending.runCommandAsync (command : DrawCommand) (hs : Sending length head sent free s)
    (ha : a % length = (head + attribCommandSize * sent) % length)
    (hfree : attribCommandSize ≤ free) :
    Sending length head (sent + 1) (free - attribCommandSize)
      (runCommandAsync s a attribCommandSize command) := by
  have hserve := hs.serve
  have hroom := hserve.room
  refine ⟨hserve.length_eq, ?_, ?_, hs.wellFramed ha hfree⟩
  · change (s.serve.buffer.head + attribCommandSize) % s.serve.buffer.length = _
    rw [hserve.head_eq, hserve.length_eq, Nat.mod_add_mod, Nat.mul_succ, Nat.add_assoc]
  · change s.serve.buffer.fillCount + attribCommandSize + _ ≤ length
    omega

/-- The attributes of one chunk go out one behind the other. -/
theorem Sending.sendAttribs (chunkLocation : ℕ) (first : VertexAttrib)
    (attribs : List VertexAttrib) (hs : Sending length head sent free s)
    (hfree : attribCommandSize * attribs.length ≤ free) :
    Sending length head (sent + attribs.length) (free - attribCommandSize * attribs.length)
      (sendAttribs head chunkLocation first attribs sent s) := by
  induction attribs generalizing sent free s with
  | nil => exact hs
  | cons last rest ih =>
    rw [List.length_cons, Nat.mul_succ] at hfree
    -- The first command goes out, and leaves the room for the others.
    have hsent := hs.runCommandAsync (a := head + attribCommandSize * sent)
      (.vertexAttribPointer last.index last.size last.type last.arrayNormalized
        last.stride (sizeT (chunkLocation + (last.pointer - first.pointer)))) rfl (by omega)
    have hrest := ih hsent (by omega)
    rw [List.length_cons, Nat.mul_succ, Nat.add_comm rest.length, ← Nat.add_assoc,
      Nat.add_comm (attribCommandSize * rest.length), ← Nat.sub_sub]
    exact hrest

/-! ### A draw call that can be sent is well framed -/

variable {d : DrawSizes} {runs : List (VertexAttrib × List VertexAttrib)} {arraySize : ℕ}

/-- Either the client waits on, or the setup ends with room for the draw command behind the
last attribute command. -/
def SetupSent (d : DrawSizes) (length base : ℕ) : DrawState × SetupResult → Prop
  | (s, .blocked) => ∀ p ∈ s.published, p.WellFramed
  | (s, .done command arraySize) =>
    command = some (base + attribCommandSize * d.enabledCount) ∧
      Sending length base d.enabledCount (d.drawSize arraySize) s

theorem setupSent_sendChunks (hd : d.Bounded) (hmapped : 2 * length ≤ 2 ^ 64)
    (hs : Sending length head sent free s) (hcount : sent + attribCount runs = d.enabledCount)
    (hfree : attribCommandSize * attribCount runs + d.drawCommandSize ≤ free)
    (hlast : runs = [] → d.drawSize arraySize ≤ free)
    (hfit : ChunksFit d length runs arraySize sent) :
    SetupSent d length head (sendChunks d head runs arraySize sent s) := by
  induction runs generalizing arraySize sent free s with
  | nil =>
    obtain rfl : sent = d.enabledCount := hcount
    exact ⟨rfl, hs.mono (hlast rfl)⟩
  | cons run runs ih =>
    obtain ⟨hsize, hrequest, hrest⟩ := hfit
    have hpos := le_drawCommandSize d
    have hroom := hs.room
    rw [attribCount_cons, Nat.mul_add] at hfree
    rw [attribCount_cons, ← Nat.add_assoc] at hcount
    simp only [sendChunks, if_neg hsize]
    split
    next t hspace =>
      -- `ChunksFit` rules out that the request is longer than the ring.
      have hlong := (getSpaceForSize_spec hs hspace).2.1.mp rfl
      omega
    next t hspace => exact (getSpaceForSize_spec hs hspace).1.published
    next t a hspace =>
      have ht := ((getSpaceForSize_spec hs hspace).2.2 a rfl).2
      have hsent := ht.sendAttribs (sizeT (head + d.commandsSize +
          (sizeT (arraySize + chunkSizeOf d.count run) : ℕ) - chunkSizeOf d.count run))
        run.1 (run.1 :: run.2) (by rw [List.length_cons]; omega)
      rw [List.length_cons] at hsent
      refine ih hsent hcount (by omega) ?_ hrest
      -- The last chunk's request covers its attribute commands and the draw command.
      rintro rfl
      rw [attribCount_nil, Nat.add_zero] at hcount
      have heq := hd.request_eq (by omega) hmapped (by omega) hrest
      rw [heq]
      omega

theorem chunkSizeOf_lt (count : ℕ) (run : VertexAttrib × List VertexAttrib) :
    chunkSizeOf count run < 2 ^ 64 := by
  unfold chunkSizeOf vertexChunkSize
  simp only
  split
  · decide
  · exact sizeT_lt _

/-- The size of the first chunk is not reduced when it is added to nothing. -/
theorem sizeT_zero_add_chunkSizeOf (count : ℕ) (run : VertexAttrib × List VertexAttrib) :
    sizeT ((0 : ℕ) + chunkSizeOf count run) = chunkSizeOf count run := by
  rw [Nat.cast_zero, zero_add]
  exact sizeT_of_lt (chunkSizeOf_lt count run)

theorem DrawSizes.Bounded.drawSize_zero (h : d.Bounded) :
    d.drawSize 0 = d.drawCommandSize + d.indexArraySize := by
  have hle := le_drawCommandSize d
  have hindex := h.indexArraySize_lt
  unfold DrawSizes.drawSize sizeT
  omega

theorem Ring.head_mod (hb : Ring b) : (b.head + attribCommandSize * 0) % b.length = b.head := by
  rw [Nat.mul_zero, Nat.add_zero, hb.head_eq, Nat.mod_mod]

theorem Ring.sending (hb : Ring b) (releases : List ℕ) :
    Sending b.length b.head 0 (b.length - b.fillCount) ⟨b, releases, []⟩ := by
  have hle := hb.fill_le
  exact ⟨rfl, hb.head_mod.symm, by simp only; omega, by simp⟩

variable {attribs : List VertexAttrib} {command : Option (ℕ × ℕ) → DrawCommand}

/-- Without space from the setup, the bare command is sent. -/
theorem Sending.finishDraw_none (hs : Sending length head sent free s) :
    ∀ p ∈ (finishDraw d command (s, .done none arraySize)).published, p.WellFramed := by
  rw [finishDraw]
  split
  next t a hspace =>
    obtain ⟨rfl, ht⟩ := (getSpaceForSize_spec hs hspace).2.2 a rfl
    exact ht.wellFramed (Nat.mod_mod _ _) (le_max_right _ _)
  next t space _ hspace => exact (getSpaceForSize_spec hs hspace).1.published

theorem SetupSent.finishDraw {result : DrawState × SetupResult}
    (h : SetupSent d length head result) :
    ∀ p ∈ (finishDraw d command result).published, p.WellFramed := by
  rcases result with ⟨s, _ | ⟨_, arraySize⟩⟩
  · exact h
  · obtain ⟨rfl, hs⟩ := h
    exact hs.wellFramed rfl le_rfl

theorem setup_of_at {base : ℕ} (h : getSpaceForSize s d.initialRequest = (t, .at base)) :
    setupVertexAttribPointerIfNecessary d s attribs =
      sendChunks d base (chunkRuns attribs) 0 0 t := by
  rw [setupVertexAttribPointerIfNecessary, h]

/-- Giving up at the first chunk, with nothing published, leaves `*command` at `head`. -/
theorem sendChunks_giveUp (run : VertexAttrib × List VertexAttrib)
    (h : chunkSizeOf d.count run = 0 ∨ s.buffer.length < d.request (chunkSizeOf d.count run) 0) :
    sendChunks d head (run :: runs) 0 0 s = (s, .done (some head) (chunkSizeOf d.count run)) := by
  by_cases hzero : chunkSizeOf d.count run = 0
  · simp only [sendChunks, hzero, if_true]
  · simp only [sendChunks, hzero, if_false, sizeT_zero_add_chunkSizeOf, getSpaceForSize,
      if_pos (h.resolve_left hzero)]

/-- The condition is enough: whatever the server gives back and when, every command of the
draw call is well framed. -/
theorem wellFramed_of_sendable (hd : d.Bounded) (hb : Ring b)
    (hcount : attribs.length = d.enabledCount)
    (hsend : Sendable d b.length (b.length - b.fillCount) attribs) (releases : List ℕ) :
    ∀ p ∈ (runDraw d ⟨b, releases, []⟩ attribs command).published, p.WellFramed := by
  have hs := hb.sending releases
  have hinitial := hd.initialRequest_eq
  rw [runDraw]
  rcases hspace : getSpaceForSize ⟨b, releases, []⟩ d.initialRequest with ⟨t, space⟩
  obtain ⟨ht, hnull, hat⟩ := getSpaceForSize_spec hs hspace
  cases space with
  | null =>
    rw [setupVertexAttribPointerIfNecessary, hspace]
    exact ht.finishDraw_none
  | blocked =>
    rw [setupVertexAttribPointerIfNecessary, hspace]
    exact ht.published
  | «at» a =>
    obtain ⟨rfl, ht⟩ := hat a rfl
    rw [hb.head_mod] at hspace
    rw [setup_of_at hspace]
    have hfits : d.initialRequest ≤ b.length := Nat.not_lt.mp fun hlong => by
      cases hnull.mpr hlong
    rcases hsend with hlong | hchunks | ⟨run, runs, hruns, hgiveUp⟩
    · omega
    -- Everything is sent.
    · have hsent := setupSent_sendChunks hd hb.mapped ht
        (by rw [attribCount_chunkRuns, hcount, Nat.zero_add])
        (by rw [attribCount_chunkRuns, hcount]; omega)
        (fun _ => by rw [hd.drawSize_zero]; omega) hchunks
      exact hsent.finishDraw
    · -- Only the draw command is published, and it lies at `head`.
      rw [hruns, sendChunks_giveUp run (hgiveUp.imp_right fun h => ht.length_eq ▸ h.1)]
      refine ht.wellFramed rfl ?_
      rcases hgiveUp with hzero | ⟨-, hsize⟩
      · rw [hzero, hd.drawSize_zero]
        omega
      · exact hsize

/-! ### A draw call that cannot be sent is not well framed -/

/-- For the next `n` accesses the server has read everything there is. -/
def Generous (n : ℕ) (s : DrawState) : Prop :=
  ∃ rest, s.releases = List.replicate n s.buffer.length ++ rest

theorem Generous.serve (h : Generous (n + 1) s) : Generous n s.serve := by
  obtain ⟨rest, hreleases⟩ := h
  rw [List.replicate_succ, List.cons_append] at hreleases
  refine ⟨rest, ?_⟩
  rw [DrawState.serve, hreleases]
  rfl

theorem Generous.runCommandAsync (h : Generous (n + 1) s) {command : DrawCommand} :
    Generous n (runCommandAsync s a size command) := by
  obtain ⟨rest, hreleases⟩ := h.serve
  exact ⟨rest, hreleases⟩

theorem Generous.sendAttribs {chunkLocation : ℕ} {first : VertexAttrib}
    (attribs : List VertexAttrib) (h : Generous (n + attribs.length) s) :
    Generous n (sendAttribs head chunkLocation first attribs sent s) := by
  induction attribs generalizing sent s with
  | nil => exact h
  | cons last rest ih => exact ih h.runCommandAsync

/-- A server that has read everything leaves room for any size up to the ring's length. -/
theorem Generous.getSpaceForSize (h : Generous (n + 1) s) (hs : Sending length head sent free s)
    (hpos : 0 < length) (hsize : size ≤ length) :
    ∃ t, getSpaceForSize s size = (t, .at ((head + attribCommandSize * sent) % length)) ∧
      Generous n t := by
  obtain ⟨rest, hreleases⟩ := h
  rw [List.replicate_succ, List.cons_append] at hreleases
  have hroom := hs.room
  have hlength := hs.length_eq
  have hempty : (release s.buffer s.buffer.length).fillCount = 0 := by
    change s.buffer.fillCount - min s.buffer.length s.buffer.fillCount = 0
    omega
  have hspace : spaceFor (release s.buffer s.buffer.length) size = some s.buffer.head := by
    have hne : s.buffer.length ≠ 0 := by omega
    have hle : ¬s.buffer.length < size := by omega
    simp only [spaceFor, bufferWriteAddress, hempty, release_length, release_head, Nat.sub_zero,
      hne, hle, if_false]
  refine ⟨{ s with
    buffer := release s.buffer s.buffer.length
    releases := List.replicate n s.buffer.length ++ rest }, ?_, rest, rfl⟩
  rw [VertexAttribs.getSpaceForSize, if_neg (by omega), hreleases]
  simp only [waitForSpace, hspace, hs.head_eq]

/-- With such a server the setup ends: all chunks sent, or given up at some chunk with the
earlier ones published. -/
theorem exists_sendChunks_generous (arraySize : ℕ) (hs : Sending length head sent free s)
    (hpos : 0 < length)
    (hcount : sent + attribCount runs = d.enabledCount)
    (hfree : attribCommandSize * attribCount runs ≤ free)
    (hgenerous : Generous (runs.length + attribCount runs) s) :
    ∃ t a arraySize' sent', sendChunks d head runs arraySize sent s =
        (t, .done (some a) arraySize') ∧ Sending length head sent' 0 t ∧
      (a = head + attribCommandSize * d.enabledCount ∧
          (d.drawSize arraySize' ≤ length → ChunksFit d length runs arraySize sent) ∨
        a = head ∧ sent' < d.enabledCount ∧ (sent' = sent → ∃ run rest, runs = run :: rest ∧
          (chunkSizeOf d.count run = 0 ∨
            length < d.request (sizeT (arraySize + chunkSizeOf d.count run)) sent)) ∧
          sent ≤ sent') := by
  induction runs generalizing arraySize sent free s with
  | nil => exact ⟨s, _, arraySize, sent, rfl, hs.mono (Nat.zero_le _), .inl ⟨rfl, id⟩⟩
  | cons run runs ih =>
    rw [attribCount_cons] at hcount hfree hgenerous
    -- Given up for want of a size.
    by_cases hzero : chunkSizeOf d.count run = 0
    · refine ⟨s, head, arraySize, sent, by simp only [sendChunks, hzero, if_true],
        hs.mono (Nat.zero_le _),
        .inr ⟨rfl, by omega, fun _ => ⟨run, runs, rfl, .inl hzero⟩, le_rfl⟩⟩
    · by_cases hlong : length < d.request (sizeT (arraySize + chunkSizeOf d.count run)) sent
      -- Given up with `BIG_DATA`.
      · refine ⟨s, head, sizeT (arraySize + chunkSizeOf d.count run), sent, ?_,
          hs.mono (Nat.zero_le _),
          .inr ⟨rfl, by omega, fun _ => ⟨run, runs, rfl, .inr hlong⟩, le_rfl⟩⟩
        simp only [sendChunks, hzero, if_false, getSpaceForSize, hs.length_eq, hlong, if_true]
      · have hgen : Generous (runs.length + attribCount runs + (run.2.length + 1) + 1) s := by
          rw [List.length_cons] at hgenerous
          convert hgenerous using 1
          omega
        obtain ⟨t, hspace, ht⟩ := hgen.getSpaceForSize hs hpos (Nat.not_lt.mp hlong)
        have hsending := (getSpaceForSize_spec hs hspace).1
        rw [Nat.mul_add] at hfree
        have hsent := hsending.sendAttribs (sizeT (head + d.commandsSize +
            (sizeT (arraySize + chunkSizeOf d.count run) : ℕ) - chunkSizeOf d.count run))
          run.1 (run.1 :: run.2) (by rw [List.length_cons]; omega)
        rw [List.length_cons] at hsent
        obtain ⟨u, a, arraySize', sent', heq, hu, hcases⟩ :=
          ih (sizeT (arraySize + chunkSizeOf d.count run)) hsent (by omega) (by omega)
            (ht.sendAttribs (run.1 :: run.2))
        refine ⟨u, a, arraySize', sent', ?_, hu, ?_⟩
        · simp only [sendChunks, hzero, if_false, hspace]
          exact heq
        · rcases hcases with ⟨ha, hrest⟩ | ⟨ha, hlt, -, hle⟩
          · exact .inl ⟨ha, fun hsize => ⟨hzero, Nat.not_lt.mp hlong, hrest hsize⟩⟩
          · exact .inr ⟨ha, hlt, fun h => by omega, by omega⟩

/-- An address some attribute commands past `head` is not `head`. -/
theorem ne_head_of_lt (hpos : 0 < sent) (hlt : attribCommandSize * sent < length) :
    head % length ≠ (head + attribCommandSize * sent) % length := by
  intro heq
  have hzero : 0 ≡ attribCommandSize * sent [MOD length] :=
    Nat.ModEq.add_left_cancel' head heq
  rw [Nat.ModEq, Nat.zero_mod, Nat.mod_eq_of_lt hlt] at hzero
  have hne : 0 < attribCommandSize * sent := Nat.mul_pos (by decide) hpos
  omega

/-- The draw command that `finishDraw` publishes. -/
theorem mem_finishDraw (arraySize : ℕ) :
    ⟨a, d.drawSize arraySize, command (some (a, arraySize)), s.serve.buffer⟩ ∈
      (finishDraw d command (s, .done (some a) arraySize)).published := by
  rw [finishDraw, published_runCommandAsync]
  simp

/-- A server that gives back just enough for the initial request. -/
theorem getSpaceForSize_exact (hb : Ring b) (hpos : 0 < size) (hsize : size ≤ b.length) :
    ∃ b', getSpaceForSize ⟨b, [size - (b.length - b.fillCount)], []⟩ size =
        (⟨b', [], []⟩, .at b.head) ∧ b'.length = b.length ∧
      b'.length - b'.fillCount = max (b.length - b.fillCount) size := by
  have hle := hb.fill_le
  have hfill : (release b (size - (b.length - b.fillCount))).fillCount =
      b.fillCount - min (size - (b.length - b.fillCount)) b.fillCount := rfl
  have hspace : spaceFor (release b (size - (b.length - b.fillCount))) size = some b.head := by
    have hne : b.length - (release b (size - (b.length - b.fillCount))).fillCount ≠ 0 := by omega
    have hge : ¬b.length - (release b (size - (b.length - b.fillCount))).fillCount < size := by
      omega
    simp only [spaceFor, bufferWriteAddress, release_length, release_head, hne, hge, if_false]
  refine ⟨release b (size - (b.length - b.fillCount)), ?_, rfl, ?_⟩
  · rw [getSpaceForSize, if_neg (Nat.not_lt.mpr hsize)]
    simp only [waitForSpace, hspace]
  · rw [release_length, hfill]
    omega

/-- Given up at a first chunk that is too big, the draw command must fit in what is free
when the server gives back just enough for the initial request. -/
theorem drawSize_le_of_wellFramed (hb : Ring b) (hpos : 0 < d.initialRequest)
    (hfits : d.initialRequest ≤ b.length) {run : VertexAttrib × List VertexAttrib}
    (hruns : chunkRuns attribs = run :: runs)
    (hlong : b.length < d.request (chunkSizeOf d.count run) 0)
    (h : ∀ releases, ∀ p ∈ (runDraw d ⟨b, releases, []⟩ attribs command).published,
      p.WellFramed) :
    d.drawSize (chunkSizeOf d.count run) ≤ max (b.length - b.fillCount) d.initialRequest := by
  obtain ⟨b', hspace, hlength, hfree⟩ := getSpaceForSize_exact hb hpos hfits
  have hpublished := h [d.initialRequest - (b.length - b.fillCount)]
  rw [runDraw, setup_of_at hspace, hruns,
    sendChunks_giveUp run (.inr (by simpa only [hlength] using hlong))] at hpublished
  have hframed := (hpublished _ (mem_finishDraw _)).2
  simp only [DrawState.serve] at hframed
  exact hfree ▸ hframed

/-- Against a server that has read everything, a draw call that does not give up at its
first chunk must send all of them. -/
theorem chunksFit_of_wellFramed (hd : d.Bounded) (hb : Ring b)
    (hcount : attribs.length = d.enabledCount) (hfits : d.initialRequest ≤ b.length)
    (hfirst : ∀ run runs, chunkRuns attribs = run :: runs → chunkSizeOf d.count run ≠ 0 ∧
      d.request (chunkSizeOf d.count run) 0 ≤ b.length)
    (h : ∀ releases, ∀ p ∈ (runDraw d ⟨b, releases, []⟩ attribs command).published,
      p.WellFramed) : ChunksFit d b.length (chunkRuns attribs) 0 0 := by
  have hinitial := hd.initialRequest_eq
  have hdraw := le_drawCommandSize d
  have hpos : 0 < b.length := by omega
  let n := (chunkRuns attribs).length + attribCount (chunkRuns attribs)
  have hgenerous : Generous (n + 1) ⟨b, List.replicate (n + 1) b.length, []⟩ :=
    ⟨[], by rw [List.append_nil]⟩
  obtain ⟨t, hspace, ht⟩ := hgenerous.getSpaceForSize (hb.sending _) hpos hfits
  have hsending := ((getSpaceForSize_spec (hb.sending _) hspace).2.2 _ rfl).2
  rw [hb.head_mod] at hspace
  obtain ⟨u, a, arraySize, sent, heq, hu, hcases⟩ :=
    exists_sendChunks_generous (d := d) 0 hsending hpos
      (by rw [attribCount_chunkRuns, hcount, Nat.zero_add])
      (by rw [attribCount_chunkRuns, hcount]; omega) ht
  -- The draw command is the last one published, at `a`.
  have hpublished := h (List.replicate (n + 1) b.length)
  rw [runDraw, setup_of_at hspace, heq] at hpublished
  obtain ⟨hoffset, hsize⟩ := hpublished _ (mem_finishDraw _)
  have hserve := hu.serve
  simp only [hserve.length_eq, hserve.head_eq] at hoffset hsize
  rcases hcases with ⟨-, hrest⟩ | ⟨rfl, hlt, hgiveUp, -⟩
  · exact hrest (by omega)
  · -- Some chunk was sent before: the draw command lies on the first attribute command.
    have hsent : 0 < sent := by
      by_contra hzero
      obtain ⟨run, runs, hruns, hgave⟩ := hgiveUp (by omega)
      obtain ⟨hne, hle⟩ := hfirst run runs hruns
      rw [sizeT_zero_add_chunkSizeOf] at hgave
      exact hgave.elim hne (Nat.not_lt.mpr hle)
    have hshort : attribCommandSize * sent < b.length := by
      have hmul := Nat.mul_le_mul_left attribCommandSize hlt.le
      omega
    exact absurd hoffset (ne_head_of_lt hsent hshort)

/-- The condition is needed: outside it, some schedule of the server makes a command of
the draw call lie elsewhere or not fit. -/
theorem sendable_of_wellFramed (hd : d.Bounded) (hb : Ring b)
    (hcount : attribs.length = d.enabledCount)
    (h : ∀ releases, ∀ p ∈ (runDraw d ⟨b, releases, []⟩ attribs command).published,
      p.WellFramed) : Sendable d b.length (b.length - b.fillCount) attribs := by
  have hinitial := hd.initialRequest_eq
  have hdraw := le_drawCommandSize d
  by_cases hlong : b.length < d.initialRequest
  · exact .inl hlong
  have hfits := Nat.not_lt.mp hlong
  by_cases hgiveUp : ∃ run runs, chunkRuns attribs = run :: runs ∧
      (chunkSizeOf d.count run = 0 ∨ b.length < d.request (chunkSizeOf d.count run) 0)
  · obtain ⟨run, runs, hruns, hchunk⟩ := hgiveUp
    refine .inr (.inr ⟨run, runs, hruns, hchunk.imp_right fun hbig => ⟨hbig, ?_⟩⟩)
    exact drawSize_le_of_wellFramed hb (by omega) hfits hruns hbig h
  · refine .inr (.inl (chunksFit_of_wellFramed hd hb hcount hfits ?_ h))
    intro run runs hruns
    by_contra hnot
    exact hgiveUp ⟨run, runs, hruns, by omega⟩

/-! ### The two draw calls -/

theorem bounded_drawArraysSizes {enabledCount : ℕ} (h : enabledCount < 2 ^ 31) (first count : ℤ) :
    (drawArraysSizes enabledCount first count).Bounded :=
  ⟨h, Nat.two_pow_pos 33⟩

theorem bounded_drawElementsSizes {enabledCount : ℕ} (h : enabledCount < 2 ^ 31) {count : ℤ}
    (hpos : 0 ≤ count) (hcount : count < 2 ^ 31) (type : ℕ) (indices : List ℕ) :
    (drawElementsSizes enabledCount count type indices).Bounded := by
  refine ⟨h, ?_⟩
  simp only [drawElementsSizes, calculateIndexArraySize, sizeT]
  split_ifs <;> omega

/-- For a ring in any state, any list of client-memory attributes as long as `enabled_count`,
and any vertex counts and indices: the commands of the draw call lie at the write position
and fit whatever the server does meanwhile, exactly when the call is `Sendable`. -/
theorem draw_wellFramed_iff (b : Buffer UInt8) (hb : Ring b) (attribs : List VertexAttrib)
    (hattribs : attribs.length < 2 ^ 31) :
    (∀ (mode : ℕ) (first count : ℤ),
      (∀ releases, ∀ p ∈ (drawArrays ⟨b, releases, []⟩ attribs attribs.length mode first
          count).published, p.WellFramed) ↔
        Sendable (drawArraysSizes attribs.length first count) b.length (b.length - b.fillCount)
          attribs) ∧
    ∀ (mode : ℕ) (count : ℤ) (type : ℕ) (indices : List ℕ), 0 ≤ count → count < 2 ^ 31 →
      ((∀ releases, ∀ p ∈ (drawElements ⟨b, releases, []⟩ attribs attribs.length mode count type
          indices).published, p.WellFramed) ↔
        calculateIndexArraySize type count = 0 ∨
          Sendable (drawElementsSizes attribs.length count type indices) b.length
            (b.length - b.fillCount) attribs) := by
  refine ⟨fun mode first count => ?_, fun mode count type indices hpos hcount => ?_⟩
  · have hd := bounded_drawArraysSizes hattribs first count
    exact ⟨sendable_of_wellFramed hd hb rfl, wellFramed_of_sendable hd hb rfl⟩
  · have hd := bounded_drawElementsSizes hattribs hpos hcount type indices
    by_cases hzero : calculateIndexArraySize type count = 0
    · simp [drawElements, drawElementsSizes, hzero]
    · simp only [drawElements, drawElementsSizes, hzero, if_false, false_or]
      exact ⟨sendable_of_wellFramed hd hb rfl, wellFramed_of_sendable hd hb rfl⟩

/-- Two attributes far from each other; three vertices of the second take 1200 bytes. -/
def farAttribs : List VertexAttrib :=
  [⟨0, 0, true, 1, 4, glFloat, 0x1000, false, none, 1⟩,
    ⟨1, 0, true, 1, 400, glFloat, 0x9000, false, none, 2⟩]

theorem draw_wellFramed_iff_farAttribs :
    (∀ releases, ∀ p ∈ (drawArrays ⟨bufferCreate 1024 fun _ => 0, releases, []⟩ farAttribs 2 4 0
        3).published, p.WellFramed) ↔ Sendable (drawArraysSizes 2 0 3) 1024 1024 farAttribs :=
  (draw_wellFramed_iff (bufferCreate 1024 fun _ => 0) ⟨by decide, by decide, by decide⟩
    farAttribs (by decide)).1 4 0 3

/-- In an empty ring of 1024 bytes the first attribute is sent and the second does not fit:
the draw command is published on top of the first attribute command, with a size of 1252. -/
theorem exists_misplaced_draw : ∃ p ∈ (drawArrays ⟨bufferCreate 1024 fun _ => 0, [], []⟩ farAttribs
    2 4 0 3).published, ¬p.WellFramed := by
  decide +kernel

end GpuProxy.VertexAttribs
