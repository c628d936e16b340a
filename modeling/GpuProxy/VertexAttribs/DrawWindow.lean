import GpuProxy.VertexAttribs.DrawContents

/-!
# Where a draw call writes

The ring is mapped twice, so that a draw call may write up to a turn behind the position at which
it starts. The checks for space leave out the commands that are published already, and with them
a call may need more than a turn: if it starts near the end of the ring, its last bytes lie behind
the second mapping. It never writes to bytes that the server has still to read before that.

## Main results

* `inWindow_iff` — the start and the extent must be no more than the two mappings
* `exists_write_behind_mapping` — two attributes, in a ring that is empty
-/

namespace GpuProxy.VertexAttribs

open Math RingBuffer

variable {layout : Layout} {app : ℕ → UInt8} {d : DrawSizes} {s t : DrawMemory}
  {b : Buffer UInt8} {length head base sent size arraySize k n : ℕ} {xs : List UInt8}
  {command : DrawCommand} {run : VertexAttrib × List VertexAttrib}
  {runs : List (VertexAttrib × List VertexAttrib)} {attribs : List VertexAttrib}
  {draw : Option (ℕ × ℕ) → DrawCommand} {indices : Option (List UInt8)}

/-- If all fits in the two mappings, everything is written in the window. -/
theorem inWindow_of_extent (hd : d.Bounded) (hb : Ring b) (hmapped : 2 * b.length < 2 ^ 64)
    (hcall : DrawCall d draw indices) (hcount : attribs.length = d.enabledCount)
    (hfits : d.initialRequest ≤ b.length) (hpass : ChunksPass d b.length (chunkRuns attribs) 0 0)
    (hextent : b.head + drawExtent d attribs ≤ 2 * b.length) (releases : List ℕ) :
    ∀ w ∈ (runDrawMemory layout app d (.start b releases) attribs draw indices).1.writes,
      w.InWindow b.head b.length := by
  obtain ⟨u, result, heq, hwrites, hresult⟩ :=
    setupMemory_of_extent layout app hd hb hmapped hcount hfits hpass hextent releases
  rw [runDrawMemory, heq]
  obtain rfl | ⟨rfl, hu, -⟩ := hresult
  · exact hwrites
  · exact (hu.writeDraw layout hcall (by unfold drawExtent at hextent; omega)).inWindow

/-! ### What has to fit -/

/-- `*array_size` behind some chunks. -/
def arraySizeAfter (d : DrawSizes) (runs : List (VertexAttrib × List VertexAttrib))
    (arraySize : ℕ) : ℕ :=
  runs.foldl (fun arraySize run => sizeT (arraySize + chunkSizeOf d.count run)) arraySize

/-- `chunk_location` of every chunk. -/
def chunkLocations (d : DrawSizes) (base : ℕ) :
    List (VertexAttrib × List VertexAttrib) → (arraySize : ℕ) → List ℕ
  | [], _ => []
  | run :: runs, arraySize =>
    let chunkSize := chunkSizeOf d.count run
    sizeT (base + d.commandsSize + (sizeT (arraySize + chunkSize) : ℕ) - chunkSize) ::
      chunkLocations d base runs (sizeT (arraySize + chunkSize))

/-- If every chunk ends in the two mappings, their sizes add up without a wrap around. -/
theorem arraySizeAfter_eq (hd : d.Bounded) (hmapped : 2 * length < 2 ^ 64)
    (hplace : head + (attribCommandSize * d.enabledCount + d.drawCommandSize) + arraySize ≤
      2 * length)
    (hends : ∀ p ∈ runs.zip (chunkLocations d head runs arraySize),
      p.2 + chunkSizeOf d.count p.1 ≤ 2 * length) :
    arraySizeAfter d runs arraySize = arraySize + arrayExtent d runs ∧
      head + (attribCommandSize * d.enabledCount + d.drawCommandSize) + arraySize +
        arrayExtent d runs ≤ 2 * length := by
  induction runs generalizing arraySize with
  | nil => exact ⟨rfl, hplace⟩
  | cons run runs ih =>
    have hend := hends _ List.mem_cons_self
    simp only at hend
    have hlocation := hd.chunkLocation_eq (chunkSizeOf d.count run)
      (by omega : head + (attribCommandSize * d.enabledCount + d.drawCommandSize) + arraySize <
        2 ^ 64)
    rw [hlocation] at hend
    have hsum : sizeT (arraySize + chunkSizeOf d.count run) =
      arraySize + chunkSizeOf d.count run := sizeT_of_lt (by omega)
    simp only [chunkLocations, hsum] at hends
    obtain ⟨hsize, hfits⟩ := ih (by omega) fun p hp => hends p (List.mem_cons_of_mem _ hp)
    rw [arrayExtent_cons, ← Nat.add_assoc, arraySizeAfter, List.foldl_cons, hsum]
    exact ⟨hsize, by omega⟩

theorem subset_writes_sendAttribsMemory {base chunkLocation : ℕ} {first : VertexAttrib}
    (attribs : List VertexAttrib) :
    s.writes ⊆ (sendAttribsMemory layout base chunkLocation first attribs sent s).writes := by
  induction attribs generalizing sent s with
  | nil => exact List.Subset.refl _
  | cons last rest ih =>
    apply List.Subset.trans _ ih
    exact List.Subset.trans (List.subset_append_left _ _) (List.subset_append_left _ _)

/-- The copy of a chunk is one of the writes. -/
theorem subset_writes_sendChunkMemory :
    s.writes ++ [⟨sizeT (head + d.commandsSize + arraySize - chunkSizeOf d.count run),
      chunkSizeOf d.count run, s.state.buffer⟩] ⊆
        (sendChunkMemory layout app d head run arraySize sent s).writes := by
  have hlength := length_copyBytes app run.1.pointer (chunkSizeOf d.count run)
  rw [sendChunkMemory]
  apply List.Subset.trans _ (subset_writes_sendAttribsMemory _)
  simp [DrawMemory.store, DrawMemory.locate, hlength]

theorem subset_writes_copyIndices (offset : ℕ) (indices : Option (List UInt8)) :
    s.writes ⊆ (s.copyIndices offset indices).writes := by
  cases indices with
  | none => exact List.Subset.refl _
  | some xs => exact List.subset_append_left _ _

theorem forget_sendChunkMemory :
    (sendChunkMemory layout app d head run arraySize sent s).state.forget =
      sendAttribs head (sizeT (head + d.commandsSize + arraySize - chunkSizeOf d.count run)) run.1
        (run.1 :: run.2) sent s.state.forget :=
  forget_sendAttribsMemory run.1 (run.1 :: run.2)

/-! ### A server that reads everything -/

/-- For the next `n` accesses the server reads everything there is, also when one command after
the other is published in between. -/
def Reading (k n : ℕ) (s : DrawState) : Prop :=
  (∃ rest, s.releases = List.replicate n k ++ rest) ∧
    s.buffer.fillCount + attribCommandSize * n ≤ k

theorem Reading.serve {s : DrawState} (h : Reading k (n + 1) s) :
    s.serve.buffer.fillCount = 0 ∧ Reading k n s.serve := by
  obtain ⟨⟨rest, hreleases⟩, hfill⟩ := h
  rw [List.replicate_succ, List.cons_append] at hreleases
  rw [Nat.mul_succ] at hfill
  have hserve : s.serve = { s with
      buffer := release s.buffer k, releases := List.replicate n k ++ rest } := by
    rw [DrawState.serve, hreleases]
  have hempty : s.serve.buffer.fillCount = 0 := by
    rw [hserve]
    change s.buffer.fillCount - min k s.buffer.fillCount = 0
    omega
  refine ⟨hempty, ⟨rest, by rw [hserve]⟩, ?_⟩
  rw [hempty]
  omega

theorem Reading.runCommandAsync {s : DrawState} {a : ℕ} (h : Reading k (n + 1) s) :
    Reading k n (runCommandAsync s a attribCommandSize command) := by
  obtain ⟨hempty, hreading⟩ := h.serve
  refine ⟨hreading.1, ?_⟩
  change s.serve.buffer.fillCount + attribCommandSize + _ ≤ k
  have hfill := h.2
  rw [Nat.mul_succ] at hfill
  omega

theorem Reading.sendAttribs {chunkLocation : ℕ} {first : VertexAttrib} {s : DrawState}
    (attribs : List VertexAttrib) (h : Reading k (n + attribs.length) s) :
    Reading k n (sendAttribs base chunkLocation first attribs sent s) := by
  induction attribs generalizing sent s with
  | nil => exact h
  | cons last rest ih => exact ih h.runCommandAsync

theorem Reading.sendChunkMemory (h : Reading k (n + (run.2.length + 1)) s.state) :
    Reading k n (sendChunkMemory layout app d base run arraySize sent s).state := by
  have hforget : Reading k n
      (VertexAttribs.sendChunkMemory layout app d base run arraySize sent s).state.forget := by
    rw [forget_sendChunkMemory]
    exact Reading.sendAttribs (run.1 :: run.2) h
  exact hforget

/-- Such a server leaves room for any size up to the ring's length. -/
theorem Reading.getSpace (h : Reading k (n + 1) s.state) (hpos : 0 < s.state.buffer.length)
    (hsize : size ≤ s.state.buffer.length) :
    ∃ t, s.getSpace size = (t, .at s.state.buffer.head) ∧ Reading k n t.state ∧
      t.state.buffer.length = s.state.buffer.length ∧ t.state.published = s.state.published ∧
      t.locations = s.locations ∧ t.writes = s.writes := by
  obtain ⟨⟨rest, hreleases⟩, hfill⟩ := h
  rw [List.replicate_succ, List.cons_append] at hreleases
  rw [Nat.mul_succ] at hfill
  have hempty : (release s.state.buffer k).fillCount = 0 := by
    change s.state.buffer.fillCount - min k s.state.buffer.fillCount = 0
    omega
  have hspace : spaceFor (release s.state.buffer k) size = some s.state.buffer.head := by
    have hne : s.state.buffer.length ≠ 0 := hpos.ne'
    have hle : ¬s.state.buffer.length < size := Nat.not_lt.2 hsize
    simp only [spaceFor, bufferWriteAddress, hempty, release_length, release_head, Nat.sub_zero,
      hne, hle, if_false]
  refine ⟨{ s with state := { s.state with
    buffer := release s.state.buffer k
    releases := List.replicate n k ++ rest } }, ?_, ⟨⟨rest, rfl⟩, ?_⟩, rfl, rfl, rfl, rfl⟩
  · rw [DrawMemory.getSpace, getSpaceForSize, if_neg (Nat.not_lt.2 hsize), hreleases]
    simp only [waitForSpace, hspace]
  · simp only [hempty]
    omega

theorem length_sendAttribsMemory {chunkLocation : ℕ} {first : VertexAttrib}
    (attribs : List VertexAttrib) :
    (sendAttribsMemory layout base chunkLocation first attribs sent s).state.buffer.length =
      s.state.buffer.length := by
  induction attribs generalizing sent s with
  | nil => rfl
  | cons last rest ih => exact ih.trans length_publish

theorem length_sendChunkMemory :
    (sendChunkMemory layout app d base run arraySize sent s).state.buffer.length =
      s.state.buffer.length :=
  length_sendAttribsMemory _

theorem length_published_sendChunkMemory :
    (sendChunkMemory layout app d base run arraySize sent s).state.published.length =
      s.state.published.length + (run.2.length + 1) := by
  rw [← List.length_map Publication.command, published_sendChunkMemory.1, List.length_append,
    List.length_map, List.length_map]
  rfl

/-- Against such a server the loop comes to an end: with everything sent, or with fewer commands
than there are attributes. -/
theorem exists_sendChunksMemory (layout : Layout) (app : ℕ → UInt8) (base arraySize sent : ℕ)
    (hpos : 0 < s.state.buffer.length)
    (h : Reading k (runs.length + attribCount runs) s.state) :
    ∃ t a arraySize', sendChunksMemory layout app d base runs arraySize sent s =
        (t, .done (some a) arraySize') ∧
      t.state.buffer.length = s.state.buffer.length ∧ s.writes ⊆ t.writes ∧
      (ChunksPass d s.state.buffer.length runs arraySize sent →
        a = base + attribCommandSize * d.enabledCount ∧
          arraySize' = arraySizeAfter d runs arraySize ∧
          t.locations = s.locations ++ chunkLocations d base runs arraySize ∧
          t.state.published.length = s.state.published.length + attribCount runs ∧
          ∀ p ∈ runs.zip (chunkLocations d base runs arraySize),
            ∃ buffer, ⟨p.2, chunkSizeOf d.count p.1, buffer⟩ ∈ t.writes) ∧
      (¬ChunksPass d s.state.buffer.length runs arraySize sent →
        t.state.published.length < s.state.published.length + attribCount runs) := by
  induction runs generalizing arraySize sent s with
  | nil =>
    refine ⟨s, _, _, rfl, rfl, List.Subset.refl _, fun _ => ?_, fun h => absurd trivial h⟩
    exact ⟨rfl, rfl, (List.append_nil _).symm, rfl, by simp⟩
  | cons run runs ih =>
    rw [List.length_cons, attribCount_cons] at h
    rw [attribCount_cons]
    by_cases hzero : chunkSizeOf d.count run = 0
    · refine ⟨s, base, arraySize, ?_, rfl, List.Subset.refl _, fun h => absurd hzero h.1,
        fun _ => by omega⟩
      simp only [sendChunksMemory, if_pos hzero]
    by_cases hlong : s.state.buffer.length <
        d.request (sizeT (arraySize + chunkSizeOf d.count run)) sent
    · refine ⟨s, base, _, sendChunksMemory_of_null hzero ?_, rfl, List.Subset.refl _,
        fun h => absurd h.2.1 (Nat.not_le.2 hlong), fun _ => by omega⟩
      simp only [DrawMemory.getSpace, getSpaceForSize, if_pos hlong]
    have hreading : Reading k (runs.length + attribCount runs + (run.2.length + 1) + 1)
        s.state := by
      convert h using 1
      omega
    obtain ⟨t, hspace, ht, hlength, hpublished, hlocations, hkept⟩ :=
      hreading.getSpace hpos (Nat.not_lt.1 hlong)
    -- The chunk is copied, and its commands go out.
    let u := sendChunkMemory layout app d base run
      (sizeT (arraySize + chunkSizeOf d.count run)) sent t
    have hu : u.state.buffer.length = s.state.buffer.length := length_sendChunkMemory.trans hlength
    have hsent : u.state.published.length = s.state.published.length + (run.2.length + 1) := by
      rw [← hpublished]
      exact length_published_sendChunkMemory
    have hwrites : s.writes ++ _ ⊆ u.writes := hkept ▸ subset_writes_sendChunkMemory
    have hrest : Reading k (runs.length + attribCount runs) u.state := ht.sendChunkMemory
    obtain ⟨v, a, arraySize', heq, hv, hgrown, hall, hfew⟩ := ih
      (sizeT (arraySize + chunkSizeOf d.count run)) (sent + (run.2.length + 1)) (hu ▸ hpos) hrest
    rw [hu, hsent] at hall hfew
    refine ⟨v, a, arraySize', (sendChunksMemory_of_at hzero hspace).trans heq, hv.trans hu,
      List.Subset.trans (List.subset_append_left _ _) (List.Subset.trans hwrites hgrown),
      fun hpass => ?_, fun hnot => ?_⟩
    · obtain ⟨ha, hsize, hplaced, hcount, hchunks⟩ := hall hpass.2.2
      refine ⟨ha, hsize, ?_, by omega, fun p hp => ?_⟩
      · rw [hplaced, locations_sendChunkMemory, hlocations, List.append_assoc]
        rfl
      · obtain rfl | hp := List.mem_cons.1 hp
        · refine ⟨t.state.buffer, hgrown (hwrites ?_)⟩
          exact List.mem_append_right _ (List.mem_singleton_self _)
        · exact hchunks p hp
    · have hless := hfew fun hpass => hnot ⟨hzero, Nat.not_lt.1 hlong, hpass⟩
      omega

/-- The writes of a call that sends everything: those up to then, and the copy of the indices. -/
theorem subset_writes_finishMemory (layout : Layout) (d : DrawSizes)
    (draw : Option (ℕ × ℕ) → DrawCommand) (indices : Option (List UInt8)) (s : DrawMemory)
    (a arraySize : ℕ) :
    s.writes ⊆ (finishMemory layout d draw indices (s, .done (some a) arraySize)).1.writes ∧
      ∀ xs, indices = some xs → ∃ buffer, ⟨a + drawElementsSize + arraySize, xs.length, buffer⟩ ∈
        (finishMemory layout d draw indices (s, .done (some a) arraySize)).1.writes := by
  constructor
  · have hheader : s.writes ⊆ (s.writeHeader layout a (d.drawSize arraySize)
        (draw (some (a, arraySize)))).writes := List.subset_append_left _ _
    have hindices := List.Subset.trans hheader
      (subset_writes_copyIndices (a + drawElementsSize + arraySize) indices)
    exact List.Subset.trans hindices (List.subset_append_left _ _)
  · rintro xs rfl
    let header := s.writeHeader layout a (d.drawSize arraySize) (draw (some (a, arraySize)))
    refine ⟨header.state.buffer, List.mem_append_left _ ?_⟩
    exact List.mem_append_right _ (List.mem_singleton_self _)

theorem ChunksPass.chunkSizeOf_ne_zero (h : ChunksPass d length runs arraySize sent) :
    ∀ run ∈ runs, chunkSizeOf d.count run ≠ 0 := by
  induction runs generalizing arraySize sent with
  | nil => simp
  | cons run runs ih =>
    intro run' hrun
    obtain rfl | hrun := List.mem_cons.1 hrun
    · exact h.1
    · exact ih h.2.2 run' hrun

theorem Ring.head_lt (hb : Ring b) (hpos : 0 < b.length) : b.head < b.length := by
  rw [hb.head_eq]
  exact Nat.mod_lt _ hpos

theorem Write.InWindow.end_le {w : Write} (h : w.InWindow head length) (hne : w.size ≠ 0) :
    w.offset + w.size ≤ 2 * length := by
  obtain ⟨-, hlt, -⟩ := h (w.size - 1) (by omega)
  omega

/-- Against a server that reads everything the setup sends everything, if no chunk is given up. -/
theorem exists_setupMemory (layout : Layout) (app : ℕ → UInt8) (d : DrawSizes)
    (attribs : List VertexAttrib) (hb : Ring b) (hpos : 0 < b.length)
    (hfits : d.initialRequest ≤ b.length) :
    ∃ releases u a arraySize, setupMemory layout app d (.start b releases) attribs =
        (u, .done (some a) arraySize) ∧
      u.state.buffer.length = b.length ∧
      (ChunksPass d b.length (chunkRuns attribs) 0 0 →
        a = b.head + attribCommandSize * d.enabledCount ∧
          arraySize = arraySizeAfter d (chunkRuns attribs) 0 ∧
          u.locations = chunkLocations d b.head (chunkRuns attribs) 0 ∧
          u.state.published.length = attribs.length ∧
          ∀ p ∈ (chunkRuns attribs).zip (chunkLocations d b.head (chunkRuns attribs) 0),
            ∃ buffer, ⟨p.2, chunkSizeOf d.count p.1, buffer⟩ ∈ u.writes) ∧
      (¬ChunksPass d b.length (chunkRuns attribs) 0 0 →
        u.state.published.length < attribs.length) := by
  let n := (chunkRuns attribs).length + attribCount (chunkRuns attribs)
  let k := b.length + attribCommandSize * (n + 1)
  let releases := List.replicate (n + 1) k
  have hreading : Reading k (n + 1) (DrawMemory.start b releases).state :=
    ⟨⟨[], (List.append_nil _).symm⟩, Nat.add_le_add_right hb.fill_le _⟩
  obtain ⟨t, hspace, ht, hlength, hpublished, hlocations, -⟩ := hreading.getSpace hpos hfits
  replace hlength : t.state.buffer.length = b.length := hlength
  have hnothing : t.state.published.length = 0 := congrArg List.length hpublished
  obtain ⟨u, a, arraySize, heq, hu, -, hall, hfew⟩ :=
    exists_sendChunksMemory layout app b.head 0 0 (hlength ▸ hpos) ht
  rw [hlength, hnothing, attribCount_chunkRuns, Nat.zero_add] at hall hfew
  rw [hlocations] at hall
  exact ⟨releases, u, a, arraySize, (setupMemory_of_at hspace).trans heq, hu.trans hlength, hall,
    hfew⟩

/-- If everything is in the window for every schedule, it all fits in the two mappings. -/
theorem extent_of_inWindow (layout : Layout) (app : ℕ → UInt8) (hd : d.Bounded) (hb : Ring b)
    (hmapped : 2 * b.length < 2 ^ 64) (hcall : DrawCall d draw indices)
    (hfits : d.initialRequest ≤ b.length) (hpass : ChunksPass d b.length (chunkRuns attribs) 0 0)
    (h : ∀ releases, ∀ w ∈ (runDrawMemory layout app d (.start b releases) attribs draw
      indices).1.writes, w.InWindow b.head b.length) :
    b.head + drawExtent d attribs ≤ 2 * b.length := by
  have hinitial := hd.initialRequest_eq
  have hdraw := le_drawCommandSize d
  have hpos : 0 < b.length := by omega
  have hhead := hb.head_lt hpos
  obtain ⟨releases, u, a, arraySize, hsetup, -, hall, -⟩ :=
    exists_setupMemory layout app d attribs hb hpos hfits
  obtain ⟨rfl, rfl, -, -, hchunks⟩ := hall hpass
  have hrun := h releases
  rw [runDrawMemory, hsetup] at hrun
  obtain ⟨hwrites, hindices⟩ := subset_writes_finishMemory layout d draw indices u
    (b.head + attribCommandSize * d.enabledCount) (arraySizeAfter d (chunkRuns attribs) 0)
  have hends : ∀ p ∈ (chunkRuns attribs).zip (chunkLocations d b.head (chunkRuns attribs) 0),
      p.2 + chunkSizeOf d.count p.1 ≤ 2 * b.length := by
    intro p hp
    obtain ⟨buffer, hmem⟩ := hchunks p hp
    exact (hrun _ (hwrites hmem)).end_le (hpass.chunkSizeOf_ne_zero p.1 (List.of_mem_zip hp).1)
  obtain ⟨hsize, hplace⟩ := arraySizeAfter_eq hd hmapped (by omega) hends
  have hcopied := hcall.indices_size
  unfold drawExtent
  cases indices with
  | none =>
    rw [hcopied]
    omega
  | some xs =>
    obtain ⟨hne, hlength⟩ := hcopied
    obtain ⟨buffer, hmem⟩ := hindices xs rfl
    have hend := (hrun _ hmem).end_le (by simp only; omega)
    have helements : d.drawCommandSize = drawElementsSize := if_pos hne
    simp only [hsize] at hend
    omega

/-- For every ring and every draw call that has chunks, and is not given up for want of space: all
that is written lies behind the write position, in the mappings and in free bytes, whatever the
server gives back and when, if and only if the start and all sizes together are no more than the
two mappings. -/
theorem inWindow_iff (layout : Layout) (app : ℕ → UInt8) (hd : d.Bounded) (hb : Ring b)
    (hmapped : 2 * b.length < 2 ^ 64) (hcall : DrawCall d draw indices)
    (hcount : attribs.length = d.enabledCount) (hfits : d.initialRequest ≤ b.length)
    (hpass : ChunksPass d b.length (chunkRuns attribs) 0 0) :
    (∀ releases, ∀ w ∈ (runDrawMemory layout app d (.start b releases) attribs draw
        indices).1.writes, w.InWindow b.head b.length) ↔
      b.head + drawExtent d attribs ≤ 2 * b.length := by
  constructor
  · exact extent_of_inWindow layout app hd hb hmapped hcall hfits hpass
  · exact inWindow_of_extent hd hb hmapped hcall hcount hfits hpass

/-- Commands without any content. -/
def zeroLayout : Layout where
  bytes command _ := List.replicate command.structSize 0
  length_bytes _ _ := List.length_replicate

/-- An empty ring whose two ends are at a position. -/
def emptyAt (length head : ℕ) : Buffer UInt8 :=
  { bufferCreate length fun _ => 0 with tail := head, head := head }

theorem ring_emptyAt (length head : ℕ) (hhead : head < length) (hmapped : 2 * length ≤ 2 ^ 64) :
    Ring (emptyAt length head) where
  fill_le := Nat.zero_le _
  head_eq := (Nat.mod_eq_of_lt hhead).symm
  mapped := hmapped

/-- Two attributes far from each other; two vertices take 8 and 920 bytes. -/
def twoAttribs : List VertexAttrib :=
  [⟨0, 0, true, 1, 4, glFloat, 0x1000, false, none, 1⟩,
    ⟨1, 0, true, 1, 460, glFloat, 0x9000, false, none, 0⟩]

theorem chunksPass_twoAttribs :
    ChunksPass (drawArraysSizes 2 0 2) 1024 (chunkRuns twoAttribs) 0 0 :=
  ⟨by decide, by decide, by decide, by decide, trivial⟩

theorem drawCall_drawArrays (enabledCount mode : ℕ) (first count : ℤ) :
    DrawCall (drawArraysSizes enabledCount first count) (fun _ => .drawArrays mode first count)
      none :=
  ⟨fun _ => rfl, rfl⟩

/-- At the start of a ring of 1024 bytes all of it is in the window. -/
theorem inWindow_twoAttribs : drawExtent (drawArraysSizes 2 0 2) twoAttribs ≤ 2 * 1024 ∧
    ∀ releases, ∀ w ∈ (runDrawMemory zeroLayout (fun _ => 0) (drawArraysSizes 2 0 2)
      (.start (emptyAt 1024 0) releases) twoAttribs (fun _ => .drawArrays 4 0 2) none).1.writes,
        w.InWindow 0 1024 := by
  have hextent : 0 + drawExtent (drawArraysSizes 2 0 2) twoAttribs ≤ 2 * 1024 := by decide
  have hall := (inWindow_iff zeroLayout (fun _ => 0) (bounded_drawArraysSizes (by decide) 0 2)
    (ring_emptyAt 1024 0 (by decide) (by decide)) (by decide) (drawCall_drawArrays 2 4 0 2) rfl
    (by decide) chunksPass_twoAttribs).2 hextent
  exact ⟨by decide, hall⟩

/-- Near the end of the ring, which is empty, the last bytes lie behind the second mapping. -/
theorem exists_write_behind_mapping : Ring (emptyAt 1024 1000) ∧
    (drawArraysSizes 2 0 2).initialRequest ≤ 1024 ∧
    ChunksPass (drawArraysSizes 2 0 2) 1024 (chunkRuns twoAttribs) 0 0 ∧
    ∃ releases, ∃ w ∈ (runDrawMemory zeroLayout (fun _ => 0) (drawArraysSizes 2 0 2)
        (.start (emptyAt 1024 1000) releases) twoAttribs (fun _ => .drawArrays 4 0 2)
          none).1.writes, ¬w.InWindow 1000 1024 := by
  have hring : Ring (emptyAt 1024 1000) := ring_emptyAt _ _ (by decide) (by decide)
  refine ⟨hring, by decide, chunksPass_twoAttribs, ?_⟩
  by_contra hnone
  have hall := extent_of_inWindow zeroLayout (fun _ => 0)
    (bounded_drawArraysSizes (by decide) 0 2) hring (by decide) (drawCall_drawArrays 2 4 0 2)
    (by decide) chunksPass_twoAttribs fun releases w hw => by
      by_contra hout
      exact hnone ⟨releases, w, hw, hout⟩
  exact absurd hall (by decide)

end GpuProxy.VertexAttribs
