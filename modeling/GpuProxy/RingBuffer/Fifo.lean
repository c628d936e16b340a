import GpuProxy.Math.TransitionSystem
import GpuProxy.RingBuffer.Buffer
import Mathlib.Data.List.Infix

/-!
# The ring buffer is a lossless queue

One producer and one consumer use a ring buffer at the same time. Each of them
reads `fill_count` to learn its window, stores or loads bytes inside that window,
moves its own index, and then updates `fill_count`; every one of these is a step
of its own, so the other side can run between any two of them.

A side may advance several times on one reading of `fill_count`, and may store or
load its bytes piece by piece, from the address it was given on; what it advances
by is at most what it has stored or loaded, and that is at most the window it last
read.

## Main definitions

* `Fifo.State`, `Fifo.step` — the two parties and their interleaved steps
* `Fifo.system` — all runs from a fresh buffer
* `Fifo.Inv` — what holds in every state, half-finished advances included

## Main results

* `inv_invariant` — `Inv` is preserved by every step
* `Inv.advance_lt`, `Inv.access_lt` — no index and no access leaves the two mappings
* `fifo_lossless` — bounds on the indices, their relation to `fill_count`, and
  the consumed bytes are a prefix of the produced ones
-/

namespace GpuProxy.RingBuffer.Fifo

open GpuProxy.Math

/-- One side of the buffer: the window it may still use, where that starts, unless
the address was `NULL`, the bytes it has stored or loaded there so far, and, inside
an advance, the count still owed to `fill_count`. -/
structure Side (β : Type*) where
  window : ℕ
  address : Option ℕ
  chunk : List β
  /-- `some n` between the two statements of an advance by `n`. -/
  owed : Option ℕ

/-- The buffer, its two users, and the bytes each has advanced over. -/
structure State (β : Type*) where
  buffer : Buffer β
  producer : Side β
  consumer : Side β
  produced : List β
  consumed : List β

/-- The steps of the two sides. -/
inductive Action (β : Type*)
  /-- The producer calls `buffer_write_address`. -/
  | readWritable
  /-- The producer stores bytes at an offset of its window. -/
  | storeBytes (offset : ℕ) (bytes : List β)
  /-- `buffer_write_advance` updates `head`. -/
  | advanceHead (count : ℕ)
  /-- `buffer_write_advance` adds to `fill_count`. -/
  | addToFill
  /-- The consumer calls `buffer_read_address`. -/
  | readReadable
  /-- The consumer loads bytes at an offset of its window. -/
  | loadBytes (offset count : ℕ)
  /-- `buffer_read_advance` updates `tail`. -/
  | advanceTail (count : ℕ)
  /-- `buffer_read_advance` subtracts from `fill_count`. -/
  | subFromFill

variable {β : Type*}

/-- The bytes of a chunk after storing `bytes` at `offset`. -/
def overlay (chunk : List β) (offset : ℕ) (bytes : List β) : List β :=
  chunk.take offset ++ bytes ++ chunk.drop (offset + bytes.length)

/-- A side that has moved its index over the first bytes of its chunk. -/
def Side.advance (side : Side β) (count : ℕ) : Side β where
  window := side.window - count
  address := side.address.map (· + count)
  chunk := side.chunk.drop count
  owed := some count

/-- One step of either side; `none` when the side is not at that point, or the
step would leave the window. -/
def step (s : State β) : Action β → Option (State β)
  | .readWritable =>
    match s.producer.owed with
    | none =>
      let (window, address) := bufferWriteAddress s.buffer
      some { s with producer := ⟨window, address, [], none⟩ }
    | some _ => none
  | .storeBytes offset bytes =>
    match s.producer.address with
    | none => none
    | some address =>
      if s.producer.owed = none ∧ offset ≤ s.producer.chunk.length ∧
          offset + bytes.length ≤ s.producer.window then
        some { s with
          buffer := s.buffer.store (address + offset) bytes
          producer := { s.producer with chunk := overlay s.producer.chunk offset bytes } }
      else none
  | .advanceHead count =>
    if s.producer.owed = none ∧ count ≤ s.producer.chunk.length then
      some { s with
        buffer := moveHead s.buffer count
        producer := s.producer.advance count
        produced := s.produced ++ s.producer.chunk.take count }
    else none
  | .addToFill =>
    match s.producer.owed with
    | none => none
    | some count => some { s with
        buffer := addFill s.buffer count
        producer := { s.producer with owed := none } }
  | .readReadable =>
    match s.consumer.owed with
    | none =>
      let (window, address) := bufferReadAddress s.buffer
      some { s with consumer := ⟨window, address, [], none⟩ }
    | some _ => none
  | .loadBytes offset count =>
    match s.consumer.address with
    | none => none
    | some address =>
      if s.consumer.owed = none ∧ offset ≤ s.consumer.chunk.length ∧
          offset + count ≤ s.consumer.window then
        some { s with
          consumer := { s.consumer with
            chunk := overlay s.consumer.chunk offset (s.buffer.load (address + offset) count) } }
      else none
  | .advanceTail count =>
    if s.consumer.owed = none ∧ count ≤ s.consumer.chunk.length then
      some { s with
        buffer := moveTail s.buffer count
        consumer := s.consumer.advance count
        consumed := s.consumed ++ s.consumer.chunk.take count }
    else none
  | .subFromFill =>
    match s.consumer.owed with
    | none => none
    | some count => some { s with
        buffer := subFill s.buffer count
        consumer := { s.consumer with owed := none } }

/-- A fresh buffer over memory of any content, with both sides outside an advance. -/
def initial (length : ℕ) (memory : ℕ → β) : State β where
  buffer := bufferCreate length memory
  producer := ⟨0, none, [], none⟩
  consumer := ⟨0, none, [], none⟩
  produced := []
  consumed := []

/-- All interleavings of the two sides on a buffer of the given length. -/
def system (β : Type*) (length : ℕ) : System (State β) (Action β) :=
  .ofStep (fun s => ∃ memory, s = initial length memory) step

/-! ### The invariant -/

/-- The bytes a side has moved its index by but not yet reported to `fill_count`. -/
def Side.owedCount (side : Side β) : ℕ := side.owed.getD 0

/-- The bytes between `tail` and `head`. -/
def State.queued (s : State β) : ℕ :=
  s.buffer.fillCount + s.producer.owedCount - s.consumer.owedCount

/-- The address of a side is that of its index, in the first or the second mapping, and its
window ends inside them. -/
def Side.PointsTo (side : Side β) (length index : ℕ) : Prop :=
  ∀ address, side.address = some address →
    address % length = index ∧ address + side.window < 2 * length

/-- What every reachable state satisfies, inside an advance or not: each side's
window starts at its index and lies on its own side of the queued bytes, its chunk
is what the memory holds there, and the queued bytes are those produced and not
yet consumed. -/
structure Inv (length : ℕ) (s : State β) : Prop where
  length_eq : s.buffer.length = length
  head_lt : s.buffer.head < length
  tail_lt : s.buffer.tail < length
  head_eq : s.buffer.head = (s.buffer.tail + s.queued) % length
  producer_fits : s.buffer.fillCount + s.producer.owedCount + s.producer.window ≤ length
  consumer_fits : s.consumer.owedCount + s.consumer.window ≤ s.buffer.fillCount
  producer_chunk_le : s.producer.chunk.length ≤ s.producer.window
  consumer_chunk_le : s.consumer.chunk.length ≤ s.consumer.window
  producer_address : s.producer.PointsTo length s.buffer.head
  consumer_address : s.consumer.PointsTo length s.buffer.tail
  producer_chunk : s.buffer.load s.buffer.head s.producer.chunk.length = s.producer.chunk
  consumer_chunk : s.buffer.load s.buffer.tail s.consumer.chunk.length = s.consumer.chunk
  produced_eq : s.produced = s.consumed ++ s.buffer.load s.buffer.tail s.queued

theorem length_overlay {chunk : List β} {offset : ℕ} (bytes : List β) (h : offset ≤ chunk.length) :
    (overlay chunk offset bytes).length = max chunk.length (offset + bytes.length) := by
  simp only [overlay, List.length_append, List.length_take, List.length_drop]
  omega

variable {length : ℕ} {mem : ℕ → β} {a n offset count : ℕ} {chunk bytes : List β}

/-- A chunk stays what the memory holds when bytes are stored over part of it. -/
theorem read_write_overlay (hread : Mirror.read length mem a chunk.length = chunk)
    (hoff : offset ≤ chunk.length) (hfit : (overlay chunk offset bytes).length ≤ length) :
    Mirror.read length (Mirror.write length mem (a + offset) bytes) a
      (overlay chunk offset bytes).length = overlay chunk offset bytes := by
  have hlen := length_overlay bytes hoff
  rw [Mirror.read_write_within (by omega) hfit, overlay]
  congr 1
  -- The bytes before the store are the old ones.
  · rw [← hread, Mirror.take_read hoff]
  -- Behind the store the chunk goes on, unless the store reaches past its end.
  · by_cases hshort : offset + bytes.length ≤ chunk.length
    · rw [← overlay, hlen, max_eq_left hshort, Nat.add_assoc, ← Mirror.drop_read hshort, hread]
    · rw [← overlay, hlen, List.drop_of_length_le (by omega), max_eq_right (by omega),
        Nat.sub_self, Mirror.read_zero]

/-- A chunk stays what the memory holds when part of it is loaded again. -/
theorem read_overlay_read (hread : Mirror.read length mem a chunk.length = chunk)
    (hoff : offset ≤ chunk.length) :
    Mirror.read length mem a (overlay chunk offset (Mirror.read length mem (a + offset) n)).length =
      overlay chunk offset (Mirror.read length mem (a + offset) n) := by
  rw [length_overlay _ hoff, Mirror.length_read, overlay, Mirror.length_read]
  -- What is loaded again continues the part of the chunk before it.
  have htake : chunk.take offset = Mirror.read length mem a offset := by
    rw [← hread, Mirror.take_read hoff]
  rw [htake, ← Mirror.read_add]
  by_cases hshort : offset + n ≤ chunk.length
  · have hdrop : chunk.drop (offset + n) =
        Mirror.read length mem (a + (offset + n)) (chunk.length - (offset + n)) := by
      rw [← Mirror.drop_read hshort, hread]
    rw [hdrop, ← Mirror.read_add, max_eq_left hshort]
    congr 1
    omega
  · rw [List.drop_of_length_le (by omega), max_eq_right (by omega), List.append_nil]

/-! ### One lemma for each step -/

variable {s t : State β}

theorem inv_initial (hlength : 0 < length) (memory : ℕ → β) :
    Inv length (initial length memory) := by
  constructor <;> simp [initial, bufferCreate, State.queued, Side.owedCount, Side.PointsTo,
    Buffer.load, hlength]

/-- The queued bytes and the producer's window together fit in the buffer. -/
theorem Inv.queued_add_window_le (h : Inv length s) :
    s.queued + s.producer.window ≤ length := by
  have := h.producer_fits
  unfold State.queued
  omega

/-- The consumer's window lies inside the queued bytes. -/
theorem Inv.consumer_window_le (h : Inv length s) : s.consumer.window ≤ s.queued := by
  have := h.consumer_fits
  unfold State.queued
  omega

theorem inv_readWritable (h : Inv length s) (hstep : step s .readWritable = some t) :
    Inv length t := by
  simp only [step] at hstep
  split at hstep
  next howed =>
    cases hstep
    -- The window is what `fill_count` leaves; a count the consumer still owes only adds to it.
    have hfit := h.consumer_fits
    have hfill := h.producer_fits
    have hle := h.length_eq
    have hqueued : State.queued { s with
        producer := ⟨(bufferWriteAddress s.buffer).1, (bufferWriteAddress s.buffer).2, [], none⟩ } =
          s.queued := by
      simp [State.queued, Side.owedCount, howed]
    refine { h with head_eq := ?_, producer_fits := ?_, producer_chunk_le := ?_,
                    producer_address := ?_, producer_chunk := ?_, produced_eq := ?_ }
    · rw [hqueued]
      exact h.head_eq
    · simp only [bufferWriteAddress, Side.owedCount, howed, Option.getD_none] at hfill ⊢
      omega
    · simp
    · intro address haddress
      simp only [bufferWriteAddress, Option.ite_none_left_eq_some, Option.some.injEq] at haddress
      have hhead := h.head_lt
      rw [← haddress.2, Nat.mod_eq_of_lt hhead]
      refine ⟨rfl, ?_⟩
      simp only [bufferWriteAddress]
      omega
    · rfl
    · rw [hqueued]
      exact h.produced_eq
  next => cases hstep

theorem inv_readReadable (h : Inv length s) (hstep : step s .readReadable = some t) :
    Inv length t := by
  simp only [step] at hstep
  split at hstep
  next howed =>
    cases hstep
    have hqueued : State.queued { s with
        consumer := ⟨(bufferReadAddress s.buffer).1, (bufferReadAddress s.buffer).2, [], none⟩ } =
          s.queued := by
      simp [State.queued, Side.owedCount, howed]
    refine { h with head_eq := ?_, consumer_fits := ?_, consumer_chunk_le := ?_,
                    consumer_address := ?_, consumer_chunk := ?_, produced_eq := ?_ }
    · rw [hqueued]
      exact h.head_eq
    · simp [bufferReadAddress, Side.owedCount]
    · simp
    · intro address haddress
      simp only [bufferReadAddress, Option.ite_none_left_eq_some, Option.some.injEq] at haddress
      have htail := h.tail_lt
      have hfill := h.producer_fits
      rw [← haddress.2, Nat.mod_eq_of_lt htail]
      refine ⟨rfl, ?_⟩
      simp only [bufferReadAddress]
      omega
    · rfl
    · rw [hqueued]
      exact h.produced_eq
  next => cases hstep

/-- The producer stores from `head` on: that is where the address it was given
still points, or its second mapping does. -/
theorem Inv.storeBytes_cases (h : Inv length s)
    (hstep : step s (.storeBytes offset bytes) = some t) :
    offset ≤ s.producer.chunk.length ∧ offset + bytes.length ≤ s.producer.window ∧
      t = { s with
        buffer := s.buffer.store (s.buffer.head + offset) bytes
        producer := { s.producer with chunk := overlay s.producer.chunk offset bytes } } := by
  simp only [step] at hstep
  split at hstep
  next => cases hstep
  next address haddress =>
    split at hstep
    next hguard =>
      obtain ⟨-, hoff, hwindow⟩ := hguard
      cases hstep
      have hhead : address % s.buffer.length = s.buffer.head := by
        rw [h.length_eq]
        exact (h.producer_address address haddress).1
      refine ⟨hoff, hwindow, ?_⟩
      rw [← hhead, store_mod_add]
    next => cases hstep

/-- The consumer loads from `tail` on. -/
theorem Inv.loadBytes_cases (h : Inv length s)
    (hstep : step s (.loadBytes offset count) = some t) :
    offset ≤ s.consumer.chunk.length ∧ offset + count ≤ s.consumer.window ∧
      t = { s with
        consumer := { s.consumer with
          chunk := overlay s.consumer.chunk offset
            (s.buffer.load (s.buffer.tail + offset) count) } } := by
  simp only [step] at hstep
  split at hstep
  next => cases hstep
  next address haddress =>
    split at hstep
    next hguard =>
      obtain ⟨-, hoff, hwindow⟩ := hguard
      cases hstep
      have htail : address % s.buffer.length = s.buffer.tail := by
        rw [h.length_eq]
        exact (h.consumer_address address haddress).1
      refine ⟨hoff, hwindow, ?_⟩
      rw [← htail, load_mod_add]
    next => cases hstep

/-- The address of a side follows its index. -/
theorem Side.PointsTo.advance {side : Side β} {index : ℕ} (h : side.PointsTo length index)
    (hcount : count ≤ side.window) :
    (side.advance count).PointsTo length ((index + count) % length) := by
  intro address haddress
  simp only [Side.advance, Option.map_eq_some_iff] at haddress ⊢
  obtain ⟨a, ha, rfl⟩ := haddress
  obtain ⟨hindex, hwindow⟩ := h a ha
  refine ⟨?_, by omega⟩
  rw [← hindex, Nat.mod_add_mod]

/-- A store inside the producer's window changes neither the queued bytes nor the
bytes the consumer has loaded. -/
theorem inv_storeBytes (h : Inv length s) (hstep : step s (.storeBytes offset bytes) = some t) :
    Inv length t := by
  obtain ⟨hoff, hwindow, rfl⟩ := h.storeBytes_cases hstep
  have hroom := h.queued_add_window_le
  have hchunk := h.producer_chunk_le
  have hlen := length_overlay bytes hoff
  have hcons := h.consumer_window_le
  have hconsChunk := h.consumer_chunk_le
  -- The store, seen from `tail`, lies above every queued byte.
  have hframe : ∀ n ≤ s.queued,
      (s.buffer.store (s.buffer.head + offset) bytes).load s.buffer.tail n =
        s.buffer.load s.buffer.tail n :=
    fun n hn => load_store_free (h.length_eq ▸ h.head_eq) (by rw [h.length_eq]; omega) hn
  refine { h with head_eq := ?_, producer_fits := ?_, producer_chunk_le := ?_,
                  producer_chunk := ?_, consumer_chunk := ?_, produced_eq := ?_ }
  · simpa [State.queued, Side.owedCount, Buffer.store] using h.head_eq
  · simpa [Side.owedCount, Buffer.store] using h.producer_fits
  · change (overlay s.producer.chunk offset bytes).length ≤ s.producer.window
    omega
  · have hread := h.producer_chunk
    have hfit : (overlay s.producer.chunk offset bytes).length ≤ s.buffer.length := by
      rw [h.length_eq]
      omega
    exact read_write_overlay hread hoff hfit
  · exact (hframe _ (hconsChunk.trans hcons)).trans h.consumer_chunk
  · exact h.produced_eq.trans (congrArg _ (hframe _ le_rfl).symm)

theorem inv_loadBytes (h : Inv length s) (hstep : step s (.loadBytes offset count) = some t) :
    Inv length t := by
  obtain ⟨hoff, hwindow, rfl⟩ := h.loadBytes_cases hstep
  have hchunk := h.consumer_chunk_le
  refine { h with head_eq := ?_, consumer_fits := ?_, consumer_chunk_le := ?_,
                  consumer_chunk := ?_, produced_eq := ?_ }
  · simpa [State.queued, Side.owedCount] using h.head_eq
  · simpa [Side.owedCount] using h.consumer_fits
  · simp only [length_overlay _ hoff, Buffer.load, Mirror.length_read]
    omega
  · exact read_overlay_read h.consumer_chunk hoff
  · simpa [State.queued, Side.owedCount] using h.produced_eq

/-- Moving `head` turns the first bytes of the producer's chunk into queued bytes. -/
theorem inv_advanceHead (h : Inv length s) (hstep : step s (.advanceHead count) = some t) :
    Inv length t := by
  simp only [step] at hstep
  split at hstep
  next hguard =>
    obtain ⟨howed, hcount⟩ := hguard
    cases hstep
    have hchunk := h.producer_chunk_le
    have hfits := h.producer_fits
    have hcons := h.consumer_fits
    have hpos : 0 < length := Nat.zero_lt_of_lt h.head_lt
    have hzero : s.producer.owedCount = 0 := by simp [Side.owedCount, howed]
    -- `head` and the queue grow by the same bytes, before `fill_count` does.
    have hqueued : s.buffer.fillCount + count - s.consumer.owedCount = s.queued + count := by
      unfold State.queued
      omega
    have hhead : s.buffer.load s.buffer.head count = s.producer.chunk.take count := by
      rw [← h.producer_chunk]
      exact (Mirror.take_read hcount).symm
    -- Seen from `tail`, the new bytes lie right behind the queue.
    have hnew : s.buffer.load (s.buffer.tail + s.queued) count = s.producer.chunk.take count := by
      rw [← hhead, h.head_eq, ← h.length_eq]
      exact Mirror.read_mod.symm
    refine { h with head_lt := ?_, head_eq := ?_, producer_fits := ?_, producer_chunk_le := ?_,
                    producer_address := ?_, producer_chunk := ?_, produced_eq := ?_ }
    · simp only [moveHead, h.length_eq]
      exact Nat.mod_lt _ hpos
    · change (s.buffer.head + count) % s.buffer.length =
        (s.buffer.tail + (s.buffer.fillCount + count - s.consumer.owedCount)) % length
      rw [hqueued, h.head_eq, h.length_eq, Nat.mod_add_mod, Nat.add_assoc]
    · change s.buffer.fillCount + count + (s.producer.window - count) ≤ length
      omega
    · simp only [Side.advance, List.length_drop]
      omega
    · simp only [moveHead, h.length_eq]
      exact h.producer_address.advance (hcount.trans hchunk)
    · change Mirror.read s.buffer.length s.buffer.memory
        ((s.buffer.head + count) % s.buffer.length) (s.producer.chunk.drop count).length = _
      rw [Mirror.read_mod, List.length_drop, ← Mirror.drop_read hcount]
      exact congrArg _ h.producer_chunk
    · change s.produced ++ s.producer.chunk.take count = s.consumed ++
        s.buffer.load s.buffer.tail (s.buffer.fillCount + count - s.consumer.owedCount)
      rw [hqueued, h.produced_eq, ← hnew, List.append_assoc]
      exact congrArg _ Mirror.read_add.symm
  next => cases hstep

/-- Reporting an advance moves bytes from one count to the other and leaves their
sum as it was. -/
theorem inv_addToFill (h : Inv length s) (hstep : step s .addToFill = some t) :
    Inv length t := by
  simp only [step] at hstep
  split at hstep
  next => cases hstep
  next count howed =>
    cases hstep
    have hfits := h.producer_fits
    have hcons := h.consumer_fits
    simp only [Side.owedCount, howed, Option.getD_some] at hfits hcons
    have hqueued : State.queued { s with
        buffer := addFill s.buffer count
        producer := { s.producer with owed := none } } = s.queued := by
      simp [State.queued, Side.owedCount, howed, addFill]
    refine { h with head_eq := ?_, producer_fits := ?_, consumer_fits := ?_, produced_eq := ?_ }
    · rw [hqueued]
      exact h.head_eq
    · simpa [Side.owedCount, addFill] using hfits
    · simp only [addFill, Side.owedCount]
      omega
    · rw [hqueued]
      exact h.produced_eq

/-- Moving `tail` turns the first bytes of the consumer's chunk into consumed bytes. -/
theorem inv_advanceTail (h : Inv length s) (hstep : step s (.advanceTail count) = some t) :
    Inv length t := by
  simp only [step] at hstep
  split at hstep
  next hguard =>
    obtain ⟨howed, hcount⟩ := hguard
    cases hstep
    have hchunk := h.consumer_chunk_le
    have hcons := h.consumer_fits
    have hpos : 0 < length := Nat.zero_lt_of_lt h.head_lt
    have hzero : s.consumer.owedCount = 0 := by simp [Side.owedCount, howed]
    have hle : count ≤ s.queued := by
      have := h.consumer_window_le
      omega
    have hqueued : s.buffer.fillCount + s.producer.owedCount - count = s.queued - count := by
      unfold State.queued
      omega
    have htail : s.buffer.load s.buffer.tail count = s.consumer.chunk.take count := by
      rw [← h.consumer_chunk]
      exact (Mirror.take_read hcount).symm
    -- The queue begins with the bytes that are now consumed.
    have hsplit : s.buffer.load s.buffer.tail s.queued = s.consumer.chunk.take count ++
        s.buffer.load (s.buffer.tail + count) (s.queued - count) := by
      rw [← htail]
      conv_lhs => rw [← Nat.add_sub_cancel' hle]
      exact Mirror.read_add
    refine { h with tail_lt := ?_, head_eq := ?_, consumer_fits := ?_, consumer_chunk_le := ?_,
                    consumer_address := ?_, consumer_chunk := ?_, produced_eq := ?_ }
    · simp only [moveTail, h.length_eq]
      exact Nat.mod_lt _ hpos
    · change s.buffer.head = ((s.buffer.tail + count) % s.buffer.length +
        (s.buffer.fillCount + s.producer.owedCount - count)) % length
      rw [hqueued, h.head_eq, h.length_eq, Nat.mod_add_mod, Nat.add_assoc,
        Nat.add_sub_cancel' hle]
    · change count + (s.consumer.window - count) ≤ s.buffer.fillCount
      omega
    · simp only [Side.advance, List.length_drop]
      omega
    · simp only [moveTail, h.length_eq]
      exact h.consumer_address.advance (hcount.trans hchunk)
    · change Mirror.read s.buffer.length s.buffer.memory
        ((s.buffer.tail + count) % s.buffer.length) (s.consumer.chunk.drop count).length = _
      rw [Mirror.read_mod, List.length_drop, ← Mirror.drop_read hcount]
      exact congrArg _ h.consumer_chunk
    · change s.produced = s.consumed ++ s.consumer.chunk.take count ++
        Mirror.read s.buffer.length s.buffer.memory ((s.buffer.tail + count) % s.buffer.length)
          (s.buffer.fillCount + s.producer.owedCount - count)
      rw [Mirror.read_mod, hqueued, h.produced_eq, hsplit, List.append_assoc]
      rfl
  next => cases hstep

theorem inv_subFromFill (h : Inv length s) (hstep : step s .subFromFill = some t) :
    Inv length t := by
  simp only [step] at hstep
  split at hstep
  next => cases hstep
  next count howed =>
    cases hstep
    have hfits := h.producer_fits
    have hcons := h.consumer_fits
    simp only [Side.owedCount, howed, Option.getD_some] at hfits hcons
    have hqueued : State.queued { s with
        buffer := subFill s.buffer count
        consumer := { s.consumer with owed := none } } = s.queued := by
      simp only [State.queued, Side.owedCount, howed, subFill, Option.getD_some, Option.getD_none]
      omega
    refine { h with head_eq := ?_, producer_fits := ?_, consumer_fits := ?_, produced_eq := ?_ }
    · rw [hqueued]
      exact h.head_eq
    · simp only [subFill, Side.owedCount]
      omega
    · simp only [Side.owedCount, subFill, Option.getD_none]
      omega
    · rw [hqueued]
      exact h.produced_eq

/-- No sum the two advances compute leaves the mapping of twice the length. -/
theorem Inv.advance_lt (h : Inv length s) :
    (count ≤ s.producer.chunk.length → s.buffer.head + count < 2 * length) ∧
      (count ≤ s.consumer.chunk.length → s.buffer.tail + count < 2 * length) := by
  have := h.head_lt
  have := h.tail_lt
  have := h.producer_fits
  have := h.consumer_fits
  have := h.producer_chunk_le
  have := h.consumer_chunk_le
  constructor <;> intro hcount <;> omega

/-- No store and no load inside a window does either. -/
theorem Inv.access_lt (h : Inv length s) {address : ℕ} :
    (s.producer.address = some address → n ≤ s.producer.window → address + n < 2 * length) ∧
      (s.consumer.address = some address → n ≤ s.consumer.window → address + n < 2 * length) := by
  constructor
  · intro haddress hn
    have := (h.producer_address address haddress).2
    omega
  · intro haddress hn
    have := (h.consumer_address address haddress).2
    omega

/-! ### Whole runs -/

theorem inv_step (h : Inv length s) (action : Action β) (hstep : step s action = some t) :
    Inv length t := by
  cases action with
  | readWritable => exact inv_readWritable h hstep
  | storeBytes => exact inv_storeBytes h hstep
  | advanceHead => exact inv_advanceHead h hstep
  | addToFill => exact inv_addToFill h hstep
  | readReadable => exact inv_readReadable h hstep
  | loadBytes => exact inv_loadBytes h hstep
  | advanceTail => exact inv_advanceTail h hstep
  | subFromFill => exact inv_subFromFill h hstep

theorem inv_invariant (hlength : 0 < length) : (system β length).Invariant (Inv length) where
  init := by
    rintro _ ⟨memory, rfl⟩
    exact inv_initial hlength memory
  step _ action _ _ h hstep := inv_step h action hstep

/-- In every interleaving of the two sides, with chunks of any sizes, the indices
stay inside the buffer, `head` is `fill_count` bytes past `tail` whenever no
advance is half done, and the consumer gets the producer's bytes, in order and
without a gap. -/
theorem fifo_lossless (length : ℕ) (hlength : 0 < length) (s : State β)
    (hs : (system β length).Reachable s) :
    s.buffer.head < length ∧ s.buffer.tail < length ∧ s.buffer.fillCount ≤ length ∧
      (s.producer.owed = none → s.consumer.owed = none →
        s.buffer.head = (s.buffer.tail + s.buffer.fillCount) % length) ∧
      s.consumed <+: s.produced := by
  have h := (inv_invariant hlength).holds hs
  refine ⟨h.head_lt, h.tail_lt, ?_, ?_, _, h.produced_eq.symm⟩
  · have := h.producer_fits
    omega
  · intro hp hc
    simpa [State.queued, Side.owedCount, hp, hc] using h.head_eq

/-- Seven bytes through a buffer of four, the second chunk across its end. -/
def straddlingRun : List (Action ℕ) :=
  [.readWritable, .storeBytes 0 [1, 2, 3], .advanceHead 3, .addToFill, .readReadable,
    .loadBytes 0 3, .advanceTail 3, .subFromFill, .readWritable, .storeBytes 0 [4, 5, 6, 7],
    .advanceHead 4, .readReadable, .addToFill, .readReadable, .loadBytes 0 4, .advanceTail 4]

theorem fifo_lossless_straddlingRun : ∃ s : State ℕ,
    straddlingRun.foldlM step (initial 4 fun _ => 0) = some s ∧
    s.consumed = [1, 2, 3, 4, 5, 6, 7] ∧
    s.buffer.head < 4 ∧ s.buffer.tail < 4 ∧ s.buffer.fillCount ≤ 4 ∧
      (s.producer.owed = none → s.consumer.owed = none →
        s.buffer.head = (s.buffer.tail + s.buffer.fillCount) % 4) ∧
      s.consumed <+: s.produced := by
  have hrun : (straddlingRun.foldlM step (initial 4 fun _ => 0)).map (·.consumed) =
      some [1, 2, 3, 4, 5, 6, 7] := by
    decide +kernel
  obtain ⟨s, hs, hconsumed⟩ := Option.map_eq_some_iff.mp hrun
  exact ⟨s, hs, hconsumed, fifo_lossless 4 (by decide) s
    (System.reachable_of_foldlM (.init ⟨_, rfl⟩) hs)⟩

end GpuProxy.RingBuffer.Fifo
