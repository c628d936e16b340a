import GpuProxy.Math.MirroredMemory

/-!
# The ring buffer

`ring_buffer.c`: one producer and one consumer share `length` bytes that
`buffer_create` maps twice in a row. `head` belongs to the producer and `tail` to
the consumer; both update `fill_count`, with an atomic addition and subtraction.

The advances are split where the other thread can run in between: first the
owner's own index moves, then `fill_count` changes. The `size_t` fields are
naturals. While `fill_count ≤ length` and both indices are below `length` no
difference is negative, and every sum stays below twice the length of the mapping.

## Main definitions

* `Buffer` — `buffer_t`
* `bufferWriteAddress`, `bufferReadAddress` — the windows the two sides may use
* `bufferWriteAdvance`, `bufferReadAdvance` — the two advances
-/

namespace GpuProxy.RingBuffer

/-- `buffer_t`, together with the cells behind its double mapping: cell `i` of
`memory` is seen at the addresses `i` and `i + length` from `address`. -/
structure Buffer (β : Type*) where
  /-- The mapped cells; only those below `length` are used. -/
  memory : ℕ → β
  length : ℕ
  tail : ℕ
  head : ℕ
  lastToken : ℕ
  fillCount : ℕ

variable {β : Type*} (b : Buffer β) (count : ℕ)

/-- The state `buffer_create` leaves behind, over cells of any content. -/
def bufferCreate (length : ℕ) (memory : ℕ → β) : Buffer β where
  memory := memory
  length := length
  tail := 0
  head := 0
  lastToken := 0
  fillCount := 0

/-- `buffer_write_address`: the writable byte count, and the offset from `address`
to write at unless the buffer is full. -/
def bufferWriteAddress : ℕ × Option ℕ :=
  let writableBytes := b.length - b.fillCount
  (writableBytes, if writableBytes = 0 then none else some b.head)

/-- `buffer_read_address`: the readable byte count, and the offset from `address`
to read at unless the buffer is empty. -/
def bufferReadAddress : ℕ × Option ℕ :=
  let bytesToRead := b.fillCount
  (bytesToRead, if bytesToRead = 0 then none else some b.tail)

/-- The first statement of `buffer_write_advance`. -/
def moveHead : Buffer β := { b with head := (b.head + count) % b.length }

/-- The atomic addition of `buffer_write_advance`. -/
def addFill : Buffer β := { b with fillCount := b.fillCount + count }

/-- The first statement of `buffer_read_advance`. -/
def moveTail : Buffer β := { b with tail := (b.tail + count) % b.length }

/-- The atomic subtraction of `buffer_read_advance`. -/
def subFill : Buffer β := { b with fillCount := b.fillCount - count }

/-- `buffer_write_advance`. -/
def bufferWriteAdvance : Buffer β := addFill (moveHead b count) count

/-- `buffer_read_advance`. -/
def bufferReadAdvance : Buffer β := subFill (moveTail b count) count

/-- A store of `xs` through the mapping, at offset `a` from `address`. -/
def Buffer.store (a : ℕ) (xs : List β) : Buffer β :=
  { b with memory := Math.Mirror.write b.length b.memory a xs }

/-- A load of `n` bytes through the mapping, at offset `a` from `address`. -/
def Buffer.load (a n : ℕ) : List β := Math.Mirror.read b.length b.memory a n

variable {b} {base span offset a n m : ℕ} {xs : List β}

@[simp] theorem store_length : (b.store a xs).length = b.length := rfl

@[simp] theorem store_head : (b.store a xs).head = b.head := rfl

@[simp] theorem store_tail : (b.store a xs).tail = b.tail := rfl

@[simp] theorem store_fillCount : (b.store a xs).fillCount = b.fillCount := rfl

@[simp] theorem store_lastToken : (b.store a xs).lastToken = b.lastToken := rfl

@[simp] theorem load_mod : b.load (a % b.length) n = b.load a n := Math.Mirror.read_mod

@[simp] theorem load_mod_add : b.load (a % b.length + m) n = b.load (a + m) n :=
  Math.Mirror.read_mod_add

theorem store_mod_add : b.store (a % b.length + m) xs = b.store (a + m) xs := by
  unfold Buffer.store
  rw [← Math.Mirror.write_mod, Nat.mod_add_mod, Math.Mirror.write_mod]

@[simp] theorem moveHead_fillCount : (moveHead b n).fillCount = b.fillCount := rfl

@[simp] theorem moveHead_lastToken : (moveHead b n).lastToken = b.lastToken := rfl

@[simp] theorem addFill_lastToken : (addFill b n).lastToken = b.lastToken := rfl

@[simp] theorem moveTail_fillCount : (moveTail b n).fillCount = b.fillCount := rfl

@[simp] theorem moveTail_lastToken : (moveTail b n).lastToken = b.lastToken := rfl

@[simp] theorem subFill_lastToken : (subFill b n).lastToken = b.lastToken := rfl

@[simp] theorem load_moveHead : (moveHead b m).load a n = b.load a n := rfl

@[simp] theorem load_addFill : (addFill b m).load a n = b.load a n := rfl

@[simp] theorem load_moveTail : (moveTail b m).load a n = b.load a n := rfl

@[simp] theorem load_subFill : (subFill b m).load a n = b.load a n := rfl

theorem load_add : b.load a (m + n) = b.load a m ++ b.load (a + m) n := Math.Mirror.read_add

theorem load_sub (h : m + n ≤ span) : b.load (a + m) n = ((b.load a span).drop m).take n :=
  Math.Mirror.read_sub h

theorem load_store_self (h : xs.length ≤ b.length) : (b.store a xs).load a xs.length = xs :=
  Math.Mirror.read_write_self h

theorem load_store_above (hn : n ≤ m) (hm : m + xs.length ≤ b.length) :
    (b.store (a + m) xs).load a n = b.load a n :=
  Math.Mirror.read_write_above hn hm

theorem load_store_below (hm : xs.length ≤ m) (hn : m + n ≤ b.length) :
    (b.store a xs).load (a + m) n = b.load (a + m) n :=
  Math.Mirror.read_write_below hm hn

theorem load_store_of_disjoint (h : m + xs.length ≤ a ∧ a + n ≤ m + b.length ∨
    a + n ≤ m ∧ m + xs.length ≤ a + b.length) : (b.store m xs).load a n = b.load a n :=
  Math.Mirror.read_write_of_disjoint h

/-- Runs of bytes that two buffers agree on are ones they agree on after the same store. -/
theorem load_store_congr {b' : Buffer β} (hlength : b'.length = b.length)
    (h : b'.load a n = b.load a n) : (b'.store m xs).load a n = (b.store m xs).load a n := by
  simp only [Buffer.load, Buffer.store, hlength] at h ⊢
  exact Math.Mirror.read_write_congr h

/-- A store in the free space, which starts `span` bytes after `base`, leaves the
first `span` bytes from `base` on as they were. -/
theorem load_store_free (hhead : b.head = (base + span) % b.length)
    (hfit : span + offset + xs.length ≤ b.length) (hn : n ≤ span) :
    (b.store (b.head + offset) xs).load base n = b.load base n := by
  have haddr : (b.head + offset) % b.length = (base + (span + offset)) % b.length := by
    rw [hhead, Nat.mod_add_mod, Nat.add_assoc]
  simp only [Buffer.load, Buffer.store]
  rw [← Math.Mirror.write_mod, haddr, Math.Mirror.write_mod]
  exact Math.Mirror.read_write_above (by omega) (by omega)

end GpuProxy.RingBuffer
