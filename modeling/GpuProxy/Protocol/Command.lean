import GpuProxy.Math.LittleEndian
import GpuProxy.RingBuffer.Buffer

/-!
# Commands in the ring

A command occupies consecutive bytes of the ring: a `command_t` header, then its
arguments. The header is laid out as on a 64-bit machine: the type in the four
bytes at offset 0, the size in the eight bytes at offset 8, the token in the four
bytes at offset 16. The padding in between is never written.

## Main definitions

* `Request` — a command a caller wants to send
* `Request.bare`, `Request.shutdown` — a call without arguments, the call that ends the server
* `Command` — a command with its token, as it stands in the ring
* `writeCommand`, `writeToken` — the stores of the client
* `typeAt`, `sizeAt`, `tokenAt`, `commandAt` — the loads of the server
* `Holds`, `Queued` — the ring holds a command, or a queue of them, at an address

## Main results

* `holds_writeCommand`, `Holds.writeToken` — what the client stores is held
* `Holds.congr`, `Queued.congr` — holding a command depends on its own bytes only
-/

namespace GpuProxy.Protocol

open RingBuffer Math

/-- `sizeof (command_t)`. -/
def headerSize : ℕ := 24

/-- `COMMAND_SHUTDOWN`. -/
def commandShutdown : ℕ := 1

/-- What a caller hands to `client_run_command_async`, or to `client_run_command`
if `sync` is set. Its type is a `command_type_t` and its size a `size_t`. -/
structure Request where
  type : ℕ
  payload : List UInt8
  sync : Bool
  type_lt : type < 256 ^ 4
  size_lt : headerSize + payload.length < 256 ^ 8
  deriving DecidableEq

/-- The `size` field of the request's header. -/
def Request.size (r : Request) : ℕ := headerSize + r.payload.length

/-- A command as it stands in the ring; the token of an asynchronous one is 0. -/
structure Command where
  type : ℕ
  payload : List UInt8
  token : ℕ
  deriving DecidableEq, Repr

def Command.size (c : Command) : ℕ := headerSize + c.payload.length

/-- The command a request becomes once its token is set. -/
def Request.toCommand (r : Request) (token : ℕ) : Command := ⟨r.type, r.payload, token⟩

@[simp] theorem Request.size_toCommand (r : Request) (token : ℕ) :
    (r.toCommand token).size = r.size := rfl

theorem Request.headerSize_le (r : Request) : headerSize ≤ r.size := Nat.le_add_right _ _

theorem Command.headerSize_le (c : Command) : headerSize ≤ c.size := Nat.le_add_right _ _

/-- A command without arguments, such as `glFinish`. -/
def Request.bare (sync : Bool) : Request := ⟨commandShutdown + 1, [], sync, by decide, by decide⟩

/-- The command `client_shutdown_server` runs. -/
def Request.shutdown : Request := ⟨commandShutdown, [], true, by decide, by decide⟩

section Layout

variable (b : Buffer UInt8) (a : ℕ)

/-- `command->type` of the command at `a`. -/
def typeAt : ℕ := LittleEndian.ofBytes (b.load a 4)

/-- `command->size` of the command at `a`. -/
def sizeAt : ℕ := LittleEndian.ofBytes (b.load (a + 8) 8)

/-- `command->token` of the command at `a`. -/
def tokenAt : ℕ := LittleEndian.ofBytes (b.load (a + 16) 4)

/-- The command a handler finds at `a`. -/
def commandAt : Command :=
  ⟨typeAt b a, b.load (a + headerSize) (sizeAt b a - headerSize), tokenAt b a⟩

/-- `client_get_space_for_command` sets the header, with token 0, and
`command_*_init` stores the arguments. -/
def writeCommand (r : Request) : Buffer UInt8 :=
  (((b.store a (LittleEndian.toBytes 4 r.type)).store (a + 8) (LittleEndian.toBytes 8 r.size)).store
    (a + 16) (LittleEndian.toBytes 4 0)).store (a + headerSize) r.payload

/-- `command->token = token`. -/
def writeToken (token : ℕ) : Buffer UInt8 :=
  b.store (a + 16) (LittleEndian.toBytes 4 token)

/-- The bytes at `a` are those of the command `c`. -/
structure Holds (c : Command) : Prop where
  type_eq : typeAt b a = c.type
  size_eq : sizeAt b a = c.size
  token_eq : tokenAt b a = c.token
  payload_eq : b.load (a + headerSize) c.payload.length = c.payload

end Layout

/-- The bytes the commands of a queue occupy. -/
def total (cs : List Command) : ℕ := (cs.map Command.size).sum

/-- The bytes from `a` on are those of the commands `cs`, one after the other. -/
def Queued (b : Buffer UInt8) : ℕ → List Command → Prop
  | _, [] => True
  | a, c :: cs => Holds b a c ∧ Queued b (a + c.size) cs

variable {b b' : Buffer UInt8} {a base span token : ℕ} {c : Command} {cs : List Command}
  {r : Request}

@[simp] theorem total_nil : total [] = 0 := rfl

@[simp] theorem total_cons : total (c :: cs) = c.size + total cs := rfl

@[simp] theorem total_append {ds : List Command} : total (cs ++ ds) = total cs + total ds := by
  simp [total]

theorem total_eq_zero : total cs = 0 ↔ cs = [] := by
  cases cs with
  | nil => simp
  | cons c cs => simp [Command.size, headerSize]

theorem Holds.commandAt_eq (h : Holds b a c) : commandAt b a = c := by
  have hpayload : c.size - headerSize = c.payload.length := Nat.add_sub_cancel_left _ _
  simp only [commandAt, h.type_eq, h.size_eq, h.token_eq, hpayload, h.payload_eq]

/-- Holding a command depends on the bytes of the command only. -/
theorem Holds.congr (h : Holds b a c) (hload : b'.load a c.size = b.load a c.size) :
    Holds b' a c := by
  have hsize : c.size = 24 + c.payload.length := rfl
  have hpart : ∀ {m n : ℕ}, m + n ≤ c.size → b'.load (a + m) n = b.load (a + m) n := by
    intro m n hmn
    rw [load_sub hmn, load_sub hmn, hload]
  have htype : b'.load a 4 = b.load a 4 := hpart (m := 0) (by omega)
  refine ⟨?_, ?_, ?_, ?_⟩
  · rw [typeAt, htype]
    exact h.type_eq
  · rw [sizeAt, hpart (by omega)]
    exact h.size_eq
  · rw [tokenAt, hpart (by omega)]
    exact h.token_eq
  · rw [headerSize, hpart (by omega)]
    exact h.payload_eq

/-- Both addresses of a byte serve as the address of a command. -/
theorem holds_mod : Holds b (a % b.length) c ↔ Holds b a c := by
  constructor <;> rintro ⟨h1, h2, h3, h4⟩ <;>
    exact ⟨by simpa [typeAt] using h1, by simpa [sizeAt] using h2,
      by simpa [tokenAt] using h3, by simpa using h4⟩

theorem holds_congr_mod {a' : ℕ} (h : a % b.length = a' % b.length) :
    Holds b a c ↔ Holds b a' c := by
  rw [← holds_mod, h, holds_mod]

theorem queued_congr_mod {a' : ℕ} (h : a % b.length = a' % b.length) :
    Queued b a cs ↔ Queued b a' cs := by
  induction cs generalizing a a' with
  | nil => exact Iff.rfl
  | cons c cs ih =>
    exact and_congr (holds_congr_mod h) (ih (Nat.ModEq.add_right c.size h))

@[simp] theorem queued_mod : Queued b (a % b.length) cs ↔ Queued b a cs :=
  queued_congr_mod (Nat.mod_mod a b.length)

theorem queued_append {ds : List Command} :
    Queued b a (cs ++ ds) ↔ Queued b a cs ∧ Queued b (a + total cs) ds := by
  induction cs generalizing a with
  | nil => simp [Queued]
  | cons c cs ih => simp [Queued, ih, and_assoc, Nat.add_assoc]

/-- Holding a queue depends on the bytes of its commands only. -/
theorem Queued.congr (h : Queued b a cs) (hload : b'.load a (total cs) = b.load a (total cs)) :
    Queued b' a cs := by
  induction cs generalizing a with
  | nil => trivial
  | cons c cs ih =>
    rw [total_cons] at hload
    refine ⟨h.1.congr ?_, ih h.2 ?_⟩
    · have hspan : 0 + c.size ≤ c.size + total cs := by omega
      rw [← Nat.add_zero a, load_sub hspan, hload, ← load_sub hspan]
    · rw [load_sub le_rfl, hload, ← load_sub le_rfl]

@[simp] theorem tokenAt_moveHead {n : ℕ} : tokenAt (moveHead b n) a = tokenAt b a := by
  simp only [tokenAt, load_moveHead]

@[simp] theorem tokenAt_addFill {n : ℕ} : tokenAt (addFill b n) a = tokenAt b a := by
  simp only [tokenAt, load_addFill]

@[simp] theorem tokenAt_moveTail {n : ℕ} : tokenAt (moveTail b n) a = tokenAt b a := by
  simp only [tokenAt, load_moveTail]

@[simp] theorem tokenAt_subFill {n : ℕ} : tokenAt (subFill b n) a = tokenAt b a := by
  simp only [tokenAt, load_subFill]

/-! ### What the client stores -/

@[simp] theorem writeCommand_length : (writeCommand b a r).length = b.length := rfl

@[simp] theorem writeCommand_fillCount : (writeCommand b a r).fillCount = b.fillCount := rfl

@[simp] theorem writeCommand_lastToken : (writeCommand b a r).lastToken = b.lastToken := rfl

@[simp] theorem writeToken_fillCount : (writeToken b a token).fillCount = b.fillCount := rfl

@[simp] theorem writeToken_lastToken : (writeToken b a token).lastToken = b.lastToken := rfl

theorem load_toBytes {width n : ℕ} (hn : n < 256 ^ width)
    (hload : b.load a width = LittleEndian.toBytes width n) :
    LittleEndian.ofBytes (b.load a width) = n := by
  rw [hload, LittleEndian.ofBytes_toBytes hn]

theorem load_store_toBytes {width n : ℕ} (h : width ≤ b.length) :
    (b.store a (LittleEndian.toBytes width n)).load a width = LittleEndian.toBytes width n := by
  have hlen : (LittleEndian.toBytes width n).length ≤ b.length := by simpa using h
  simpa using load_store_self (a := a) hlen

/-- A command that fits in the ring is held where it was written. -/
theorem holds_writeCommand (hfit : r.size ≤ b.length) :
    Holds (writeCommand b a r) a (r.toCommand 0) := by
  have hsize : r.size = 24 + r.payload.length := rfl
  refine ⟨?_, ?_, ?_, ?_⟩
  · apply load_toBytes r.type_lt
    rw [writeCommand, headerSize, load_store_above (by omega) (by simp; omega),
      load_store_above (by omega) (by simp; omega), load_store_above (by omega) (by simp; omega),
      load_store_toBytes (by omega)]
  · apply load_toBytes r.size_lt
    rw [writeCommand, headerSize, show a + 24 = a + 8 + 16 by omega,
      load_store_above (by omega) (by simp; omega), show a + 16 = a + 8 + 8 by omega,
      load_store_above (by omega) (by simp; omega)]
    exact load_store_toBytes (by simp; omega)
  · apply load_toBytes (by decide : 0 < 256 ^ 4)
    rw [writeCommand, headerSize, show a + 24 = a + 16 + 8 by omega,
      load_store_above (by omega) (by simp; omega)]
    exact load_store_toBytes (by simp; omega)
  · exact load_store_self (by simp; omega)

/-- Setting the token of a held command changes that field only. -/
theorem Holds.writeToken (h : Holds b a c) (htoken : token < 256 ^ 4) (hfit : c.size ≤ b.length) :
    Holds (writeToken b a token) a { c with token := token } := by
  have hsize : c.size = 24 + c.payload.length := rfl
  refine ⟨?_, ?_, ?_, ?_⟩
  · rw [typeAt, Protocol.writeToken, load_store_above (by omega) (by simp; omega)]
    exact h.type_eq
  · rw [sizeAt, Protocol.writeToken, show a + 16 = a + 8 + 8 by omega,
      load_store_above (by omega) (by simp; omega)]
    exact h.size_eq
  · exact load_toBytes htoken (load_store_toBytes (by omega))
  · rw [Protocol.writeToken, headerSize, show a + 24 = a + 16 + 8 by omega,
      load_store_below (by simp) (by simp; omega)]
    exact h.payload_eq

section Frame

variable {n : ℕ} (hhead : b.head = (base + span) % b.length) (hn : n ≤ span)
include hhead hn

/-- Writing a command in the free space leaves the occupied bytes as they were. -/
theorem load_writeCommand_free (hfit : span + r.size ≤ b.length) :
    (writeCommand b b.head r).load base n = b.load base n := by
  have hsize : r.size = 24 + r.payload.length := rfl
  have hstore : ∀ (b' : Buffer UInt8) (offset : ℕ) (xs : List UInt8), b'.head = b.head →
      b'.length = b.length → offset + xs.length ≤ r.size →
      (b'.store (b.head + offset) xs).load base n = b'.load base n := by
    intro b' offset xs hhead' hlength hxs
    rw [← hhead']
    exact load_store_free (by rw [hhead', hlength]; exact hhead) (by omega) hn
  calc (writeCommand b b.head r).load base n
      = (((b.store b.head (LittleEndian.toBytes 4 r.type)).store (b.head + 8)
          (LittleEndian.toBytes 8 r.size)).store (b.head + 16)
          (LittleEndian.toBytes 4 0)).load base n := hstore _ _ _ rfl rfl le_rfl
    _ = ((b.store b.head (LittleEndian.toBytes 4 r.type)).store (b.head + 8)
          (LittleEndian.toBytes 8 r.size)).load base n := hstore _ _ _ rfl rfl (by simp; omega)
    _ = (b.store b.head (LittleEndian.toBytes 4 r.type)).load base n :=
        hstore _ _ _ rfl rfl (by simp; omega)
    _ = b.load base n := hstore _ 0 _ rfl rfl (by simp; omega)

/-- Writing a token in the free space leaves the occupied bytes as they were. -/
theorem load_writeToken_free (hfit : span + headerSize ≤ b.length) :
    (writeToken b b.head token).load base n = b.load base n := by
  rw [headerSize] at hfit
  exact load_store_free hhead (by simp; omega) hn

end Frame

end GpuProxy.Protocol
