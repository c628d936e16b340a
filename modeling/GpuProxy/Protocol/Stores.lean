import GpuProxy.Protocol.Progress

/-!
# Handlers that store into their commands

A handler stores into the command it handles: the names of the driver in place of those of the
client, and at last the result. Meanwhile the client writes its next commands.

A handler loads its arguments before it stores into them, and stores before `buffer_read_advance`
as often as it likes. All else is as in `GpuProxy.Protocol.Threads`, and every run here is one of
those there, but for the bytes of the arguments.

## Main definitions

* `Calls`, `Calls.step` — both threads, with the stores of the handlers
* `Tracks` — a run of the threads without these stores goes along

## Main results

* `Tracks.exists_step` — a step of the threads is one of the other run
* `ran_isPrefix_issued_of_stores` — no store of a handler reaches another command
-/

namespace GpuProxy.Protocol

open RingBuffer Math

variable {length : ℕ} {todo : List Request} {s t : State} {thread : Thread}

/-! ### Handlers that store -/

/-- The arguments of the command at `a`, with its result. -/
def argumentsAt (b : Buffer UInt8) (a : ℕ) : List UInt8 :=
  b.load (a + headerSize) (sizeAt b a - headerSize)

/-- The `command` pointer of the call the client is in, until the call only waits. -/
def ClientPc.target : ClientPc → Option ℕ
  | .reserved _ a | .written _ a | .stamped _ a _ | .headMoved _ a _ _ | .added _ a _ => some a
  | _ => none

/-- Both threads. `left` is a record for the results about the model: the arguments of the commands
as the handlers left them. -/
structure Calls where
  threads : State
  /-- The `command` pointer of the last call. -/
  command : ℕ
  left : List (List UInt8)

/-- The steps of the threads, and the stores of the handler at an offset in its arguments. -/
inductive CallStep
  | run (thread : Thread)
  | store (offset : ℕ) (bytes : List UInt8)

/-- What the handlers left, after a step of the server: a handler that returns leaves the arguments
as they are. -/
def leftAfter (pc : ServerPc) (buffer : Buffer UInt8) (left : List (List UInt8)) :
    List (List UInt8) :=
  match pc with
  | .advancing a => left ++ [argumentsAt buffer a]
  | _ => left

def Calls.step (c : Calls) : CallStep → Option Calls
  | .run .client => (Protocol.step c.threads .client).map fun t =>
    { c with threads := t, command := t.client.target.getD c.command }
  | .run .server => (Protocol.step c.threads .server).map fun t =>
    { c with
      threads := t
      left := leftAfter c.threads.server c.threads.buffer c.left }
  | .store offset bytes =>
    match c.threads.server with
    | .advancing a =>
      if offset + bytes.length ≤ sizeAt c.threads.buffer a - headerSize then
        some { c with threads := { c.threads with
          buffer := c.threads.buffer.store (a + headerSize + offset) bytes } }
      else none
    | _ => none

/-- Every interleaving of a client and its server, with any stores of the handlers. -/
def callSystem (length : ℕ) (todo : List Request) : System Calls CallStep :=
  .ofStep (fun c => ∃ memory, c = ⟨initial length memory todo, 0, []⟩) Calls.step

/-! ### The queue without the command in hand -/

/-- The commands handed over that no handler has got yet. -/
def State.pending (s : State) : List Command := s.issued.drop s.ran.length

/-- Where they start. -/
def State.pendingStart (s : State) : ℕ := s.buffer.tail + total (s.queue.take s.server.inHand)

/-- The commands whose handler has returned. -/
def State.returned (s : State) : List Command := s.ran.take (s.ran.length - s.server.inHand)

theorem Framed.issued_eq_returned (h : Framed length s) : s.issued = s.returned ++ s.queue := by
  obtain ⟨cs, hcs⟩ := h.ran_isPrefix
  rw [State.returned, State.queue, ← hcs, List.drop_append_of_le_length (Nat.sub_le _ _),
    ← List.append_assoc, List.take_append_drop]

theorem pending_eq (hin : s.server.inHand = 0) :
    s.pending = s.queue ∧ s.pendingStart = s.buffer.tail := by
  simp [State.pending, State.pendingStart, State.queue, hin]

/-- A command in hand comes right before the pending ones. -/
theorem Framed.exists_inHand (h : Framed length s) {a : ℕ} (hpc : s.server = .advancing a) :
    ∃ c, s.queue = c :: s.pending ∧ a = s.buffer.tail ∧ s.pendingStart = a + c.size ∧
      Holds s.buffer a c ∧ s.ran = s.returned ++ [c] := by
  have hserver := h.server
  simp only [ServerFramed, hpc] at hserver
  obtain ⟨rfl, hran⟩ := hserver
  obtain ⟨c, cs, hlast, hqueue, rfl⟩ := h.queue_eq_of_inHand (by simp [hpc, ServerPc.inHand]) hran
  refine ⟨c, hqueue, rfl, ?_, h.commandAt_tail hqueue, ?_⟩
  · simp [State.pendingStart, hqueue, hpc, ServerPc.inHand]
  · rw [State.returned, hpc, ServerPc.inHand, ← List.dropLast_eq_take,
      List.dropLast_append_getLast? c hlast]

theorem ServerPc.inHand_eq_zero_or (pc : ServerPc) : pc.inHand = 0 ∨ ∃ a, pc = .advancing a := by
  cases pc with
  | advancing a => exact .inr ⟨a, rfl⟩
  | _ => exact .inl rfl

theorem total_dropLast_add_le (cs : List Command) (h : cs ≠ []) :
    total cs.dropLast + 24 ≤ total cs := by
  have hsize : 24 ≤ (cs.getLast h).size := (cs.getLast h).headerSize_le
  conv_rhs => rw [← List.dropLast_concat_getLast h, total_append, total_cons, total_nil]
  omega

/-- The pending commands are the end of the queue. -/
theorem Framed.total_queue (h : Framed length s) :
    s.buffer.tail + total s.queue = s.pendingStart + total s.pending := by
  obtain hin | ⟨a, hpc⟩ := s.server.inHand_eq_zero_or
  · obtain ⟨hpending, hstart⟩ := pending_eq hin
    rw [hpending, hstart]
  · obtain ⟨c, hqueue, rfl, hstart, -, -⟩ := h.exists_inHand hpc
    rw [hqueue, total_cons, hstart, Nat.add_assoc]

/-- A command that is handed over comes after the pending ones. -/
theorem Framed.queue_append (h : Framed length s) (c : Command) :
    (s.issued ++ [c]).drop (s.ran.length - s.server.inHand) = s.queue ++ [c] ∧
      (s.issued ++ [c]).drop s.ran.length = s.pending ++ [c] ∧
      (s.queue ++ [c]).take s.server.inHand = s.queue.take s.server.inHand := by
  have hran := h.ran_isPrefix.length_le
  refine ⟨List.drop_append_of_le_length (by omega), List.drop_append_of_le_length hran, ?_⟩
  obtain hin | ⟨a, hpc⟩ := s.server.inHand_eq_zero_or
  · rw [hin, List.take_zero, List.take_zero]
  · obtain ⟨d, hqueue, -⟩ := h.exists_inHand hpc
    rw [hqueue, hpc]
    rfl

theorem Framed.total_pending_le (h : Framed length s) : total s.pending ≤ s.buffer.fillCount := by
  have hfill := h.fill_eq
  have hqueue := h.total_queue
  have hstart : s.buffer.tail ≤ s.pendingStart := Nat.le_add_right _ _
  omega

/-! ### A run without the stores of the handlers -/

/-- The header of the command that the server is done with when it has moved on. -/
def ServerPc.handled : ServerPc → Option ℕ
  | .advancing a | .releasing a _ | .readingToken a => some a
  | _ => none

/-- What the ring holds of the command that the client is in the middle of. -/
def ClientHolds (b : Buffer UInt8) : ClientPc → Prop
  | .written r a => Holds b a (r.toCommand 0)
  | .stamped r a token | .headMoved r a token _ => Holds b a (r.toCommand token)
  | .added r a _ => sizeAt b a = r.size
  | _ => True

theorem ClientHolds.congr {b b' : Buffer UInt8} {pc : ClientPc} (h : ClientHolds b pc)
    (hload : ∀ a n, b'.load a n = b.load a n) : ClientHolds b' pc := by
  cases pc with
  | written | stamped | headMoved => exact Holds.congr h (hload _ _)
  | added => exact (congrArg LittleEndian.ofBytes (hload _ _)).trans h
  | _ => trivial

/-- The two addresses of a byte, also as the base of an offset. -/
theorem load_congr_mod {b : Buffer UInt8} {a a' k n : ℕ} (h : a % b.length = a' % b.length) :
    b.load (a + k) n = b.load (a' + k) n := by
  rw [← load_mod_add, h, load_mod_add]

/-- The threads are in the state `s` but for the bytes in the ring, which `buffer` has. There the
commands are intact that no handler has got, and of the one handled last, the size and the token.
The `command` pointer is that of the last command handed over, where its handler left what it
did. -/
structure Tracks (s : State) (buffer : Buffer UInt8) (command : ℕ) (left : List (List UInt8)) :
    Prop where
  same : buffer = { s.buffer with memory := buffer.memory }
  client : ClientHolds buffer s.client
  pending : Queued buffer s.pendingStart s.pending
  handled : ∀ a, s.server.handled = some a → buffer.load (a + 8) 12 = s.buffer.load (a + 8) 12
  target : ∀ a, s.client.target = some a → command = a
  located : s.client.inFlight = none → s.queue ≠ [] →
    command % s.buffer.length = (s.buffer.tail + total s.queue.dropLast) % s.buffer.length
  lengths : left.map List.length = s.returned.map (·.payload.length)
  result : s.client.inFlight = none → s.queue = [] → ∀ arguments, left.getLast? = some arguments →
    buffer.load (command + headerSize) arguments.length = arguments

variable {buffer : Buffer UInt8} {command : ℕ} {left : List (List UInt8)}

theorem tracks_initial (memory : ℕ → UInt8) :
    Tracks (initial length memory todo) (initial length memory todo).buffer 0 [] := by
  constructor <;>
    simp [initial, bufferCreate, ClientHolds, State.pending, Queued, ServerPc.handled,
      ClientPc.target, State.queue, State.returned]

namespace Tracks

theorem length_eq (h : Tracks s buffer command left) : buffer.length = s.buffer.length := by
  rw [h.same]

/-- What the server finds of the command it has handled. -/
theorem header_eq (h : Tracks s buffer command left) {a : ℕ} (hpc : s.server.handled = some a) :
    sizeAt buffer a = sizeAt s.buffer a ∧ tokenAt buffer a = tokenAt s.buffer a := by
  have hload := h.handled a hpc
  rw [show 12 = 8 + 4 from rfl, load_add, load_add] at hload
  obtain ⟨hsize, htoken⟩ := List.append_inj hload (by simp [Buffer.load])
  exact ⟨congrArg LittleEndian.ofBytes hsize, congrArg LittleEndian.ofBytes htoken⟩

/-! ### The steps of the client -/

/-- A step of the client that stores nothing. -/
theorem of_clientPc {pc : ClientPc} {m n : ℕ} {todo : List Request}
    (h : Tracks s buffer command left) (hclient : ClientHolds buffer pc)
    (hflight : pc.inFlight = none → s.client.inFlight = none ∧ pc.target.getD command = command) :
    Tracks { s with serverSignal := m, clientSignal := n, todo := todo, client := pc } buffer
      (pc.target.getD command) left := by
  refine { h with
    client := hclient, target := ?_, located := ?_, result := ?_ }
  · intro a ha
    change pc.target = some a at ha
    rw [ha]
    rfl
  · intro hnone hqueue
    obtain ⟨hbefore, hcommand⟩ := hflight hnone
    rw [hcommand]
    exact h.located hbefore hqueue
  · intro hnone hqueue
    obtain ⟨hbefore, hcommand⟩ := hflight hnone
    rw [hcommand]
    exact h.result hbefore hqueue

/-- A store of the client into the room it has reserved, in both runs. -/
theorem of_clientStore {b b' : Buffer UInt8} {pc : ClientPc} (token : ℕ)
    (h : Tracks s buffer command left) (hb : b = { s.buffer with memory := b.memory })
    (hb' : b' = { buffer with memory := b'.memory }) (hclient : ClientHolds b' pc)
    (hflight : pc.inFlight ≠ none) (htarget : pc.target = s.client.target)
    (hpending : b'.load s.pendingStart (total s.pending) =
      buffer.load s.pendingStart (total s.pending))
    (hhandled : ∀ a, buffer.load a 12 = s.buffer.load a 12 → b'.load a 12 = b.load a 12) :
    Tracks { s with buffer := b, token := token, client := pc } b' command left := by
  have htail : b.tail = s.buffer.tail := by rw [hb]
  have hsame : b' = { b with memory := b'.memory } := by
    rw [hb', h.same, hb]
  refine ⟨hsame, hclient, ?_, fun a ha => hhandled _ (h.handled a ha), fun a ha => ?_,
    fun hnone => absurd hnone hflight, h.lengths, fun hnone => absurd hnone hflight⟩
  · have hstart : State.pendingStart { s with buffer := b, token := token, client := pc } =
        s.pendingStart := congrArg (· + _) htail
    rw [hstart]
    exact h.pending.congr hpending
  · exact h.target a (htarget.symm.trans ha)

theorem write {r : Request} {a : ℕ} (h : Tracks s buffer command left) (hf : Framed length s)
    (hpc : s.client = .reserved r a) :
    Tracks { s with buffer := writeCommand s.buffer a r, client := .written r a }
      (writeCommand buffer a r) command left := by
  have hclient := hf.client
  simp only [ClientFramed, hpc] at hclient
  obtain ⟨rfl, hfit⟩ := hclient
  have hlength := h.length_eq
  have hle := hf.total_pending_le
  have hhead : buffer.head = (s.pendingStart + total s.pending) % buffer.length := by
    rw [h.same]
    simpa [hf.total_queue] using hf.head_eq_of_idle (by rw [hpc]; rfl)
  have hheadeq : buffer.head = s.buffer.head := by rw [h.same]
  refine h.of_clientStore s.token rfl rfl ?_ (by simp [ClientPc.inFlight])
    (by simp [hpc, ClientPc.target]) ?_ ?_
  · exact holds_writeCommand (by omega)
  · rw [← hheadeq]
    exact load_writeCommand_free hhead le_rfl (by omega)
  · intro a ha
    exact load_store_congr hlength (load_store_congr hlength (load_store_congr hlength
      (load_store_congr hlength ha)))

theorem stamp {r : Request} {a : ℕ} (h : Tracks s buffer command left) (hf : Framed length s)
    (hpc : s.client = .written r a) (counter : ℕ) :
    Tracks { s with
        token := bumpToken counter
        buffer := writeToken s.buffer a (commandToken (bumpToken counter))
        client := .stamped r a (commandToken (bumpToken counter)) }
      (writeToken buffer a (commandToken (bumpToken counter))) command left := by
  have hclient := hf.client
  simp only [ClientFramed, hpc] at hclient
  obtain ⟨rfl, hfit, -⟩ := hclient
  have hlength := h.length_eq
  have hsize : headerSize ≤ r.size := r.headerSize_le
  have hle := hf.total_pending_le
  have hhead : buffer.head = (s.pendingStart + total s.pending) % buffer.length := by
    rw [h.same]
    simpa [hf.total_queue] using hf.head_eq_of_idle (by rw [hpc]; rfl)
  have hheadeq : buffer.head = s.buffer.head := by rw [h.same]
  have hholds := h.client
  rw [hpc] at hholds
  refine h.of_clientStore (bumpToken counter) rfl rfl ?_ (by simp [ClientPc.inFlight])
    (by simp [hpc, ClientPc.target]) ?_ ?_
  · exact Holds.writeToken hholds (commandToken_lt _) (by simp; omega)
  · rw [← hheadeq]
    exact load_writeToken_free hhead le_rfl (by omega)
  · exact fun a ha => load_store_congr hlength ha

/-- Both runs load the size that the client has stored. -/
theorem startAdvance {r : Request} {a token : ℕ} (h : Tracks s buffer command left)
    (htarget : s.client.target = some a) (hholds : Holds buffer a (r.toCommand token))
    (hsize : sizeAt s.buffer a = r.size) :
    Tracks (Protocol.startAdvance s r a token) (moveHead buffer r.size) command left := by
  have hsame : moveHead buffer r.size =
      { moveHead s.buffer r.size with memory := (moveHead buffer r.size).memory } := by
    rw [h.same]
    rfl
  unfold Protocol.startAdvance
  rw [hsize]
  exact ⟨hsame, hholds.congr rfl, h.pending.congr rfl, h.handled,
    fun a' ha' => h.target a' (htarget.trans ha'), nofun, h.lengths, nofun⟩

theorem handOver {r : Request} {a token count : ℕ} (h : Tracks s buffer command left)
    (hf : Framed length s) (hpc : s.client = .headMoved r a token count) :
    Tracks { s with
        buffer := addFill s.buffer count
        issued := s.issued ++ [r.toCommand token]
        client := .added r a token } (addFill buffer count) command left := by
  have hclient := hf.client
  simp only [ClientFramed, hpc] at hclient
  obtain ⟨-, -, haddr, -⟩ := hclient
  have hholds := h.client
  rw [hpc] at hholds
  have hcommand : command = a := h.target a (by rw [hpc]; rfl)
  obtain ⟨hqueue, hpending, htake⟩ := hf.queue_append (r.toCommand token)
  have hsame : addFill buffer count =
      { addFill s.buffer count with memory := (addFill buffer count).memory } := by
    rw [h.same]
    rfl
  refine ⟨hsame, hholds.size_eq, ?_, h.handled, fun a' ha' => ?_, fun _ _ => ?_, h.lengths,
    fun _ hnil => ?_⟩
  · rw [State.pendingStart, State.queue, State.pending]
    simp only
    rw [hpending, hqueue, htake, queued_append]
    refine ⟨h.pending.congr rfl, ?_, trivial⟩
    have hmod : a % buffer.length = (s.pendingStart + total s.pending) % buffer.length := by
      rw [h.length_eq, haddr, hf.total_queue]
    exact ((holds_congr_mod hmod).mp hholds).congr rfl
  · simp only [ClientPc.target, Option.some.injEq] at ha'
    rw [hcommand, ha']
  · rw [State.queue]
    simp only
    rw [hqueue, List.dropLast_concat, hcommand]
    exact haddr
  · rw [State.queue] at hnil
    simp only at hnil
    rw [hqueue] at hnil
    simp at hnil

/-! ### The steps of the server -/

/-- A step of the server that keeps the queue and handles no command. -/
theorem of_serverPc {pc : ServerPc} {m n lastToken fill : ℕ} (h : Tracks s buffer command left)
    (hin : pc.inHand = s.server.inHand)
    (hhandled : ∀ a, pc.handled = some a → s.server.handled = some a) :
    Tracks { s with
        buffer := { s.buffer with lastToken := lastToken, fillCount := fill }
        serverSignal := m, clientSignal := n, server := pc }
      { buffer with lastToken := lastToken, fillCount := fill } command left := by
  have hsame : ({ buffer with lastToken := lastToken, fillCount := fill } : Buffer UInt8) =
      { s.buffer with
        lastToken := lastToken, fillCount := fill, memory := buffer.memory } := by
    rw [h.same]
  refine ⟨hsame, ?_, ?_, fun a ha => h.handled a (hhandled a ha), h.target, ?_, ?_, ?_⟩
  · exact h.client.congr fun _ _ => rfl
  · simp only [State.pendingStart, State.pending, State.queue, hin]
    exact Queued.congr h.pending rfl
  · simp only [State.queue, hin]
    exact h.located
  · simp only [State.returned, hin]
    exact h.lengths
  · simp only [State.queue, hin]
    exact h.result

/-- The handler gets the command that it gets in the other run. -/
theorem handle {a : ℕ} (h : Tracks s buffer command left) (hf : Framed length s)
    (hpc : s.server = .handling a) :
    commandAt buffer a = commandAt s.buffer a ∧
      Tracks { s with ran := s.ran ++ [commandAt s.buffer a], server := .advancing a } buffer
        command left := by
  have hserver := hf.server
  simp only [ServerFramed, hpc] at hserver
  obtain ⟨rfl, hne⟩ := hserver
  obtain ⟨c, cs, hqueue⟩ := List.exists_cons_of_ne_nil hne
  obtain ⟨hpending, hstart⟩ := pending_eq (by rw [hpc]; rfl : s.server.inHand = 0)
  have hqueued := h.pending
  rw [hpending, hstart, hqueue] at hqueued
  obtain ⟨hholds, hqueued⟩ := hqueued
  have hbase := hf.commandAt_tail hqueue
  have hcommand := hbase.commandAt_eq
  have hheader : buffer.load (s.buffer.tail + 8) 12 = s.buffer.load (s.buffer.tail + 8) 12 := by
    rw [show 12 = 8 + 4 from rfl, load_add, load_add]
    congr 1
    · exact LittleEndian.eq_of_ofBytes_eq (by simp [Buffer.load])
        (hholds.size_eq.trans hbase.size_eq.symm)
    · exact LittleEndian.eq_of_ofBytes_eq (by simp [Buffer.load])
        (hholds.token_eq.trans hbase.token_eq.symm)
  have hqueue' : State.queue { s with
      ran := s.ran ++ [commandAt s.buffer s.buffer.tail], server := .advancing s.buffer.tail } =
      s.queue := by
    simp [State.queue, hpc, ServerPc.inHand]
  have hpending' : s.issued.drop (s.ran.length + 1) = cs := by
    have hdrop : s.issued.drop s.ran.length = c :: cs := hpending.trans hqueue
    rw [← List.drop_drop, hdrop]
    rfl
  refine ⟨hholds.commandAt_eq.trans hcommand.symm, h.same, h.client, ?_, fun a ha => ?_, h.target,
    ?_, ?_, ?_⟩
  · rw [State.pendingStart, hqueue', hqueue]
    simpa [State.pending, hpending', ServerPc.inHand] using hqueued
  · obtain rfl := Option.some.inj ha
    exact hheader
  · rw [hqueue']
    exact h.located
  · have hreturned := h.lengths
    simp only [State.returned, hpc, ServerPc.inHand, Nat.sub_zero, List.take_length] at hreturned
    simp [State.returned, ServerPc.inHand, hreturned]
  · rw [hqueue']
    exact h.result

/-- Moving `tail` ends the handling of the command in hand. -/
theorem advance {a : ℕ} (h : Tracks s buffer command left) (hf : Framed length s)
    (hpc : s.server = .advancing a) :
    Tracks { s with
        buffer := moveTail s.buffer (sizeAt s.buffer a)
        server := .releasing a (sizeAt s.buffer a) }
      (moveTail buffer (sizeAt buffer a)) command (left ++ [argumentsAt buffer a]) := by
  obtain ⟨c, hqueue, rfl, hstart, hholds, hran⟩ := hf.exists_inHand hpc
  have hsize := (h.header_eq (by rw [hpc]; rfl : s.server.handled = some s.buffer.tail)).1
  rw [argumentsAt, hsize, hholds.size_eq]
  have hcount : c.size - headerSize = c.payload.length := Nat.add_sub_cancel_left _ _
  have hsame : moveTail buffer c.size =
      { moveTail s.buffer c.size with memory := (moveTail buffer c.size).memory } := by
    rw [h.same]
    rfl
  have hqueue' : State.queue { s with
      buffer := moveTail s.buffer c.size, server := .releasing s.buffer.tail c.size } =
      s.pending := by
    simp [State.queue, State.pending, ServerPc.inHand]
  refine ⟨hsame, h.client.congr fun _ _ => rfl, ?_, fun a' ha' => ?_, h.target, fun hnone hne => ?_,
    ?_, fun hnone hnil arguments hlast => ?_⟩
  · have hmod : ((s.buffer.tail + c.size) % s.buffer.length) % buffer.length =
        s.pendingStart % buffer.length := by
      rw [h.length_eq, hstart, Nat.mod_mod]
    exact Queued.congr ((queued_congr_mod hmod).mpr h.pending) rfl
  · exact h.handled a' (by rwa [hpc])
  · rw [hqueue'] at hne
    rw [hqueue']
    have hlocated := h.located hnone (by rw [hqueue]; exact List.cons_ne_nil _ _)
    rw [hqueue, List.dropLast_cons_of_ne_nil hne, total_cons, ← Nat.add_assoc] at hlocated
    simpa [moveTail] using hlocated
  · have hreturned : State.returned { s with
        buffer := moveTail s.buffer c.size, server := .releasing s.buffer.tail c.size } =
        s.returned ++ [c] := by
      rw [← hran]
      exact List.take_length
    rw [hreturned, List.map_append, List.map_append, h.lengths, hcount]
    simp [Buffer.load]
  · rw [hqueue'] at hnil
    have hlocated := h.located hnone (by rw [hqueue]; exact List.cons_ne_nil _ _)
    rw [hqueue, hnil] at hlocated
    obtain rfl : buffer.load (s.buffer.tail + headerSize) (c.size - headerSize) = arguments := by
      simpa using hlast
    have hmod : command % buffer.length = s.buffer.tail % buffer.length := by
      rw [h.length_eq, hlocated]
      rfl
    have hload : (buffer.load (s.buffer.tail + headerSize) (c.size - headerSize)).length =
        c.size - headerSize := by
      simp [Buffer.load]
    rw [load_moveTail, hload]
    exact load_congr_mod hmod

/-! ### The stores of a handler -/

/-- The bytes of a command in hand are apart from those behind it, and from its own header. -/
theorem load_store_arguments {b : Buffer UInt8} {a offset m n : ℕ} {c : Command}
    {bytes : List UInt8} (hfit : headerSize + offset + bytes.length ≤ c.size)
    (hwithin : m + n ≤ headerSize ∨ c.size ≤ m) (hn : m + n ≤ b.length)
    (hsize : c.size ≤ b.length) :
    (b.store (a + headerSize + offset) bytes).load (a + m) n = b.load (a + m) n := by
  apply load_store_of_disjoint
  omega

/-- If the bytes outside the arguments of the command in hand are as they were, so is the command
that the client is in the middle of. -/
theorem clientHolds_of_keep {b' : Buffer UInt8} {c : Command} (h : Tracks s buffer command left)
    (hf : Framed length s) (hqueue : s.queue = c :: s.pending)
    (hfill : s.buffer.fillCount = total s.queue) (hlength' : b'.length = s.buffer.length)
    (hkeep : ∀ m n, m + n ≤ headerSize ∨ c.size ≤ m → m + n ≤ s.buffer.length →
      b'.load (s.buffer.tail + m) n = buffer.load (s.buffer.tail + m) n) :
    ClientHolds b' s.client := by
  have hlength := h.length_eq
  have hle := hf.fill_le
  have htotal : total s.queue = c.size + total s.pending := by rw [hqueue, total_cons]
  have hbehind : ∀ a' k, a' % s.buffer.length = (s.buffer.tail + total s.queue) % s.buffer.length →
      s.buffer.fillCount + k.size ≤ s.buffer.length → Holds buffer a' k → Holds b' a' k := by
    intro a' k ha' hroom hk
    have hmoved : Holds buffer (s.buffer.tail + total s.queue) k :=
      (holds_congr_mod (by rw [hlength, ha'])).mp hk
    refine (holds_congr_mod (by rw [hlength', ha'])).mpr (hmoved.congr ?_)
    rw [htotal]
    exact hkeep _ _ (.inr (Nat.le_add_right _ _)) (by omega)
  have hlast := total_dropLast_add_le s.queue (by rw [hqueue]; exact List.cons_ne_nil _ _)
  have hclient := h.client
  have hframed := hf.client
  simp only [ClientFramed] at hframed
  cases hcase : s.client <;> rw [hcase] at hclient hframed
  case written r a' =>
    exact hbehind _ _ (by rw [hframed.1, hf.head_eq_of_idle (by rw [hcase]; rfl), Nat.mod_mod])
      hframed.2.1 hclient
  case stamped r a' token =>
    exact hbehind _ _ (by rw [hframed.1, hf.head_eq_of_idle (by rw [hcase]; rfl), Nat.mod_mod])
      hframed.2.1 hclient
  case headMoved r a' token count => exact hbehind _ _ hframed.2.2.1 hframed.2.1 hclient
  case added r a' token =>
    have hcommand : command = a' := h.target a' (by rw [hcase]; rfl)
    have hlocated := h.located (by rw [hcase]; rfl) (by rw [hqueue]; exact List.cons_ne_nil _ _)
    rw [hcommand] at hlocated
    refine Eq.trans (congrArg LittleEndian.ofBytes ?_) hclient
    have hmod : ∀ {b : Buffer UInt8}, b.length = s.buffer.length → b.load (a' + 8) 8 =
        b.load (s.buffer.tail + (total s.queue.dropLast + 8)) 8 := by
      intro b hb
      rw [← Nat.add_assoc]
      exact load_congr_mod (by rw [hb, hlocated])
    rw [hmod hlength', hmod hlength]
    apply hkeep
    · -- The command that was handed over last is the one in hand, or comes later.
      cases hpending : s.pending with
      | nil => exact .inl (by simp [hqueue, hpending, headerSize])
      | cons d ds =>
        rw [hqueue, hpending, List.dropLast_cons_of_ne_nil (List.cons_ne_nil _ _), total_cons]
        exact .inr (by omega)
    · omega
  all_goals trivial

/-- What the handler of the command in hand stores into its arguments. -/
theorem store {a offset : ℕ} {bytes : List UInt8} (h : Tracks s buffer command left)
    (hf : Framed length s) (hpc : s.server = .advancing a)
    (hfit : offset + bytes.length ≤ sizeAt buffer a - headerSize) :
    Tracks s (buffer.store (a + headerSize + offset) bytes) command left := by
  obtain ⟨c, hqueue, rfl, hstart, hholds, hran⟩ := hf.exists_inHand hpc
  have hsize := (h.header_eq (by rw [hpc]; rfl : s.server.handled = some s.buffer.tail)).1
  rw [hsize, hholds.size_eq] at hfit
  have hheader : 24 ≤ c.size := c.headerSize_le
  have hfit' : headerSize + offset + bytes.length ≤ c.size := by
    simp only [headerSize] at hfit ⊢
    omega
  have hlength := h.length_eq
  have hfill : s.buffer.fillCount = total s.queue := by
    simpa [hpc, ServerPc.owed] using hf.fill_eq
  have hle := hf.fill_le
  have htotal : total s.queue = c.size + total s.pending := by rw [hqueue, total_cons]
  have hkeep : ∀ m n, m + n ≤ headerSize ∨ c.size ≤ m → m + n ≤ s.buffer.length →
      (buffer.store (s.buffer.tail + headerSize + offset) bytes).load (s.buffer.tail + m) n =
        buffer.load (s.buffer.tail + m) n :=
    fun m n hwithin hn => load_store_arguments hfit' hwithin (by omega) (by omega)
  have hsame : buffer.store (s.buffer.tail + headerSize + offset) bytes =
      { s.buffer with
        memory := (buffer.store (s.buffer.tail + headerSize + offset) bytes).memory } := by
    rw [h.same]
    rfl
  have hlength' : (buffer.store (s.buffer.tail + headerSize + offset) bytes).length =
      s.buffer.length := hlength
  generalize buffer.store (s.buffer.tail + headerSize + offset) bytes = b' at hkeep hsame hlength' ⊢
  refine ⟨hsame, h.clientHolds_of_keep hf hqueue hfill hlength' hkeep, ?_, fun a' ha' => ?_,
    h.target, h.located, h.lengths, fun _ hnil => ?_⟩
  · refine h.pending.congr ?_
    rw [hstart]
    exact hkeep _ _ (.inr le_rfl) (by omega)
  · rw [hpc] at ha'
    obtain rfl := Option.some.inj ha'
    rw [hkeep 8 12 (.inl (by decide)) (by omega)]
    exact h.handled _ (by rw [hpc]; rfl)
  · rw [hqueue] at hnil
    cases hnil

end Tracks

/-! ### Runs -/

theorem target_afterPublish (token : ℕ) : (afterPublish token).target = none := by
  unfold afterPublish
  split <;> rfl

theorem clientHolds_afterPublish (token : ℕ) : ClientHolds buffer (afterPublish token) := by
  unfold afterPublish
  split <;> trivial

theorem Tracks.exists_startAdvance {r : Request} {a token : ℕ} (h : Tracks s buffer command left)
    (hpc : s.client = .written r a ∧ token = 0 ∨ s.client = .stamped r a token)
    (hf : Framed length s) :
    ∃ buffer', Protocol.startAdvance { s with buffer := buffer } r a token =
        { Protocol.startAdvance s r a token with buffer := buffer' } ∧
      Tracks (Protocol.startAdvance s r a token) buffer' a left := by
  have hclient := hf.client
  have hbuffer := h.client
  have hboth : s.client.target = some a ∧ Holds s.buffer a (r.toCommand token) ∧
      Holds buffer a (r.toCommand token) := by
    simp only [ClientFramed] at hclient
    obtain ⟨hpc, rfl⟩ | hpc := hpc <;> rw [hpc] at hclient hbuffer ⊢ <;>
      exact ⟨rfl, hclient.2.2, hbuffer⟩
  obtain ⟨htarget, hholds, hholds'⟩ := hboth
  have hsize : sizeAt s.buffer a = r.size := hholds.size_eq
  have hsize' : sizeAt buffer a = r.size := hholds'.size_eq
  obtain rfl := h.target a htarget
  refine ⟨moveHead buffer r.size, ?_, h.startAdvance htarget hholds' hsize⟩
  simp only [Protocol.startAdvance, hsize, hsize']

/-- Both runs find the size of the command that was handed over. -/
theorem Tracks.sizeAt_added {r : Request} {a token : ℕ} (h : Tracks s buffer command left)
    (hf : Framed length s) (hpc : s.client = .added r a token) :
    sizeAt buffer a = sizeAt s.buffer a := by
  have hclient := hf.client
  have hbuffer := h.client
  simp only [ClientFramed, hpc] at hclient
  rw [hpc] at hbuffer
  exact Eq.trans hbuffer hclient.1.symm

/-- A step of the client is one of the other run. -/
theorem Tracks.exists_clientMove (h : Tracks s buffer command left) (hf : Framed length s)
    (hmove : Move { s with buffer := buffer } .client t) :
    ∃ t' buffer', Move s .client t' ∧ t = { t' with buffer := buffer' } ∧
      Tracks t' buffer' (t.client.target.getD command) left := by
  obtain ⟨memory, rfl⟩ : ∃ memory, buffer = { s.buffer with memory := memory } := ⟨_, h.same⟩
  cases hmove with
  | spin hpc htodo hlength hroom =>
    refine ⟨_, _, .spin hpc htodo hlength hroom, rfl, ?_⟩
    rw [show ClientPc.target _ = none from congrArg ClientPc.target hpc]
    exact h
  | reserve hpc htodo hfit =>
    exact ⟨_, _, .reserve hpc htodo hfit, rfl, h.of_clientPc trivial nofun⟩
  | write hpc =>
    obtain rfl := h.target _ (congrArg ClientPc.target hpc)
    exact ⟨_, _, .write hpc, rfl, h.write hf hpc⟩
  | stamp hpc hsync =>
    obtain rfl := h.target _ (congrArg ClientPc.target hpc)
    exact ⟨_, _, .stamp hpc hsync, rfl, h.stamp hf hpc _⟩
  | publishAsync hpc hsync =>
    obtain ⟨buffer', hadvance, htracks⟩ := h.exists_startAdvance (.inl ⟨hpc, rfl⟩) hf
    refine ⟨_, buffer', .publishAsync hpc hsync, hadvance, ?_⟩
    rw [startAdvance_client]
    exact htracks
  | publishSync hpc =>
    obtain ⟨buffer', hadvance, htracks⟩ := h.exists_startAdvance (.inr hpc) hf
    refine ⟨_, buffer', .publishSync hpc, hadvance, ?_⟩
    rw [startAdvance_client]
    exact htracks
  | handOver hpc =>
    obtain rfl := h.target _ (congrArg ClientPc.target hpc)
    exact ⟨_, _, .handOver hpc, rfl, h.handOver hf hpc⟩
  | foundEmpty hpc hfill =>
    rw [h.sizeAt_added hf hpc] at hfill
    exact ⟨_, _, .foundEmpty hpc hfill, rfl, h.of_clientPc trivial fun _ =>
      ⟨congrArg ClientPc.inFlight hpc, rfl⟩⟩
  | foundBusy hpc hfill =>
    rw [h.sizeAt_added hf hpc] at hfill
    refine ⟨_, _, .foundBusy hpc hfill, rfl, ?_⟩
    exact h.of_clientPc (clientHolds_afterPublish _) fun _ =>
      ⟨congrArg ClientPc.inFlight hpc, by rw [target_afterPublish]; rfl⟩
  | postServer hpc =>
    refine ⟨_, _, .postServer hpc, rfl, ?_⟩
    exact h.of_clientPc (clientHolds_afterPublish _) fun _ =>
      ⟨congrArg ClientPc.inFlight hpc, by rw [target_afterPublish]; rfl⟩
  | sleepClient hpc hlast =>
    exact ⟨_, _, .sleepClient hpc hlast, rfl, h.of_clientPc trivial fun _ =>
      ⟨congrArg ClientPc.inFlight hpc, rfl⟩⟩
  | leave hpc hlast =>
    exact ⟨_, _, .leave hpc hlast, rfl, h.of_clientPc trivial fun _ =>
      ⟨congrArg ClientPc.inFlight hpc, rfl⟩⟩
  | wakeClient hpc hsignal =>
    exact ⟨_, _, .wakeClient hpc hsignal, rfl, h.of_clientPc trivial fun _ =>
      ⟨congrArg ClientPc.inFlight hpc, rfl⟩⟩

/-- Both runs find the type of the first command of the queue. -/
theorem Tracks.typeAt_dispatching {a : ℕ} (h : Tracks s buffer command left) (hf : Framed length s)
    (hpc : s.server = .dispatching a) : typeAt buffer a = typeAt s.buffer a := by
  have hserver := hf.server
  simp only [ServerFramed, hpc] at hserver
  obtain ⟨rfl, hne⟩ := hserver
  obtain ⟨c, cs, hqueue⟩ := List.exists_cons_of_ne_nil hne
  obtain ⟨hpending, hstart⟩ := pending_eq (by rw [hpc]; rfl : s.server.inHand = 0)
  have hqueued := h.pending
  rw [hpending, hstart, hqueue] at hqueued
  exact hqueued.1.type_eq.trans (hf.commandAt_tail hqueue).type_eq.symm

/-- A step of the server is one of the other run. -/
theorem Tracks.exists_serverMove (h : Tracks s buffer command left) (hf : Framed length s)
    (hmove : Move { s with buffer := buffer } .server t) :
    ∃ t' buffer', Move s .server t' ∧ t = { t' with buffer := buffer' } ∧
      Tracks t' buffer' command (leftAfter s.server buffer left) := by
  obtain ⟨memory, rfl⟩ : ∃ memory, buffer = { s.buffer with memory := memory } := ⟨_, h.same⟩
  cases hmove with
  | sleepServer hpc hfill =>
    have hpc' : s.server = .fetching := hpc
    rw [hpc']
    exact ⟨_, _, .sleepServer hpc hfill, rfl, h.of_serverPc (by rw [hpc']; rfl) nofun⟩
  | fetch hpc hfill =>
    have hpc' : s.server = .fetching := hpc
    rw [hpc']
    exact ⟨_, _, .fetch hpc hfill, rfl, h.of_serverPc (by rw [hpc']; rfl) nofun⟩
  | wakeServer hpc hsignal =>
    have hpc' : s.server = .waiting := hpc
    rw [hpc']
    exact ⟨_, _, .wakeServer hpc hsignal, rfl, h.of_serverPc (by rw [hpc']; rfl) nofun⟩
  | stop hpc htype =>
    have hpc' : s.server = .dispatching _ := hpc
    rw [hpc']
    rw [h.typeAt_dispatching hf hpc] at htype
    exact ⟨_, _, .stop hpc htype, rfl, h.of_serverPc (by rw [hpc']; rfl) nofun⟩
  | dispatch hpc htype =>
    have hpc' : s.server = .dispatching _ := hpc
    rw [hpc']
    rw [h.typeAt_dispatching hf hpc] at htype
    exact ⟨_, _, .dispatch hpc htype, rfl, h.of_serverPc (by rw [hpc']; rfl) nofun⟩
  | handle hpc =>
    have hpc' : s.server = .handling _ := hpc
    obtain ⟨hcommand, htracks⟩ := h.handle hf hpc
    rw [hpc']
    refine ⟨_, _, .handle hpc, ?_, htracks⟩
    simp only [hcommand]
  | advance hpc =>
    have hpc' : s.server = .advancing _ := hpc
    rw [hpc']
    refine ⟨_, _, .advance hpc, ?_, h.advance hf hpc⟩
    simp only [(h.header_eq (congrArg ServerPc.handled hpc)).1]
  | release hpc =>
    have hpc' : s.server = .releasing _ _ := hpc
    rw [hpc']
    exact ⟨_, _, .release hpc, rfl, h.of_serverPc (by rw [hpc']; rfl) fun a ha => by
      rwa [hpc']⟩
  | skipToken hpc htoken =>
    have hpc' : s.server = .readingToken _ := hpc
    rw [hpc']
    rw [(h.header_eq (congrArg ServerPc.handled hpc)).2] at htoken
    exact ⟨_, _, .skipToken hpc htoken, rfl, h.of_serverPc (by rw [hpc']; rfl) nofun⟩
  | takeToken hpc htoken =>
    have hpc' : s.server = .readingToken _ := hpc
    rw [hpc']
    have heq := (h.header_eq (congrArg ServerPc.handled hpc)).2
    rw [heq] at htoken
    refine ⟨_, _, .takeToken hpc htoken, ?_, h.of_serverPc (by rw [hpc']; rfl) nofun⟩
    simp only [heq]
  | storeToken hpc =>
    have hpc' : s.server = .storing _ := hpc
    rw [hpc']
    exact ⟨_, _, .storeToken hpc, rfl, h.of_serverPc (by rw [hpc']; rfl) nofun⟩
  | postClient hpc =>
    have hpc' : s.server = .posting := hpc
    rw [hpc']
    exact ⟨_, _, .postClient hpc, rfl, h.of_serverPc (by rw [hpc']; rfl) nofun⟩

variable {c d : Calls} {a : CallStep}

/-- A step is one of the other run, or the store of a handler, which the other run does not have. -/
theorem Tracks.exists_step (h : Tracks s c.threads.buffer c.command c.left) (hf : Framed length s)
    (hthreads : c.threads = { s with buffer := c.threads.buffer }) (hstep : c.step a = some d) :
    ∃ t, d.threads = { t with buffer := d.threads.buffer } ∧
      Tracks t d.threads.buffer d.command d.left ∧
      (t = s ∨ ∃ thread, a = .run thread ∧ Protocol.step s thread = some t ∧
        Protocol.step c.threads thread = some d.threads) := by
  cases a with
  | run thread =>
    cases thread with
    | client =>
      obtain ⟨u, hu, rfl⟩ := Option.map_eq_some_iff.mp hstep
      have hmove := move_of_step hu
      rw [hthreads] at hmove
      obtain ⟨t, buffer', ht, rfl, htracks⟩ := h.exists_clientMove hf hmove
      exact ⟨t, rfl, htracks, .inr ⟨.client, rfl, step_of_move ht, hu⟩⟩
    | server =>
      obtain ⟨u, hu, rfl⟩ := Option.map_eq_some_iff.mp hstep
      have hmove := move_of_step hu
      rw [hthreads] at hmove
      obtain ⟨t, buffer', ht, rfl, htracks⟩ := h.exists_serverMove hf hmove
      have hserver : c.threads.server = s.server := by rw [hthreads]
      refine ⟨t, rfl, ?_, .inr ⟨.server, rfl, step_of_move ht, hu⟩⟩
      rw [hserver]
      exact htracks
  | store offset bytes =>
    have hserver : c.threads.server = s.server := by rw [hthreads]
    simp only [Calls.step] at hstep
    split at hstep
    next a hpc =>
      split at hstep
      next hfit =>
        cases hstep
        refine ⟨s, ?_, h.store hf (hserver.symm.trans hpc) hfit, .inl rfl⟩
        simp only
        conv_lhs => rw [hthreads]
      next => cases hstep
    next => cases hstep

/-- A run of the threads without the stores of the handlers goes along. -/
theorem tracks_invariant : (callSystem length todo).Invariant fun c => ∃ s,
    (system length todo).Reachable s ∧ c.threads = { s with buffer := c.threads.buffer } ∧
      Tracks s c.threads.buffer c.command c.left where
  init := by
    rintro _ ⟨memory, rfl⟩
    exact ⟨_, .init ⟨memory, rfl⟩, rfl, tracks_initial memory⟩
  step := by
    rintro c a d - ⟨s, hs, hthreads, h⟩ hstep
    obtain ⟨t, hthreads', ht, hsame | ⟨thread, -, hmove, -⟩⟩ :=
      h.exists_step (framed_invariant.holds hs) hthreads hstep
    · exact ⟨t, hsame ▸ hs, hthreads', ht⟩
    · exact ⟨t, hs.step hmove, hthreads', ht⟩

/-- Handlers may store into the arguments of the commands they got, at any time before they return.
In every interleaving, they get the commands that the client issued, in order. -/
theorem ran_isPrefix_issued_of_stores (hc : (callSystem length todo).Reachable c) :
    c.threads.ran <+: c.threads.issued := by
  obtain ⟨s, hs, hthreads, -⟩ := tracks_invariant.holds hc
  have hprefix := ran_isPrefix_issued hs
  rw [hthreads]
  exact hprefix

/-- A call with a result of four bytes. -/
def Request.query : Request := ⟨commandShutdown + 4, [0, 0, 0, 0], true, by decide, by decide⟩

/-- The client calls and waits, the handler stores its result in two pieces, and the client
returns. -/
def queryRun : List CallStep :=
  List.replicate 8 (.run .client) ++ List.replicate 3 (.run .server) ++
    [.store 2 [3, 4], .store 0 [1, 2]] ++ List.replicate 5 (.run .server) ++
    List.replicate 2 (.run .client)

theorem ran_isPrefix_issued_queryRun : ∃ c : Calls,
    c.left = [[1, 2, 3, 4]] ∧ c.threads.ran <+: c.threads.issued := by
  have hrun : (queryRun.foldlM Calls.step ⟨initial 28 (fun _ => 0) [.query], 0, []⟩).map
      (·.left) = some [[1, 2, 3, 4]] := by
    decide +kernel
  obtain ⟨c, hc, hleft⟩ := Option.map_eq_some_iff.mp hrun
  have hreachable : (callSystem 28 [.query]).Reachable c :=
    System.reachable_of_foldlM (.init ⟨_, rfl⟩) hc
  exact ⟨c, hleft, ran_isPrefix_issued_of_stores hreachable⟩

end GpuProxy.Protocol
