import GpuProxy.Protocol.Threads

/-!
# The command stream stays framed

The ring always holds whole commands: those handed over and not yet given back,
in the order the client issued them, each starting where the one before it ends.
So the server finds at `tail` the type, the size and the arguments the client
stored, and runs the handlers of the issued commands in order.

The token is the exception. The server reads it after `buffer_read_advance` has
given the bytes back, and nothing here says what it finds; see
`GpuProxy.Protocol.Tokens`.

## Main definitions

* `State.queue` — the commands between `tail` and `head`
* `Framed` — the invariant of both threads and the ring

## Main results

* `framed_invariant` — every step preserves `Framed`
* `ran_isPrefix_issued` — handlers find the issued commands, in order
-/

namespace GpuProxy.Protocol

open RingBuffer Math

variable {length : ℕ} {todo : List Request} {s t : State} {thread : Thread}

/-- The number of commands whose handler has run but that still are in the ring. -/
def ServerPc.inHand : ServerPc → ℕ
  | .advancing _ => 1
  | _ => 0

/-- The bytes the server has moved `tail` past but not yet given back. -/
def ServerPc.owed : ServerPc → ℕ
  | .releasing _ count => count
  | _ => 0

/-- The bytes the client has moved `head` past but not yet handed over. -/
def ClientPc.owed : ClientPc → ℕ
  | .headMoved _ _ _ count => count
  | _ => 0

/-- The commands handed over whose bytes `tail` has not moved past. -/
def State.queue (s : State) : List Command := s.issued.drop (s.ran.length - s.server.inHand)

/-- What the ring holds for the client at each point of a call. -/
def ClientFramed (s : State) : Prop :=
  match s.client with
  | .idle => True
  | .reserved r a => a = s.buffer.head ∧ s.buffer.fillCount + r.size ≤ s.buffer.length
  | .written r a =>
    a = s.buffer.head ∧ s.buffer.fillCount + r.size ≤ s.buffer.length ∧
      Holds s.buffer a (r.toCommand 0)
  | .stamped r a token =>
    a = s.buffer.head ∧ s.buffer.fillCount + r.size ≤ s.buffer.length ∧
      Holds s.buffer a (r.toCommand token)
  | .headMoved r a token count =>
    count = r.size ∧ s.buffer.fillCount + r.size ≤ s.buffer.length ∧
      a % s.buffer.length = (s.buffer.tail + total s.queue) % s.buffer.length ∧
      Holds s.buffer a (r.toCommand token)
  | .added r a token => sizeAt s.buffer a = r.size ∧ s.issued.getLast? = some (r.toCommand token)
  | .posting token | .checking token | .waiting token =>
    ∃ c, s.issued.getLast? = some c ∧ c.token = token

/-- What the ring holds for the server at each point of its loop. -/
def ServerFramed (s : State) : Prop :=
  match s.server with
  | .dispatching a | .handling a => a = s.buffer.tail ∧ s.queue ≠ []
  | .advancing a => a = s.buffer.tail ∧ s.ran ≠ []
  | .releasing a count =>
    ∃ c, s.ran.getLast? = some c ∧ count = c.size ∧ Holds s.buffer a c ∧
      s.buffer.tail = (a + count) % s.buffer.length
  | .readingToken _ => s.ran ≠ []
  | .stopped => ∃ c, s.queue.head? = some c ∧ c.type = commandShutdown
  | .fetching | .waiting | .storing _ | .posting => True

/-- The ring holds the queued commands, one after the other, between `tail` and
`head`, and the handlers have run on the commands before them. -/
structure Framed (length : ℕ) (s : State) : Prop where
  length_eq : s.buffer.length = length
  ran_isPrefix : s.ran <+: s.issued
  fill_eq : s.buffer.fillCount = s.server.owed + total s.queue
  fill_le : s.buffer.fillCount ≤ s.buffer.length
  head_eq : s.buffer.head =
    (s.buffer.tail + (total s.queue + s.client.owed)) % s.buffer.length
  queued : Queued s.buffer s.buffer.tail s.queue
  client : ClientFramed s
  server : ServerFramed s

theorem framed_initial (memory : ℕ → UInt8) : Framed length (initial length memory todo) := by
  constructor <;>
    simp [initial, bufferCreate, State.queue, ServerPc.inHand, ServerPc.owed, ClientPc.owed,
      Queued, ClientFramed, ServerFramed]

/-! ### What each thread's part of the invariant depends on -/

/-- A step of the server keeps what the client relies on, if it leaves the bytes
alone, does not take room away, and moves `tail` over whole commands. -/
theorem ClientFramed.congr (h : ClientFramed s) (hpc : t.client = s.client)
    (hhead : t.buffer.head = s.buffer.head) (hlength : t.buffer.length = s.buffer.length)
    (hfill : t.buffer.fillCount ≤ s.buffer.fillCount)
    (hload : ∀ a n, t.buffer.load a n = s.buffer.load a n) (hissued : t.issued = s.issued)
    (hend : (t.buffer.tail + total t.queue) % s.buffer.length =
      (s.buffer.tail + total s.queue) % s.buffer.length) : ClientFramed t := by
  -- Room that was reserved stays: the server only gives back.
  have hroom : ∀ {n : ℕ}, s.buffer.fillCount + n ≤ s.buffer.length →
      t.buffer.fillCount + n ≤ t.buffer.length := by
    intro n hn
    omega
  unfold ClientFramed at h ⊢
  rw [hpc]
  cases hcase : s.client with
  | idle => trivial
  | reserved r a =>
    rw [hcase] at h
    exact ⟨h.1.trans hhead.symm, hroom h.2⟩
  | written r a =>
    rw [hcase] at h
    exact ⟨h.1.trans hhead.symm, hroom h.2.1, h.2.2.congr (hload _ _)⟩
  | stamped r a token =>
    rw [hcase] at h
    exact ⟨h.1.trans hhead.symm, hroom h.2.1, h.2.2.congr (hload _ _)⟩
  | headMoved r a token count =>
    rw [hcase] at h
    refine ⟨h.1, hroom h.2.1, ?_, h.2.2.2.congr (hload _ _)⟩
    rw [hlength, hend]
    exact h.2.2.1
  | added r a token =>
    rw [hcase] at h
    rw [hissued]
    refine ⟨?_, h.2⟩
    rw [sizeAt, hload]
    exact h.1
  | posting token | checking token | waiting token =>
    rw [hcase] at h
    rw [hissued]
    exact h

/-- A step of the client keeps what the server relies on, if it only appends to
the queue and leaves alone the bytes of a command being given back. -/
theorem ServerFramed.congr (h : ServerFramed s) (hpc : t.server = s.server)
    (htail : t.buffer.tail = s.buffer.tail) (hlength : t.buffer.length = s.buffer.length)
    (hran : t.ran = s.ran) (hqueue : s.queue <+: t.queue)
    (hholds : ∀ a c, s.server = .releasing a c.size → Holds s.buffer a c → Holds t.buffer a c) :
    ServerFramed t := by
  have hne : s.queue ≠ [] → t.queue ≠ [] := by
    intro hs ht
    exact hs (List.prefix_nil.mp (ht ▸ hqueue))
  unfold ServerFramed at h ⊢
  rw [hpc]
  cases hcase : s.server with
  | fetching | waiting | storing token | posting => trivial
  | dispatching a | handling a =>
    rw [hcase] at h
    exact ⟨h.1.trans htail.symm, hne h.2⟩
  | advancing a =>
    rw [hcase] at h
    rw [hran]
    exact ⟨h.1.trans htail.symm, h.2⟩
  | releasing a count =>
    rw [hcase] at h
    -- `tail` has passed the command, so its bytes are not part of the queue any more.
    obtain ⟨c, hlast, rfl, hc, htaileq⟩ := h
    exact ⟨c, hran ▸ hlast, rfl, hholds a c hcase hc, by rw [htail, hlength, htaileq]⟩
  | readingToken a =>
    rw [hcase] at h
    rw [hran]
    exact h
  | stopped =>
    rw [hcase] at h
    obtain ⟨c, hhead, htype⟩ := h
    -- The queue only grows at its end, so the shutdown command stays first.
    obtain ⟨cs, hcs⟩ := hqueue
    refine ⟨c, ?_, htype⟩
    rw [← hcs, List.head?_append, hhead]
    rfl

/-! ### The steps of the client -/

/-- The occupied bytes, from a command being given back or from `tail` on, end
where the free space starts. -/
theorem Framed.head_eq_of_idle (h : Framed length s) (howed : s.client.owed = 0) :
    s.buffer.head = (s.buffer.tail + total s.queue) % s.buffer.length := by
  simpa [howed] using h.head_eq

/-- A store into the room the client has reserved keeps the queue and the command
being given back, whatever it stores. -/
theorem Framed.of_store {b : Buffer UInt8} {pc : ClientPc} {n : ℕ} (token : ℕ) (h : Framed length s)
    (howed : s.client.owed = 0) (hfit : s.buffer.fillCount + n ≤ s.buffer.length)
    (hb : b = { s.buffer with memory := b.memory })
    (hload : ∀ base span m, s.buffer.head = (base + span) % s.buffer.length → m ≤ span →
      span + n ≤ s.buffer.length → b.load base m = s.buffer.load base m)
    (hpc : pc.owed = 0)
    (hclient : ClientFramed { s with buffer := b, token := token, client := pc }) :
    Framed length { s with buffer := b, token := token, client := pc } := by
  have hhead := h.head_eq_of_idle howed
  have hfill := h.fill_eq
  have hfields : b.length = s.buffer.length ∧ b.tail = s.buffer.tail ∧ b.head = s.buffer.head ∧
      b.fillCount = s.buffer.fillCount := by
    rw [hb]
    exact ⟨rfl, rfl, rfl, rfl⟩
  obtain ⟨hlength, htail, hheadeq, hfilleq⟩ := hfields
  refine ⟨hlength.trans h.length_eq, h.ran_isPrefix, hfilleq.trans hfill, ?_, ?_, ?_, hclient, ?_⟩
  · rw [hlength]
    exact hfilleq.trans_le h.fill_le
  · simp only [hpc, hlength, htail, hheadeq, Nat.add_zero]
    exact hhead
  · simp only [htail]
    exact h.queued.congr (hload _ _ _ hhead le_rfl (by omega))
  · refine h.server.congr rfl htail hlength rfl List.prefix_rfl ?_
    intro a c hserver hc
    -- While `c` is given back its bytes still count as occupied.
    have hreleasing := h.server
    simp only [ServerFramed, hserver] at hreleasing
    obtain ⟨d, -, hd, -, htaileq⟩ := hreleasing
    have hspan : s.buffer.head = (a + (c.size + total s.queue)) % s.buffer.length := by
      rw [hhead, htaileq, Nat.mod_add_mod, Nat.add_assoc]
    simp only [hserver, ServerPc.owed] at hfill
    exact hc.congr (hload _ _ _ hspan (by omega) (by omega))

theorem framed_write {r : Request} {a : ℕ} (h : Framed length s)
    (hpc : s.client = .reserved r a) :
    Framed length { s with buffer := writeCommand s.buffer a r, client := .written r a } := by
  have hclient := h.client
  simp only [ClientFramed, hpc] at hclient
  obtain ⟨rfl, hfit⟩ := hclient
  refine h.of_store s.token (by simp [hpc, ClientPc.owed]) hfit rfl ?_ rfl ?_
  · intro base span m hhead hm hspan
    exact load_writeCommand_free hhead hm hspan
  · exact ⟨rfl, hfit, holds_writeCommand (by omega)⟩

theorem commandToken_lt (token : ℕ) : commandToken (bumpToken token) < 256 ^ 4 := by
  unfold commandToken bumpToken
  split <;> omega

theorem commandToken_ne_zero (counter : ℕ) : commandToken counter ≠ 0 := by
  unfold commandToken
  split <;> omega

theorem framed_stamp {r : Request} {a : ℕ} (h : Framed length s)
    (hpc : s.client = .written r a) :
    Framed length { s with
      token := bumpToken s.token
      buffer := writeToken s.buffer a (commandToken (bumpToken s.token))
      client := .stamped r a (commandToken (bumpToken s.token)) } := by
  have hclient := h.client
  simp only [ClientFramed, hpc] at hclient
  obtain ⟨rfl, hfit, hholds⟩ := hclient
  have hsize : headerSize ≤ r.size := r.headerSize_le
  refine h.of_store _ (by simp [hpc, ClientPc.owed]) hfit rfl ?_ rfl ?_
  · intro base span m hhead hm hspan
    exact load_writeToken_free hhead hm (by omega)
  · exact ⟨rfl, hfit, hholds.writeToken (commandToken_lt _) (by simp; omega)⟩

/-- Moving `head` over a written command puts it behind the queue. -/
theorem framed_startAdvance {r : Request} {a token : ℕ} (h : Framed length s)
    (howed : s.client.owed = 0) (ha : a = s.buffer.head)
    (hfit : s.buffer.fillCount + r.size ≤ s.buffer.length)
    (hholds : Holds s.buffer a (r.toCommand token)) : Framed length (startAdvance s r a token) := by
  have hsize : sizeAt s.buffer a = r.size := hholds.size_eq
  have hhead := h.head_eq_of_idle howed
  unfold startAdvance
  rw [hsize]
  refine { h with head_eq := ?_, queued := h.queued.congr rfl, client := ?_, server := ?_ }
  · change (s.buffer.head + r.size) % s.buffer.length =
      (s.buffer.tail + (total s.queue + r.size)) % s.buffer.length
    rw [hhead, Nat.mod_add_mod, Nat.add_assoc]
  · refine ⟨rfl, hfit, ?_, hholds.congr rfl⟩
    rw [ha, hhead]
    exact Nat.mod_mod _ _
  · exact h.server.congr rfl rfl rfl rfl List.prefix_rfl fun _ _ _ hc => hc.congr rfl

/-- Handing a command over appends it to the queue. -/
theorem framed_handOver {r : Request} {a token count : ℕ} (h : Framed length s)
    (hpc : s.client = .headMoved r a token count) :
    Framed length { s with
      buffer := addFill s.buffer count
      issued := s.issued ++ [r.toCommand token]
      client := .added r a token } := by
  have hclient := h.client
  simp only [ClientFramed, hpc] at hclient
  obtain ⟨rfl, hfit, haddr, hholds⟩ := hclient
  have hlen := h.ran_isPrefix.length_le
  -- `issued` has one more command, and the server none more in hand.
  have hqueue : State.queue { s with
      buffer := addFill s.buffer r.size
      issued := s.issued ++ [r.toCommand token]
      client := .added r a token } = s.queue ++ [r.toCommand token] := by
    simp only [State.queue]
    rw [List.drop_append_of_le_length (by omega)]
  have hhead := h.head_eq
  have hfill := h.fill_eq
  simp only [hpc, ClientPc.owed] at hhead
  refine ⟨h.length_eq, h.ran_isPrefix.trans (List.prefix_append _ _), ?_, hfit, ?_, ?_, ?_, ?_⟩
  · rw [hqueue, total_append]
    simp only [addFill, total_cons, total_nil, Request.size_toCommand]
    omega
  · rw [hqueue, total_append]
    simpa [ClientPc.owed, addFill] using hhead
  · rw [hqueue, queued_append]
    refine ⟨h.queued.congr rfl, ?_, trivial⟩
    exact ((holds_congr_mod haddr).mp hholds).congr rfl
  · exact ⟨hholds.size_eq, by simp⟩
  · refine h.server.congr rfl rfl rfl rfl ?_ fun _ _ _ hc => hc.congr rfl
    rw [hqueue]
    exact List.prefix_append _ _

/-- A step of the client that only moves its program counter. -/
theorem Framed.of_clientPc {pc : ClientPc} {todo : List Request} {m n : ℕ} (h : Framed length s)
    (howed : pc.owed = s.client.owed)
    (hclient : ClientFramed { s with
      serverSignal := m, clientSignal := n, todo := todo, client := pc }) :
    Framed length { s with serverSignal := m, clientSignal := n, todo := todo, client := pc } := by
  refine { h with head_eq := ?_, client := hclient, server := ?_ }
  · simp only [howed]
    exact h.head_eq
  · exact h.server.congr rfl rfl rfl rfl List.prefix_rfl fun _ _ _ hc => hc

theorem clientFramed_afterPublish {c : Command} {token m : ℕ}
    (hlast : s.issued.getLast? = some c) (htoken : c.token = token) :
    ClientFramed { s with serverSignal := m, client := afterPublish token } := by
  unfold afterPublish
  split
  · trivial
  · exact ⟨c, hlast, htoken⟩

theorem owed_afterPublish (token : ℕ) : (afterPublish token).owed = 0 := by
  unfold afterPublish
  split <;> rfl

/-! ### The steps of the server -/

/-- A step of the server that only moves its program counter. -/
theorem Framed.of_serverPc {pc : ServerPc} {m n : ℕ} (h : Framed length s)
    (hin : pc.inHand = s.server.inHand) (howed : pc.owed = s.server.owed)
    (hserver : ServerFramed { s with serverSignal := m, clientSignal := n, server := pc }) :
    Framed length { s with serverSignal := m, clientSignal := n, server := pc } := by
  have hqueue : State.queue { s with serverSignal := m, clientSignal := n, server := pc } =
      s.queue := by
    simp [State.queue, hin]
  refine ⟨h.length_eq, h.ran_isPrefix, ?_, h.fill_le, ?_, ?_, ?_, hserver⟩
  · rw [hqueue]
    simp only [howed]
    exact h.fill_eq
  · rw [hqueue]
    exact h.head_eq
  · rw [hqueue]
    exact h.queued
  · exact h.client.congr rfl rfl rfl le_rfl (fun _ _ => rfl) rfl (by rw [hqueue])

/-- With nothing in hand, the issued commands are those run and those queued. -/
theorem Framed.issued_eq (h : Framed length s) (hin : s.server.inHand = 0) :
    s.issued = s.ran ++ s.queue := by
  obtain ⟨cs, hcs⟩ := h.ran_isPrefix
  rw [State.queue, hin, ← hcs, Nat.sub_zero, List.drop_left]

/-- With a command in hand, it is the last one run and the first one queued. -/
theorem Framed.queue_eq_of_inHand (h : Framed length s) (hin : s.server.inHand = 1)
    (hran : s.ran ≠ []) :
    ∃ c cs, s.ran.getLast? = some c ∧ s.queue = c :: cs ∧ cs = s.issued.drop s.ran.length := by
  obtain ⟨cs, hcs⟩ := h.ran_isPrefix
  refine ⟨s.ran.getLast hran, cs, List.getLast?_eq_some_getLast hran, ?_, ?_⟩
  · have hdrop : s.ran.drop (s.ran.length - 1) = [s.ran.getLast hran] := by
      conv_lhs => rw [← List.dropLast_concat_getLast hran]
      rw [List.drop_left' (by simp)]
    rw [State.queue, hin, ← hcs, List.drop_append_of_le_length (by omega), hdrop]
    rfl
  · rw [← hcs, List.drop_left]

/-- The handler finds the first queued command at `tail`. -/
theorem Framed.commandAt_tail {c : Command} {cs : List Command} (h : Framed length s)
    (hqueue : s.queue = c :: cs) : Holds s.buffer s.buffer.tail c := by
  have := h.queued
  rw [hqueue] at this
  exact this.1

theorem framed_stop {a : ℕ} (h : Framed length s) (hpc : s.server = .dispatching a)
    (htype : typeAt s.buffer a = commandShutdown) :
    Framed length { s with server := .stopped } := by
  have hserver := h.server
  simp only [ServerFramed, hpc] at hserver
  obtain ⟨rfl, hne⟩ := hserver
  obtain ⟨c, cs, hqueue⟩ := List.exists_cons_of_ne_nil hne
  refine h.of_serverPc (by simp [hpc, ServerPc.inHand]) (by simp [hpc, ServerPc.owed]) ⟨c, ?_, ?_⟩
  · have hsame : State.queue { s with server := .stopped } = s.queue := by
      simp [State.queue, hpc, ServerPc.inHand]
    rw [hsame, hqueue]
    rfl
  · rw [← (h.commandAt_tail hqueue).type_eq, htype]

theorem framed_handle {a : ℕ} (h : Framed length s) (hpc : s.server = .handling a) :
    Framed length { s with
      ran := s.ran ++ [commandAt s.buffer a], server := .advancing a } := by
  have hserver := h.server
  simp only [ServerFramed, hpc] at hserver
  obtain ⟨rfl, hne⟩ := hserver
  obtain ⟨c, cs, hqueue⟩ := List.exists_cons_of_ne_nil hne
  -- The command found is the first of the queue; it counts as queued until `tail` moves.
  have hissued := h.issued_eq (by simp [hpc, ServerPc.inHand])
  rw [(h.commandAt_tail hqueue).commandAt_eq]
  have hsame : State.queue { s with ran := s.ran ++ [c], server := .advancing s.buffer.tail } =
      s.queue := by
    simp [State.queue, hpc, ServerPc.inHand]
  have hfill := h.fill_eq
  simp only [hpc, ServerPc.owed] at hfill
  refine ⟨h.length_eq, ?_, ?_, h.fill_le, ?_, ?_, ?_, ⟨rfl, by simp⟩⟩
  · rw [hissued, hqueue]
    exact ⟨cs, by simp⟩
  · rw [hsame]
    exact hfill
  · rw [hsame]
    exact h.head_eq
  · rw [hsame]
    exact h.queued
  · exact h.client.congr rfl rfl rfl le_rfl (fun _ _ => rfl) rfl (by rw [hsame])

/-- `buffer_read_advance` moves `tail` over exactly the command that was run. -/
theorem framed_advance {a : ℕ} (h : Framed length s) (hpc : s.server = .advancing a) :
    Framed length { s with
      buffer := moveTail s.buffer (sizeAt s.buffer a)
      server := .releasing a (sizeAt s.buffer a) } := by
  have hserver := h.server
  simp only [ServerFramed, hpc] at hserver
  obtain ⟨rfl, hran⟩ := hserver
  obtain ⟨c, cs, hlast, hqueue, hcs⟩ :=
    h.queue_eq_of_inHand (by simp [hpc, ServerPc.inHand]) hran
  have hholds := h.commandAt_tail hqueue
  have hqueued := h.queued
  have hfill := h.fill_eq
  have hhead := h.head_eq
  rw [hqueue] at hqueued hfill hhead
  simp only [hpc, ServerPc.owed, total_cons] at hfill hhead
  rw [hholds.size_eq]
  -- The queue loses its first command, whose bytes the server now owes to `fill_count`.
  have hnew : State.queue { s with
      buffer := moveTail s.buffer c.size, server := .releasing s.buffer.tail c.size } = cs := by
    simp [State.queue, ServerPc.inHand, hcs]
  refine ⟨h.length_eq, h.ran_isPrefix, ?_, h.fill_le, ?_, ?_, ?_,
    c, hlast, rfl, hholds.congr rfl, rfl⟩
  · rw [hnew]
    simp only [moveTail, ServerPc.owed]
    omega
  · rw [hnew]
    simp only [moveTail, Nat.mod_add_mod]
    rw [hhead]
    congr 1
    omega
  · rw [hnew]
    exact Queued.congr (queued_mod.mpr hqueued.2) rfl
  · refine h.client.congr rfl rfl rfl le_rfl (fun _ _ => rfl) rfl ?_
    rw [hnew, hqueue, total_cons]
    simp only [moveTail, Nat.mod_add_mod, Nat.add_assoc]

theorem framed_release {a count : ℕ} (h : Framed length s) (hpc : s.server = .releasing a count) :
    Framed length { s with buffer := subFill s.buffer count, server := .readingToken a } := by
  have hserver := h.server
  simp only [ServerFramed, hpc] at hserver
  obtain ⟨c, hlast, -, -, -⟩ := hserver
  have hfill := h.fill_eq
  have hle := h.fill_le
  simp only [hpc, ServerPc.owed] at hfill
  have hsame : State.queue { s with
      buffer := subFill s.buffer count, server := .readingToken a } = s.queue := by
    simp [State.queue, hpc, ServerPc.inHand]
  refine ⟨h.length_eq, h.ran_isPrefix, ?_, ?_, ?_, ?_, ?_, ?_⟩
  · rw [hsame]
    simp only [subFill, ServerPc.owed]
    omega
  · simp only [subFill]
    omega
  · rw [hsame]
    exact h.head_eq
  · rw [hsame]
    exact h.queued.congr rfl
  · refine h.client.congr rfl rfl rfl (Nat.sub_le _ _) (fun _ _ => rfl) rfl ?_
    rw [hsame]
    rfl
  · intro hnil
    rw [hnil] at hlast
    cases hlast

theorem framed_storeToken {token : ℕ} (h : Framed length s) (hpc : s.server = .storing token) :
    Framed length { s with
      buffer := { s.buffer with lastToken := token }, server := .posting } := by
  -- `last_token` lies outside the ring, so only the program counter matters.
  have hpost : Framed length { s with
      serverSignal := s.serverSignal, clientSignal := s.clientSignal, server := .posting } :=
    h.of_serverPc (by simp [hpc, ServerPc.inHand]) (by simp [hpc, ServerPc.owed]) trivial
  refine { hpost with queued := hpost.queued.congr rfl, client := ?_, server := trivial }
  exact hpost.client.congr rfl rfl rfl le_rfl (fun _ _ => rfl) rfl rfl

/-! ### Whole runs -/

theorem framed_move (h : Framed length s) (hmove : Move s thread t) : Framed length t := by
  have hclient := h.client
  have hserver := h.server
  cases hmove with
  | spin => exact h
  | reserve hpc _ hfit =>
    exact h.of_clientPc (by simp [hpc, ClientPc.owed]) ⟨rfl, hfit⟩
  | write hpc => exact framed_write h hpc
  | stamp hpc => exact framed_stamp h hpc
  | publishAsync hpc _ =>
    simp only [ClientFramed, hpc] at hclient
    obtain ⟨ha, hfit, hholds⟩ := hclient
    exact framed_startAdvance h (by simp [hpc, ClientPc.owed]) ha hfit hholds
  | publishSync hpc =>
    simp only [ClientFramed, hpc] at hclient
    obtain ⟨ha, hfit, hholds⟩ := hclient
    exact framed_startAdvance h (by simp [hpc, ClientPc.owed]) ha hfit hholds
  | handOver hpc => exact framed_handOver h hpc
  | foundEmpty hpc _ =>
    simp only [ClientFramed, hpc] at hclient
    exact h.of_clientPc (by simp [hpc, ClientPc.owed]) ⟨_, hclient.2, rfl⟩
  | foundBusy hpc _ =>
    simp only [ClientFramed, hpc] at hclient
    exact h.of_clientPc (by rw [hpc]; exact owed_afterPublish _)
      (clientFramed_afterPublish hclient.2 rfl)
  | postServer hpc =>
    simp only [ClientFramed, hpc] at hclient
    obtain ⟨c, hlast, htoken⟩ := hclient
    exact h.of_clientPc (by rw [hpc]; exact owed_afterPublish _)
      (clientFramed_afterPublish hlast htoken)
  | sleepClient hpc _ =>
    simp only [ClientFramed, hpc] at hclient
    exact h.of_clientPc (by simp [hpc, ClientPc.owed]) hclient
  | leave hpc _ => exact h.of_clientPc (by simp [hpc, ClientPc.owed]) trivial
  | wakeClient hpc _ =>
    simp only [ClientFramed, hpc] at hclient
    exact h.of_clientPc (by simp [hpc, ClientPc.owed]) hclient
  | sleepServer hpc _ =>
    exact h.of_serverPc (by simp [hpc, ServerPc.inHand]) (by simp [hpc, ServerPc.owed]) trivial
  | fetch hpc hfill =>
    refine h.of_serverPc (by simp [hpc, ServerPc.inHand]) (by simp [hpc, ServerPc.owed]) ⟨rfl, ?_⟩
    -- A non-empty ring holds at least one whole command.
    intro hnil
    have hzero := h.fill_eq
    have hsame : s.queue = [] := by simpa [State.queue, hpc, ServerPc.inHand] using hnil
    rw [hsame, hpc] at hzero
    exact hfill hzero
  | wakeServer hpc _ =>
    exact h.of_serverPc (by simp [hpc, ServerPc.inHand]) (by simp [hpc, ServerPc.owed]) trivial
  | stop hpc htype => exact framed_stop h hpc htype
  | dispatch hpc _ =>
    simp only [ServerFramed, hpc] at hserver
    refine h.of_serverPc (by simp [hpc, ServerPc.inHand]) (by simp [hpc, ServerPc.owed])
      ⟨hserver.1, ?_⟩
    simpa [State.queue, hpc, ServerPc.inHand] using hserver.2
  | handle hpc => exact framed_handle h hpc
  | advance hpc => exact framed_advance h hpc
  | release hpc => exact framed_release h hpc
  | skipToken hpc _ =>
    exact h.of_serverPc (by simp [hpc, ServerPc.inHand]) (by simp [hpc, ServerPc.owed]) trivial
  | takeToken hpc _ =>
    exact h.of_serverPc (by simp [hpc, ServerPc.inHand]) (by simp [hpc, ServerPc.owed]) trivial
  | storeToken hpc => exact framed_storeToken h hpc
  | postClient hpc =>
    exact h.of_serverPc (by simp [hpc, ServerPc.inHand]) (by simp [hpc, ServerPc.owed]) trivial

theorem framed_invariant : (system length todo).Invariant (Framed length) where
  init := by
    rintro _ ⟨memory, rfl⟩
    exact framed_initial memory
  step _ _ _ _ h hstep := framed_move h (move_of_step hstep)

/-- In every interleaving the handlers find the commands the client issued, in
the order it issued them. -/
theorem ran_isPrefix_issued (hs : (system length todo).Reachable s) : s.ran <+: s.issued :=
  (framed_invariant.holds hs).ran_isPrefix

end GpuProxy.Protocol
