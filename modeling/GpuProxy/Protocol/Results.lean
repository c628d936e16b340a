import GpuProxy.Protocol.Stores
import GpuProxy.Protocol.Tokens

/-!
# The result of a synchronous call

When `client_run_command` returns, the client loads the result through its `command` pointer, from
bytes that the server has given back. It is what the handler left there, as long as no wait loop
ends too early; `GpuProxy.Protocol.Tokens` says in which runs that is.

## Main definitions

* `Acknowledged` — the tokens, the commands whose handler has returned, and the queue
* `KeepsCallOrder` — the steps keep the order of the tokens
* `State.packed` — the commands that the client has packed

## Main results

* `acknowledged_invariant` — in these runs, the queue has none of the commands that the client has
  waited for
* `exists_result` — a synchronous call finds what its handler left
-/

namespace GpuProxy.Protocol

open RingBuffer Math

variable {length : ℕ} {todo : List Request} {s t : State} {thread : Thread} {c d : Calls}
  {a : CallStep}

/-! ### When a call returns -/

/-- `last_token` does not exceed the number of synchronous commands whose handler has returned, and
these are all that were issued while the client waits for none. -/
structure Acknowledged (s : State) : Prop where
  stored : s.buffer.lastToken ≤ syncCount s.returned
  settled : (∀ token, s.client.published = some token → token = 0) → syncCount s.queue = 0

theorem acknowledged_initial (memory : ℕ → UInt8) :
    Acknowledged (initial length memory todo) := by
  constructor <;> simp [initial, bufferCreate, State.queue, syncCount]

/-- A step of the server that gives up nothing of the queue but commands that it has handled. -/
theorem Acknowledged.of_server (h : Acknowledged s) (hclient : t.client = s.client)
    (hqueue : t.queue <:+ s.queue) (hstored : t.buffer.lastToken ≤ syncCount t.returned) :
    Acknowledged t := by
  refine ⟨hstored, fun hnone => ?_⟩
  rw [hclient] at hnone
  have hle : syncCount t.queue ≤ syncCount s.queue := hqueue.sublist.countP_le
  rw [h.settled hnone] at hle
  exact Nat.le_zero.mp hle

theorem acknowledged_serverMove (hf : Framed length s) (ho : TokenOrder s) (h : Acknowledged s)
    (hmove : Move s .server t) : Acknowledged t := by
  have hstored := h.stored
  cases hmove with
  | sleepServer hpc | fetch hpc | wakeServer hpc | stop hpc | dispatch hpc | release hpc
  | skipToken hpc | takeToken hpc | postClient hpc =>
    refine h.of_server rfl ?_ ?_
    · simp [State.queue, hpc, ServerPc.inHand]
    · simpa [State.returned, hpc, ServerPc.inHand] using hstored
  | handle hpc =>
    refine h.of_server rfl ?_ ?_
    · simp [State.queue, hpc, ServerPc.inHand]
    · simpa [State.returned, hpc, ServerPc.inHand] using hstored
  | advance hpc =>
    obtain ⟨c, hqueue, -, -, -, hran⟩ := hf.exists_inHand hpc
    refine h.of_server rfl ?_ ?_
    · rw [hqueue]
      exact List.suffix_cons c _
    · have hgrow := syncCount_mono (List.prefix_append s.returned [c])
      rw [← hran] at hgrow
      simpa [State.returned, ServerPc.inHand] using hstored.trans hgrow
  | storeToken hpc =>
    refine h.of_server rfl ?_ ?_
    · simp [State.queue, hpc, ServerPc.inHand]
    · simpa [State.returned, ServerPc.inHand] using ho.storing _ hpc

theorem acknowledged_clientMove (hf : Framed length s) (hp : Progress todo s) (ho : TokenOrder s)
    (h : Acknowledged s) (hmove : Move s .client t) : Acknowledged t := by
  obtain ⟨hserver, hran, hlast⟩ := clientMove_frame hmove
  have hstored : t.buffer.lastToken ≤ syncCount t.returned := by
    rw [State.returned, hserver, hran, hlast]
    exact h.stored
  refine ⟨hstored, fun hnone => ?_⟩
  have hsettled := h.settled
  cases hmove with
  | spin => exact hsettled hnone
  | reserve hpc | write hpc | stamp hpc =>
    exact hsettled (by simp [hpc, ClientPc.published])
  | publishAsync hpc | publishSync hpc =>
    simpa [State.queue] using hsettled (by simp [hpc, ClientPc.published])
  | handOver hpc =>
    have htoken := hnone _ rfl
    rw [State.queue]
    simp only
    rw [(hf.queue_append _).1, syncCount_append, syncCount_singleton_toCommand, if_pos htoken]
    exact hsettled (by simp [hpc, ClientPc.published])
  | foundEmpty hpc | sleepClient hpc | wakeClient hpc =>
    exact hsettled (by simpa [hpc, ClientPc.published] using hnone)
  | foundBusy hpc | postServer hpc =>
    refine hsettled ?_
    simp only [hpc, ClientPc.published, Option.some.injEq, forall_eq']
    exact eq_zero_of_afterPublish hnone
  | leave hpc hpassed =>
    -- The token that was waited for is the number of synchronous commands issued.
    have htoken := hp.token
    simp only [TokenFollows, hpc] at htoken
    have hcounter : s.token = syncCount s.issued := by
      simpa [hpc, ClientPc.pendingTokens] using ho.token_eq hp
    have hcount := congrArg syncCount hf.issued_eq_returned
    rw [syncCount_append] at hcount
    have hle := le_commandToken s.token
    have hreturned := h.stored
    change syncCount s.queue = 0
    omega

theorem acknowledged_invariant :
    ((system length todo).guarded KeepsTokenOrder).Invariant Acknowledged where
  init := by
    rintro _ ⟨memory, rfl⟩
    exact acknowledged_initial memory
  step s thread t hs h := by
    rintro ⟨-, hstep⟩
    have hf := framed_invariant.holds hs.of_guarded
    have ho := tokenOrder_invariant.holds hs
    have hmove := move_of_step hstep
    cases thread with
    | client => exact acknowledged_clientMove hf (progress_invariant.holds hs.of_guarded) ho h hmove
    | server => exact acknowledged_serverMove hf ho h hmove

/-- If the command issued last is synchronous and the client does not wait for it, its handler has
returned. -/
theorem Framed.queue_eq_nil {k : Command} (hf : Framed length s) (h : Acknowledged s)
    (hnone : s.client.published = none) (hlast : s.issued.getLast? = some k)
    (hsync : k.token ≠ 0) : s.queue = [] := by
  have hcount := h.settled (by simp [hnone])
  by_contra hne
  rw [hf.issued_eq_returned, List.getLast?_append_of_ne_nil _ hne] at hlast
  have hasync := List.countP_eq_zero.mp hcount k (List.mem_of_getLast? hlast)
  simp [Command.kind, hsync] at hasync

/-- The steps of the threads keep the order of the tokens, over what the handlers store. -/
def KeepsCallOrder (c : Calls) : CallStep → Prop
  | .run thread => KeepsTokenOrder c.threads thread
  | .store _ _ => True

/-- So do those of the run without the stores of the handlers. -/
theorem Tracks.keepsTokenOrder (h : Tracks t d.threads.buffer d.command d.left)
    (hthreads : c.threads = { s with buffer := c.threads.buffer })
    (hstep : Protocol.step s thread = some t)
    (hstep' : Protocol.step c.threads thread = some d.threads)
    (hkeeps : KeepsTokenOrder c.threads thread) : KeepsTokenOrder s thread := by
  have hclient : c.threads.client = s.client := by rw [hthreads]
  have hserver : c.threads.server = s.server := by rw [hthreads]
  have htoken : c.threads.token = s.token := by rw [hthreads]
  refine ⟨fun r a hthread hpc hsync => ?_, fun a u hthread hpc hu => ?_⟩
  · rw [← htoken]
    exact hkeeps.counter r a hthread (hclient.trans hpc) hsync
  · subst hthread
    obtain rfl : t = u := Option.some.inj (hstep.symm.trans hu)
    have hafter : t.server = .readingToken a := (clientMove_frame (move_of_step hu)).1.trans hpc
    rw [← (h.header_eq (congrArg ServerPc.handled hafter)).2, ← htoken]
    exact hkeeps.reading a _ rfl (hserver.trans hpc) hstep'

theorem tracks_guarded_invariant : ((callSystem length todo).guarded KeepsCallOrder).Invariant
    fun c => ∃ s, ((system length todo).guarded KeepsTokenOrder).Reachable s ∧
      c.threads = { s with buffer := c.threads.buffer } ∧
      Tracks s c.threads.buffer c.command c.left where
  init := by
    rintro _ ⟨memory, rfl⟩
    exact ⟨_, .init ⟨memory, rfl⟩, rfl, tracks_initial memory⟩
  step := by
    rintro c a d - ⟨s, hs, hthreads, h⟩ ⟨hkeeps, hstep⟩
    obtain ⟨t, hthreads', ht, hsame | ⟨thread, rfl, hmove, hmove'⟩⟩ :=
      h.exists_step (framed_invariant.holds hs.of_guarded) hthreads hstep
    · exact ⟨t, hsame ▸ hs, hthreads', ht⟩
    · have hguard := ht.keepsTokenOrder hthreads hmove hmove' hkeeps
      exact ⟨t, hs.step ⟨hguard, hmove⟩, hthreads', ht⟩

/-- What is known of a state without the stores of the handlers that goes along. -/
structure Alongside (length : ℕ) (todo : List Request) (c : Calls) (s : State) : Prop where
  threads : c.threads = { s with buffer := c.threads.buffer }
  framed : Framed length s
  progress : Progress todo s
  order : TokenOrder s
  acknowledged : Acknowledged s
  tracks : Tracks s c.threads.buffer c.command c.left

theorem exists_alongside (hc : ((callSystem length todo).guarded KeepsCallOrder).Reachable c) :
    ∃ s, Alongside length todo c s := by
  obtain ⟨s, hs, hthreads, h⟩ := tracks_guarded_invariant.holds hc
  exact ⟨s, hthreads, framed_invariant.holds hs.of_guarded, progress_invariant.holds hs.of_guarded,
    tokenOrder_invariant.holds hs, acknowledged_invariant.holds hs, h⟩

/-- When all handlers have returned, the last of them left what the client finds. -/
theorem Tracks.getLast?_left {buffer : Buffer UInt8} {command : ℕ} {left : List (List UInt8)}
    {k : Command} (h : Tracks s buffer command left) (hf : Framed length s)
    (hflight : s.client.inFlight = none) (hqueue : s.queue = [])
    (hlast : s.issued.getLast? = some k) :
    s.ran = s.issued ∧ left.length = s.issued.length ∧
      left.getLast? = some (buffer.load (command + headerSize) k.payload.length) := by
  have hreturned : s.issued = s.returned := by
    rw [hf.issued_eq_returned, hqueue, List.append_nil]
  have hlengths := h.lengths
  rw [← hreturned] at hlengths
  refine ⟨?_, by simpa using congrArg List.length hlengths, ?_⟩
  · have hle : s.issued.length ≤ s.ran.length := by
      rw [hreturned]
      exact (List.take_prefix _ _).length_le
    exact hf.ran_isPrefix.eq_of_length (Nat.le_antisymm hf.ran_isPrefix.length_le hle)
  · have hlengths' := congrArg List.getLast? hlengths
    rw [List.getLast?_map, List.getLast?_map, hlast, Option.map_some] at hlengths'
    obtain ⟨arguments, harguments, hlength⟩ := Option.map_eq_some_iff.mp hlengths'
    rw [harguments, ← hlength, h.result hflight hqueue arguments harguments]

/-- A client that waits for nothing finds behind its `command` pointer what the handler of its last
synchronous command left there. -/
theorem Alongside.getLast?_left {k : Command} (h : Alongside length todo c s)
    (hpc : c.threads.client = .idle) (hlast : c.threads.issued.getLast? = some k)
    (hsync : k.token ≠ 0) :
    c.threads.ran = c.threads.issued ∧ c.left.length = c.threads.issued.length ∧
      c.left.getLast? = some (c.threads.buffer.load (c.command + headerSize) k.payload.length) ∧
      ∀ a, c.threads.server ≠ .advancing a := by
  have hclient : s.client = .idle := by rw [← hpc, h.threads]
  have hissued : s.issued = c.threads.issued := by rw [h.threads]
  have hran : s.ran = c.threads.ran := by rw [h.threads]
  have hserver : s.server = c.threads.server := by rw [h.threads]
  rw [← hissued] at hlast ⊢
  rw [← hran, ← hserver]
  have hqueue := h.framed.queue_eq_nil h.acknowledged (by rw [hclient]; rfl) hlast hsync
  obtain ⟨hall, hlength, hleft⟩ :=
    h.tracks.getLast?_left h.framed (by rw [hclient]; rfl) hqueue hlast
  refine ⟨hall, hlength, hleft, fun a hadvancing => ?_⟩
  obtain ⟨k', hcons, -⟩ := h.framed.exists_inHand hadvancing
  rw [hqueue] at hcons
  cases hcons

/-- In every run that keeps the order of the tokens, a synchronous call that returned finds behind
its `command` pointer what its handler left there, although the bytes were given back. -/
theorem exists_result {k : Command}
    (hc : ((callSystem length todo).guarded KeepsCallOrder).Reachable c)
    (hpc : c.threads.client = .idle) (hlast : c.threads.issued.getLast? = some k)
    (hsync : k.token ≠ 0) :
    c.threads.ran = c.threads.issued ∧ c.left.length = c.threads.issued.length ∧
      c.left.getLast? = some (c.threads.buffer.load (c.command + headerSize) k.payload.length) := by
  obtain ⟨s, h⟩ := exists_alongside hc
  obtain ⟨hran, hlength, hleft, -⟩ := h.getLast?_left hpc hlast hsync
  exact ⟨hran, hlength, hleft⟩

def checkCallOrder (c : Calls) : CallStep → Bool
  | .run thread => checkOrder c.threads thread
  | .store _ _ => true

theorem keepsCallOrder_of_checkCallOrder (c : Calls) (a : CallStep)
    (h : checkCallOrder c a = true) : KeepsCallOrder c a := by
  cases a with
  | run thread => exact keepsTokenOrder_of_checkOrder c.threads thread h
  | store => trivial

theorem exists_result_queryRun : ∃ c : Calls,
    c.threads.buffer.load (c.command + headerSize) 4 = [1, 2, 3, 4] ∧
      c.threads.ran = c.threads.issued ∧ c.left.length = c.threads.issued.length ∧
      c.left.getLast? = some (c.threads.buffer.load (c.command + headerSize) 4) := by
  have hrun : (queryRun.foldlM
      (fun u a => if checkCallOrder u a then Calls.step u a else none)
      ⟨initial 28 (fun _ => 0) [.query], 0, []⟩).map
        (fun c => (c.threads.client, c.threads.issued.getLast?,
          c.threads.buffer.load (c.command + headerSize) 4)) =
      some (.idle, some (Request.query.toCommand 1), [1, 2, 3, 4]) := by
    decide +kernel
  obtain ⟨c, hc, hobserved⟩ := Option.map_eq_some_iff.mp hrun
  simp only [Prod.mk.injEq] at hobserved
  obtain ⟨hpc, hlast, hload⟩ := hobserved
  have hreachable : ((callSystem 28 [.query]).guarded KeepsCallOrder).Reachable c :=
    System.guarded_of_foldlM (fun _ _ _ h => h) keepsCallOrder_of_checkCallOrder
      (.init ⟨_, rfl⟩) hc
  exact ⟨c, hload, exists_result hreachable hpc hlast (by decide)⟩

/-! ### Steps of calls -/

theorem client_of_serverMove (hmove : Move s .server t) : t.client = s.client := by
  cases hmove <;> rfl

namespace Calls

theorem move_of_run (hstep : c.step (.run thread) = some d) : Move c.threads thread d.threads := by
  cases thread with
  | client | server =>
    obtain ⟨u, hu, rfl⟩ := Option.map_eq_some_iff.mp hstep
    exact move_of_step hu

theorem left_of_client (hstep : c.step (.run .client) = some d) : d.left = c.left := by
  obtain ⟨u, -, rfl⟩ := Option.map_eq_some_iff.mp hstep
  rfl

theorem left_of_server (hstep : c.step (.run .server) = some d) :
    d.left = leftAfter c.threads.server c.threads.buffer c.left := by
  obtain ⟨u, -, rfl⟩ := Option.map_eq_some_iff.mp hstep
  rfl

theorem left_of_ne (hstep : c.step (.run .server) = some d)
    (hpc : ∀ a, c.threads.server ≠ .advancing a) : d.left = c.left := by
  rw [left_of_server hstep]
  unfold leftAfter
  split
  next a hadvancing => exact absurd hadvancing (hpc a)
  next => rfl

/-- A store changes bytes of the ring only. -/
theorem eq_of_store {offset : ℕ} {bytes : List UInt8}
    (hstep : c.step (.store offset bytes) = some d) :
    ∃ buffer, d = { c with threads := { c.threads with buffer := buffer } } := by
  simp only [step] at hstep
  split at hstep
  next =>
    split_ifs at hstep
    exact ⟨_, (Option.some.inj hstep).symm⟩
  next => cases hstep

end Calls

/-! ### What was packed, and who gets it -/

/-- The request whose command is in the ring, but not handed over. -/
def ClientPc.packed : ClientPc → Option Request
  | .written r _ | .stamped r _ _ | .headMoved r _ _ _ => some r
  | _ => none

/-- The commands that the client has packed. -/
def State.packed (s : State) : List Kind :=
  s.issued.map Command.kind ++ s.client.packed.toList.map Request.kind

/-- The client packs the request for which it has reserved room. -/
theorem packed_of_reserved {r : Request} {a : ℕ} (hmove : Move s .client t)
    (hpc : s.client = .reserved r a) : t.packed = s.packed ++ [r.kind] := by
  cases hmove with
  | write hpc' =>
    obtain ⟨rfl, -⟩ := ClientPc.reserved.inj (hpc.symm.trans hpc')
    simp [State.packed, ClientPc.packed, hpc]
  | spin hpc' | reserve hpc' | stamp hpc' | publishAsync hpc' | publishSync hpc' | handOver hpc'
  | foundEmpty hpc' | foundBusy hpc' | postServer hpc' | sleepClient hpc' | leave hpc'
  | wakeClient hpc' => exact absurd (hpc.symm.trans hpc') nofun

theorem ClientPc.packed_of_published {pc : ClientPc} {token : ℕ} (h : pc.published = some token) :
    pc.packed = none := by
  cases pc with
  | written | stamped | headMoved => cases h
  | _ => rfl

theorem packed_afterPublish (token : ℕ) : (afterPublish token).packed = none := by
  unfold afterPublish
  split <;> rfl

theorem packed_congr (hissued : t.issued = s.issued) (hpacked : t.client.packed = s.client.packed) :
    t.packed = s.packed := by
  rw [State.packed, State.packed, hissued, hpacked]

/-- No other step packs a command. -/
theorem packed_of_move (hmove : Move s thread t) (htoken : TokenFollows s)
    (hpc : thread = .client → ∀ r a, s.client ≠ .reserved r a) : t.packed = s.packed := by
  cases hmove with
  | write hpc' => exact absurd hpc' (hpc rfl _ _)
  -- The kind of the request is that of the command.
  | handOver hpc' =>
    simp only [TokenFollows, hpc'] at htoken
    subst htoken
    simp [State.packed, ClientPc.packed, hpc', Request.kind_toCommand]
  | foundBusy hpc' | postServer hpc' =>
    exact packed_congr rfl (by rw [packed_afterPublish, hpc']; rfl)
  | publishAsync hpc' | publishSync hpc' =>
    exact packed_congr startAdvance_issued (by rw [startAdvance_client, hpc']; rfl)
  | reserve hpc' | stamp hpc' | foundEmpty hpc' | sleepClient hpc' | leave hpc'
  | wakeClient hpc' => exact packed_congr rfl (by rw [hpc']; rfl)
  | spin | sleepServer | fetch | wakeServer | stop | dispatch | handle | advance | release
  | skipToken | takeToken | storeToken | postClient => exact packed_congr rfl rfl

theorem ran_of_handling {a : ℕ} (hmove : Move s .server t) (hpc : s.server = .handling a) :
    t.ran = s.ran ++ [commandAt s.buffer a] ∧ t.server = .advancing a := by
  cases hmove with
  | handle hpc' =>
    obtain rfl := ServerPc.handling.inj (hpc.symm.trans hpc')
    exact ⟨rfl, rfl⟩
  | sleepServer hpc' | fetch hpc' | wakeServer hpc' | stop hpc' | dispatch hpc' | advance hpc'
  | release hpc' | skipToken hpc' | takeToken hpc' | storeToken hpc' | postClient hpc' =>
    exact absurd (hpc.symm.trans hpc') nofun

/-- No step but that of a handler changes what was handled. -/
theorem ran_of_move (hmove : Move s thread t)
    (hpc : thread = .server → ∀ a, s.server ≠ .handling a) : t.ran = s.ran := by
  cases thread with
  | client => exact (clientMove_frame hmove).2.1
  | server =>
    cases hmove with
    | handle hpc' => exact absurd hpc' (hpc rfl _)
    | sleepServer | fetch | wakeServer | stop | dispatch | advance | release | skipToken
    | takeToken | storeToken | postClient => rfl

/-- A client that waits for no command, and has none in the making, had none before, or handed over
one that nobody waits for, or came back from a wait. -/
theorem settled_of_move (hmove : Move s .client t) (hpacked : t.client.packed = none)
    (hpublished : t.client.published = none)
    (hpc : ∀ token, s.client = .checking token → t.client ≠ .idle) :
    s.client.packed = none ∧ s.client.published = none ∨ s.client.published = some 0 := by
  cases hmove with
  | spin => exact .inl ⟨hpacked, hpublished⟩
  | reserve hpc' => exact .inl (by rw [hpc']; exact ⟨rfl, rfl⟩)
  | foundBusy hpc' | postServer hpc' =>
    refine .inr ?_
    rw [hpc', ← eq_zero_of_afterPublish fun _ htoken => absurd (hpublished.symm.trans htoken) nofun]
    rfl
  | leave hpc' => exact absurd rfl (hpc _ hpc')
  | write | stamp => exact nomatch hpacked
  | handOver | foundEmpty | sleepClient | wakeClient => exact nomatch hpublished
  | publishAsync | publishSync =>
    rw [startAdvance_client] at hpacked
    cases hpacked

/-- A client that comes back from a wait changes nothing else. -/
theorem Calls.eq_of_leave {token : ℕ} (hstep : c.step (.run .client) = some d)
    (hpc : c.threads.client = .checking token) (hleft : d.threads.client = .idle) :
    d = { c with threads := { c.threads with client := .idle } } := by
  obtain ⟨u, hu, rfl⟩ := Option.map_eq_some_iff.mp hstep
  have hmove := move_of_step hu
  simp only at hleft
  cases hmove with
  | leave => rfl
  | sleepClient => cases hleft
  | spin hpc' | reserve hpc' | write hpc' | stamp hpc' | publishAsync hpc' | publishSync hpc'
  | handOver hpc' | foundEmpty hpc' | foundBusy hpc' | postServer hpc' | wakeClient hpc' =>
    exact absurd (hpc.symm.trans hpc') nofun

namespace Alongside

variable (h : Alongside length todo c s)

include h

theorem tokenFollows : TokenFollows c.threads := by
  have htoken := h.progress.token
  rw [h.threads]
  exact htoken

theorem ran_isPrefix : c.threads.ran <+: c.threads.issued := by
  have hprefix := h.framed.ran_isPrefix
  rw [h.threads]
  exact hprefix

/-- A client that does not wait for a command has waited for all of them. -/
theorem syncCount_pending (hnone : c.threads.client.published = none) :
    syncCount c.threads.pending = 0 := by
  have hcount : syncCount c.threads.ran = syncCount c.threads.issued := by
    have hsettled := h.order.settled
    rw [h.threads] at hnone ⊢
    exact hsettled fun token htoken => absurd (hnone.symm.trans htoken) nofun
  obtain ⟨pending, hpending⟩ := h.ran_isPrefix
  rw [← hpending, syncCount_append] at hcount
  rw [State.pending, ← hpending, List.drop_left]
  omega

/-- The handler that is about to run gets the first command that is pending. -/
theorem exists_pending {a : ℕ} (hpc : c.threads.server = .handling a) :
    ∃ commands, c.threads.pending = commandAt c.threads.buffer a :: commands := by
  have hpc' : s.server = .handling a := by rw [← hpc, h.threads]
  have hserver := h.framed.server
  simp only [ServerFramed, hpc'] at hserver
  obtain ⟨rfl, hne⟩ := hserver
  obtain ⟨k, commands, hqueue⟩ := List.exists_cons_of_ne_nil hne
  obtain ⟨hpending, -⟩ := pending_eq (by rw [hpc']; rfl : s.server.inHand = 0)
  have hcommand : commandAt c.threads.buffer s.buffer.tail = k :=
    (h.tracks.handle h.framed hpc').1.trans (h.framed.commandAt_tail hqueue).commandAt_eq
  have hthreads : c.threads.pending = s.pending := by rw [h.threads]; rfl
  exact ⟨commands, by rw [hcommand, hthreads, hpending, hqueue]⟩

/-- A client that waits has the token of the command that it issued last. -/
theorem exists_published {token : ℕ} (hpub : c.threads.client.published = some token) :
    ∃ k, c.threads.issued.getLast? = some k ∧ k.token = token := by
  have hpub' : s.client.published = some token := by rw [← hpub, h.threads]
  have hlast := h.framed.getLast_issued hpub'
  rw [h.threads]
  exact hlast

end Alongside

end GpuProxy.Protocol
