import GpuProxy.Protocol.Schedule

/-!
# Which token the server acts on

The server loads the token of a command after `buffer_read_advance` has released
its bytes. If the client stores its next command there first, the server acts on
whatever the store left. In the runs where that does not happen the server acts on
the token the client gave the command.

A synchronous call then returns after its command has run, as long as the counter
has not wrapped around: the 2^32-th token is 1 again, and `last_token` is past that.

## Main definitions

* `ActsOnStoredToken` — the server has the token of the command it has just run
* `KeepsReadToken` — a step leaves the token the server is about to read
* `ReturnsAfterRun` — the wait loop ends only once its command has run
* `KeepsTokenOrder` — a step neither wraps the counter nor puts a future token
  where the server is about to read one

## Main results

* `actsOnStoredToken_of_keepsReadToken`, `returnsAfterRun_of_keepsTokenOrder` —
  the two properties along the runs whose steps meet the conditions
* `exists_foreign_token` — a run in which the server reads a later command's token
* `exists_early_return` — the runs in which a wrapped counter ends a wait too early
-/

namespace GpuProxy.Protocol

open RingBuffer Math

variable {length : ℕ} {todo : List Request} {s t : State} {thread : Thread}

/-- The token of the last command a handler has run. -/
def State.ranToken (s : State) : Option ℕ := s.ran.getLast?.map Command.token

/-- The token the server reads, stores or has stored is that of a command it has run:
the one run last when it reads and stores. -/
structure ActsOnStoredToken (s : State) : Prop where
  reading : ∀ a, s.server = .readingToken a → s.ranToken = some (tokenAt s.buffer a)
  storing : ∀ v, s.server = .storing v → s.ranToken = some v
  stored : s.buffer.lastToken = 0 ∨ ∃ c ∈ s.ran, c.token = s.buffer.lastToken

/-- A step of the client keeps the token field of the command the server has given
back and whose token it is about to read. -/
def KeepsReadToken (s : State) (thread : Thread) : Prop :=
  ∀ a t, thread = .client → s.server = .readingToken a → step s thread = some t →
    tokenAt t.buffer a = tokenAt s.buffer a

/-- A step of the client leaves the server where it is. -/
theorem clientMove_frame (hmove : Move s .client t) :
    t.server = s.server ∧ t.ran = s.ran ∧ t.buffer.lastToken = s.buffer.lastToken := by
  cases hmove with
  | publishAsync | publishSync => simp
  | stamp | write => simp
  | spin | reserve | handOver | foundEmpty | foundBusy | postServer | sleepClient | leave
  | wakeClient => exact ⟨rfl, rfl, rfl⟩

theorem actsOnStoredToken_initial (memory : ℕ → UInt8) :
    ActsOnStoredToken (initial length memory todo) := by
  constructor <;> simp [initial, bufferCreate]

theorem actsOnStoredToken_clientMove (h : ActsOnStoredToken s) (hmove : Move s .client t)
    (hkeeps : ∀ a, s.server = .readingToken a → tokenAt t.buffer a = tokenAt s.buffer a) :
    ActsOnStoredToken t := by
  obtain ⟨hserver, hran, hlast⟩ := clientMove_frame hmove
  have htoken : t.ranToken = s.ranToken := by rw [State.ranToken, hran, State.ranToken]
  refine ⟨?_, ?_, ?_⟩
  · intro a hpc
    rw [hserver] at hpc
    rw [htoken, hkeeps a hpc]
    exact h.reading a hpc
  · intro v hpc
    rw [hserver] at hpc
    rw [htoken]
    exact h.storing v hpc
  · rw [hran, hlast]
    exact h.stored

theorem actsOnStoredToken_serverMove (hf : Framed length s) (h : ActsOnStoredToken s)
    (hmove : Move s .server t) : ActsOnStoredToken t := by
  have hserver := hf.server
  have hstored := h.stored
  cases hmove with
  | sleepServer | fetch | wakeServer | stop | dispatch | skipToken | postClient =>
    exact ⟨by simp, by simp, hstored⟩
  | advance =>
    exact ⟨by simp, by simp, by simpa using hstored⟩
  -- The commands run only become more.
  | handle =>
    refine ⟨by simp, by simp, ?_⟩
    apply hstored.imp_right
    rintro ⟨c, hc, htoken⟩
    exact ⟨c, List.mem_append_left _ hc, htoken⟩
  | @release a count hpc =>
    -- The bytes are released, and still those of the command run last.
    simp only [ServerFramed, hpc] at hserver
    obtain ⟨c, hlast, -, hholds, -⟩ := hserver
    have hreleased : Holds (subFill s.buffer count) a c := hholds.congr rfl
    refine ⟨fun a' hpc' => ?_, by simp, by simpa using hstored⟩
    cases hpc'
    rw [hreleased.token_eq, State.ranToken, hlast]
    rfl
  | takeToken hpc _ =>
    refine ⟨by simp, fun v hpc' => ?_, hstored⟩
    cases hpc'
    exact h.reading _ hpc
  -- The token stored is that of the command run last, which has run.
  | storeToken hpc =>
    refine ⟨by simp, by simp, .inr ?_⟩
    obtain ⟨c, hlast, htoken⟩ := Option.map_eq_some_iff.mp (h.storing _ hpc)
    exact ⟨c, List.mem_of_getLast? hlast, htoken⟩

theorem actsOnStoredToken_invariant :
    ((system length todo).guarded KeepsReadToken).Invariant ActsOnStoredToken where
  init := by
    rintro _ ⟨memory, rfl⟩
    exact actsOnStoredToken_initial memory
  step s thread t hs h := by
    rintro ⟨hguard, hstep⟩
    have hf := framed_invariant.holds hs.of_guarded
    cases thread with
    | client =>
      exact actsOnStoredToken_clientMove h (move_of_step hstep)
        fun a hpc => hguard a t rfl hpc hstep
    | server => exact actsOnStoredToken_serverMove hf h (move_of_step hstep)

/-- In every run in which the client keeps the token field the server is about to
read, the server acts on the tokens the client stored, and `last_token` belongs to a
command that has run. -/
theorem actsOnStoredToken_of_keepsReadToken
    (hs : ((system length todo).guarded KeepsReadToken).Reachable s) :
    s.ran <+: s.issued ∧ ActsOnStoredToken s :=
  ⟨ran_isPrefix_issued hs.of_guarded, actsOnStoredToken_invariant.holds hs⟩

/-- The client stores nothing while the server is about to read a token, and its counter
does not wrap. -/
def checkOrder (s : State) : Thread → Bool
  | .server => true
  | .client =>
    match s.server with
    | .readingToken _ => false
    | _ => decide (s.token + 1 ≠ 2 ^ 32)

theorem keepsReadToken_of_checkOrder (s : State) (thread : Thread)
    (h : checkOrder s thread = true) : KeepsReadToken s thread := by
  intro a t hthread hpc _
  rw [hthread, checkOrder, hpc] at h
  cases h

/-- One synchronous call: the client up to its wait loop, then the server. -/
def orderlyRun : List Thread := List.replicate 7 .client ++ List.replicate 8 .server

theorem actsOnStoredToken_orderlyRun : ∃ s,
    orderlyRun.foldlM (fun u thread => if checkOrder u thread then step u thread else none)
      (initial 24 (fun _ => 0) [.bare true]) = some s ∧
    s.buffer.lastToken = 1 ∧ s.ran <+: s.issued ∧ ActsOnStoredToken s := by
  have hrun : (orderlyRun.foldlM
      (fun u thread => if checkOrder u thread then step u thread else none)
      (initial 24 (fun _ => 0) [.bare true])).map (fun s => s.buffer.lastToken) = some 1 := by
    decide +kernel
  obtain ⟨s, hs, hlast⟩ := Option.map_eq_some_iff.mp hrun
  exact ⟨s, hs, hlast, actsOnStoredToken_of_keepsReadToken
    (System.guarded_of_foldlM (fun _ _ _ h => h) keepsReadToken_of_checkOrder (.init ⟨_, rfl⟩) hs)⟩

/-- The client hands over a command without a token, the server runs it and releases
its bytes, and the client stores its next command there before the server goes on. -/
def overtakingRun : List Thread :=
  List.replicate 6 .client ++ List.replicate 5 .server ++ List.replicate 3 .client

/-- In a ring of 24 bytes the server reads the token 1 for a command whose token is 0. -/
theorem exists_foreign_token : ∃ s,
    (system 24 [.bare false, .bare true]).Reachable s ∧ ¬ActsOnStoredToken s := by
  have hrun : (overtakingRun.foldlM step (initial 24 (fun _ => 0) [.bare false, .bare true])).map
      (fun s => (s.server, tokenAt s.buffer 0, s.ranToken)) =
        some (.readingToken 0, 1, some 0) := by
    decide +kernel
  obtain ⟨s, hs, hobserved⟩ := Option.map_eq_some_iff.mp hrun
  simp only [Prod.mk.injEq] at hobserved
  obtain ⟨hpc, htoken, hran⟩ := hobserved
  refine ⟨s, System.reachable_of_foldlM (.init ⟨_, rfl⟩) hs, fun h => ?_⟩
  have hread := h.reading 0 hpc
  rw [htoken, hran] at hread
  cases hread

/-! ### The order of the tokens -/

/-- The client leaves the wait loop of its `k`-th synchronous call, where `k` is the
number of synchronous commands issued so far, only when the handlers of `k` of them
have run; they run in the order of issue. -/
def ReturnsAfterRun (s : State) : Prop :=
  ∀ token, s.client = .checking token → token ≤ s.buffer.lastToken →
    syncCount s.issued ≤ syncCount s.ran

/-- A step of the client does not wrap its counter, and does not leave a token it has
not given out yet where the server is about to read one. -/
structure KeepsTokenOrder (s : State) (thread : Thread) : Prop where
  counter : ∀ r a, thread = .client → s.client = .written r a → r.sync = true →
    s.token + 1 ≠ 2 ^ 32
  reading : ∀ a t, thread = .client → s.server = .readingToken a → step s thread = some t →
    tokenAt t.buffer a ≤ s.token

/-- No command's token exceeds the number of synchronous commands up to it. -/
def Stamped (cs : List Command) : Prop :=
  ∀ ds c, ds ++ [c] <+: cs → c.token ≤ syncCount (ds ++ [c])

/-- The tokens seen by the server do not exceed the number of synchronous commands it
has run, which is all of them while the client is not waiting for one. -/
structure TokenOrder (s : State) : Prop where
  counter_lt : syncCount s.issued + s.client.pendingTokens < 2 ^ 32
  stamped : Stamped s.issued
  settled : (∀ token, s.client.published = some token → token = 0) →
    syncCount s.ran = syncCount s.issued
  reading : ∀ a, s.server = .readingToken a → tokenAt s.buffer a ≤ syncCount s.ran
  storing : ∀ v, s.server = .storing v → v ≤ syncCount s.ran
  stored : s.buffer.lastToken ≤ syncCount s.ran

theorem tokenOrder_initial (memory : ℕ → UInt8) :
    TokenOrder (initial length memory todo) := by
  constructor <;> simp [initial, bufferCreate, ClientPc.pendingTokens, syncCount, Stamped]

theorem TokenOrder.token_eq (hp : Progress todo s) (h : TokenOrder s) :
    s.token = syncCount s.issued + s.client.pendingTokens := by
  rw [hp.counter, Nat.mod_eq_of_lt h.counter_lt]

/-- With no wrap and no foreign token, the wait loop's comparison is right. -/
theorem TokenOrder.returnsAfterRun (hp : Progress todo s) (h : TokenOrder s) :
    ReturnsAfterRun s := by
  intro token hpc hlast
  have htoken := hp.token
  simp only [TokenFollows, hpc] at htoken
  have hcounter : s.token = syncCount s.issued := by
    simpa [hpc, ClientPc.pendingTokens] using h.token_eq hp
  calc syncCount s.issued = s.token := hcounter.symm
    _ ≤ commandToken s.token := le_commandToken _
    _ = token := htoken.symm
    _ ≤ s.buffer.lastToken := hlast
    _ ≤ syncCount s.ran := h.stored

/-- A command that takes the next token keeps the tokens in order. -/
theorem Stamped.append {cs : List Command} {c : Command} (h : Stamped cs)
    (hc : c.token ≤ syncCount (cs ++ [c])) : Stamped (cs ++ [c]) := by
  intro ds d hd
  rcases List.prefix_concat_iff.mp hd with heq | hprefix
  · obtain ⟨rfl, hdc⟩ := List.append_inj' heq rfl
    obtain rfl := List.singleton_injective hdc
    exact hc
  · exact h ds d hprefix

/-- The last command run has one of the tokens given out to the commands run. -/
theorem Stamped.token_le {cs ds : List Command} {c : Command} (h : Stamped cs) (hds : ds <+: cs)
    (hlast : ds.getLast? = some c) : c.token ≤ syncCount ds := by
  obtain ⟨es, rfl⟩ := List.getLast?_eq_some_iff.mp hlast
  exact h es c hds

theorem syncCount_eq_of_le {cs ds : List Command} (h : cs <+: ds)
    (hle : syncCount ds ≤ syncCount cs) : syncCount cs = syncCount ds :=
  Nat.le_antisymm (syncCount_mono h) hle

/-- A client step that stores nothing keeps what the server reads. -/
theorem TokenOrder.of_client (h : TokenOrder s) (hserver : t.server = s.server)
    (hran : t.ran = s.ran) (hlast : t.buffer.lastToken = s.buffer.lastToken)
    (hcounter : syncCount t.issued + t.client.pendingTokens < 2 ^ 32) (hstamped : Stamped t.issued)
    (hsettled : (∀ token, t.client.published = some token → token = 0) →
      syncCount t.ran = syncCount t.issued)
    (hreading : ∀ a, s.server = .readingToken a → tokenAt t.buffer a ≤ syncCount s.ran) :
    TokenOrder t := by
  refine ⟨hcounter, hstamped, hsettled, ?_, ?_, ?_⟩
  · rw [hserver, hran]
    exact hreading
  · rw [hserver, hran]
    exact h.storing
  · rw [hran, hlast]
    exact h.stored

/-- The command about to be handed over has the number of synchronous commands up to it
as its token, or 0. -/
theorem TokenOrder.token_le_of_headMoved (hp : Progress todo s) (h : TokenOrder s) {r : Request}
    {a token count : ℕ} (hpc : s.client = .headMoved r a token count) :
    token ≤ syncCount (s.issued ++ [r.toCommand token]) := by
  have htoken := h.token_eq hp
  have hfollows := hp.token
  simp only [hpc, ClientPc.pendingTokens] at htoken
  simp only [TokenFollows, hpc] at hfollows
  rw [syncCount_append, syncCount_singleton_toCommand, ← htoken]
  -- The counter has not wrapped, so a token that is not 0 is the counter.
  rcases tokenOf_cases hfollows with hzero | hcommand
  · simp [hzero]
  · have hne : token ≠ 0 := hcommand ▸ commandToken_ne_zero _
    rw [if_neg hne] at htoken
    rw [commandToken_of_ne_zero (by omega)] at hcommand
    exact hcommand.le

theorem tokenOrder_clientMove (hf : Framed length s) (hp : Progress todo s) (h : TokenOrder s)
    (hmove : Move s .client t)
    (hcounter : ∀ r a, s.client = .written r a → r.sync = true → s.token + 1 ≠ 2 ^ 32)
    (hreading : ∀ a, s.server = .readingToken a → tokenAt t.buffer a ≤ s.token) :
    TokenOrder t := by
  obtain ⟨hserver, hran, hlast⟩ := clientMove_frame hmove
  have htoken := h.token_eq hp
  have hfollows := hp.token
  have hlt := h.counter_lt
  have hsettled := h.settled
  cases hmove with
  | spin => exact h
  | reserve hpc _ _ =>
    exact h.of_client rfl rfl rfl (by simpa [hpc, ClientPc.pendingTokens] using hlt) h.stamped
      (fun _ => hsettled (by simp [hpc, ClientPc.published])) h.reading
  -- The store may hit the bytes the server reads its token from: that is the guard.
  | write hpc =>
    simp only [hpc, ClientPc.pendingTokens, Nat.add_zero] at htoken hlt
    have hrun := hsettled (by simp [hpc, ClientPc.published])
    refine h.of_client rfl rfl rfl hlt h.stamped (fun _ => hrun) ?_
    intro a ha
    rw [hrun, ← htoken]
    exact hreading a ha
  | stamp hpc hsync =>
    simp only [hpc, ClientPc.pendingTokens, Nat.add_zero] at htoken hlt
    have hrun := hsettled (by simp [hpc, ClientPc.published])
    -- The counter stays below its bound because it does not wrap here.
    have hwrap := hcounter _ _ hpc hsync
    refine h.of_client rfl rfl rfl ?_ h.stamped (fun _ => hrun) ?_
    · simp only [ClientPc.pendingTokens]
      omega
    · intro a ha
      rw [hrun, ← htoken]
      exact hreading a ha
  | publishAsync hpc _ =>
    exact h.of_client (by simp) (by simp) (by simp)
      (by simpa [hpc, ClientPc.pendingTokens] using hlt) (by simpa using h.stamped)
      (fun _ => by simpa using hsettled (by simp [hpc, ClientPc.published]))
      (by simpa using h.reading)
  | publishSync hpc =>
    simp only [TokenFollows, hpc] at hfollows
    obtain ⟨-, rfl⟩ := hfollows
    exact h.of_client (by simp) (by simp) (by simp)
      (by simpa [hpc, ClientPc.pendingTokens, commandToken_ne_zero] using hlt)
      (by simpa using h.stamped)
      (fun _ => by simpa using hsettled (by simp [hpc, ClientPc.published]))
      (by simpa using h.reading)
  | @handOver r a token count hpc =>
    simp only [hpc, ClientPc.pendingTokens] at hlt
    have hrun := hsettled (by simp [hpc, ClientPc.published])
    have hsingle := syncCount_singleton_toCommand r token
    refine h.of_client rfl rfl rfl ?_ (h.stamped.append ?_) ?_ (by simpa using h.reading)
    · simp only [syncCount_append, hsingle, ClientPc.pendingTokens]
      exact hlt
    · exact h.token_le_of_headMoved hp hpc
    · intro hasync
      simp only [ClientPc.published, Option.some.injEq, forall_eq'] at hasync
      rw [syncCount_append, hsingle, if_pos hasync, Nat.add_zero]
      exact hrun
  | foundEmpty hpc _ | sleepClient hpc _ | wakeClient hpc _ =>
    exact h.of_client rfl rfl rfl (by simpa [hpc, ClientPc.pendingTokens] using hlt) h.stamped
      (fun hasync => hsettled (by simpa [hpc, ClientPc.published] using hasync)) h.reading
  | foundBusy hpc _ | postServer hpc =>
    refine h.of_client rfl rfl rfl ?_ h.stamped (fun hasync => hsettled ?_) h.reading
    · rw [pendingTokens_afterPublish]
      simpa [hpc, ClientPc.pendingTokens] using hlt
    · simp only [hpc, ClientPc.published, Option.some.injEq, forall_eq']
      exact eq_zero_of_afterPublish hasync
  | leave hpc hlast' =>
    -- The comparison was right, so every synchronous command issued has run.
    have hrun := syncCount_eq_of_le hf.ran_isPrefix (h.returnsAfterRun hp _ hpc hlast')
    exact h.of_client rfl rfl rfl (by simpa [hpc, ClientPc.pendingTokens] using hlt) h.stamped
      (fun _ => hrun) h.reading

theorem tokenOrder_serverMove (hf : Framed length s) (hf' : Framed length t) (h : TokenOrder s)
    (hmove : Move s .server t) : TokenOrder t := by
  have hserver := hf.server
  cases hmove with
  | sleepServer | fetch | wakeServer | stop | dispatch | skipToken | postClient =>
    exact { h with reading := by simp, storing := by simp }
  | advance =>
    exact ⟨h.counter_lt, h.stamped, h.settled, by simp, by simp, by simpa using h.stored⟩
  | @handle a _ =>
    -- If all synchronous commands had run before, then this one is asynchronous.
    have hgrow := syncCount_mono (List.prefix_append s.ran [commandAt s.buffer a])
    refine ⟨h.counter_lt, h.stamped, fun hasync => ?_, by simp, by simp, h.stored.trans hgrow⟩
    exact syncCount_eq_of_le hf'.ran_isPrefix ((h.settled hasync).symm.le.trans hgrow)
  | @release a count hpc =>
    simp only [ServerFramed, hpc] at hserver
    obtain ⟨c, hlast, -, hholds, -⟩ := hserver
    have hreleased : Holds (subFill s.buffer count) a c := hholds.congr rfl
    refine { h with reading := ?_, storing := by simp, stored := by simpa using h.stored }
    intro a' hpc'
    cases hpc'
    rw [hreleased.token_eq]
    exact h.stamped.token_le hf.ran_isPrefix hlast
  | takeToken hpc _ =>
    refine { h with reading := by simp, storing := ?_ }
    intro v hpc'
    cases hpc'
    exact h.reading _ hpc
  | storeToken hpc =>
    exact { h with reading := by simp, storing := by simp, stored := h.storing _ hpc }

theorem tokenOrder_invariant :
    ((system length todo).guarded KeepsTokenOrder).Invariant TokenOrder where
  init := by
    rintro _ ⟨memory, rfl⟩
    exact tokenOrder_initial memory
  step s thread t hs h := by
    rintro ⟨hguard, hstep⟩
    have hf := framed_invariant.holds hs.of_guarded
    have hp := progress_invariant.holds hs.of_guarded
    have hmove := move_of_step hstep
    cases thread with
    | client =>
      exact tokenOrder_clientMove hf hp h hmove (fun r a => hguard.counter r a rfl)
        fun a hpc => hguard.reading a t rfl hpc hstep
    | server => exact tokenOrder_serverMove hf (framed_move hf hmove) h hmove

/-- In every run in which the client neither wraps its counter nor stores a future
token where the server is about to read one, a synchronous call returns only after its
command has run. -/
theorem returnsAfterRun_of_keepsTokenOrder
    (hs : ((system length todo).guarded KeepsTokenOrder).Reachable s) :
    s.ran <+: s.issued ∧ ReturnsAfterRun s :=
  ⟨ran_isPrefix_issued hs.of_guarded,
    (tokenOrder_invariant.holds hs).returnsAfterRun (progress_invariant.holds hs.of_guarded)⟩

theorem keepsTokenOrder_of_checkOrder (s : State) (thread : Thread)
    (h : checkOrder s thread = true) : KeepsTokenOrder s thread := by
  refine ⟨?_, ?_⟩
  · intro r a hthread hpc _
    rw [hthread, checkOrder] at h
    split at h
    · cases h
    · exact of_decide_eq_true h
  · intro a t hthread hpc _
    rw [hthread, checkOrder, hpc] at h
    cases h

theorem returnsAfterRun_orderlyRun : ∃ s,
    orderlyRun.foldlM (fun u thread => if checkOrder u thread then step u thread else none)
      (initial 24 (fun _ => 0) [.bare true]) = some s ∧
    s.buffer.lastToken = 1 ∧ syncCount s.issued = 1 ∧ s.ran <+: s.issued ∧ ReturnsAfterRun s := by
  have hrun : (orderlyRun.foldlM
      (fun u thread => if checkOrder u thread then step u thread else none)
      (initial 24 (fun _ => 0) [.bare true])).map
        (fun s => (s.buffer.lastToken, syncCount s.issued)) = some (1, 1) := by
    decide +kernel
  obtain ⟨s, hs, hobserved⟩ := Option.map_eq_some_iff.mp hrun
  simp only [Prod.mk.injEq] at hobserved
  exact ⟨s, hs, hobserved.1, hobserved.2, returnsAfterRun_of_keepsTokenOrder
    (System.guarded_of_foldlM (fun _ _ _ h => h) keepsTokenOrder_of_checkOrder (.init ⟨_, rfl⟩) hs)⟩

/-- When the counter has wrapped, the first check of the wait loop passes although the
command has not run: some acknowledged token is at least the new one. -/
theorem exists_early_return {n : ℕ} (hn : 1 ≤ n) (hwrap : (n + 1) % 2 ^ 32 ≤ 1) : ∃ s,
    (system 24 (List.replicate (n + 1) (.bare true))).Reachable s ∧ ¬ReturnsAfterRun s := by
  have hinit : (system 24 (List.replicate (n + 1) (.bare true))).Reachable
      (initial 24 (fun _ => 0) (List.replicate (n + 1) (.bare true))) := .init ⟨_, rfl⟩
  obtain ⟨s, hs, hq, htodo⟩ := exists_quiet [.bare true] hinit (quiet_initial _)
    List.replicate_succ'
    (fun r hr => by rw [List.eq_of_mem_replicate hr]; decide)
    (fun r hr => by rw [List.eq_of_mem_replicate hr]; decide)
  have hcount : syncCount s.issued = n := by
    have hsum := (progress_invariant.holds hs).syncCount_issued (by rw [hq.client]; rfl)
    rw [htodo, List.countP_replicate, List.countP_singleton] at hsum
    simpa [Request.bare] using hsum
  have htoken : s.token = n % 2 ^ 32 := by
    have hcounter := (progress_invariant.holds hs).counter
    simpa [hq.client, ClientPc.pendingTokens, hcount] using hcounter
  obtain ⟨t, ht, hpc, -, -, -, hissued, hran, hlast⟩ :=
    exists_published hs hq htodo (by decide)
  refine ⟨t, ht, fun h => ?_⟩
  have hone : commandToken (bumpToken s.token) = 1 := by
    rw [htoken, bumpToken, Nat.mod_add_mod, commandToken]
    split <;> omega
  simp only [Request.tokenOf, Request.bump, Request.bare, if_true, hone] at hpc hissued
  have hpassed : 1 ≤ t.buffer.lastToken := by
    rw [hlast, hq.last, if_neg (by omega)]
    exact Nat.one_le_iff_ne_zero.mpr (commandToken_ne_zero _)
  have hle := h 1 hpc hpassed
  rw [hissued, hran, hq.ran, syncCount_append, syncCount_singleton_toCommand] at hle
  simp at hle

/-- The client's 2^32-th synchronous call returns at once. -/
theorem exists_early_return_wrap : ∃ s,
    (system 24 (List.replicate (2 ^ 32) (.bare true))).Reachable s ∧ ¬ReturnsAfterRun s :=
  exists_early_return (n := 2 ^ 32 - 1) (by decide) (by decide)

end GpuProxy.Protocol
