import GpuProxy.Protocol.Schedule

/-!
# Shutting a client down

`client_destroy` sends `COMMAND_SHUTDOWN` through `client_run_command`, which waits
for the command to be acknowledged. The server leaves its loop on that command
before it would acknowledge it. The client gets past the wait only if `last_token`
is large enough already: when the counter has just wrapped, so that the token of the
shutdown is 1, and some earlier call was acknowledged.

## Main definitions

* `Deadlocked` — the client waits for a server that has left its loop

## Main results

* `not_deadlocked_iff` — the request lists after which no schedule deadlocks
* `exists_deadlocked` — a client that only shuts down
-/

namespace GpuProxy.Protocol

open RingBuffer Math

variable {length : ℕ} {todo rs : List Request} {s t : State} {thread : Thread}

/-- The client is in `sem_wait` in `client_run_command`, no post is pending, its token
is not acknowledged, and the server has left its loop. -/
def Deadlocked (s : State) : Prop :=
  ∃ token, s.client = .waiting token ∧ s.clientSignal = 0 ∧ s.buffer.lastToken < token ∧
    s.server = .stopped

/-! ### A call that returned has left a token behind -/

/-- The token of the call the client is in; 0 outside a synchronous call. -/
def ClientPc.currentToken : ClientPc → ℕ
  | .stamped _ _ token | .headMoved _ _ token _ | .added _ _ token | .posting token
  | .checking token | .waiting token => token
  | .idle | .reserved _ _ | .written _ _ => 0

/-- Before the first acknowledgement, the client has not returned from any
synchronous call. -/
structure FirstCall (s : State) : Prop where
  storing : ∀ v, s.server = .storing v → v ≠ 0
  first : s.buffer.lastToken = 0 →
    syncCount s.issued + s.client.pendingTokens ≤ if s.client.currentToken = 0 then 0 else 1

theorem firstCall_initial (memory : ℕ → UInt8) : FirstCall (initial length memory todo) := by
  constructor <;> simp [initial, syncCount, ClientPc.pendingTokens]

theorem currentToken_afterPublish (token : ℕ) : (afterPublish token).currentToken = token := by
  unfold afterPublish
  split
  next hzero => exact hzero.symm
  next => rfl

theorem firstCall_clientMove (hp : Progress todo s) (h : FirstCall s) (hmove : Move s .client t) :
    FirstCall t := by
  have hfollows := hp.token
  have hfirst := h.first
  cases hmove with
  | spin => exact h
  | reserve hpc _ _ | sleepClient hpc _ | wakeClient hpc _ | foundEmpty hpc _ =>
    rw [hpc] at hfirst
    exact ⟨h.storing, hfirst⟩
  | write hpc =>
    refine ⟨h.storing, fun hlast => ?_⟩
    rw [writeCommand_lastToken] at hlast
    simpa [hpc, ClientPc.pendingTokens, ClientPc.currentToken] using hfirst hlast
  | stamp hpc _ =>
    refine ⟨h.storing, fun hlast => ?_⟩
    rw [writeToken_lastToken] at hlast
    have hnone := hfirst hlast
    simp only [hpc, ClientPc.pendingTokens, ClientPc.currentToken, if_true] at hnone
    simp only [ClientPc.pendingTokens, ClientPc.currentToken, commandToken_ne_zero, if_false]
    omega
  | publishAsync hpc _ =>
    refine ⟨by simpa using h.storing, fun hlast => ?_⟩
    simpa [hpc, ClientPc.pendingTokens, ClientPc.currentToken] using hfirst (by simpa using hlast)
  | publishSync hpc =>
    simp only [TokenFollows, hpc] at hfollows
    obtain ⟨-, rfl⟩ := hfollows
    refine ⟨by simpa using h.storing, fun hlast => ?_⟩
    simpa [hpc, ClientPc.pendingTokens, ClientPc.currentToken, commandToken_ne_zero] using
      hfirst (by simpa using hlast)
  | @handOver r a token count hpc =>
    rw [hpc] at hfirst
    refine ⟨h.storing, fun hlast => ?_⟩
    rw [syncCount_append, syncCount_singleton_toCommand]
    exact hfirst hlast
  | foundBusy hpc _ | postServer hpc =>
    refine ⟨h.storing, fun hlast => ?_⟩
    rw [pendingTokens_afterPublish, currentToken_afterPublish]
    rw [hpc] at hfirst
    exact hfirst hlast
  | leave hpc hlast' =>
    -- The call returns, so its token, which is positive, is acknowledged.
    simp only [TokenFollows, hpc] at hfollows
    have hpos := commandToken_ne_zero s.token
    exact ⟨h.storing, fun hlast => absurd hlast (by simp only; omega)⟩

theorem firstCall_serverMove (h : FirstCall s) (hmove : Move s .server t) : FirstCall t := by
  have hfirst := h.first
  cases hmove with
  | sleepServer | fetch | wakeServer | stop | dispatch | handle | skipToken | postClient =>
    exact ⟨nofun, hfirst⟩
  | advance | release => exact ⟨nofun, fun hlast => hfirst (by simpa using hlast)⟩
  | takeToken _ htoken =>
    refine ⟨fun v hpc => ?_, hfirst⟩
    cases hpc
    exact htoken
  | storeToken hpc => exact ⟨nofun, fun hlast => absurd hlast (h.storing _ hpc)⟩

theorem firstCall_invariant : (system length todo).Invariant FirstCall where
  init := by
    rintro _ ⟨memory, rfl⟩
    exact firstCall_initial memory
  step _ thread _ hs h hstep := by
    have hmove := move_of_step hstep
    cases thread with
    | client => exact firstCall_clientMove (progress_invariant.holds hs) h hmove
    | server => exact firstCall_serverMove h hmove

/-! ### When the server has stopped -/

/-- The server stops on the shutdown command only, so all requests have been issued. -/
theorem todo_eq_nil_of_stopped (hf : Framed length s) (hp : Progress (rs ++ [.shutdown]) s)
    (htype : ∀ r ∈ rs, r.type ≠ commandShutdown) (hserver : s.server = .stopped) :
    s.todo = [] := by
  have hframed := hf.server
  simp only [ServerFramed, hserver] at hframed
  obtain ⟨c, hhead, hshutdown⟩ := hframed
  -- Were a request left to send, the last one would be the shutdown, not issued yet.
  have hissued : c ∈ s.issued := List.mem_of_mem_drop (List.mem_of_mem_head? hhead)
  rcases List.eq_nil_or_concat' s.todo with hnil | ⟨todo, r, htodo⟩
  · exact hnil
  · have hkinds := hp.requests
    rw [htodo, List.map_append, List.map_append, ← List.append_assoc, ← List.append_assoc] at hkinds
    obtain ⟨hbefore, -⟩ := List.append_inj' hkinds rfl
    have hmem : c.kind ∈ rs.map Request.kind := by
      rw [← hbefore]
      simp [List.mem_map_of_mem hissued]
    obtain ⟨r', hr', hkind⟩ := List.mem_map.mp hmem
    have heq : r'.type = c.type := congrArg Kind.type hkind
    exact absurd (heq.trans hshutdown) (htype r' hr')

/-- With the token of the shutdown at 1 and an earlier call acknowledged, the wait loop
of the shutdown is not entered again. -/
theorem not_deadlocked (hs : (system length (rs ++ [.shutdown])).Reachable s)
    (htype : ∀ r ∈ rs, r.type ≠ commandShutdown) (hcalls : 1 ≤ rs.countP (·.sync))
    (hwrap : (rs.countP (·.sync) + 1) % 2 ^ 32 ≤ 1) : ¬Deadlocked s := by
  rintro ⟨token, hclient, -, hlast, hserver⟩
  have hp := progress_invariant.holds hs
  have htodo := todo_eq_nil_of_stopped (framed_invariant.holds hs) hp htype hserver
  have hcount : syncCount s.issued = rs.countP (·.sync) + 1 := by
    have hsum := hp.syncCount_issued (by rw [hclient]; rfl)
    simpa [htodo, Request.shutdown] using hsum
  have htoken : token = 1 := by
    have hfollows := hp.token
    have hcounter := hp.counter
    simp only [TokenFollows, hclient] at hfollows
    simp only [hclient, ClientPc.pendingTokens, Nat.add_zero, hcount] at hcounter
    rw [hfollows, commandToken]
    split <;> omega
  have hfirst := (firstCall_invariant.holds hs).first (by omega)
  simp only [hclient, ClientPc.pendingTokens, ClientPc.currentToken, htoken, hcount,
    one_ne_zero, if_false] at hfirst
  omega

/-! ### The schedule that deadlocks -/

/-- A client that waits in vain consumes the posts that are left and stays. -/
theorem exists_drained {token : ℕ} (hs : (system length todo).Reachable s)
    (hclient : s.client = .checking token) (hlast : s.buffer.lastToken < token) :
    ∃ t, (system length todo).Reachable t ∧ t.client = .waiting token ∧ t.clientSignal = 0 ∧
      t.buffer = s.buffer ∧ t.server = s.server := by
  induction hsignal : s.clientSignal generalizing s with
  | zero =>
    have hslept := hs.step (step_of_move (.sleepClient hclient hlast))
    exact ⟨_, hslept, rfl, hsignal, rfl, rfl⟩
  | succ n ih =>
    have hslept := hs.step (step_of_move (.sleepClient hclient hlast))
    have hwoken := hslept.step (step_of_move (.wakeClient rfl (by simp [hsignal])))
    obtain ⟨t, ht⟩ := ih hwoken rfl hlast (by simp [hsignal])
    exact ⟨t, ht⟩

/-- Serving every request and then the shutdown ends in a deadlock if the last token
acknowledged is smaller than that of the shutdown. -/
theorem exists_deadlocked_of_lt (hlength : headerSize ≤ length)
    (hfit : ∀ r ∈ rs, r.size ≤ length) (htype : ∀ r ∈ rs, r.type ≠ commandShutdown)
    (hlt : rs.countP (·.sync) = 0 ∨ 1 < (rs.countP (·.sync) + 1) % 2 ^ 32) :
    ∃ s, (system length (rs ++ [.shutdown])).Reachable s ∧ Deadlocked s := by
  have hinit : (system length (rs ++ [.shutdown])).Reachable
      (initial length (fun _ => 0) (rs ++ [.shutdown])) := .init ⟨_, rfl⟩
  obtain ⟨s, hs, hq, htodo⟩ := exists_quiet _ hinit (quiet_initial _) rfl hfit htype
  have hp := progress_invariant.holds hs
  have hcount : syncCount s.issued = rs.countP (·.sync) := by
    have hsum := hp.syncCount_issued (by rw [hq.client]; rfl)
    simpa [htodo, Request.shutdown] using hsum
  have hcounter : s.token = rs.countP (·.sync) % 2 ^ 32 := by
    have := hp.counter
    simpa [hq.client, ClientPc.pendingTokens, hcount] using this
  obtain ⟨t, ht, hpc, hserver, -, -, hissued, hran, hlast⟩ := exists_published hs hq htodo hlength
  simp only [Request.tokenOf, Request.bump, Request.shutdown, if_true] at hpc hissued
  have hsmaller : t.buffer.lastToken < commandToken (bumpToken s.token) := by
    rw [hlast, hq.last, hcount, hcounter, bumpToken, Nat.mod_add_mod]
    unfold commandToken
    split_ifs <;> omega
  have hf := framed_invariant.holds ht
  have hqueue : t.queue = [Request.shutdown.toCommand (commandToken (bumpToken s.token))] := by
    have hsplit := hf.issued_eq (by rw [hserver]; rfl)
    rw [hissued, hran, hq.ran, List.append_cancel_left_eq] at hsplit
    exact hsplit.symm
  have hfill : t.buffer.fillCount ≠ 0 := by
    rw [hf.fill_eq, hqueue]
    simp [Command.size, headerSize]
  have hfetched := ht.step (step_of_move (.fetch hserver hfill))
  have hstopped := hfetched.step
    (step_of_move (.stop rfl (hf.commandAt_tail hqueue).type_eq))
  rw [afterPublish, if_neg (commandToken_ne_zero _)] at hpc
  obtain ⟨u, hu, hclient, hsignal, hbuffer, hserver'⟩ := exists_drained hstopped hpc hsmaller
  exact ⟨u, hu, _, hclient, hsignal, hbuffer ▸ hsmaller, hserver'⟩

/-- For a client whose commands fit in the ring: no schedule of its requests followed
by `client_destroy` deadlocks, exactly if the token of the shutdown is 1 again because
the counter has wrapped, and some call before it was synchronous. -/
theorem not_deadlocked_iff (hlength : headerSize ≤ length) (hfit : ∀ r ∈ rs, r.size ≤ length)
    (htype : ∀ r ∈ rs, r.type ≠ commandShutdown) :
    (∀ s, (system length (rs ++ [.shutdown])).Reachable s → ¬Deadlocked s) ↔
      1 ≤ rs.countP (·.sync) ∧ (rs.countP (·.sync) + 1) % 2 ^ 32 ≤ 1 := by
  constructor
  · intro hsafe
    by_contra hcond
    obtain ⟨s, hs, hdead⟩ := exists_deadlocked_of_lt hlength hfit htype (by omega)
    exact hsafe s hs hdead
  · rintro ⟨hcalls, hwrap⟩ s hs
    exact not_deadlocked hs htype hcalls hwrap

theorem not_deadlocked_iff_one_call :
    (∀ s, (system 24 [.bare true, .shutdown]).Reachable s → ¬Deadlocked s) ↔
      1 ≤ [Request.bare true].countP (·.sync) ∧
        ([Request.bare true].countP (·.sync) + 1) % 2 ^ 32 ≤ 1 :=
  @not_deadlocked_iff 24 [.bare true] (by decide) (by decide) (by decide)

/-- The client sends the shutdown and falls asleep; the server takes it and leaves. -/
def shutdownRun : List Thread := List.replicate 8 .client ++ List.replicate 2 .server

/-- A client that is destroyed before it has done anything deadlocks. -/
theorem exists_deadlocked : ∃ s, (system 24 [.shutdown]).Reachable s ∧ Deadlocked s := by
  have hrun : (shutdownRun.foldlM step (initial 24 (fun _ => 0) [.shutdown])).map
      (fun s => (s.client, s.clientSignal, s.buffer.lastToken, s.server)) =
        some (.waiting 1, 0, 0, .stopped) := by
    decide +kernel
  obtain ⟨s, hs, hobserved⟩ := Option.map_eq_some_iff.mp hrun
  simp only [Prod.mk.injEq] at hobserved
  obtain ⟨hclient, hsignal, hlast, hserver⟩ := hobserved
  exact ⟨s, System.reachable_of_foldlM (.init ⟨_, rfl⟩) hs, 1, hclient, hsignal, by omega, hserver⟩

end GpuProxy.Protocol
