import GpuProxy.Protocol.Progress

/-!
# No wake-up is lost

The client posts `server_signal` only when `fill_count` equals the size of the
command it has just added, and the server posts `client_signal` after storing
`last_token`. Both sides test before they sleep, so a post may come too early or
be stale; what must not happen is a side asleep, with no post pending or about to
come, while what it waits for is there.

Nothing here depends on what the server reads as a command's token once the
client has gone on: while the client waits, the bytes of its command stay.

## Main definitions

* `LostServerWakeup`, `LostClientWakeup`, `BothBlocked` — the states to exclude
* `Signalled` — the invariant behind their absence

## Main results

* `no_lost_wakeup` — none of them is reachable
-/

namespace GpuProxy.Protocol

open RingBuffer Math

variable {length : ℕ} {todo : List Request} {s t : State} {thread : Thread}

/-- The client is between its `buffer_write_advance` and its conditional post, and
`fill_count` equals the size of the command it has added. -/
def AboutToPost (s : State) : Prop :=
  match s.client with
  | .added _ _ _ | .posting _ => (s.issued.getLast?).map Command.size = some s.buffer.fillCount
  | _ => False

/-- The server sleeps although the ring holds a command, and no post is coming. -/
def LostServerWakeup (s : State) : Prop :=
  s.server = .waiting ∧ s.serverSignal = 0 ∧ 0 < s.buffer.fillCount ∧ ¬AboutToPost s

/-- The client sleeps although its command is acknowledged, and no post is coming. -/
def LostClientWakeup (s : State) : Prop :=
  ∃ token, s.client = .waiting token ∧ s.clientSignal = 0 ∧ token ≤ s.buffer.lastToken ∧
    s.server ≠ .posting

/-- Both sides are in `sem_wait` and neither can leave it. -/
def BothBlocked (s : State) : Prop :=
  (∃ token, s.client = .waiting token) ∧ s.clientSignal = 0 ∧
    s.server = .waiting ∧ s.serverSignal = 0

/-- Once every command has run, the server is on its way to acknowledge `token`,
or has done so. -/
def Acknowledging (s : State) (token : ℕ) : Prop :=
  match s.server with
  | .readingToken a => tokenAt s.buffer a = token
  | .storing v => v = token
  | .posting | .fetching | .waiting => s.buffer.lastToken = token
  | .dispatching _ | .handling _ | .advancing _ | .releasing _ _ | .stopped => True

/-- A side that sleeps without a post pending has nothing to do, or the other side
is about to post; and a command that has run is being acknowledged. -/
structure Signalled (s : State) : Prop where
  server : s.server = .waiting → s.serverSignal = 0 → s.buffer.fillCount = 0 ∨ AboutToPost s
  client : ∀ token, s.client = .waiting token → s.clientSignal = 0 →
    token ≤ s.buffer.lastToken → s.server = .posting
  acknowledging : ∀ token, s.client.published = some token → token ≠ 0 → s.ran = s.issued →
    Acknowledging s token

theorem signalled_initial (memory : ℕ → UInt8) : Signalled (initial length memory todo) := by
  constructor <;> simp [initial, ClientPc.published]

/-! ### The server's signal -/

/-- Between reserving room and handing a command over, the client is not about to
post; with the server asleep the ring is then empty. -/
theorem Signalled.fill_eq_zero (h : Signalled s) (hpc : s.server = .waiting)
    (hsignal : s.serverSignal = 0) (hclient : s.client.published = none) :
    s.buffer.fillCount = 0 := by
  rcases h.server hpc hsignal with hfill | hpost
  · exact hfill
  · unfold AboutToPost at hpost
    unfold ClientPc.published at hclient
    split at hpost <;> simp_all

theorem server_signalled_move (hf : Framed length s) (h : Signalled s) (hmove : Move s thread t)
    (hpc : t.server = .waiting) (hsignal : t.serverSignal = 0) :
    t.buffer.fillCount = 0 ∨ AboutToPost t := by
  have hclient := hf.client
  cases hmove with
  | spin => exact h.server hpc hsignal
  | reserve hc | write hc | stamp hc | publishAsync hc | publishSync hc =>
    have hfill := h.fill_eq_zero (by simpa using hpc) (by simpa using hsignal)
      (by simp [hc, ClientPc.published])
    exact .inl (by simpa using hfill)
  | handOver hc =>
    simp only [ClientFramed, hc] at hclient
    obtain ⟨rfl, -⟩ := hclient
    -- The ring was empty, so afterwards `fill_count` is the size of this command.
    have hfill := h.fill_eq_zero hpc hsignal (by simp [hc, ClientPc.published])
    right
    simp [AboutToPost, addFill, hfill]
  | foundEmpty hc _ =>
    exact (h.server hpc hsignal).imp_right fun hpost => by
      simpa [AboutToPost, hc] using hpost
  | foundBusy hc hfill =>
    -- The comparison fails only if the server has emptied the ring in between.
    simp only [ClientFramed, hc] at hclient
    obtain ⟨hsize, hlast⟩ := hclient
    rcases h.server hpc hsignal with hempty | hpost
    · exact .inl hempty
    · simp only [AboutToPost, hc, hlast, Option.map_some, Option.some.injEq,
        Request.size_toCommand] at hpost
      exact absurd (hpost.symm.trans hsize.symm) hfill
  -- The post leaves a signal, so the server does not sleep on a zero one.
  | postServer => simp at hsignal
  | sleepClient hc _ | leave hc _ | wakeClient hc _ =>
    rcases h.server hpc hsignal with hempty | hpost
    · exact .inl hempty
    · simp [AboutToPost, hc] at hpost
  | sleepServer _ hfill => exact .inl hfill
  | fetch | wakeServer | stop | dispatch | handle | advance | release | skipToken | takeToken
  | storeToken | postClient => cases hpc

/-! ### The client's signal -/

theorem client_signalled_move (h : Signalled s) (hmove : Move s thread t) {token : ℕ}
    (hpc : t.client = .waiting token) (hsignal : t.clientSignal = 0)
    (hlast : token ≤ t.buffer.lastToken) : t.server = .posting := by
  cases hmove with
  | spin => exact h.client token hpc hsignal hlast
  -- The client goes to sleep only when `last_token` is still behind.
  | sleepClient _ hlt =>
    cases hpc
    exact absurd hlast (Nat.not_le_of_lt hlt)
  | publishAsync | publishSync => simp at hpc
  | reserve | write | stamp | handOver | foundEmpty | leave | wakeClient => cases hpc
  | foundBusy | postServer =>
    simp only [afterPublish] at hpc
    split at hpc <;> cases hpc
  | storeToken => rfl
  | postClient => simp at hsignal
  | sleepServer hs _ | fetch hs _ | wakeServer hs _ | stop hs _ | dispatch hs _ | handle hs
  | advance hs | release hs | skipToken hs _ | takeToken hs _ =>
    have hposting := h.client token (by simpa using hpc) (by simpa using hsignal)
      (by simpa using hlast)
    rw [hs] at hposting
    cases hposting

/-! ### The acknowledgement -/

/-- A step of the client that stays in the same call changes nothing the server's
acknowledgement depends on. -/
theorem Acknowledging.congr {token : ℕ} (h : Acknowledging s token) (hserver : t.server = s.server)
    (hbuffer : t.buffer = s.buffer) : Acknowledging t token := by
  unfold Acknowledging at h ⊢
  rw [hserver, hbuffer]
  exact h

theorem acknowledging_move (hf : Framed length s) (h : Signalled s) (hmove : Move s thread t)
    {token : ℕ} (hpub : t.client.published = some token) (hne : token ≠ 0)
    (hran : t.ran = t.issued) :
    Acknowledging t token := by
  have hclient := hf.client
  have hserver := hf.server
  have hbefore := h.acknowledging token
  cases hmove with
  | spin => exact hbefore hpub hne hran
  | publishAsync | publishSync => simp [ClientPc.published] at hpub
  | reserve | write | stamp | leave => cases hpub
  | handOver =>
    -- The command just handed over has not run.
    have hle := hf.ran_isPrefix.length_le
    have hlength := congrArg List.length hran
    simp only [List.length_append, List.length_singleton] at hlength
    omega
  | foundEmpty hc _ | sleepClient hc _ | wakeClient hc _ =>
    refine (hbefore ?_ hne hran).congr rfl rfl
    rw [hc]
    exact hpub
  | foundBusy hc _ | postServer hc =>
    obtain rfl := published_afterPublish hpub
    refine (hbefore ?_ hne hran).congr rfl rfl
    rw [hc]
    rfl
  | fetch | stop | dispatch | handle | advance => trivial
  | sleepServer hs _ | wakeServer hs _ =>
    have := hbefore hpub hne hran
    simpa [Acknowledging, hs] using this
  | release hs =>
    -- The command given back is the last one issued, and its bytes are still there.
    simp only [ServerFramed, hs] at hserver
    obtain ⟨c, hlast, -, hholds, -⟩ := hserver
    obtain ⟨d, hd, htoken⟩ := hf.getLast_issued hpub
    have hlast' : s.issued.getLast? = some c := by
      rw [← hlast]
      exact congrArg _ hran.symm
    obtain rfl : c = d := Option.some.inj (hlast'.symm.trans hd)
    exact (hholds.congr rfl).token_eq.trans htoken
  -- The command the client waits for has a token, so it is not skipped.
  | skipToken hs hzero =>
    have := hbefore hpub hne hran
    simp only [Acknowledging, hs] at this
    exact absurd (this.symm.trans hzero) hne
  | takeToken hs _ =>
    have := hbefore hpub hne hran
    simpa only [Acknowledging, hs] using this
  | storeToken hs =>
    have := hbefore hpub hne hran
    simpa only [Acknowledging, hs] using this
  | postClient hs =>
    have := hbefore hpub hne hran
    simpa only [Acknowledging, hs] using this

/-! ### Whole runs -/

theorem signalled_invariant : (system length todo).Invariant Signalled where
  init := by
    rintro _ ⟨memory, rfl⟩
    exact signalled_initial memory
  step s _ t hs h hstep := by
    have hf := framed_invariant.holds hs
    have hmove := move_of_step hstep
    exact ⟨server_signalled_move hf h hmove, fun _ => client_signalled_move h hmove,
      fun _ => acknowledging_move hf h hmove⟩

/-- With both sides asleep and no post pending, the ring is empty, so the client's
command has run and is acknowledged, and the server cannot be asleep. -/
theorem Signalled.not_bothBlocked (hf : Framed length s) (h : Signalled s) : ¬BothBlocked s := by
  rintro ⟨⟨token, hclient⟩, hsignal, hserver, hserverSignal⟩
  have hpub : s.client.published = some token := by rw [hclient]; rfl
  have hempty : s.buffer.fillCount = 0 := by
    rcases h.server hserver hserverSignal with hempty | hpost
    · exact hempty
    · simp [AboutToPost, hclient] at hpost
  -- An empty ring holds no command, so all that was issued has run.
  have hqueue : s.queue = [] := by
    have hfill := hf.fill_eq
    simp only [hempty, hserver, ServerPc.owed, Nat.zero_add] at hfill
    exact total_eq_zero.mp hfill.symm
  have hran : s.ran = s.issued := by
    rw [hf.issued_eq (by rw [hserver]; rfl), hqueue, List.append_nil]
  -- So the client has been acknowledged, and the server must be about to post.
  have hlast : token ≤ s.buffer.lastToken := by
    by_cases hzero : token = 0
    · omega
    · have hack := h.acknowledging token hpub hzero hran
      simp only [Acknowledging, hserver] at hack
      exact hack.ge
  have hposting := h.client token hclient hsignal hlast
  rw [hserver] at hposting
  cases hposting

/-- In every interleaving, whatever is issued: the server never sleeps through a
command, the client never sleeps through an acknowledgement, and the two never
block each other. -/
theorem no_lost_wakeup (hs : (system length todo).Reachable s) :
    ¬LostServerWakeup s ∧ ¬LostClientWakeup s ∧ ¬BothBlocked s := by
  have hf := framed_invariant.holds hs
  have h := signalled_invariant.holds hs
  refine ⟨?_, ?_, h.not_bothBlocked hf⟩
  · rintro ⟨hserver, hsignal, hfill, hpost⟩
    rcases h.server hserver hsignal with hempty | habout
    · omega
    · exact hpost habout
  · rintro ⟨token, hclient, hsignal, hlast, hserver⟩
    exact hserver (h.client token hclient hsignal hlast)

/-- The server falls asleep, then the client issues a command and falls asleep too. -/
def sleepingRun : List Thread := .server :: List.replicate 8 .client

theorem no_lost_wakeup_sleepingRun : ∃ s,
    sleepingRun.foldlM step (initial 24 (fun _ => 0) [.bare true]) = some s ∧
    (s.server = .waiting ∧ s.serverSignal = 1 ∧ s.buffer.fillCount = 24) ∧
    ¬LostServerWakeup s ∧ ¬LostClientWakeup s ∧ ¬BothBlocked s := by
  have hrun : (sleepingRun.foldlM step (initial 24 (fun _ => 0) [.bare true])).map
      (fun s => (s.server, s.serverSignal, s.buffer.fillCount)) = some (.waiting, 1, 24) := by
    decide +kernel
  obtain ⟨s, hs, hobserved⟩ := Option.map_eq_some_iff.mp hrun
  simp only [Prod.mk.injEq] at hobserved
  exact ⟨s, hs, hobserved, no_lost_wakeup (System.reachable_of_foldlM (.init ⟨_, rfl⟩) hs)⟩

end GpuProxy.Protocol
