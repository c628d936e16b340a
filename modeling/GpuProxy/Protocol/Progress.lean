import GpuProxy.Protocol.Framing

/-!
# How far the client has come

The commands issued, the one being written, and the requests still to be sent are
together the requests the client started with; and the client's counter is the
number of tokens it has given out, modulo the range of an `unsigned int`.

## Main definitions

* `syncCount` — the number of synchronous commands
* `Progress` — the invariant

## Main results

* `progress_invariant` — every step preserves `Progress`
-/

namespace GpuProxy.Protocol

open RingBuffer Math

variable {length : ℕ} {todo : List Request} {s t : State} {thread : Thread}

/-- What a request and the command it becomes have in common. -/
structure Kind where
  type : ℕ
  payload : List UInt8
  sync : Bool
  deriving DecidableEq, Repr

def Request.kind (r : Request) : Kind := ⟨r.type, r.payload, r.sync⟩

def Command.kind (c : Command) : Kind := ⟨c.type, c.payload, decide (c.token ≠ 0)⟩

/-- The number of synchronous commands among `cs`. -/
def syncCount (cs : List Command) : ℕ := cs.countP (·.kind.sync)

/-- The request the client is writing a command for. -/
def ClientPc.inFlight : ClientPc → Option Request
  | .reserved r _ | .written r _ | .stamped r _ _ | .headMoved r _ _ _ => some r
  | _ => none

/-- The number of commands that have their token but are not handed over. -/
def ClientPc.pendingTokens : ClientPc → ℕ
  | .stamped _ _ _ => 1
  | .headMoved _ _ token _ => if token = 0 then 0 else 1
  | _ => 0

/-- The token of the command the client has handed over and not yet returned from. -/
def ClientPc.published : ClientPc → Option ℕ
  | .added _ _ token | .posting token | .checking token | .waiting token => some token
  | _ => none

/-- The token of a request, given the counter after it was stamped. -/
def Request.tokenOf (r : Request) (counter : ℕ) : ℕ := if r.sync then commandToken counter else 0

/-- The token the client works with is the one its counter gives. -/
def TokenFollows (s : State) : Prop :=
  match s.client with
  | .stamped r _ token => r.sync = true ∧ token = commandToken s.token
  | .headMoved r _ token _ | .added r _ token => token = r.tokenOf s.token
  | .posting token => token = 0 ∨ token = commandToken s.token
  | .checking token | .waiting token => token = commandToken s.token
  | .idle | .reserved _ _ | .written _ _ => True

/-- The requests `todo` are those issued, the one being written and those still to be
sent, and the counter counts the tokens given out. -/
structure Progress (todo : List Request) (s : State) : Prop where
  requests : s.issued.map Command.kind ++
    (s.client.inFlight.toList.map Request.kind ++ s.todo.map Request.kind) =
      todo.map Request.kind
  counter : s.token = (syncCount s.issued + s.client.pendingTokens) % 2 ^ 32
  token : TokenFollows s

theorem progress_initial (memory : ℕ → UInt8) : Progress todo (initial length memory todo) := by
  constructor <;> simp [initial, ClientPc.inFlight, ClientPc.pendingTokens, syncCount, TokenFollows]

theorem syncCount_append (cs ds : List Command) :
    syncCount (cs ++ ds) = syncCount cs + syncCount ds := List.countP_append

theorem syncCount_mono {cs ds : List Command} (h : cs <+: ds) :
    syncCount cs ≤ syncCount ds := h.sublist.countP_le

theorem le_commandToken (counter : ℕ) : counter ≤ commandToken counter := by
  unfold commandToken
  split <;> omega

theorem commandToken_of_ne_zero {counter : ℕ} (h : counter ≠ 0) : commandToken counter = counter :=
  if_neg h

/-- A request and the command it becomes are of one kind. -/
theorem Request.kind_toCommand {r : Request} {counter : ℕ} :
    (r.toCommand (r.tokenOf counter)).kind = r.kind := by
  cases hsync : r.sync <;>
    simp [Command.kind, Request.kind, Request.toCommand, Request.tokenOf, hsync,
      commandToken_ne_zero]

theorem syncCount_singleton_toCommand (r : Request) (token : ℕ) :
    syncCount [r.toCommand token] = if token = 0 then 0 else 1 := by
  by_cases hzero : token = 0 <;> simp [syncCount, Command.kind, Request.toCommand, hzero]

theorem inFlight_afterPublish (token : ℕ) : (afterPublish token).inFlight = none := by
  unfold afterPublish
  split <;> rfl

theorem pendingTokens_afterPublish (token : ℕ) : (afterPublish token).pendingTokens = 0 := by
  unfold afterPublish
  split <;> rfl

theorem published_afterPublish {token token' : ℕ}
    (h : (afterPublish token).published = some token') : token' = token := by
  unfold afterPublish at h
  split at h
  · cases h
  · simpa [ClientPc.published] using h.symm

theorem eq_zero_of_afterPublish {token : ℕ}
    (h : ∀ token', (afterPublish token).published = some token' → token' = 0) : token = 0 := by
  by_contra hne
  exact hne (h token (by simp [afterPublish, hne, ClientPc.published]))

/-- Until the client returns, its command is the last one issued. -/
theorem Framed.getLast_issued (h : Framed length s) {token : ℕ}
    (hpub : s.client.published = some token) :
    ∃ c, s.issued.getLast? = some c ∧ c.token = token := by
  have hclient := h.client
  unfold ClientPc.published at hpub
  unfold ClientFramed at hclient
  cases hpc : s.client <;> rw [hpc] at hpub hclient
  case added =>
    cases hpub
    exact ⟨_, hclient.2, rfl⟩
  case posting | checking | waiting =>
    cases hpub
    exact hclient
  all_goals cases hpub

/-- A step that only moves the client's program counter, within one call. -/
theorem Progress.of_clientPc {pc : ClientPc} {m n : ℕ} {b : Buffer UInt8} (h : Progress todo s)
    (hflight : pc.inFlight = s.client.inFlight)
    (hpending : pc.pendingTokens = s.client.pendingTokens)
    (htoken : TokenFollows { s with
      buffer := b, serverSignal := m, clientSignal := n, client := pc }) :
    Progress todo { s with
      buffer := b, serverSignal := m, clientSignal := n, client := pc } := by
  refine ⟨?_, ?_, htoken⟩
  · simp only [hflight]
    exact h.requests
  · simp only [hpending]
    exact h.counter

/-- A step of the server. -/
theorem Progress.of_server {pc : ServerPc} {m n : ℕ} {b : Buffer UInt8} {ran : List Command}
    (h : Progress todo s) : Progress todo { s with
      buffer := b, serverSignal := m, clientSignal := n, server := pc, ran := ran } :=
  ⟨h.requests, h.counter, h.token⟩

theorem tokenFollows_afterPublish {token m : ℕ} (h : token = 0 ∨ token = commandToken s.token) :
    TokenFollows { s with serverSignal := m, client := afterPublish token } := by
  unfold afterPublish
  split
  · trivial
  · next hne => exact h.resolve_left hne

theorem tokenOf_cases {r : Request} {counter token : ℕ} (h : token = r.tokenOf counter) :
    token = 0 ∨ token = commandToken counter := by
  unfold Request.tokenOf at h
  split at h
  · exact .inr h
  · exact .inl h

theorem progress_move (h : Progress todo s) (hmove : Move s thread t) : Progress todo t := by
  have hrequests := h.requests
  have hcounter := h.counter
  have htoken := h.token
  cases hmove with
  | spin => exact h
  | reserve hpc htodo _ =>
    refine ⟨?_, ?_, trivial⟩
    · simpa [hpc, htodo, ClientPc.inFlight] using hrequests
    · simpa [hpc, ClientPc.pendingTokens] using hcounter
  | write hpc =>
    refine h.of_clientPc (by rw [hpc]; rfl) (by rw [hpc]; rfl) trivial
  -- `++client->token` runs ahead of the commands issued until this one is handed over.
  | stamp hpc hsync =>
    refine ⟨?_, ?_, hsync, rfl⟩
    · simpa [hpc, ClientPc.inFlight] using hrequests
    · simp only [hpc, ClientPc.pendingTokens, Nat.add_zero] at hcounter ⊢
      rw [bumpToken, hcounter, Nat.mod_add_mod]
  | publishAsync hpc hsync =>
    refine ⟨?_, ?_, ?_⟩
    · simpa [hpc, ClientPc.inFlight] using hrequests
    · simpa [hpc, ClientPc.pendingTokens] using hcounter
    · simp [TokenFollows, Request.tokenOf, hsync]
  | publishSync hpc =>
    simp only [TokenFollows, hpc] at htoken
    obtain ⟨hsync, rfl⟩ := htoken
    refine ⟨?_, ?_, ?_⟩
    · simpa [hpc, ClientPc.inFlight] using hrequests
    · simpa [hpc, ClientPc.pendingTokens, commandToken_ne_zero] using hcounter
    · simp [TokenFollows, Request.tokenOf, hsync]
  -- The request in flight becomes the last command issued, of the same kind.
  | handOver hpc =>
    simp only [TokenFollows, hpc] at htoken
    subst htoken
    refine ⟨?_, ?_, rfl⟩
    · simpa [hpc, ClientPc.inFlight, Request.kind_toCommand] using hrequests
    · rw [syncCount_append, syncCount_singleton_toCommand]
      simpa [hpc, ClientPc.pendingTokens] using hcounter
  | foundEmpty hpc _ =>
    simp only [TokenFollows, hpc] at htoken
    exact h.of_clientPc (by rw [hpc]; rfl) (by rw [hpc]; rfl) (tokenOf_cases htoken)
  | foundBusy hpc _ =>
    simp only [TokenFollows, hpc] at htoken
    exact h.of_clientPc (by rw [hpc]; exact inFlight_afterPublish _)
      (by rw [hpc]; exact pendingTokens_afterPublish _)
      (tokenFollows_afterPublish (tokenOf_cases htoken))
  | postServer hpc =>
    simp only [TokenFollows, hpc] at htoken
    exact h.of_clientPc (by rw [hpc]; exact inFlight_afterPublish _)
      (by rw [hpc]; exact pendingTokens_afterPublish _) (tokenFollows_afterPublish htoken)
  | sleepClient hpc _ | wakeClient hpc _ =>
    simp only [TokenFollows, hpc] at htoken
    exact h.of_clientPc (by rw [hpc]; rfl) (by rw [hpc]; rfl) htoken
  | leave hpc _ => exact h.of_clientPc (by rw [hpc]; rfl) (by rw [hpc]; rfl) trivial
  | sleepServer | fetch | wakeServer | stop | dispatch | handle | advance | release | skipToken
  | takeToken | storeToken | postClient => exact h.of_server

theorem progress_invariant : (system length todo).Invariant (Progress todo) where
  init := by
    rintro _ ⟨memory, rfl⟩
    exact progress_initial memory
  step _ _ _ _ h hstep := progress_move h (move_of_step hstep)

end GpuProxy.Protocol
