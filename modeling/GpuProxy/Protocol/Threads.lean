import GpuProxy.Math.TransitionSystem
import GpuProxy.Protocol.Command

/-!
# The client thread and the server thread

A client thread issues commands one after the other (`client.c`); its server
thread runs `server_start_work_loop` (`server.c`) on the same ring. Each step
below is one access to what the two share: a read or an update of `fill_count`,
an index, the bytes of a command, `last_token`, or a semaphore. The two threads
are interleaved at will.

Handlers act on the driver; here a handler records which command it found in the
ring. The stores it makes into the arguments of its own command are left out,
since no thread decides anything by them.

## Main definitions

* `State` — the ring, both semaphores, both program counters
* `clientStep`, `serverStep` — the next step of each thread, `none` when it has none
* `system` — every interleaving, for a given ring length and list of requests
* `Move` — the possible steps as a relation, one constructor for each

## Main results

* `step_eq_some_iff` — the steps are the `Move`s
-/

namespace GpuProxy.Protocol

open RingBuffer Math

/-- Where the client is between the shared accesses of `client_get_space_for_size`,
`client_run_command` and `client_run_command_async`. The address `a` is the
`command` pointer. -/
inductive ClientPc
  /-- Outside any call. -/
  | idle
  /-- `client_get_space_for_size` has returned `a`. -/
  | reserved (r : Request) (a : ℕ)
  /-- The header, with token 0, and the arguments are stored. -/
  | written (r : Request) (a : ℕ)
  /-- `client_run_command` has stored the token. -/
  | stamped (r : Request) (a token : ℕ)
  /-- `buffer_write_advance` has moved `head` by `count`. -/
  | headMoved (r : Request) (a token count : ℕ)
  /-- `buffer_write_advance` has returned. -/
  | added (r : Request) (a token : ℕ)
  /-- About to post `server_signal`. -/
  | posting (token : ℕ)
  /-- About to compare `last_token` with the token. -/
  | checking (token : ℕ)
  /-- In `sem_wait` on `client_signal`. -/
  | waiting (token : ℕ)
  deriving DecidableEq

/-- Where the server is in `server_start_work_loop`. The address `a` is
`read_command`. -/
inductive ServerPc
  /-- About to call `buffer_read_address`. -/
  | fetching
  /-- In `sem_wait` on `server_signal`. -/
  | waiting
  /-- About to test the command's type. -/
  | dispatching (a : ℕ)
  /-- About to run the handler. -/
  | handling (a : ℕ)
  /-- The handler has returned. -/
  | advancing (a : ℕ)
  /-- `buffer_read_advance` has moved `tail` by `count`. -/
  | releasing (a count : ℕ)
  /-- `buffer_read_advance` has returned. -/
  | readingToken (a : ℕ)
  /-- About to set `last_token`. -/
  | storing (token : ℕ)
  /-- About to post `client_signal`. -/
  | posting
  /-- The loop has ended. -/
  | stopped
  deriving DecidableEq

/-- The state of both threads. `issued` and `ran` are a record for the results
about the model: the commands handed over to the server, and those found by a
handler. -/
structure State where
  buffer : Buffer UInt8
  serverSignal : ℕ
  clientSignal : ℕ
  /-- `client->token`, an `unsigned int`. -/
  token : ℕ
  /-- What the client is still going to send. -/
  todo : List Request
  client : ClientPc
  server : ServerPc
  issued : List Command
  ran : List Command

/-- `++client->token`. -/
def bumpToken (token : ℕ) : ℕ := (token + 1) % 2 ^ 32

/-- The local `token` of `client_run_command`, given the bumped counter. -/
def commandToken (counter : ℕ) : ℕ := if counter = 0 then 1 else counter

/-- What follows `client_run_command_async` in the caller: the wait loop of
`client_run_command` if the command has a token. -/
def afterPublish (token : ℕ) : ClientPc := if token = 0 then .idle else .checking token

/-- `buffer_write_advance (&client->buffer, command->size)` up to the update of `head`. -/
def startAdvance (s : State) (r : Request) (a token : ℕ) : State :=
  { s with
    buffer := moveHead s.buffer (sizeAt s.buffer a)
    client := .headMoved r a token (sizeAt s.buffer a) }

/-- The next step of the client. A command longer than the ring makes
`client_get_space_for_size` return NULL, which the caller dereferences. -/
def clientStep (s : State) : Option State :=
  match s.client with
  | .idle =>
    match s.todo with
    | [] => none
    | r :: todo =>
      if s.buffer.length < r.size then none
      else match bufferWriteAddress s.buffer with
        | (_, none) => some s
        | (available, some a) =>
          if available < r.size then some s
          else some { s with todo := todo, client := .reserved r a }
  | .reserved r a =>
    some { s with buffer := writeCommand s.buffer a r, client := .written r a }
  | .written r a =>
    if r.sync then
      some { s with
        token := bumpToken s.token
        buffer := writeToken s.buffer a (commandToken (bumpToken s.token))
        client := .stamped r a (commandToken (bumpToken s.token)) }
    else some (startAdvance s r a 0)
  | .stamped r a token => some (startAdvance s r a token)
  | .headMoved r a token count =>
    some { s with
      buffer := addFill s.buffer count
      issued := s.issued ++ [r.toCommand token]
      client := .added r a token }
  | .added _ a token =>
    if s.buffer.fillCount = sizeAt s.buffer a then some { s with client := .posting token }
    else some { s with client := afterPublish token }
  | .posting token =>
    some { s with serverSignal := s.serverSignal + 1, client := afterPublish token }
  | .checking token =>
    if s.buffer.lastToken < token then some { s with client := .waiting token }
    else some { s with client := .idle }
  | .waiting token =>
    if s.clientSignal = 0 then none
    else some { s with clientSignal := s.clientSignal - 1, client := .checking token }

/-- The next step of the server. -/
def serverStep (s : State) : Option State :=
  match s.server with
  | .fetching =>
    match (bufferReadAddress s.buffer).2 with
    | none => some { s with server := .waiting }
    | some a => some { s with server := .dispatching a }
  | .waiting =>
    if s.serverSignal = 0 then none
    else some { s with serverSignal := s.serverSignal - 1, server := .fetching }
  | .dispatching a =>
    if typeAt s.buffer a = commandShutdown then some { s with server := .stopped }
    else some { s with server := .handling a }
  | .handling a =>
    some { s with ran := s.ran ++ [commandAt s.buffer a], server := .advancing a }
  | .advancing a =>
    some { s with
      buffer := moveTail s.buffer (sizeAt s.buffer a)
      server := .releasing a (sizeAt s.buffer a) }
  | .releasing a count =>
    some { s with buffer := subFill s.buffer count, server := .readingToken a }
  -- The test of `read_command->token` and its use are one load.
  | .readingToken a =>
    if tokenAt s.buffer a = 0 then some { s with server := .fetching }
    else some { s with server := .storing (tokenAt s.buffer a) }
  | .storing token =>
    some { s with buffer := { s.buffer with lastToken := token }, server := .posting }
  | .posting =>
    some { s with clientSignal := s.clientSignal + 1, server := .fetching }
  | .stopped => none

/-- The two threads. -/
inductive Thread
  | client
  | server
  deriving DecidableEq, Repr

def step (s : State) : Thread → Option State
  | .client => clientStep s
  | .server => serverStep s

/-- `client_init` has created the ring, the semaphores and the server thread. -/
def initial (length : ℕ) (memory : ℕ → UInt8) (todo : List Request) : State where
  buffer := bufferCreate length memory
  serverSignal := 0
  clientSignal := 0
  token := 0
  todo := todo
  client := .idle
  server := .fetching
  issued := []
  ran := []

/-- Every interleaving of a client that issues the requests `todo` with its server. -/
def system (length : ℕ) (todo : List Request) : System State Thread :=
  .ofStep (fun s => ∃ memory, s = initial length memory todo) step

variable {s t : State} {thread : Thread}

section StartAdvance

variable {r : Request} {a token : ℕ}

@[simp] theorem startAdvance_client : (startAdvance s r a token).client =
    .headMoved r a token (sizeAt s.buffer a) := by simp only [startAdvance]

@[simp] theorem startAdvance_server : (startAdvance s r a token).server = s.server := by
  simp only [startAdvance]

@[simp] theorem startAdvance_serverSignal :
    (startAdvance s r a token).serverSignal = s.serverSignal := by simp only [startAdvance]

@[simp] theorem startAdvance_clientSignal :
    (startAdvance s r a token).clientSignal = s.clientSignal := by simp only [startAdvance]

@[simp] theorem startAdvance_token : (startAdvance s r a token).token = s.token := by
  simp only [startAdvance]

@[simp] theorem startAdvance_todo : (startAdvance s r a token).todo = s.todo := by
  simp only [startAdvance]

@[simp] theorem startAdvance_issued : (startAdvance s r a token).issued = s.issued := by
  simp only [startAdvance]

@[simp] theorem startAdvance_ran : (startAdvance s r a token).ran = s.ran := by
  simp only [startAdvance]

@[simp] theorem startAdvance_buffer :
    (startAdvance s r a token).buffer = moveHead s.buffer (sizeAt s.buffer a) := by
  simp only [startAdvance]

end StartAdvance

/-- What a step can do, with the condition under which it does it. -/
inductive Move (s : State) : Thread → State → Prop
  /-- `client_get_space_for_size` finds too little room and tries again. -/
  | spin {r : Request} {todo : List Request} (hpc : s.client = .idle) (htodo : s.todo = r :: todo)
      (hlength : r.size ≤ s.buffer.length) (hroom : s.buffer.length < s.buffer.fillCount + r.size) :
      Move s .client s
  | reserve {r : Request} {todo : List Request} (hpc : s.client = .idle)
      (htodo : s.todo = r :: todo) (hfit : s.buffer.fillCount + r.size ≤ s.buffer.length) :
      Move s .client { s with todo := todo, client := .reserved r s.buffer.head }
  | write {r : Request} {a : ℕ} (hpc : s.client = .reserved r a) :
      Move s .client { s with buffer := writeCommand s.buffer a r, client := .written r a }
  | stamp {r : Request} {a : ℕ} (hpc : s.client = .written r a) (hsync : r.sync = true) :
      Move s .client { s with
        token := bumpToken s.token
        buffer := writeToken s.buffer a (commandToken (bumpToken s.token))
        client := .stamped r a (commandToken (bumpToken s.token)) }
  | publishAsync {r : Request} {a : ℕ} (hpc : s.client = .written r a) (hsync : r.sync = false) :
      Move s .client (startAdvance s r a 0)
  | publishSync {r : Request} {a token : ℕ} (hpc : s.client = .stamped r a token) :
      Move s .client (startAdvance s r a token)
  | handOver {r : Request} {a token count : ℕ} (hpc : s.client = .headMoved r a token count) :
      Move s .client { s with
        buffer := addFill s.buffer count
        issued := s.issued ++ [r.toCommand token]
        client := .added r a token }
  | foundEmpty {r : Request} {a token : ℕ} (hpc : s.client = .added r a token)
      (hfill : s.buffer.fillCount = sizeAt s.buffer a) :
      Move s .client { s with client := .posting token }
  | foundBusy {r : Request} {a token : ℕ} (hpc : s.client = .added r a token)
      (hfill : s.buffer.fillCount ≠ sizeAt s.buffer a) :
      Move s .client { s with client := afterPublish token }
  | postServer {token : ℕ} (hpc : s.client = .posting token) :
      Move s .client { s with serverSignal := s.serverSignal + 1, client := afterPublish token }
  | sleepClient {token : ℕ} (hpc : s.client = .checking token)
      (hlast : s.buffer.lastToken < token) : Move s .client { s with client := .waiting token }
  | leave {token : ℕ} (hpc : s.client = .checking token) (hlast : token ≤ s.buffer.lastToken) :
      Move s .client { s with client := .idle }
  | wakeClient {token : ℕ} (hpc : s.client = .waiting token) (hsignal : s.clientSignal ≠ 0) :
      Move s .client { s with clientSignal := s.clientSignal - 1, client := .checking token }
  | sleepServer (hpc : s.server = .fetching) (hfill : s.buffer.fillCount = 0) :
      Move s .server { s with server := .waiting }
  | fetch (hpc : s.server = .fetching) (hfill : s.buffer.fillCount ≠ 0) :
      Move s .server { s with server := .dispatching s.buffer.tail }
  | wakeServer (hpc : s.server = .waiting) (hsignal : s.serverSignal ≠ 0) :
      Move s .server { s with serverSignal := s.serverSignal - 1, server := .fetching }
  | stop {a : ℕ} (hpc : s.server = .dispatching a) (htype : typeAt s.buffer a = commandShutdown) :
      Move s .server { s with server := .stopped }
  | dispatch {a : ℕ} (hpc : s.server = .dispatching a)
      (htype : typeAt s.buffer a ≠ commandShutdown) :
      Move s .server { s with server := .handling a }
  | handle {a : ℕ} (hpc : s.server = .handling a) :
      Move s .server { s with ran := s.ran ++ [commandAt s.buffer a], server := .advancing a }
  | advance {a : ℕ} (hpc : s.server = .advancing a) :
      Move s .server { s with
        buffer := moveTail s.buffer (sizeAt s.buffer a)
        server := .releasing a (sizeAt s.buffer a) }
  | release {a count : ℕ} (hpc : s.server = .releasing a count) :
      Move s .server { s with buffer := subFill s.buffer count, server := .readingToken a }
  | skipToken {a : ℕ} (hpc : s.server = .readingToken a) (htoken : tokenAt s.buffer a = 0) :
      Move s .server { s with server := .fetching }
  | takeToken {a : ℕ} (hpc : s.server = .readingToken a) (htoken : tokenAt s.buffer a ≠ 0) :
      Move s .server { s with server := .storing (tokenAt s.buffer a) }
  | storeToken {token : ℕ} (hpc : s.server = .storing token) :
      Move s .server { s with buffer := { s.buffer with lastToken := token }, server := .posting }
  | postClient (hpc : s.server = .posting) :
      Move s .server { s with clientSignal := s.clientSignal + 1, server := .fetching }

theorem move_of_clientStep (h : clientStep s = some t) : Move s .client t := by
  unfold clientStep at h
  split at h
  next hpc =>
    split at h
    next => cases h
    next r todo htodo =>
      split at h
      next => cases h
      next hlength =>
        have hsize : headerSize ≤ r.size := r.headerSize_le
        have hle : r.size ≤ s.buffer.length := Nat.le_of_not_lt hlength
        simp only [headerSize] at hsize
        simp only [bufferWriteAddress] at h
        split at h
        next hw =>
          cases h
          simp only [Prod.mk.injEq, ite_eq_left_iff, reduceCtorEq, imp_false, not_not] at hw
          exact .spin hpc htodo hle (by omega)
        next hw =>
          simp only [Prod.mk.injEq] at hw
          obtain ⟨rfl, hw⟩ := hw
          split at h
          next hroom => cases h; exact .spin hpc htodo hle (by omega)
          next hroom =>
            cases h
            split at hw
            next => cases hw
            next =>
              cases hw
              exact .reserve hpc htodo (by omega)
  next hpc => cases h; exact .write hpc
  next hpc =>
    split at h
    next hsync => cases h; exact .stamp hpc hsync
    next hsync => cases h; exact .publishAsync hpc (by simpa using hsync)
  next hpc => cases h; exact .publishSync hpc
  next hpc => cases h; exact .handOver hpc
  next hpc =>
    split at h
    next hfill => cases h; exact .foundEmpty hpc hfill
    next hfill => cases h; exact .foundBusy hpc hfill
  next hpc => cases h; exact .postServer hpc
  next hpc =>
    split at h
    next hlast => cases h; exact .sleepClient hpc hlast
    next hlast => cases h; exact .leave hpc (Nat.le_of_not_lt hlast)
  next hpc =>
    split at h
    next => cases h
    next hsignal => cases h; exact .wakeClient hpc hsignal

theorem move_of_serverStep (h : serverStep s = some t) : Move s .server t := by
  unfold serverStep at h
  split at h
  next hpc =>
    simp only [bufferReadAddress] at h
    split at h
    next hr =>
      cases h
      split at hr
      next hfill => exact .sleepServer hpc hfill
      next => cases hr
    next hr =>
      cases h
      split at hr
      next => cases hr
      next hfill => cases hr; exact .fetch hpc hfill
  next hpc =>
    split at h
    next => cases h
    next hsignal => cases h; exact .wakeServer hpc hsignal
  next hpc =>
    split at h
    next htype => cases h; exact .stop hpc htype
    next htype => cases h; exact .dispatch hpc htype
  next hpc => cases h; exact .handle hpc
  next hpc => cases h; exact .advance hpc
  next hpc => cases h; exact .release hpc
  next hpc =>
    split at h
    next htoken => cases h; exact .skipToken hpc htoken
    next htoken => cases h; exact .takeToken hpc htoken
  next hpc => cases h; exact .storeToken hpc
  next hpc => cases h; exact .postClient hpc
  next => cases h

theorem move_of_step (h : step s thread = some t) : Move s thread t := by
  cases thread with
  | client => exact move_of_clientStep h
  | server => exact move_of_serverStep h

theorem step_of_move (h : Move s thread t) : step s thread = some t := by
  cases h with
  | @spin r _ hpc htodo hlength hroom =>
    have hfull : s.buffer.length - s.buffer.fillCount < r.size := by
      have hsize := r.headerSize_le
      simp only [headerSize] at hsize
      omega
    simp only [step, clientStep, hpc, htodo, bufferWriteAddress, Nat.not_lt.mpr hlength, if_false]
    by_cases hzero : s.buffer.length - s.buffer.fillCount = 0
    · rw [if_pos hzero]
    · rw [if_neg hzero]
      simp only [hfull, if_true]
  | @reserve r _ hpc htodo hfit =>
    have hsize := r.headerSize_le
    simp only [headerSize] at hsize
    have hlength : ¬s.buffer.length < r.size := by omega
    have hzero : s.buffer.length - s.buffer.fillCount ≠ 0 := by omega
    have hroom : ¬s.buffer.length - s.buffer.fillCount < r.size := by omega
    simp only [step, clientStep, hpc, htodo, bufferWriteAddress, hlength, hzero, hroom, if_false]
  | write hpc | publishSync hpc | handOver hpc | postServer hpc =>
    simp only [step, clientStep, hpc]
  | stamp hpc hsync | publishAsync hpc hsync => simp [step, clientStep, hpc, hsync]
  | foundEmpty hpc hfill => simp only [step, clientStep, hpc, if_pos hfill]
  | foundBusy hpc hfill => simp only [step, clientStep, hpc, if_neg hfill]
  | sleepClient hpc hlast => simp only [step, clientStep, hpc, if_pos hlast]
  | leave hpc hlast => simp only [step, clientStep, hpc, if_neg (Nat.not_lt.mpr hlast)]
  | wakeClient hpc hsignal => simp only [step, clientStep, hpc, if_neg hsignal]
  | sleepServer hpc hfill | fetch hpc hfill =>
    simp [step, serverStep, hpc, bufferReadAddress, hfill]
  | wakeServer hpc hsignal => simp only [step, serverStep, hpc, if_neg hsignal]
  | stop hpc htype => simp only [step, serverStep, hpc, if_pos htype]
  | dispatch hpc htype => simp only [step, serverStep, hpc, if_neg htype]
  | handle hpc | advance hpc | release hpc | storeToken hpc | postClient hpc =>
    simp only [step, serverStep, hpc]
  | skipToken hpc htoken => simp only [step, serverStep, hpc, if_pos htoken]
  | takeToken hpc htoken => simp only [step, serverStep, hpc, if_neg htoken]

/-- The relation and the step functions describe the same steps. -/
theorem step_eq_some_iff : step s thread = some t ↔ Move s thread t :=
  ⟨move_of_step, step_of_move⟩

end GpuProxy.Protocol
