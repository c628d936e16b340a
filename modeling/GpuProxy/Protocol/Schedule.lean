import GpuProxy.Protocol.Progress

/-!
# Serving one request at a time

To show that a state is reachable one needs a run to it. The runs built here let the
client hand a request over, the server run it, and the client return, for any list
of requests; they end in a state from which the run a result needs is short.

## Main definitions

* `Quiet` — nothing is under way and every command is run and acknowledged

## Main results

* `exists_published` — the client's part of one request
* `exists_served` — the server's part of one command
* `exists_quiet` — a whole list of requests
-/

namespace GpuProxy.Protocol

open RingBuffer Math

variable {length : ℕ} {todo rest : List Request} {s : State} {r : Request} {c : Command}
  {cs : List Command}

/-- The counter after a request got its token, if it needs one. -/
def Request.bump (r : Request) (counter : ℕ) : ℕ := if r.sync then bumpToken counter else counter

/-- Both threads are outside any command, and every command is run and acknowledged. -/
structure Quiet (s : State) : Prop where
  client : s.client = .idle
  server : s.server = .fetching
  ran : s.ran = s.issued
  last : s.buffer.lastToken = if syncCount s.issued = 0 then 0 else commandToken s.token

theorem quiet_initial (memory : ℕ → UInt8) : Quiet (initial length memory todo) := by
  constructor <;> simp [initial, bufferCreate, syncCount]

theorem Quiet.fill_eq (hf : Framed length s) (hq : Quiet s) : s.buffer.fillCount = 0 := by
  have hfill := hf.fill_eq
  have hissued := hf.issued_eq (by rw [hq.server]; rfl)
  have hqueue : s.queue = [] := by
    rw [hq.ran] at hissued
    exact List.self_eq_append_right.mp hissued
  simpa [hq.server, ServerPc.owed, hqueue] using hfill

/-- The client's stores for a request, up to `buffer_write_advance`. -/
theorem exists_headMoved (hs : (system length todo).Reachable s) (hq : Quiet s)
    (htodo : s.todo = r :: rest) (hfit : r.size ≤ length) :
    ∃ t a, (system length todo).Reachable t ∧
      t.client = .headMoved r a (r.tokenOf (r.bump s.token)) r.size ∧ t.server = .fetching ∧
      t.todo = rest ∧ t.token = r.bump s.token ∧ t.issued = s.issued ∧ t.ran = s.ran ∧
      t.buffer.fillCount = 0 ∧ t.buffer.lastToken = s.buffer.lastToken := by
  have hf := framed_invariant.holds hs
  have hfill := hq.fill_eq hf
  have hsize : r.size ≤ s.buffer.length := hf.length_eq ▸ hfit
  have hroom : s.buffer.fillCount + r.size ≤ s.buffer.length := by
    rw [hfill, Nat.zero_add]
    exact hsize
  have hreserved := hs.step (step_of_move (.reserve hq.client htodo hroom))
  have hwritten := hreserved.step (step_of_move (.write rfl))
  have hheld : Holds (writeCommand s.buffer s.buffer.head r) s.buffer.head (r.toCommand 0) :=
    holds_writeCommand hsize
  cases hsync : r.sync with
  | false =>
    have hmoved := hwritten.step (step_of_move (.publishAsync rfl hsync))
    refine ⟨_, s.buffer.head, hmoved, ?_⟩
    simpa [Request.tokenOf, Request.bump, hsync, hq.server, hfill] using hheld.size_eq
  | true =>
    have hstamped := hwritten.step (step_of_move (.stamp rfl hsync))
    have hmoved := hstamped.step (step_of_move (.publishSync rfl))
    have hheld' : Holds _ s.buffer.head (r.toCommand _) :=
      hheld.writeToken (commandToken_lt s.token) (by simpa using hsize)
    refine ⟨_, s.buffer.head, hmoved, ?_⟩
    simpa [Request.tokenOf, Request.bump, hsync, hq.server, hfill] using hheld'.size_eq

/-- The client hands one request over while the server looks on. -/
theorem exists_published (hs : (system length todo).Reachable s) (hq : Quiet s)
    (htodo : s.todo = r :: rest) (hfit : r.size ≤ length) :
    ∃ t, (system length todo).Reachable t ∧
      t.client = afterPublish (r.tokenOf (r.bump s.token)) ∧ t.server = .fetching ∧
      t.todo = rest ∧ t.token = r.bump s.token ∧
      t.issued = s.issued ++ [r.toCommand (r.tokenOf (r.bump s.token))] ∧ t.ran = s.ran ∧
      t.buffer.lastToken = s.buffer.lastToken := by
  obtain ⟨t, a, ht, hpc, hserver, htodo', htoken, hissued, hran, hfill, hlast⟩ :=
    exists_headMoved hs hq htodo hfit
  -- The ring was empty, so the client finds its own size and posts.
  have hadded := ht.step (step_of_move (.handOver hpc))
  have hsize := (framed_invariant.holds hadded).client.1
  have hposting := hadded.step (step_of_move (.foundEmpty rfl (by
    rw [hsize]
    simp [addFill, hfill])))
  have hposted := hposting.step (step_of_move (.postServer rfl))
  exact ⟨_, hposted, rfl, hserver, htodo', htoken, by simp [hissued], hran, by simp [hlast]⟩

/-- The server runs one command while the client looks on. -/
theorem exists_served (hs : (system length todo).Reachable s) (hserver : s.server = .fetching)
    (hissued : s.issued = s.ran ++ c :: cs) (htype : c.type ≠ commandShutdown) :
    ∃ t, (system length todo).Reachable t ∧ t.client = s.client ∧ t.server = .fetching ∧
      t.todo = s.todo ∧ t.token = s.token ∧ t.issued = s.issued ∧ t.ran = s.ran ++ [c] ∧
      t.buffer.lastToken = if c.token = 0 then s.buffer.lastToken else c.token := by
  have hf := framed_invariant.holds hs
  have hqueue : s.queue = c :: cs := by
    have hsplit := hf.issued_eq (by rw [hserver]; rfl)
    rw [hissued, List.append_cancel_left_eq] at hsplit
    exact hsplit.symm
  have hheld := hf.commandAt_tail hqueue
  -- A queued command has a header at least, so the ring is not empty.
  have hfill : s.buffer.fillCount ≠ 0 := by
    have hsize := c.headerSize_le
    rw [hf.fill_eq, hqueue, total_cons]
    simp only [headerSize] at hsize
    omega
  have hfetched := hs.step (step_of_move (.fetch hserver hfill))
  have hdispatched := hfetched.step (step_of_move (.dispatch rfl (hheld.type_eq ▸ htype)))
  have hhandled := hdispatched.step (step_of_move (.handle rfl))
  have hadvanced := hhandled.step (step_of_move (.advance rfl))
  have hreleased := hadvanced.step (step_of_move (.release rfl))
  have htoken : tokenAt (subFill (moveTail s.buffer (sizeAt s.buffer s.buffer.tail))
      (sizeAt s.buffer s.buffer.tail)) s.buffer.tail = c.token := by
    simp only [tokenAt_subFill, tokenAt_moveTail]
    exact hheld.token_eq
  by_cases hzero : c.token = 0
  · have hskipped := hreleased.step (step_of_move (.skipToken rfl (htoken.trans hzero)))
    refine ⟨_, hskipped, rfl, rfl, rfl, rfl, rfl, ?_, ?_⟩
    · simp [hheld.commandAt_eq]
    · simp [hzero]
  · have htaken := hreleased.step (step_of_move (.takeToken rfl (by rw [htoken]; exact hzero)))
    have hstored := htaken.step (step_of_move (.storeToken rfl))
    have hposted := hstored.step (step_of_move (.postClient rfl))
    refine ⟨_, hposted, rfl, rfl, rfl, rfl, rfl, ?_, ?_⟩
    · simp [hheld.commandAt_eq]
    · simp [hzero, htoken]

/-- One request from start to end. -/
theorem exists_quiet_cons (hs : (system length todo).Reachable s) (hq : Quiet s)
    (htodo : s.todo = r :: rest) (hfit : r.size ≤ length) (htype : r.type ≠ commandShutdown) :
    ∃ t, (system length todo).Reachable t ∧ Quiet t ∧ t.todo = rest := by
  obtain ⟨t, ht, hpc, hserver, htodo', htoken, hissued, hran, hlast⟩ :=
    exists_published hs hq htodo hfit
  obtain ⟨u, hu, hpc', hserver', htodo'', htoken', hissued', hran', hlast'⟩ :=
    exists_served ht hserver (hran ▸ hq.ran ▸ hissued) (by simpa [Request.toCommand] using htype)
  have hall : u.ran = u.issued := by rw [hran', hissued', hran, hq.ran, hissued]
  rw [hpc] at hpc'
  cases hsync : r.sync with
  | false =>
    refine ⟨u, hu, ⟨?_, hserver', hall, ?_⟩, htodo''.trans htodo'⟩
    · simpa [Request.tokenOf, hsync, afterPublish] using hpc'
    · rw [hlast', hissued', hissued, htoken', htoken, hlast, hq.last]
      simp [Request.tokenOf, Request.bump, hsync, Request.toCommand, syncCount, Command.kind]
  -- The command is acknowledged by now, so the wait loop is left at once.
  | true =>
    simp only [Request.tokenOf, Request.bump, hsync, if_true, Request.toCommand,
      commandToken_ne_zero, afterPublish, if_false] at hpc' htoken hlast' hissued
    have hleft := hu.step (step_of_move (.leave hpc' hlast'.ge))
    refine ⟨_, hleft, ⟨rfl, hserver', hall, ?_⟩, htodo''.trans htodo'⟩
    simp only [hlast', hissued', hissued, htoken', htoken]
    simp [syncCount, Command.kind, commandToken_ne_zero]

/-- All requests of a list, one after the other. -/
theorem exists_quiet {rs : List Request} (rest : List Request)
    (hs : (system length todo).Reachable s) (hq : Quiet s)
    (htodo : s.todo = rs ++ rest) (hfit : ∀ r ∈ rs, r.size ≤ length)
    (htype : ∀ r ∈ rs, r.type ≠ commandShutdown) :
    ∃ t, (system length todo).Reachable t ∧ Quiet t ∧ t.todo = rest := by
  induction rs generalizing s with
  | nil => exact ⟨s, hs, hq, htodo⟩
  | cons r rs ih =>
    obtain ⟨t, ht, hquiet, htodo'⟩ :=
      exists_quiet_cons hs hq htodo (hfit r List.mem_cons_self) (htype r List.mem_cons_self)
    exact ih ht hquiet htodo' (fun r' hr' => hfit r' (List.mem_cons_of_mem _ hr'))
      fun r' hr' => htype r' (List.mem_cons_of_mem _ hr')

/-- What is issued and what is still to be sent account for every synchronous call. -/
theorem Progress.syncCount_issued (hp : Progress todo s) (hpc : s.client.inFlight = none) :
    syncCount s.issued + s.todo.countP (·.sync) = todo.countP (·.sync) := by
  have hkinds := congrArg (List.countP (fun kind : Kind => kind.sync)) hp.requests
  simpa [hpc, List.countP_map, Function.comp_def, syncCount, Request.kind] using hkinds

end GpuProxy.Protocol
