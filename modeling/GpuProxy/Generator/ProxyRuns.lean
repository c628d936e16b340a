import GpuProxy.Generator.Proxy

/-!
# Calls through the ring are like direct ones

The commands that the handlers find are those that the client packed, so that the proxy is a client
and a server with a queue between them. What the application then has is what direct calls of the
driver would have left it, with the value that the handler stored into the ring.

## Main definitions

* `Sends` — what a command is, that was packed for a request
* `Awaited` — the application waits for no command but the last
* `Answers` — the values that were returned

## Main results

* `proxy_refines` — the ring is a queue
* `exists_handle_of_handling` — no handler is stuck
* `exists_direct` — whole runs
-/

namespace GpuProxy.Generator

open Math Names

variable {D : Type} {length : ℕ} {todo : List Protocol.Request} {functions : List Function}
  {driver : Driver D} {s t : Proxy D} {event : ProxyEvent}

/-! ### The threads of the proxy -/

/-- The threads take the step that the event says. -/
theorem Proxy.Move.calls (hmove : Proxy.Move functions driver s event t) :
    (∀ step, event.step? = some step → s.calls.step step = some t.calls) ∧
      (event.step? = none → t.calls = s.calls) := by
  cases hmove with
  | own => exact ⟨nofun, fun _ => rfl⟩
  | call _ hstep | handle _ hstep | finish _ hstep | leave _ hstep | other hstep =>
    refine ⟨fun step h => ?_, nofun⟩
    obtain rfl := Option.some.inj h
    exact hstep

theorem calls_refines : ((proxySystem length todo functions driver).guarded KeepsOrder).Refines
    ((Protocol.callSystem length todo).guarded Protocol.KeepsCallOrder) Proxy.calls
    ProxyEvent.step? where
  init _ hs := hs.1
  skip _ _ _ _ hstep hskip := (Proxy.Move.calls hstep.2).2 hskip
  step _ _ _ step _ hstep h := ⟨hstep.1 step h, (Proxy.Move.calls hstep.2).1 step h⟩

/-- A run of the threads without the stores of the handlers goes along. -/
theorem Proxy.exists_alongside
    (hs : ((proxySystem length todo functions driver).guarded KeepsOrder).Reachable s) :
    ∃ u, Protocol.Alongside length todo s.calls u :=
  Protocol.exists_alongside (calls_refines.reachable hs)

/-! ### The commands that were packed -/

/-- The command was packed for a request of this kind. -/
structure Sends (functions : List Function) (command : Command) (kind : Protocol.Kind) : Prop where
  encodes : ∃ r : Protocol.Request, r.kind = kind ∧ Encodes functions command.call r
  fields : commandOf command.call.1 command.call.2 = command
  returnType : command.function.isSynchronous = false → command.function.returnType = .void

namespace Sends

variable {command : Command} {kind : Protocol.Kind}

theorem sync (h : Sends functions command kind) : kind.sync = command.function.isSynchronous := by
  obtain ⟨r, rfl, hencodes⟩ := h.encodes
  exact hencodes.sync

theorem handlerCall {k : Protocol.Command} (h : Sends functions command k.kind) :
    handlerCall functions k.type k.payload = some command.call := by
  obtain ⟨r, hkind, hencodes⟩ := h.encodes
  have hfound := handlerCall_of_encodes hencodes
  rwa [show r.type = k.type from congrArg Protocol.Kind.type hkind,
    show r.payload = k.payload from congrArg Protocol.Kind.payload hkind] at hfound

theorem length_payload (h : Sends functions command kind) :
    kind.payload.length = sizeofCommand command.function - Protocol.headerSize := by
  obtain ⟨r, rfl, hencodes⟩ := h.encodes
  have hsize := hencodes.size
  rw [Protocol.Request.size] at hsize
  exact (Nat.sub_eq_of_eq_add' hsize.symm).symm

theorem map_sync {commands : List Command} {kinds : List Protocol.Kind}
    (h : List.Forall₂ (Sends functions) commands kinds) :
    kinds.map (·.sync) = commands.map (·.function.isSynchronous) := by
  induction h with
  | nil => rfl
  | cons hfirst _ ih => rw [List.map_cons, List.map_cons, hfirst.sync, ih]

end Sends

/-- The step packs no command, or it is that of a call. -/
theorem Proxy.Move.packed (hmove : Proxy.Move functions driver s event t)
    (htoken : Protocol.TokenFollows s.calls.threads) :
    t.sent = s.sent ∧ t.calls.threads.packed = s.calls.threads.packed ∨
      ∃ command kind, Sends functions command kind ∧ t.sent = s.sent ++ [command] ∧
        t.calls.threads.packed = s.calls.threads.packed ++ [kind] := by
  cases hmove with
  | own => exact .inl ⟨rfl, rfl⟩
  | @call f args r a addresses calls heap command hpc hstep hf hvalid hargs hinit hencodes =>
    obtain ⟨rfl, -⟩ := Function.init_spec hinit
    exact .inr ⟨command, r.kind, ⟨⟨r, rfl, hencodes⟩, Function.commandOf_call hargs hinit,
      hf.returnType⟩, rfl, Protocol.packed_of_reserved (Protocol.Calls.move_of_run hstep) hpc⟩
  | handle _ hstep | finish _ hstep =>
    exact .inl ⟨rfl, Protocol.packed_of_move (Protocol.Calls.move_of_run hstep) htoken nofun⟩
  | leave hpc hstep =>
    exact .inl ⟨rfl, Protocol.packed_of_move (Protocol.Calls.move_of_run hstep) htoken
      fun _ _ _ hreserved => absurd (hpc.symm.trans hreserved) nofun⟩
  | @other step calls hstep hplain =>
    refine .inl ⟨rfl, ?_⟩
    match step with
    | .run .client =>
      exact Protocol.packed_of_move (Protocol.Calls.move_of_run hstep) htoken fun _ => hplain.1
    | .run .server =>
      exact Protocol.packed_of_move (Protocol.Calls.move_of_run hstep) htoken nofun
    | .store _ _ =>
      obtain ⟨buffer, rfl⟩ := Protocol.Calls.eq_of_store hstep
      rfl

/-- The commands are those that the threads have packed. -/
theorem sends_invariant :
    ((proxySystem length todo functions driver).guarded KeepsOrder).Invariant fun s =>
      List.Forall₂ (Sends functions) s.sent s.calls.threads.packed where
  init := by
    rintro s ⟨⟨memory, hcalls⟩, -, hsent, -⟩
    rw [hsent, hcalls]
    exact .nil
  step := by
    rintro s event t hs h ⟨-, hmove⟩
    obtain ⟨u, hu⟩ := Proxy.exists_alongside hs
    obtain ⟨hsent, hpacked⟩ | ⟨command, kind, hsends, hsent, hpacked⟩ :=
      Proxy.Move.packed hmove hu.tokenFollows
    · rwa [hsent, hpacked]
    · rw [hsent, hpacked]
      exact List.rel_append h (.cons hsends .nil)

/-! ### The ring is a queue -/

namespace Proxy

variable {u : Protocol.State}

/-- The commands that no handler has got are those that the ring has, and the one in the making. -/
theorem pending_sends (hsends : List.Forall₂ (Sends functions) s.sent s.calls.threads.packed)
    (hu : Protocol.Alongside length todo s.calls u) :
    s.calls.threads.ran.length ≤ s.sent.length ∧
      List.Forall₂ (Sends functions) s.pending
        (s.calls.threads.pending.map Protocol.Command.kind ++
          s.calls.threads.client.packed.toList.map Protocol.Request.kind) := by
  have hran := hu.ran_isPrefix.length_le
  have hdrop := List.forall₂_drop s.calls.threads.ran.length hsends
  rw [Protocol.State.packed, List.drop_append_of_le_length (by simpa using hran),
    ← List.map_drop] at hdrop
  refine ⟨?_, hdrop⟩
  rw [hsends.length_eq, Protocol.State.packed, List.length_append, List.length_map]
  exact Nat.le_add_right_of_le hran

/-- A client outside of a call, or about to pack a command, waits for nothing. -/
theorem waiting_eq_false (hsends : List.Forall₂ (Sends functions) s.sent s.calls.threads.packed)
    (hu : Protocol.Alongside length todo s.calls u) (hpacked : s.calls.threads.client.packed = none)
    (hpublished : s.calls.threads.client.published = none) : s.process.waiting = false := by
  have hsync := Sends.map_sync (pending_sends hsends hu).2
  have hcount := List.countP_eq_zero.mp (hu.syncCount_pending hpublished)
  rw [hpacked, Option.toList_none, List.map_nil, List.append_nil, List.map_map] at hsync
  rw [← Bool.not_eq_true, process, Option.any_eq_true]
  rintro ⟨command, hlast, hcommand⟩
  have hmem := List.mem_map_of_mem (f := (·.function.isSynchronous)) (List.mem_of_getLast? hlast)
  rw [← hsync] at hmem
  obtain ⟨k, hk, heq⟩ := List.mem_map.mp hmem
  exact hcount k hk (heq.trans hcommand)

/-- The handler that is about to run finds the first command that is pending. -/
theorem exists_pending (hsends : List.Forall₂ (Sends functions) s.sent s.calls.threads.packed)
    (hu : Protocol.Alongside length todo s.calls u) {a : ℕ}
    (hpc : s.calls.threads.server = .handling a) : ∃ command rest, s.pending = command :: rest ∧
      handlerCall functions (Protocol.commandAt s.calls.threads.buffer a).type
        (Protocol.commandAt s.calls.threads.buffer a).payload = some command.call ∧
      commandOf command.call.1 command.call.2 = command := by
  obtain ⟨commands, hcommands⟩ := hu.exists_pending hpc
  have hpending := (pending_sends hsends hu).2
  rw [hcommands, List.map_cons, List.cons_append] at hpending
  obtain ⟨command, rest, hfirst, -, heq⟩ := List.forall₂_cons_right_iff.mp hpending
  exact ⟨command, rest, heq, hfirst.handlerCall, hfirst.fields⟩

/-- What the handler finds is this command. -/
theorem pending_eq_cons (hsends : List.Forall₂ (Sends functions) s.sent s.calls.threads.packed)
    (hu : Protocol.Alongside length todo s.calls u) {a : ℕ} {f : Function} {numbers : List ℤ}
    (hpc : s.calls.threads.server = .handling a)
    (hcall : handlerCall functions (Protocol.commandAt s.calls.threads.buffer a).type
      (Protocol.commandAt s.calls.threads.buffer a).payload = some (f, numbers)) :
    ∃ rest, s.pending = commandOf f numbers :: rest := by
  obtain ⟨command, rest, hpending, hfound, hfields⟩ := exists_pending hsends hu hpc
  have hsame : command.call = (f, numbers) := Option.some.inj (hfound.symm.trans hcall)
  rw [hsame] at hfields
  exact ⟨rest, hfields ▸ hpending⟩

theorem process_congr (hheap : t.heap = s.heap) (hserver : t.server = s.server)
    (hsent : t.sent = s.sent) (hran : t.calls.threads.ran = s.calls.threads.ran)
    (hresult : t.result = s.result) : t.process = s.process := by
  have hpending : t.pending = s.pending := by rw [pending, pending, hsent, hran]
  rw [process, process, hheap, hserver, hpending, hresult]

end Proxy

/-- The steps that are none of the process. -/
theorem Proxy.Move.process_eq (hmove : Proxy.Move functions driver s event t)
    (hskip : event.event? = none) : t.process = s.process := by
  cases hmove with
  | own | call | handle => cases hskip
  | finish hpc hstep =>
    exact Proxy.process_congr rfl rfl rfl (Protocol.ran_of_move (Protocol.Calls.move_of_run hstep)
      fun _ _ hhandling => absurd (hpc.symm.trans hhandling) nofun) rfl
  | leave hpc hstep =>
    exact Proxy.process_congr rfl rfl rfl
      (Protocol.ran_of_move (Protocol.Calls.move_of_run hstep) nofun) rfl
  | @other step calls hstep hplain =>
    refine Proxy.process_congr rfl rfl rfl ?_ rfl
    match step with
    | .run .client => exact Protocol.ran_of_move (Protocol.Calls.move_of_run hstep) nofun
    | .run .server =>
      exact Protocol.ran_of_move (Protocol.Calls.move_of_run hstep) fun _ => hplain.1
    | .store _ _ =>
      obtain ⟨buffer, rfl⟩ := Protocol.Calls.eq_of_store hstep
      rfl

theorem any_getLast?_cons {α : Type*} (p : α → Bool) (a : α) (l : List α) :
    l.getLast?.any p = ((a :: l).getLast?.any p && !l.isEmpty) := by
  cases l with
  | nil => simp
  | cons b l => simp

/-- The ring is a queue of commands. -/
theorem proxy_refines : ((proxySystem length todo functions driver).guarded KeepsOrder).Refines
    (processSystem .lp64 driver) Proxy.process ProxyEvent.event? where
  init := by
    rintro s ⟨-, hblocks, hsent, -⟩
    refine ⟨hblocks, ?_, ?_⟩ <;> simp [Proxy.process, Proxy.pending, hsent]
  skip _ _ _ _ hstep hskip := Proxy.Move.process_eq hstep.2 hskip
  step := by
    rintro s event t e hs ⟨-, hmove⟩ hevent
    obtain ⟨u, hu⟩ := Proxy.exists_alongside hs
    have hsends := sends_invariant.holds hs
    cases hmove with
    | finish | leave | other => cases hevent
    | own hpc hmemory =>
      obtain rfl := Option.some.inj hevent
      exact ⟨Proxy.waiting_eq_false hsends hu (by rw [hpc]; rfl) (by rw [hpc]; rfl), hmemory, rfl⟩
    | @call f args r a addresses calls heap command hpc hstep hf hvalid hargs hinit hencodes =>
      obtain rfl := Option.some.inj hevent
      refine ⟨Proxy.waiting_eq_false hsends hu (by rw [hpc]; rfl) (by rw [hpc]; rfl), hf, hvalid,
        addresses, heap, command, hinit, ?_⟩
      obtain ⟨hfunction, -⟩ := Function.init_spec hinit
      have hran := Protocol.ran_of_move (Protocol.Calls.move_of_run hstep) nofun
      have hpending : (s.sent ++ [command]).drop calls.threads.ran.length =
          s.pending ++ [command] := by
        rw [hran]
        exact List.drop_append_of_le_length (Proxy.pending_sends hsends hu).1
      simp [Proxy.process, Proxy.pending, hpending, hfunction]
    | @handle a calls f numbers heap server result hpc hstep hcall hhandle =>
      obtain rfl := Option.some.inj hevent
      obtain ⟨rest, hpending⟩ := Proxy.pending_eq_cons hsends hu hpc hcall
      refine ⟨commandOf f numbers, rest, heap, server, result, hpending, hhandle, ?_⟩
      obtain ⟨hran, -⟩ := Protocol.ran_of_handling (Protocol.Calls.move_of_run hstep) hpc
      have hrest : s.sent.drop calls.threads.ran.length = rest := by
        rw [hran, List.length_append, List.length_singleton, ← List.drop_drop]
        exact congrArg (List.drop 1) hpending
      have hwaiting := any_getLast?_cons (·.function.isSynchronous) (commandOf f numbers) rest
      rw [← hpending] at hwaiting
      simp only [Proxy.process, Proxy.pending, hrest, hwaiting]
      rfl

/-- No handler is stuck: it finds the fields of its command and what is behind the pointers, and all
blocks that it frees were allocated, and not freed before. -/
theorem exists_handle_of_handling
    (hs : ((proxySystem length todo functions driver).guarded KeepsOrder).Reachable s) {a : ℕ}
    (hpc : s.calls.threads.server = .handling a) :
    ∃ t, Proxy.Move functions driver s .handle t := by
  obtain ⟨u, hu⟩ := Proxy.exists_alongside hs
  obtain ⟨command, rest, hpending, hfound, hfields⟩ :=
    Proxy.exists_pending (sends_invariant.holds hs) hu hpc
  obtain ⟨heap, server, result, hhandle, -⟩ :=
    (owned_invariant.holds (proxy_refines.reachable hs)).exists_handle driver hpending
  have hstep : s.calls.step (.run .server) = some _ :=
    congrArg (Option.map _) (Protocol.step_of_move (.handle hpc))
  rw [← hfields] at hhandle
  exact ⟨_, .handle hpc hstep hfound hhandle⟩

/-! ### What is returned -/

/-- The application waits for no command but the last. -/
structure Awaited (s : Process D) : Prop where
  settled : s.waiting = false → ∀ command ∈ s.pending, command.function.isSynchronous = false
  last : ∀ command ∈ s.pending.dropLast, command.function.isSynchronous = false

theorem awaited_invariant : (processSystem .lp64 driver).Invariant Awaited where
  init := by
    rintro s ⟨-, hpending, -⟩
    constructor <;> simp [hpending]
  step := by
    intro s event t _ h hstep
    match event with
    | .client (.own memory) =>
      obtain ⟨-, -, rfl⟩ := hstep
      exact ⟨h.settled, h.last⟩
    | .client (.call (f, args)) =>
      obtain ⟨hwaiting, -, -, addresses, heap, command, hinit, rfl⟩ := hstep
      obtain ⟨rfl, -⟩ := Function.init_spec hinit
      have hsettled := h.settled hwaiting
      constructor
      · intro hsync command' hcommand'
        obtain hcommand' | hcommand' := List.mem_append.mp hcommand'
        · exact hsettled command' hcommand'
        · rwa [List.mem_singleton.mp hcommand']
      · rw [List.dropLast_concat]
        exact hsettled
    | .serve =>
      obtain ⟨command, rest, heap, server, result, hpending, -, rfl⟩ := hstep
      have hlast := h.last
      rw [hpending] at hlast
      cases rest with
      | nil => exact ⟨nofun, nofun⟩
      | cons command' rest =>
        rw [List.dropLast_cons_of_ne_nil (List.cons_ne_nil _ _)] at hlast
        constructor
        · intro hwaiting
          have hwaiting : s.waiting = false := by simpa using hwaiting
          have hsettled := h.settled hwaiting
          rw [hpending] at hsettled
          exact fun c hc => hsettled c (List.mem_cons_of_mem _ hc)
        · exact fun c hc => hlast c (List.mem_cons_of_mem _ hc)

/-- The values that the driver returns are those of the types. -/
def Driver.Fits (driver : Driver D) (functions : List Function) : Prop :=
  ∀ f ∈ functions, f.returnType ≠ .void → ∀ numbers pointers w,
    f.resultType.Represents (driver.sync f.name numbers pointers w).2.2

/-- A handler has a value of the type of its field `result`. -/
theorem Command.represents_of_handle {command : Command} {heap heap' : Heap}
    {server server' : Server D} {result : ℤ} (hfits : driver.Fits functions)
    (hf : command.function ∈ functions) (hreturn : command.function.returnType ≠ .void)
    (hsync : command.function.isSynchronous = true)
    (hhandle : command.handle .lp64 driver heap server = some (heap', server', result)) :
    command.function.resultType.Represents result := by
  obtain ⟨mapping, hhandle', -⟩ := Command.handle_of_sync .lp64 driver heap server hsync
  rw [hhandle] at hhandle'
  cases hnumbers : command.numbers? (hashLookup server.nameMapping) with
  | none =>
    rw [hnumbers] at hhandle'
    obtain ⟨-, -, rfl⟩ := Prod.mk.inj (Option.some.inj hhandle')
    exact TypeText.represents_zero _
  | some numbers =>
    rw [hnumbers] at hhandle'
    obtain ⟨-, hrest⟩ := Prod.mk.inj (Option.some.inj hhandle')
    obtain ⟨-, rfl⟩ := Prod.mk.inj hrest
    exact hfits _ hf hreturn ..

/-- What the handlers and the client have for the field `result`. -/
structure Answers (s : Proxy D) : Prop where
  running : s.running.map (·.1) =
    (s.sent.take s.calls.threads.ran.length).getLast?.map (·.function)
  value : ∀ f result, s.running = some (f, result) → f.returnType ≠ .void →
    s.result = some result ∧ f.resultType.Represents result
  left : ∀ f result, s.running = some (f, result) → f.returnType ≠ .void →
    (∀ a, s.calls.threads.server ≠ .advancing a) →
    ∃ arguments, s.calls.left.getLast? = some arguments ∧ f.resultIn arguments = some result
  returned : (s.calls.threads.client.packed = none ∧ s.calls.threads.client.published = none ∨
    ∀ command ∈ s.sent.getLast?, command.function.returnType = .void) → s.returned = s.result


theorem Sends.exists_getLast? {commands : List Command} {kinds : List Protocol.Kind}
    {kind : Protocol.Kind} (h : List.Forall₂ (Sends functions) commands kinds)
    (hlast : kinds.getLast? = some kind) :
    ∃ command, commands.getLast? = some command ∧ Sends functions command kind := by
  have hreverse := List.rel_reverse h
  rw [List.getLast?_eq_head?_reverse, List.head?_eq_some_iff] at hlast
  obtain ⟨kinds', hkinds⟩ := hlast
  rw [hkinds] at hreverse
  obtain ⟨command, rest, hfirst, -, heq⟩ := List.forall₂_cons_right_iff.mp hreverse
  exact ⟨command, by rw [List.getLast?_eq_head?_reverse, heq, List.head?_cons], hfirst⟩

namespace Proxy

variable {u : Protocol.State}

/-- The command that the client waits for. -/
theorem exists_last (hsends : List.Forall₂ (Sends functions) s.sent s.calls.threads.packed)
    (hu : Protocol.Alongside length todo s.calls u) {token : ℕ}
    (hpublished : s.calls.threads.client.published = some token) :
    ∃ command k, s.sent.getLast? = some command ∧ s.calls.threads.issued.getLast? = some k ∧
      k.token = token ∧ Sends functions command k.kind := by
  obtain ⟨k, hlast, htoken⟩ := hu.exists_published hpublished
  have hkind : s.calls.threads.packed.getLast? = some k.kind := by
    rw [Protocol.State.packed, Protocol.ClientPc.packed_of_published hpublished,
      Option.toList_none, List.map_nil, List.append_nil, List.getLast?_map, hlast, Option.map_some]
  obtain ⟨command, hcommand, hsend⟩ := Sends.exists_getLast? hsends hkind
  exact ⟨command, k, hcommand, hlast, htoken, hsend⟩

end Proxy

namespace Answers

variable {u : Protocol.State}

/-- A handler with a value was waited for, so the client has not returned yet. -/
theorem handle (h : Answers s)
    (hsends : List.Forall₂ (Sends functions) s.sent s.calls.threads.packed)
    (hu : Protocol.Alongside length todo s.calls u) (hawaited : Awaited s.process)
    (hfits : driver.Fits functions) {a : ℕ} {calls : Protocol.Calls} {f : Function}
    {numbers : List ℤ} {heap : Heap} {server : Server D} {result : ℤ}
    (hpc : s.calls.threads.server = .handling a)
    (hstep : s.calls.step (.run .server) = some calls)
    (hcall : handlerCall functions (Protocol.commandAt s.calls.threads.buffer a).type
      (Protocol.commandAt s.calls.threads.buffer a).payload = some (f, numbers))
    (hhandle : (commandOf f numbers).handle .lp64 driver s.heap s.server =
      some (heap, server, result)) :
    Answers { s with
      calls := calls, heap := heap, server := server
      running := some (f, result)
      result := if f.returnType = .void then s.result else some result } := by
  obtain ⟨rest, hpending⟩ := Proxy.pending_eq_cons hsends hu hpc hcall
  have hmove := Protocol.Calls.move_of_run hstep
  obtain ⟨hran, hadvancing⟩ := Protocol.ran_of_handling hmove hpc
  obtain ⟨kind, hsend⟩ : ∃ kind, Sends functions (commandOf f numbers) kind := by
    have hfirst := (Proxy.pending_sends hsends hu).2
    rw [hpending] at hfirst
    obtain ⟨kind, -, hsend, -⟩ := List.forall₂_cons_left_iff.mp hfirst
    exact ⟨kind, hsend⟩
  have hsync : f.returnType ≠ .void → f.isSynchronous = true := by
    intro hreturn
    by_contra hasync
    exact hreturn (hsend.returnType (Bool.eq_false_of_not_eq_true hasync))
  refine ⟨?_, ?_, fun _ _ _ _ hnot => absurd hadvancing (hnot a), ?_⟩
  · have hnext : s.sent[s.calls.threads.ran.length]? = some (commandOf f numbers) := by
      rw [← List.head?_drop, ← Proxy.pending, hpending, List.head?_cons]
    simp only [hran, List.length_append, List.length_singleton, List.take_add_one, hnext]
    simp [commandOf]
  · intro f' result' hrunning hreturn
    obtain ⟨rfl, rfl⟩ := Prod.mk.inj (Option.some.inj hrunning)
    obtain ⟨r, -, hencodes⟩ := hsend.encodes
    obtain ⟨index, hindex, -⟩ := hencodes.type
    exact ⟨if_neg hreturn, Command.represents_of_handle hfits (List.mem_of_getElem? hindex) hreturn
      (hsync hreturn) hhandle⟩
  · intro hreturned
    simp only [Protocol.client_of_serverMove hmove] at hreturned
    by_cases hreturn : f.returnType = .void
    · rw [if_pos hreturn]
      exact h.returned hreturned
    · -- The command is the one that the client waits for.
      exfalso
      have hsync := hsync hreturn
      have hmem : commandOf f numbers ∈ s.pending := hpending ▸ List.mem_cons_self
      obtain ⟨hpacked, hpublished⟩ | hlast := hreturned
      · have hwaiting := Proxy.waiting_eq_false hsends hu hpacked hpublished
        have hasync := hawaited.settled hwaiting _ hmem
        exact Bool.false_ne_true (hasync.symm.trans hsync)
      · cases rest with
        | nil =>
          have hsent : s.sent.getLast? = some (commandOf f numbers) := by
            rw [← List.take_append_drop s.calls.threads.ran.length s.sent, ← Proxy.pending,
              hpending, List.getLast?_concat]
          exact hreturn (hlast _ hsent)
        | cons command rest =>
          have hasync := hawaited.last (commandOf f numbers) (by
            rw [Proxy.process, hpending]
            exact List.mem_cons_self)
          exact Bool.false_ne_true (hasync.symm.trans hsync)

/-- The client finds the value that the last handler has stored. -/
theorem leave (h : Answers s)
    (hsends : List.Forall₂ (Sends functions) s.sent s.calls.threads.packed)
    (hu : Protocol.Alongside length todo s.calls u) {token : ℕ} {calls : Protocol.Calls}
    {command : Command}
    {v : Protocol.State} (hv : Protocol.Alongside length todo calls v)
    (hpc : s.calls.threads.client = .checking token)
    (hstep : s.calls.step (.run .client) = some calls) (hleft : calls.threads.client = .idle)
    (hlast : s.sent.getLast? = some command) :
    Answers { s with
      calls := calls
      returned := if command.function.returnType = .void then s.returned
        else command.function.resultIn
          (s.calls.threads.buffer.load (s.calls.command + Protocol.headerSize)
            (sizeofCommand command.function - Protocol.headerSize)) } := by
  have hframe := Protocol.Calls.eq_of_leave hstep hpc hleft
  have hleft' : calls.left = s.calls.left := by rw [hframe]
  refine ⟨?_, h.value, ?_, fun _ => ?_⟩
  · rw [hframe]
    exact h.running
  · rw [hframe]
    exact h.left
  · by_cases hreturn : command.function.returnType = .void
    · rw [if_pos hreturn]
      refine h.returned (.inr fun command' hcommand' => ?_)
      obtain rfl := Option.some.inj (hlast.symm.trans hcommand')
      exact hreturn
    · rw [if_neg hreturn]
      obtain ⟨command', k, hcommand, hissued, htoken, hsend⟩ :=
        Proxy.exists_last hsends hu (congrArg Protocol.ClientPc.published hpc)
      obtain rfl := Option.some.inj (hlast.symm.trans hcommand)
      have hsync : k.token ≠ 0 := by
        have hfollows := hu.tokenFollows
        simp only [Protocol.TokenFollows, hpc] at hfollows
        rw [htoken, hfollows]
        exact Protocol.commandToken_ne_zero _
      have hissued' : calls.threads.issued.getLast? = some k := by
        rw [hframe]
        exact hissued
      obtain ⟨hran, -, hload, hserver⟩ := hv.getLast?_left hleft hissued' hsync
      -- All commands were handled, and the last of them is that of the call.
      have hsent : s.sent.take s.calls.threads.ran.length = s.sent := by
        have hlength := hsends.length_eq
        rw [Protocol.State.packed, hpc] at hlength
        rw [hframe] at hran
        refine List.take_of_length_le ?_
        rw [hlength, hran]
        simp [Protocol.ClientPc.packed]
      have hrunning := h.running
      rw [hsent, hlast] at hrunning
      obtain ⟨⟨f, result⟩, hrunning, rfl⟩ := Option.map_eq_some_iff.mp hrunning
      obtain ⟨hresult, -⟩ := h.value _ _ hrunning hreturn
      obtain ⟨arguments, harguments, hin⟩ := h.left _ _ hrunning hreturn
        (by rw [hframe] at hserver; exact hserver)
      rw [hleft', harguments] at hload
      have hbytes : arguments = s.calls.threads.buffer.load
          (s.calls.command + Protocol.headerSize)
          (sizeofCommand command.function - Protocol.headerSize) := by
        rw [← hsend.length_payload, Option.some.inj hload, hframe]
        rfl
      rw [← hbytes, hresult]
      exact hin

/-- A step of the threads that is of no concern. -/
theorem other (h : Answers s)
    (hsends : List.Forall₂ (Sends functions) s.sent s.calls.threads.packed)
    (hu : Protocol.Alongside length todo s.calls u) {step : Protocol.CallStep}
    {calls : Protocol.Calls} (hstep : s.calls.step step = some calls)
    (hplain : IsPlain s.calls.threads calls.threads step) : Answers { s with calls := calls } := by
  match step with
  | .run .client =>
    have hmove := Protocol.Calls.move_of_run hstep
    obtain ⟨hserver, hran, -⟩ := Protocol.clientMove_frame hmove
    refine ⟨?_, h.value, ?_, fun hreturned => ?_⟩
    · rw [hran]
      exact h.running
    · rw [Protocol.Calls.left_of_client hstep, hserver]
      exact h.left
    · refine h.returned (or_iff_not_imp_right.mpr fun hlast => ?_)
      obtain ⟨hpacked, hpublished⟩ := hreturned.resolve_right hlast
      refine (Protocol.settled_of_move hmove hpacked hpublished hplain.2).resolve_right ?_
      -- Nobody waits for a command without a token, and it has no result.
      intro hzero
      obtain ⟨command, k, hcommand, -, htoken, hsend⟩ := Proxy.exists_last hsends hu hzero
      refine hlast fun command' hcommand' => ?_
      obtain rfl := Option.some.inj (hcommand.symm.trans hcommand')
      refine hsend.returnType (hsend.sync.symm.trans ?_)
      simp [Protocol.Command.kind, htoken]
  | .run .server =>
    have hmove := Protocol.Calls.move_of_run hstep
    have hran := Protocol.ran_of_move hmove fun _ => hplain.1
    have hleft := Protocol.Calls.left_of_ne hstep hplain.2
    refine ⟨?_, h.value, fun f result hrunning hreturn _ => ?_, ?_⟩
    · rw [hran]
      exact h.running
    · rw [hleft]
      exact h.left f result hrunning hreturn hplain.2
    · rw [Protocol.client_of_serverMove hmove]
      exact h.returned
  | .store _ _ =>
    obtain ⟨buffer, rfl⟩ := Protocol.Calls.eq_of_store hstep
    exact ⟨h.running, h.value, h.left, h.returned⟩

/-- The handler has stored its value. -/
theorem finish (h : Answers s) {a : ℕ} {calls : Protocol.Calls} {f : Function} {result : ℤ}
    (hpc : s.calls.threads.server = .advancing a)
    (hstep : s.calls.step (.run .server) = some calls) (hrunning : s.running = some (f, result))
    (hresult : f.returnType ≠ .void →
      f.resultIn (Protocol.argumentsAt s.calls.threads.buffer a) =
        some (numberOf f.resultType (fieldValue f.resultType result))) :
    Answers { s with calls := calls } := by
  have hmove := Protocol.Calls.move_of_run hstep
  have hran := Protocol.ran_of_move hmove fun _ _ hhandling =>
    absurd (hpc.symm.trans hhandling) nofun
  have hleft : calls.left = s.calls.left ++ [Protocol.argumentsAt s.calls.threads.buffer a] := by
    rw [Protocol.Calls.left_of_server hstep, hpc]
    rfl
  refine ⟨?_, h.value, fun f' result' hrunning' hreturn _ => ?_, ?_⟩
  · rw [hran]
    exact h.running
  · obtain ⟨rfl, rfl⟩ := Prod.mk.inj (Option.some.inj (hrunning.symm.trans hrunning'))
    obtain ⟨-, hrepresents⟩ := h.value f result hrunning hreturn
    refine ⟨_, by rw [hleft, List.getLast?_concat], ?_⟩
    rw [hresult hreturn, numberOf_fieldValue hrepresents]
  · rw [Protocol.client_of_serverMove hmove]
    exact h.returned

end Answers

theorem answers_invariant (hfits : driver.Fits functions) :
    ((proxySystem length todo functions driver).guarded KeepsOrder).Invariant Answers where
  init := by
    rintro s ⟨⟨memory, hcalls⟩, -, hsent, hrunning, hresult⟩
    constructor <;> simp [hsent, hrunning, hresult]
  step := by
    rintro s event t hs h ⟨hkeeps, hmove⟩
    obtain ⟨u, hu⟩ := Proxy.exists_alongside hs
    have hsends := sends_invariant.holds hs
    cases hmove with
    | own => exact ⟨h.running, h.value, h.left, h.returned⟩
    | @call f args r a addresses calls heap command hpc hstep =>
      obtain ⟨hserver, hran, -⟩ :=
        Protocol.clientMove_frame (Protocol.Calls.move_of_run hstep)
      have hlength := (Proxy.pending_sends hsends hu).1
      refine ⟨?_, h.value, ?_, fun _ => h.returned (.inl (by rw [hpc]; exact ⟨rfl, rfl⟩))⟩
      · rw [hran, List.take_append_of_le_length hlength]
        exact h.running
      · rw [Protocol.Calls.left_of_client hstep, hserver]
        exact h.left
    | handle hpc hstep hcall hhandle =>
      have hawaited := awaited_invariant.holds (proxy_refines.reachable hs)
      exact h.handle hsends hu hawaited hfits hpc hstep hcall hhandle
    | finish hpc hstep hrunning hresult => exact h.finish hpc hstep hrunning hresult
    | leave hpc hstep hleft hlast =>
      obtain ⟨v, hv⟩ := Proxy.exists_alongside (hs.step ⟨hkeeps, .leave hpc hstep hleft hlast⟩)
      exact h.leave hsends hu hv hpc hstep hleft hlast
    | other hstep hplain => exact h.other hsends hu hstep hplain

/-! ### Whole runs -/

/-- In every run that keeps the order of the tokens, in whatever order both threads take their
steps: an application outside of a call has what it would have if it had called the driver itself.
When all commands were handled, so has the server. -/
theorem exists_direct {events : List ProxyEvent} (hfits : driver.Fits functions)
    (hs : (proxySystem length todo functions driver).Init s)
    (hrun : ((proxySystem length todo functions driver).guarded KeepsOrder).Run s events t)
    (hpc : t.calls.threads.client = .idle) :
    ∃ server, ((events.filterMap ProxyEvent.event?).filterMap Remote.Event.action?).foldl
        (remote .lp64 driver).act (s.application, s.server.view) = (t.application, server) ∧
      (t.calls.threads.ran = t.calls.threads.issued → server = t.server.view) := by
  have hinit : ((proxySystem length todo functions driver).guarded KeepsOrder).Init s := hs
  have ht := hrun.reachable (.init hinit)
  obtain ⟨u, hu⟩ := Proxy.exists_alongside ht
  have hsends := sends_invariant.holds ht
  have hpacked : t.calls.threads.client.packed = none := by rw [hpc]; rfl
  have hpublished : t.calls.threads.client.published = none := by rw [hpc]; rfl
  have hwaiting := Proxy.waiting_eq_false hsends hu hpacked hpublished
  have hdirect := (remote_faithful .lp64 driver).foldl_act
    (proxy_refines.trans process_refines) hinit hrun hwaiting
  simp only [Option.bind_fun_some] at hdirect
  have hbefore : ((Process.view .lp64 ∘ Proxy.process) s).memory = s.application := by
    obtain ⟨-, -, -, -, hresult⟩ := hs
    exact congrArg (Application.mk s.heap.rest) hresult
  have hafter : ((Process.view .lp64 ∘ Proxy.process) t).memory = t.application := by
    have hreturned := ((answers_invariant hfits).holds ht).returned (.inl ⟨hpacked, hpublished⟩)
    exact congrArg (Application.mk t.heap.rest) hreturned.symm
  rw [hbefore, hafter] at hdirect
  refine ⟨_, hdirect, fun hall => ?_⟩
  have hpending : t.pending = [] := by
    have hlength := (Proxy.pending_sends hsends hu).2.length_eq
    rw [Protocol.State.pending, hpacked, hall, List.drop_length] at hlength
    exact List.eq_nil_of_length_eq_zero hlength
  rw [Remote.settled_of_pending (by simp [Process.view, Proxy.process, hpending])]
  rfl

/-! ### A call with a value -/

/-- A function without arguments. -/
def glGetError : Function where
  name := "glGetError"
  info := getFunctionInfo "glGetError"
  returnType := .glEnum
  args := []

/-- A driver that has always the same error. -/
def errorDriver : Driver Unit where
  async _ _ _ d := d
  sync _ _ _ w := (w.1, w.2, 0x500)
  sync_eq_none _ _ _ _ _ _ h := h

def noArguments : Arguments := ⟨⟨fun _ => 0, fun _ _ => 0⟩, fun _ => 0⟩

/-- The command in a ring that had other bytes before. -/
def errorRequest : Protocol.Request where
  type := commandType 0
  payload := List.replicate 8 7
  sync := true
  type_lt := by decide
  size_lt := by decide

def errorCommand : Command := ⟨glGetError, noArguments.values, fun _ => 0⟩

theorem errorCommand_encodes : Encodes [glGetError] errorCommand.call errorRequest where
  type := ⟨0, rfl, rfl⟩
  size := by decide
  values := .nil
  payload := ⟨List.replicate 8 7, rfl, by decide⟩
  sync := rfl

theorem glGetError_generated : glGetError.Generated :=
  generated_of_knowHow (by decide) (by decide) (by decide) (by decide) (fun h => nomatch h)
    (fun h => nomatch h) (by decide)

/-- An application before its first call. -/
def beforeCalls : Proxy Unit where
  calls := ⟨Protocol.initial 64 (fun _ => 0) [errorRequest], 0, []⟩
  heap := idle.heap
  server := idle.server
  running := none
  returned := none
  sent := []
  result := none

/-- The step is plain. -/
def checkPlain (s t : Protocol.State) : Protocol.CallStep → Bool
  | .run .client =>
    match s.client with
    | .reserved _ _ => false
    | .checking _ => t.client ≠ .idle
    | _ => true
  | .run .server =>
    match s.server with
    | .handling _ | .advancing _ => false
    | _ => true
  | .store _ _ => true

theorem isPlain_of_checkPlain {s t : Protocol.State} {step : Protocol.CallStep}
    (h : checkPlain s t step = true) : IsPlain s t step := by
  match step with
  | .run .client =>
    refine ⟨fun r a hpc => ?_, fun token hpc => ?_⟩ <;> simp only [checkPlain, hpc] at h
    · cases h
    · exact of_decide_eq_true h
  | .run .server => constructor <;> intro a hpc <;> simp [checkPlain, hpc] at h
  | .store _ _ => trivial

/-- The events of a run with calls of `glGetError`: without a name for it, such a call. -/
def errorEvent : Option ProxyEvent → ProxyEvent := (·.getD (.call (glGetError, noArguments)))

/-- The steps of such a run. -/
def errorStep (s : Proxy Unit) : Option ProxyEvent → Option (Proxy Unit)
  | none =>
    match s.calls.threads.client with
    | .reserved r _ =>
      if r = errorRequest then (s.calls.step (.run .client)).map fun calls =>
        { s with calls := calls, sent := s.sent ++ [errorCommand] }
      else none
    | _ => none
  | some .handle =>
    match s.calls.threads.server with
    | .handling a => do
      let calls ← s.calls.step (.run .server)
      let (f, numbers) ← handlerCall [glGetError]
        (Protocol.commandAt s.calls.threads.buffer a).type
        (Protocol.commandAt s.calls.threads.buffer a).payload
      let (heap, server, result) ← (commandOf f numbers).handle .lp64 errorDriver s.heap s.server
      return { s with
        calls := calls, heap := heap, server := server
        running := some (f, result)
        result := if f.returnType = .void then s.result else some result }
    | _ => none
  | some .finish =>
    match s.calls.threads.server, s.running with
    | .advancing a, some (f, result) =>
      if f.resultIn (Protocol.argumentsAt s.calls.threads.buffer a) =
          some (numberOf f.resultType (fieldValue f.resultType result)) then
        (s.calls.step (.run .server)).map fun calls => { s with calls := calls }
      else none
    | _, _ => none
  | some .leave =>
    match s.calls.threads.client, s.sent.getLast? with
    | .checking _, some command => do
      let calls ← s.calls.step (.run .client)
      if calls.threads.client = .idle then
        return { s with
          calls := calls
          returned := if command.function.returnType = .void then s.returned
            else command.function.resultIn
              (s.calls.threads.buffer.load (s.calls.command + Protocol.headerSize)
                (sizeofCommand command.function - Protocol.headerSize)) }
      else none
    | _, _ => none
  | some (.other step) => do
    let calls ← s.calls.step step
    if checkPlain s.calls.threads calls.threads step then return { s with calls := calls } else none
  | some (.own _) | some (.call _) => none

theorem move_of_errorStep {s t : Proxy Unit} {e : Option ProxyEvent} (h : errorStep s e = some t) :
    Proxy.Move [glGetError] errorDriver s (errorEvent e) t := by
  match e with
  | none =>
    simp only [errorStep] at h
    split at h
    next r a hpc =>
      split_ifs at h with hr
      subst hr
      obtain ⟨calls, hstep, rfl⟩ := Option.map_eq_some_iff.mp h
      have hinit : glGetError.init .lp64 noArguments (fun _ => 0) s.heap =
          some (s.heap, errorCommand) := rfl
      exact .call hpc hstep glGetError_generated (fun h => nomatch h)
        ⟨fun _ h => absurd rfl h, rfl⟩ hinit errorCommand_encodes
    next => cases h
  | some .handle =>
    simp only [errorStep] at h
    split at h
    next a hpc =>
      obtain ⟨calls, hstep, h⟩ := Option.bind_eq_some_iff.mp h
      obtain ⟨⟨f, numbers⟩, hcall, h⟩ := Option.bind_eq_some_iff.mp h
      obtain ⟨⟨heap, server, result⟩, hhandle, h⟩ := Option.bind_eq_some_iff.mp h
      obtain rfl := Option.some.inj h
      exact .handle hpc hstep hcall hhandle
    next => cases h
  | some .finish =>
    simp only [errorStep] at h
    split at h
    next a f result hpc hrunning =>
      split_ifs at h with hresult
      obtain ⟨calls, hstep, rfl⟩ := Option.map_eq_some_iff.mp h
      exact .finish hpc hstep hrunning fun _ => hresult
    next => cases h
  | some .leave =>
    simp only [errorStep] at h
    split at h
    next token command hpc hlast =>
      obtain ⟨calls, hstep, h⟩ := Option.bind_eq_some_iff.mp h
      by_cases hleft : calls.threads.client = .idle
      · rw [if_pos hleft] at h
        obtain rfl := Option.some.inj h
        exact .leave hpc hstep hleft hlast
      · rw [if_neg hleft] at h
        cases h
    next => cases h
  | some (.other step) =>
    obtain ⟨calls, hstep, h⟩ := Option.bind_eq_some_iff.mp h
    split_ifs at h with hplain
    obtain rfl := Option.some.inj h
    exact .other hstep (isPlain_of_checkPlain hplain)
  | some (.own _) => cases h
  | some (.call _) => cases h

/-- The steps that keep the order of the tokens. -/
def checkedErrorStep (s : Proxy Unit) (e : Option ProxyEvent) : Option (Proxy Unit) :=
  if (errorEvent e).step?.all (Protocol.checkCallOrder s.calls) then errorStep s e else none

theorem step_of_checkedErrorStep {s t : Proxy Unit} {e : Option ProxyEvent}
    (h : checkedErrorStep s e = some t) :
    ((proxySystem 64 [errorRequest] [glGetError] errorDriver).guarded KeepsOrder).Step s
      (errorEvent e) t := by
  unfold checkedErrorStep at h
  split_ifs at h with horder
  have hall := (Option.all_eq_true _ _).mp horder
  refine ⟨fun step hstep => ?_, move_of_errorStep h⟩
  exact Protocol.keepsCallOrder_of_checkCallOrder _ _ (hall step hstep)

/-- The client calls and waits, the server handles the command and stores the error in two pieces,
and the client returns. -/
def errorRun : List (Option ProxyEvent) :=
  [some (.other (.run .client)), none] ++ List.replicate 6 (some (.other (.run .client))) ++
    List.replicate 2 (some (.other (.run .server))) ++
    [some .handle, some (.other (.store 1 [5, 0, 0])), some (.other (.store 0 [0])),
      some .finish] ++
    List.replicate 4 (some (.other (.run .server))) ++ [some (.other (.run .client)), some .leave]

theorem errorDriver_fits : errorDriver.Fits [glGetError] := by
  intro f hf _ _ _ _
  rw [List.mem_singleton.mp hf]
  exact (by decide : glGetError.resultType.Represents 0x500)

theorem beforeCalls_init :
    (proxySystem 64 [errorRequest] [glGetError] errorDriver).Init beforeCalls :=
  ⟨⟨_, rfl⟩, rfl, rfl, rfl, rfl⟩

theorem exists_direct_errorRun : ∃ t : Proxy Unit, t.returned = some 0x500 ∧ ∃ server,
    (((errorRun.map errorEvent).filterMap ProxyEvent.event?).filterMap
        Remote.Event.action?).foldl (remote .lp64 errorDriver).act
        (beforeCalls.application, beforeCalls.server.view) = (t.application, server) ∧
      (t.calls.threads.ran = t.calls.threads.issued → server = t.server.view) := by
  have hrun : (errorRun.foldlM checkedErrorStep beforeCalls).map
      (fun t => (t.calls.threads.client, t.returned)) = some (.idle, some 0x500) := by
    decide +kernel
  obtain ⟨t, ht, hobserved⟩ := Option.map_eq_some_iff.mp hrun
  simp only [Prod.mk.injEq] at hobserved
  obtain ⟨hpc, hreturned⟩ := hobserved
  have hsteps : ((proxySystem 64 [errorRequest] [glGetError] errorDriver).guarded KeepsOrder).Run
      beforeCalls (errorRun.map errorEvent) t :=
    .of_foldlM (fun _ _ _ hstep => step_of_checkedErrorStep hstep) ht
  exact ⟨t, hreturned, exists_direct errorDriver_fits beforeCalls_init hsteps hpc⟩

theorem exists_handle_errorRun : ∃ s : Proxy Unit, s.calls.threads.server = .handling 0 ∧
    ∃ t, Proxy.Move [glGetError] errorDriver s .handle t := by
  have hrun : ((errorRun.take 10).foldlM checkedErrorStep beforeCalls).map
      (fun s => s.calls.threads.server) = some (.handling 0) := by
    decide +kernel
  obtain ⟨s, hs, hpc⟩ := Option.map_eq_some_iff.mp hrun
  have hsteps : ((proxySystem 64 [errorRequest] [glGetError] errorDriver).guarded KeepsOrder).Run
      beforeCalls ((errorRun.take 10).map errorEvent) s :=
    .of_foldlM (fun _ _ _ hstep => step_of_checkedErrorStep hstep) hs
  exact ⟨s, hpc, exists_handle_of_handling (hsteps.reachable (.init beforeCalls_init)) hpc⟩

end GpuProxy.Generator
