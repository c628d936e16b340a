import GpuProxy.Generator.Ownership

/-!
# Deferred calls are like direct ones

An application that calls generated functions through the proxy finds its memory, and the values
that were returned, as if the driver had been called where it made the calls, though the driver is
called later, with copies, and the application may have written to its arrays since.

## Main definitions

* `Application`, `ServerView` — what the application has, and the server
* `Package`, `remote` — calls as they are made directly, and what commands stand for
* `Process.view` — the packages that are pending

## Main results

* `remote_faithful` — a package does what the call does directly
* `process_refines` — the process, with its copies, is a queue of packages
* `run_direct` — whole runs
-/

namespace GpuProxy.Generator

open Math Names

/-- What the application has: its memory, and the value of the last call that had one. -/
structure Application where
  memory : Memory
  returned : Option ℤ

/-- What the server has: a partial map of names, and the driver's. -/
structure ServerView (D : Type) where
  names : ℕ → Option ℕ
  driver : D

/-- What a command stands for. -/
inductive Package
  | async (function : Function) (values : Values) (contents : List Content)
  | sync (function : Function) (values : Values) (pointers : List ℕ)

section Remote

variable {D : Type} (m : DataModel) (driver : Driver D)

/-- The value of a call, if it has one. -/
def Application.return (application : Application) (f : Function) (result : ℤ) : Application :=
  if f.returnType = .void then application else { application with returned := some result }

/-- The driver is called with what is behind the pointers. Nobody waits for this. -/
def runAsync (f : Function) (values : Values) (contents : List Content) (server : ServerView D) :
    ServerView D :=
  let looked := f.lookUp f.getMappedNameAttributes server.names values.argument
  ⟨looked.1, looked.2.elim server.driver fun numbers =>
    driver.async f.name numbers contents server.driver⟩

/-- The driver is called with the pointers, and may write through them. -/
def runSync (f : Function) (values : Values) (pointers : List ℕ)
    (w : Application × ServerView D) : Application × ServerView D :=
  let looked := f.lookUp f.getMappedNameAttributes w.2.names values.argument
  looked.2.elim (w.1.return f 0, ⟨looked.1, w.2.driver⟩) fun numbers =>
    let (memory, d, result) := driver.sync f.name numbers pointers (w.1.memory, w.2.driver)
    ({ w.1 with memory := memory }.return f result, ⟨looked.1, d⟩)

/-- The calls of generated functions. -/
def remote : Remote Application (ServerView D) Memory (Function × Arguments) Package where
  own memory application := { application with memory := memory }
  sync call := call.1.isSynchronous
  Valid call application := call.1.Generated ∧
    (call.1.isSynchronous = false → call.2.Valid m call.1 application.memory)
  direct call w :=
    let (f, args) := call
    if f.isSynchronous then runSync driver f args.values (f.pointerList args.pointers) w
    else (w.1, runAsync driver f args.values
      ((f.contents m args.values w.1.memory args.pointers).getD []) w.2)
  Packs call application package :=
    let (f, args) := call
    package = if f.isSynchronous then .sync f args.values (f.pointerList args.pointers)
      else .async f args.values
        ((f.contents m args.values application.memory args.pointers).getD [])
  exec package w :=
    match package with
    | .async f values contents => (w.1, runAsync driver f values contents w.2)
    | .sync f values pointers => runSync driver f values pointers w

variable {m driver}

/-- What is behind the pointers is in the package. -/
theorem remote_faithful (m : DataModel) (driver : Driver D) : (remote m driver).Faithful where
  inert := by
    rintro ⟨f, args⟩ application package - rfl hsync
    have hasync : f.isSynchronous = false := hsync
    intro a a' d
    simp only [hasync, Bool.false_eq_true, if_false]
    exact ⟨rfl, rfl⟩
  exec_eq := by
    rintro ⟨f, args⟩ application package d - rfl
    cases hsync : f.isSynchronous with
    | true => simp [remote, hsync]
    | false => simp [remote, hsync]

end Remote

/-! ### The process as a queue of packages -/

variable {D : Type} {m : DataModel} {driver : Driver D} {s t : Process D}

/-- What a command stands for, with the copies that it has. -/
def Command.package (m : DataModel) (heap : Heap) (command : Command) : Package :=
  let f := command.function
  if f.isSynchronous then .sync f command.values (f.pointerList command.pointers)
  else .async f command.values
    ((f.contents m command.values heap.memory command.pointers).getD [])

def Process.application (s : Process D) : Application := ⟨s.heap.rest, s.returned⟩

def Server.view (server : Server D) : ServerView D :=
  ⟨hashLookup server.nameMapping, server.driver⟩

def Process.view (m : DataModel) (s : Process D) :
    Remote.State Application (ServerView D) Package where
  memory := s.application
  server := s.server.view
  pending := s.pending.map (Command.package m s.heap)
  waiting := s.waiting

namespace Owned

/-- A command stands for the same as long as its blocks have the same contents. -/
theorem map_package (h : Owned m s) (heap : Heap) {commands : List Command}
    (hcommands : ∀ command ∈ commands, command ∈ s.pending)
    (hmemory : ∀ p ∈ commands.flatMap Command.owned, heap.memory p = s.heap.memory p) :
    commands.map (Command.package m heap) = commands.map (Command.package m s.heap) := by
  refine List.map_congr_left fun command hcommand => ?_
  cases hsync : command.function.isSynchronous with
  | true => simp [Command.package, hsync]
  | false =>
    have hcontents : command.function.contents m command.values heap.memory command.pointers =
        command.function.contents m command.values s.heap.memory command.pointers :=
      Command.contents_eq_of_owned (h.generated command (hcommands command hcommand)) hsync
        fun p hp => hmemory p (List.mem_flatMap.mpr ⟨command, hcommand, hp⟩)
    simp only [Command.package, hsync, hcontents]

/-- A handler does to the application and the server what the package does. -/
theorem exec_of_handle (h : Owned m s) {command : Command} {rest : List Command}
    (hpending : s.pending = command :: rest) {heap : Heap} {server : Server D} {result : ℤ}
    (hhandle : command.handle m driver s.heap s.server = some (heap, server, result)) :
    (remote m driver).exec (command.package m s.heap) (s.application, s.server.view) =
      (⟨heap.rest, if command.function.returnType = .void then s.returned else some result⟩,
        server.view) := by
  obtain ⟨hf, hnodup, hblocks, -⟩ := h.of_pending_cons hpending
  have hcommand : command ∈ s.pending := hpending ▸ List.mem_cons_self
  cases hsync : command.function.isSynchronous with
  | false =>
    obtain ⟨contents, hcontents⟩ :=
      Option.isSome_iff_exists.mp (h.contents command hcommand hsync)
    obtain ⟨heap', mapping, hhandle', hmapping, hrest, -⟩ :=
      Command.handle_of_async driver s.server hf hsync hblocks hnodup hcontents
    rw [hhandle] at hhandle'
    simp only [Option.some.injEq, Prod.mk.injEq] at hhandle'
    obtain ⟨rfl, rfl, rfl⟩ := hhandle'
    simp only [Command.package, hsync, hcontents, remote, runAsync, hf.returnType hsync, if_true,
      hrest, Process.application, Server.view, hmapping]
    rfl
  | true =>
    obtain ⟨mapping, hhandle', hmapping⟩ :=
      Command.handle_of_sync m driver s.heap s.server hsync
    rw [hhandle] at hhandle'
    cases hnumbers : command.numbers? (hashLookup s.server.nameMapping) with
    | none =>
      rw [hnumbers] at hhandle'
      simp only [Option.elim_none, Option.some.injEq, Prod.mk.injEq] at hhandle'
      obtain ⟨rfl, rfl, rfl⟩ := hhandle'
      rw [Command.numbers?] at hnumbers
      rw [Command.mappingAfter] at hmapping
      simp only [Command.package, hsync, if_true, remote, runSync, Server.view, hnumbers,
        Option.elim_none, hmapping, Process.application, Application.return]
      split_ifs <;> rfl
    | some numbers =>
      rw [hnumbers] at hhandle'
      simp only [Option.elim_some, Option.some.injEq, Prod.mk.injEq] at hhandle'
      obtain ⟨rfl, rfl, rfl⟩ := hhandle'
      rw [Command.numbers?] at hnumbers
      rw [Command.mappingAfter] at hmapping
      -- The driver does not use the addresses of the copies, which the application has not.
      have hrest := fun p (hp : p ∈ s.heap.blocks) => driver.sync_eq_none command.function.name
        numbers (command.function.pointerList command.pointers) s.heap.rest s.server.driver p
        (OwnedHeap.rest_of_mem hp)
      simp only [Command.package, hsync, if_true, remote, runSync, Server.view, hnumbers,
        Option.elim_some, hmapping, Process.application, Application.return,
        OwnedHeap.rest_setRest hrest]
      split_ifs <;> rfl

end Owned

/-- The process with its copies is a queue of packages. -/
theorem process_refines : (processSystem m driver).Refines (remote m driver).system
    (Process.view m) some where
  init s hs := by
    obtain ⟨-, hpending, hwaiting⟩ := hs
    exact ⟨by simp [Process.view, hpending], hwaiting⟩
  skip _ _ _ _ _ h := by cases h
  step := by
    intro s event t _ hs hstep hevent
    obtain rfl := Option.some.inj hevent
    have h := owned_invariant.holds hs
    match event with
    | .client (.own memory) =>
      obtain ⟨hwaiting, hmemory, rfl⟩ := hstep
      refine ⟨hwaiting, ?_⟩
      have hpackages := h.map_package (s.heap.setRest memory) (fun _ hc => hc)
        fun p hp => OwnedHeap.memory_setRest (h.blocks p hp)
      simp only [Process.view, Process.application, hpackages, OwnedHeap.rest_setRest hmemory]
      rfl
    | .client (.call (f, args)) =>
      obtain ⟨hwaiting, hf, hvalid, addresses, heap, command, hinit, rfl⟩ := hstep
      have hinit := Function.init_initialised hf hvalid hinit
      have hpackages := h.map_package heap (fun _ hc => hc) fun p hp => by
        obtain ⟨bytes, hbytes⟩ := Option.isSome_iff_exists.mp (s.heap.mapped p (h.blocks p hp))
        rw [hbytes, hinit.memory p bytes hbytes]
      refine ⟨hwaiting, ⟨hf, hvalid⟩, command.package m heap, ?_, ?_⟩
      · cases hsync : f.isSynchronous with
        | true =>
          have hpointers := hinit.pointers hsync
          simp only [remote, Command.package, hinit.function, hinit.values, hsync, if_true,
            hpointers]
        | false =>
          have hcontents := hinit.contents hsync
          simp only [remote, Command.package, hinit.function, hinit.values, hsync,
            Bool.false_eq_true, if_false, hcontents]
          rfl
      · simp only [Process.view, Process.application, hinit.rest, List.map_append, hpackages]
        rfl
    | .serve =>
      obtain ⟨command, rest, heap, server, result, hpending, hhandle, rfl⟩ := hstep
      have hexec := h.exec_of_handle hpending hhandle
      obtain ⟨heap', server', result', hhandle', hfreed⟩ :=
        h.exists_handle driver hpending
      rw [hhandle] at hhandle'
      obtain ⟨rfl, -⟩ := Prod.mk.inj (Option.some.inj hhandle')
      obtain ⟨-, -, -, hapart⟩ := h.of_pending_cons hpending
      have hrest : ∀ command' ∈ rest, command' ∈ s.pending := fun command' hc =>
        hpending ▸ List.mem_cons_of_mem _ hc
      have hpackages := h.map_package heap hrest fun p hp => by
        obtain ⟨command', hc, hp'⟩ := List.mem_flatMap.mp hp
        exact hfreed.memory p (h.blocks p (Owned.mem_pendingBlocks (hrest command' hc) hp'))
          (hapart p hp)
      refine ⟨command.package m s.heap, rest.map (Command.package m s.heap), ?_, ?_⟩
      · rw [Process.view, hpending, List.map_cons]
      · simp only [Process.view] at hexec ⊢
        rw [hexec]
        simp [hpackages, Process.application]

/-- At any time, an application that does not wait has what it would have if the driver had been
called where the application made its calls. When nothing is pending, so has the server. -/
theorem run_direct {events : List (Remote.Event Memory (Function × Arguments))}
    (hs : (processSystem m driver).Init s) (hrun : (processSystem m driver).Run s events t)
    (hwaiting : t.waiting = false) :
    ∃ server, (events.filterMap Remote.Event.action?).foldl (remote m driver).act
        (s.application, s.server.view) = (t.application, server) ∧
      (t.pending = [] → server = t.server.view) := by
  have hdirect := (remote_faithful m driver).foldl_act process_refines hs hrun hwaiting
  rw [List.filterMap_some] at hdirect
  refine ⟨((remote m driver).settled (t.view m)).2, hdirect, fun hpending => ?_⟩
  rw [Remote.settled_of_pending (by simp [Process.view, hpending])]
  rfl

theorem run_direct_idle : ∃ server,
    (([.client (.call (glBindAttribLocation, oneLetter))] :
        List (Remote.Event Memory (Function × Arguments))).filterMap Remote.Event.action?).foldl
      (remote .lp64 idleDriver).act (idle.application, idle.server.view) =
      ((idleAfter glBindAttribLocation "name").application, server) ∧
    ((idleAfter glBindAttribLocation "name").pending = [] →
      server = (idleAfter glBindAttribLocation "name").server.view) :=
  run_direct ⟨rfl, rfl, rfl⟩ (.step .nil idle_step_glBindAttribLocation) rfl

end GpuProxy.Generator
