import GpuProxy.Generator.Handlers
import GpuProxy.Math.DeferredCalls

/-!
# Who frees the copies

A client calls generated functions, and the server handles the commands later, in a memory that
both share. Every copy belongs to one command until the command was handled, and is freed then.
When a name is missing the handler does not free the copies, and nobody does after it. The cells of
`name_mapping`, which handlers allocate for the names they create, are not copies and are not
counted.

## Main definitions

* `Process`, `processSystem` — an application, the commands that are pending, and the server
* `Owned` — every pending command has blocks of its own

## Main results

* `owned_invariant` — what is pending can be handled, and all that is freed was allocated
* `exists_serve` — no handler is stuck
* `owned_or_lost` — a copy is freed when its command is handled, or never
* `blocks_eq_of_guarded` — without commands that may lose a copy, all copies are of those pending
-/

namespace GpuProxy.Generator

open Math Names

/-- A client and the server, in one memory. -/
structure Process (D : Type) where
  heap : Heap
  server : Server D
  /-- The commands that were sent, and not yet handled. -/
  pending : List Command
  /-- The application waits in a synchronous call. -/
  waiting : Bool
  /-- The value of the last synchronous call that had one. -/
  returned : Option ℤ

variable {D : Type}

/-- The blocks of all pending commands. -/
def Process.pendingBlocks (s : Process D) : List ℕ := s.pending.flatMap Command.owned

/-- The client calls generated functions with what is in its memory. An application that waits
does nothing else, and it knows nothing of the copies. -/
def processSystem (m : DataModel) (driver : Driver D) :
    System (Process D) (Remote.Event Memory (Function × Arguments)) where
  Init s := s.heap.blocks = ∅ ∧ s.pending = [] ∧ s.waiting = false
  Step
    | s, .client (.own memory), t => s.waiting = false ∧ (∀ p ∈ s.heap.blocks, memory p = none) ∧
        t = { s with heap := s.heap.setRest memory }
    | s, .client (.call (f, args)), t => s.waiting = false ∧ f.Generated ∧
        (f.isSynchronous = false → args.Valid m f s.heap.rest) ∧
        ∃ addresses heap command, f.init m args addresses s.heap = some (heap, command) ∧
          t = { s with
                heap := heap
                pending := s.pending ++ [command]
                waiting := f.isSynchronous }
    | s, .serve, t => ∃ command rest heap server result, s.pending = command :: rest ∧
        command.handle m driver s.heap s.server = some (heap, server, result) ∧
        t = { heap := heap
              server := server
              pending := rest
              waiting := s.waiting && !rest.isEmpty
              returned := if command.function.returnType = .void then s.returned
                else some result }

/-- Every pending command has blocks of its own, with what its handler will read. -/
structure Owned (m : DataModel) (s : Process D) : Prop where
  generated : ∀ command ∈ s.pending, command.function.Generated
  nodup : s.pendingBlocks.Nodup
  blocks : ∀ p ∈ s.pendingBlocks, p ∈ s.heap.blocks
  contents : ∀ command ∈ s.pending, command.function.isSynchronous = false →
    (command.function.contents m command.values s.heap.memory command.pointers).isSome

variable {m : DataModel} {driver : Driver D} {s t : Process D} {command : Command}
  {rest : List Command} {p : ℕ}

namespace Owned

theorem mem_pendingBlocks (hcommand : command ∈ s.pending) (hp : p ∈ command.owned) :
    p ∈ s.pendingBlocks := List.mem_flatMap.mpr ⟨command, hcommand, hp⟩

/-- A pending command finds the same in memory that agrees on the blocks of commands. -/
theorem contents_eq (h : Owned m s) {memory : Memory}
    (hmemory : ∀ p ∈ s.pendingBlocks, memory p = s.heap.memory p) (hcommand : command ∈ s.pending)
    (hasync : command.function.isSynchronous = false) :
    command.function.contents m command.values memory command.pointers =
      command.function.contents m command.values s.heap.memory command.pointers :=
  Command.contents_eq_of_owned (h.generated command hcommand) hasync fun p hp =>
    hmemory p (mem_pendingBlocks hcommand hp)

theorem contents_isSome (h : Owned m s) {memory : Memory}
    (hmemory : ∀ p ∈ s.pendingBlocks, memory p = s.heap.memory p) (hcommand : command ∈ s.pending)
    (hasync : command.function.isSynchronous = false) :
    (command.function.contents m command.values memory command.pointers).isSome := by
  rw [h.contents_eq hmemory hcommand hasync]
  exact h.contents command hcommand hasync

/-- The first command in the queue, and those behind it. -/
theorem of_pending_cons (h : Owned m s) (hpending : s.pending = command :: rest) :
    command.function.Generated ∧ command.owned.Nodup ∧
      (∀ p ∈ command.owned, p ∈ s.heap.blocks) ∧
      ∀ p ∈ rest.flatMap Command.owned, p ∉ command.owned := by
  have hcommand : command ∈ s.pending := hpending ▸ List.mem_cons_self
  have hnodup := h.nodup
  rw [Process.pendingBlocks, hpending, List.flatMap_cons, List.nodup_append] at hnodup
  refine ⟨h.generated command hcommand, hnodup.1,
    fun p hp => h.blocks p (mem_pendingBlocks hcommand hp), fun p hrest hp => ?_⟩
  exact hnodup.2.2 p hp p hrest rfl

end Owned

/-- What a handler does to memory. -/
structure Freed (heap heap' : Heap) (command : Command) (server : Server D) : Prop where
  memory : ∀ q ∈ heap.blocks, q ∉ command.owned → heap'.memory q = heap.memory q
  blocks : heap'.blocks = if (command.numbers? (hashLookup server.nameMapping)).isSome then
    heap.blocks \ command.owned.toFinset else heap.blocks

/-- The first command in the queue is handled. -/
theorem Owned.exists_handle (driver : Driver D) (h : Owned m s)
    (hpending : s.pending = command :: rest) :
    ∃ heap server result, command.handle m driver s.heap s.server = some (heap, server, result) ∧
      Freed s.heap heap command s.server := by
  obtain ⟨hf, hnodup, hblocks, -⟩ := h.of_pending_cons hpending
  have hcommand : command ∈ s.pending := hpending ▸ List.mem_cons_self
  cases hsync : command.function.isSynchronous with
  | false =>
    obtain ⟨contents, hcontents⟩ :=
      Option.isSome_iff_exists.mp (h.contents command hcommand hsync)
    obtain ⟨heap, mapping, hhandle, -, -, hmemory, hblocks'⟩ :=
      Command.handle_of_async driver s.server hf hsync hblocks hnodup hcontents
    exact ⟨heap, _, _, hhandle, fun q _ hq => hmemory q hq, hblocks'⟩
  | true =>
    have howned : command.owned = [] := by
      simp [Command.owned, Function.needsDestructor, hsync]
    obtain ⟨mapping, hhandle, -⟩ := Command.handle_of_sync m driver s.heap s.server hsync
    cases hnumbers : command.numbers? (hashLookup s.server.nameMapping) with
    | none =>
      rw [hnumbers] at hhandle
      exact ⟨_, _, _, hhandle, fun _ _ _ => rfl, by simp [hnumbers]⟩
    | some numbers =>
      rw [hnumbers] at hhandle
      refine ⟨_, _, _, hhandle, fun q hq _ => OwnedHeap.memory_setRest hq, ?_⟩
      rw [howned]
      simp

/-- The steps of a process, from a state in which the commands have blocks of their own. -/
theorem Owned.step_cases {event : Remote.Event Memory (Function × Arguments)} (h : Owned m s)
    (hstep : (processSystem m driver).Step s event t) :
    (t.pending = s.pending ∧ ∃ memory, (∀ p ∈ s.heap.blocks, memory p = none) ∧
        t.heap = s.heap.setRest memory) ∨
      (∃ f args command, event = .client (.call (f, args)) ∧ f.Generated ∧
        (f.isSynchronous = false → args.Valid m f s.heap.rest) ∧
        f.Initialised m args s.heap t.heap command ∧ t.pending = s.pending ++ [command]) ∨
      ∃ command, s.pending = command :: t.pending ∧ Freed s.heap t.heap command s.server := by
  match event with
  | .client (.own memory) =>
    obtain ⟨-, hmemory, rfl⟩ := hstep
    exact .inl ⟨rfl, memory, hmemory, rfl⟩
  | .client (.call (f, args)) =>
    obtain ⟨-, hf, hvalid, addresses, heap, command, hinit, rfl⟩ := hstep
    exact .inr (.inl ⟨f, args, command, rfl, hf, hvalid,
      Function.init_initialised hf hvalid hinit, rfl⟩)
  | .serve =>
    obtain ⟨command, rest, heap, server, result, hpending, hhandle, rfl⟩ := hstep
    obtain ⟨heap', server', result', hhandle', hfreed⟩ := h.exists_handle driver hpending
    rw [hhandle] at hhandle'
    obtain ⟨rfl, -⟩ := Prod.mk.inj (Option.some.inj hhandle')
    exact .inr (.inr ⟨command, hpending, hfreed⟩)

/-- What is pending can be handled, and the blocks that handlers free are different and were
allocated for them. -/
theorem owned_invariant : (processSystem m driver).Invariant (Owned m) where
  init s hs := by
    obtain ⟨-, hpending, -⟩ := hs
    constructor <;> simp [Process.pendingBlocks, hpending]
  step := by
    intro s event t _ h hstep
    obtain ⟨hpending, memory, -, hheap⟩ | ⟨f, args, command, -, hf, hvalid, hinit, hpending⟩ |
      ⟨command, hpending, hfreed⟩ := h.step_cases hstep
    -- The application writes to memory of its own.
    · have hblocks : t.pendingBlocks = s.pendingBlocks := by
        rw [Process.pendingBlocks, hpending, Process.pendingBlocks]
      refine ⟨hpending ▸ h.generated, hblocks ▸ h.nodup, fun p hp => ?_,
        fun command hc hasync => ?_⟩
      · rw [hheap]
        exact h.blocks p (hblocks ▸ hp)
      · refine h.contents_isSome (fun p hp => ?_) (hpending ▸ hc) hasync
        rw [hheap]
        exact OwnedHeap.memory_setRest (h.blocks p hp)
    -- A command is packed: its copies are new blocks.
    · have hblocks : t.pendingBlocks = s.pendingBlocks ++ command.owned := by
        rw [Process.pendingBlocks, hpending, List.flatMap_append, Process.pendingBlocks,
          List.flatMap_singleton]
      have hcommand : command ∈ t.pending := by simp [hpending]
      constructor
      · intro command' hc
        rw [hpending] at hc
        obtain hc | hc := List.mem_append.mp hc
        · exact h.generated command' hc
        · rw [List.mem_singleton.mp hc, hinit.function]
          exact hf
      · rw [hblocks, List.nodup_append]
        refine ⟨h.nodup, hinit.nodup, fun p hp p' hp' => ?_⟩
        rintro rfl
        exact hinit.fresh p hp' (h.blocks p hp)
      · intro p hp
        rw [hblocks] at hp
        rw [hinit.blocks, Finset.mem_union, List.mem_toFinset]
        exact (List.mem_append.mp hp).imp_left (h.blocks p)
      · intro command' hc hasync
        rw [hpending] at hc
        obtain hc | hc := List.mem_append.mp hc
        · refine h.contents_isSome (fun p hp => ?_) hc hasync
          obtain ⟨bytes, hbytes⟩ := Option.isSome_iff_exists.mp (s.heap.mapped p (h.blocks p hp))
          rw [hbytes, hinit.memory p bytes hbytes]
        · obtain rfl := List.mem_singleton.mp hc
          rw [hinit.function] at hasync ⊢
          rw [hinit.values, hinit.contents hasync]
          exact (hvalid hasync).contents
    -- A command is handled: what is freed belongs to no command behind it.
    · obtain ⟨-, -, -, hapart⟩ := h.of_pending_cons hpending
      have hblocks : s.pendingBlocks = command.owned ++ t.pendingBlocks := by
        rw [Process.pendingBlocks, hpending, List.flatMap_cons, Process.pendingBlocks]
      have hmem : ∀ p ∈ t.pendingBlocks, p ∈ s.heap.blocks := fun p hp =>
        h.blocks p (hblocks ▸ List.mem_append_right _ hp)
      have hnodup := h.nodup
      rw [hblocks] at hnodup
      have hrest : ∀ command' ∈ t.pending, command' ∈ s.pending := fun command' hc =>
        hpending ▸ List.mem_cons_of_mem _ hc
      refine ⟨fun command' hc => h.generated command' (hrest command' hc), hnodup.of_append_right,
        fun p hp => ?_, fun command' hc hasync => ?_⟩
      · rw [hfreed.blocks]
        split_ifs
        · rw [Finset.mem_sdiff, List.mem_toFinset]
          exact ⟨hmem p hp, hapart p hp⟩
        · exact hmem p hp
      · have hcontents : command'.function.contents m command'.values t.heap.memory
              command'.pointers =
            command'.function.contents m command'.values s.heap.memory command'.pointers := by
          refine Command.contents_eq_of_owned (h.generated command' (hrest command' hc)) hasync ?_
          intro p hp
          have hp : p ∈ t.pendingBlocks := Owned.mem_pendingBlocks hc hp
          exact hfreed.memory p (hmem p hp) (hapart p hp)
        rw [hcontents]
        exact h.contents command' (hrest command' hc) hasync

/-! ### A call that is pending -/

/-- A string of one letter, which all pointers point to. -/
def oneLetter : Arguments := ⟨⟨fun _ => 1, fun _ _ => 0⟩, fun _ => 8⟩

/-- A driver that does nothing. -/
def idleDriver : Driver Unit where
  async _ _ _ d := d
  sync _ _ _ w := (w.1, w.2, 0)
  sync_eq_none _ _ _ _ _ _ h := h

def idle : Process Unit where
  heap := .ofRest fun p => if p = 8 then some [97, 0] else none
  server := ⟨newHashTable, ()⟩
  pending := []
  waiting := false
  returned := none

/-- The string was copied. -/
def idleAfter (f : Function) (name : String) : Process Unit :=
  { idle with
    heap := (idle.heap.malloc 16 [97, 0]).getD idle.heap
    pending := [⟨f, oneLetter.values, Function.update (fun _ => 0) name 16⟩] }

theorem idle_step_glBindAttribLocation : (processSystem .lp64 idleDriver).Step idle
    (.client (.call (glBindAttribLocation, oneLetter))) (idleAfter glBindAttribLocation "name") :=
  ⟨rfl, glBindAttribLocation_generated, fun _ => ⟨fun _ _ => valuesInRange_const, by decide, rfl⟩,
    fun _ => 16, _, _, rfl, rfl⟩

theorem idle_step_glPushGroupMarkerEXT : (processSystem .lp64 idleDriver).Step idle
    (.client (.call (glPushGroupMarkerEXT, oneLetter)))
    (idleAfter glPushGroupMarkerEXT "marker") :=
  ⟨rfl, glPushGroupMarkerEXT_generated, fun _ => ⟨fun _ _ => valuesInRange_const, by decide, rfl⟩,
    fun _ => 16, _, _, rfl, rfl⟩

theorem idleAfter_reachable : (processSystem .lp64 idleDriver).Reachable
    (idleAfter glBindAttribLocation "name") :=
  .step (.init ⟨rfl, rfl, rfl⟩) idle_step_glBindAttribLocation

/-! ### What becomes of the copies -/

/-- The server always goes on: no handler reads or frees what is not there. -/
theorem exists_serve (hs : (processSystem m driver).Reachable s) (hpending : s.pending ≠ []) :
    ∃ t, (processSystem m driver).Step s .serve t := by
  have howned := owned_invariant.holds hs
  obtain ⟨command, rest, hpending⟩ := List.exists_cons_of_ne_nil hpending
  obtain ⟨heap, server, result, hhandle, -⟩ := howned.exists_handle driver hpending
  exact ⟨_, command, rest, heap, server, result, hpending, hhandle, rfl⟩

theorem exists_serve_idleAfter : ∃ t, (processSystem .lp64 idleDriver).Step
    (idleAfter glBindAttribLocation "name") .serve t :=
  exists_serve idleAfter_reachable (List.cons_ne_nil _ _)

/-- No pending command has the block. -/
def Lost (p : ℕ) (s : Process D) : Prop := p ∈ s.heap.blocks ∧ p ∉ s.pendingBlocks

/-- Nothing is done with a block that no command has. -/
theorem Lost.step {event : Remote.Event Memory (Function × Arguments)} (h : Owned m s)
    (hlost : Lost p s) (hstep : (processSystem m driver).Step s event t) : Lost p t := by
  obtain ⟨hp, hnot⟩ := hlost
  obtain ⟨hpending, memory, -, hheap⟩ | ⟨f, args, command, -, -, -, hinit, hpending⟩ |
    ⟨command, hpending, hfreed⟩ := h.step_cases hstep
  · refine ⟨?_, ?_⟩
    · rw [hheap]
      exact hp
    · rwa [Process.pendingBlocks, hpending]
  · refine ⟨?_, ?_⟩
    · rw [hinit.blocks]
      exact Finset.mem_union_left _ hp
    · rw [Process.pendingBlocks, hpending, List.flatMap_append, List.flatMap_singleton,
        List.mem_append, not_or]
      exact ⟨hnot, fun hnew => hinit.fresh p hnew hp⟩
  · rw [Process.pendingBlocks, hpending, List.flatMap_cons, List.mem_append, not_or] at hnot
    refine ⟨?_, hnot.2⟩
    rw [hfreed.blocks]
    split_ifs
    · rw [Finset.mem_sdiff, List.mem_toFinset]
      exact ⟨hp, hnot.1⟩
    · exact hp

theorem Lost.run {events : List (Remote.Event Memory (Function × Arguments))} {u : Process D}
    (ht : (processSystem m driver).Reachable t) (hlost : Lost p t)
    (hrun : (processSystem m driver).Run t events u) : Lost p u := by
  induction hrun with
  | nil => exact hlost
  | step hrun hstep ih => exact ih.step (owned_invariant.holds (hrun.reachable ht)) hstep

/-- When a command is handled, its copies are freed if its names are found, and otherwise they
are never freed. -/
theorem freed_or_lost (hs : (processSystem m driver).Reachable s)
    (hpending : s.pending = command :: rest) (hstep : (processSystem m driver).Step s .serve t)
    (hp : p ∈ command.owned) :
    if (command.numbers? (hashLookup s.server.nameMapping)).isSome then p ∉ t.heap.blocks
    else ∀ events u, (processSystem m driver).Run t events u → Lost p u := by
  have howned := owned_invariant.holds hs
  obtain ⟨-, -, hblocks, hapart⟩ := howned.of_pending_cons hpending
  have hfreed : Freed s.heap t.heap command s.server ∧ t.pending = rest := by
    obtain ⟨command', rest', heap, server, result, hpending', hhandle, rfl⟩ := hstep
    obtain ⟨rfl, rfl⟩ := List.cons.inj (hpending.symm.trans hpending')
    obtain ⟨heap', server', result', hhandle', hfreed⟩ :=
      howned.exists_handle driver hpending
    rw [hhandle] at hhandle'
    obtain ⟨rfl, -⟩ := Prod.mk.inj (Option.some.inj hhandle')
    exact ⟨hfreed, rfl⟩
  obtain ⟨hfreed, hrest⟩ := hfreed
  have ht := hs.step hstep
  have hblocks' := hfreed.blocks
  split_ifs at hblocks' ⊢ with hnumbers
  · rw [hblocks', Finset.mem_sdiff, List.mem_toFinset, not_and_not_right]
    exact fun _ => hp
  · refine fun events u hrun => Lost.run ht ⟨?_, ?_⟩ hrun
    · rw [hblocks']
      exact hblocks p hp
    · rw [Process.pendingBlocks, hrest]
      exact fun hrest => hapart p hrest hp

/-- The program that the name is bound for is not known. -/
theorem exists_lost : ∃ t, (processSystem .lp64 idleDriver).Step
      (idleAfter glBindAttribLocation "name") .serve t ∧
    ∀ events u, (processSystem .lp64 idleDriver).Run t events u → Lost 16 u := by
  obtain ⟨heap, server, result, hhandle, -⟩ :=
    (owned_invariant.holds idleAfter_reachable).exists_handle idleDriver rfl
  have hstep : (processSystem .lp64 idleDriver).Step (idleAfter glBindAttribLocation "name") .serve
      _ := ⟨_, _, heap, server, result, rfl, hhandle, rfl⟩
  have hlost := freed_or_lost idleAfter_reachable rfl hstep (p := 16) (by decide)
  rw [if_neg (by decide)] at hlost
  exact ⟨_, hstep, hlost⟩

/-- A function with copies, and names that may be missing. -/
def Function.MayLose (f : Function) : Prop :=
  f.needsDestructor = true ∧ f.pointerArgs ≠ [] ∧ f.getMappedNameAttributes ≠ []

/-- The application calls no function that may lose a copy. -/
def LosesNone (_ : Process D) (event : Remote.Event Memory (Function × Arguments)) : Prop :=
  ∀ f args, event = .client (.call (f, args)) → ¬f.MayLose

theorem Command.numbers?_of_owned (hlose : ¬command.function.MayLose) (hp : p ∈ command.owned)
    {mapping : ℕ → Option ℕ} : (command.numbers? mapping).isSome := by
  rw [owned] at hp
  split_ifs at hp with hdestructor
  · have hpointers : command.function.pointerArgs ≠ [] := by
      rintro hnil
      rw [blocks, Function.pointerList, hnil] at hp
      cases hp
    have hnames : command.function.getMappedNameAttributes = [] := by
      by_contra hnames
      exact hlose ⟨hdestructor, hpointers, hnames⟩
    rw [numbers?, hnames]
    rfl
  · cases hp

/-- Without such functions, every copy that is allocated belongs to a command that is pending. -/
theorem blocks_eq_of_guarded (hs : ((processSystem m driver).guarded LosesNone).Reachable s) :
    s.heap.blocks = s.pendingBlocks.toFinset := by
  have hinvariant : ((processSystem m driver).guarded LosesNone).Invariant fun s =>
      (∀ command ∈ s.pending, ¬command.function.MayLose) ∧
        ∀ p ∈ s.heap.blocks, p ∈ s.pendingBlocks := by
    refine ⟨fun s hs => ?_, fun s event t hs h hstep => ?_⟩
    · obtain ⟨hblocks, hpending, -⟩ := hs
      simp [hblocks, hpending]
    · have howned := owned_invariant.holds (System.Reachable.of_guarded hs)
      obtain ⟨hlose, hmem⟩ := h
      obtain ⟨hguard, hstep⟩ := hstep
      obtain ⟨hpending, memory, -, hheap⟩ | ⟨f, args, command, hevent, -, -, hinit, hpending⟩ |
        ⟨command, hpending, hfreed⟩ := howned.step_cases hstep
      · refine ⟨hpending ▸ hlose, fun p hp => ?_⟩
        rw [hheap] at hp
        rw [Process.pendingBlocks, hpending]
        exact hmem p hp
      · constructor
        · intro command' hc
          rw [hpending] at hc
          obtain hc | hc := List.mem_append.mp hc
          · exact hlose command' hc
          · rw [List.mem_singleton.mp hc, hinit.function]
            exact hguard f args hevent
        · intro p hp
          rw [hinit.blocks, Finset.mem_union, List.mem_toFinset] at hp
          rw [Process.pendingBlocks, hpending, List.flatMap_append, List.flatMap_singleton]
          exact List.mem_append.mpr (hp.imp_left (hmem p))
      · refine ⟨fun command' hc => hlose command' (hpending ▸ List.mem_cons_of_mem _ hc), ?_⟩
        -- Its names are all mapped, so the handler comes to the end and frees the copies.
        have hlose := hlose command (hpending ▸ List.mem_cons_self)
        intro p hp
        have hold : p ∈ s.heap.blocks ∧ p ∉ command.owned := by
          rw [hfreed.blocks] at hp
          split_ifs at hp with hnumbers
          · rwa [Finset.mem_sdiff, List.mem_toFinset] at hp
          · exact ⟨hp, fun hmem => hnumbers (Command.numbers?_of_owned hlose hmem)⟩
        have hp := hmem p hold.1
        rw [Process.pendingBlocks, hpending, List.flatMap_cons] at hp
        exact (List.mem_append.mp hp).resolve_left hold.2
  have howned := owned_invariant.holds (System.Reachable.of_guarded hs)
  ext p
  rw [List.mem_toFinset]
  exact ⟨(hinvariant.holds hs).2 p, howned.blocks p⟩

theorem blocks_eq_idleAfter : (idleAfter glPushGroupMarkerEXT "marker").heap.blocks =
    (idleAfter glPushGroupMarkerEXT "marker").pendingBlocks.toFinset := by
  have hguard : LosesNone idle (.client (.call (glPushGroupMarkerEXT, oneLetter))) := by
    rintro f args heq ⟨-, -, hnames⟩
    simp only [Remote.Event.client.injEq, Remote.Action.call.injEq, Prod.mk.injEq] at heq
    rw [← heq.1] at hnames
    exact hnames rfl
  exact blocks_eq_of_guarded
    (.step (.init (S := (processSystem .lp64 idleDriver).guarded LosesNone) ⟨rfl, rfl, rfl⟩)
      ⟨hguard, idle_step_glPushGroupMarkerEXT⟩)

end GpuProxy.Generator
