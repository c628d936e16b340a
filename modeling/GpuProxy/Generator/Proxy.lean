import GpuProxy.Generator.CommandLayout
import GpuProxy.Generator.Deferred
import GpuProxy.Protocol.Results

/-!
# The proxy as a whole

An application thread calls generated functions, and its server thread handles the commands. What
is between them is the ring: `client_dispatch_*` packs a command into the room that it has reserved
there, the handler loads the fields of the command that it finds, and the client loads the field
`result` when `client_run_command` has returned.

## Main definitions

* `commandOf` — the command that a handler finds
* `Proxy`, `Proxy.Move` — both threads with the ring, the memory and the driver
* `Proxy.process` — without the ring, the commands that are pending

## Main results

* `commandOf_call` — a command is what its fields say
-/

namespace GpuProxy.Generator

open Math Names

/-! ### Commands and their fields -/

/-- The command with the given fields. -/
def commandOf (f : Function) (numbers : List ℤ) : Command where
  function := f
  values := ⟨fun name =>
    ((f.args.zip numbers).find? fun p => p.1.name = name ∧ p.1.type.isPointer = false).elim 0
      (·.2), fun _ _ => 0⟩
  pointers name :=
    ((f.args.zip numbers).find? fun p => p.1.name = name ∧ p.1.type.isPointer = true).elim 0
      (·.2.toNat)

/-- The field `result`. -/
def Function.resultIn (f : Function) (payload : List UInt8) : Option ℤ :=
  (numbersOf f.fieldTypes (loadFields payload 0 f.fields)).getLast?

/-- The type of the field `result`. -/
def Function.resultType (f : Function) : TypeText := ⟨false, f.returnType, "", 0⟩

/-- The application passes what the function has arguments for. -/
structure Arguments.Proper (f : Function) (args : Arguments) : Prop where
  argument : ∀ name, args.values.argument name ≠ 0 →
    ∃ arg ∈ f.args, arg.name = name ∧ arg.type.isPointer = false
  call : args.values.call = fun _ _ => 0

/-- The entry that is found among the arguments and their numbers. -/
theorem find?_zip_map (left : List Argument) (number : Argument → ℤ) (found : Argument → Bool) :
    (left.zip (left.map number)).find? (fun p => found p.1) =
      (left.find? found).map fun arg => (arg, number arg) := by
  induction left with
  | nil => rfl
  | cons arg left ih =>
    rw [List.map_cons, List.zip_cons_cons, List.find?_cons, List.find?_cons]
    cases found arg with
    | true => rfl
    | false => exact ih

namespace Function

variable {m : DataModel} {f : Function} {args : Arguments} {addresses : String → ℕ}
  {heap heap' : Heap} {command : Command} {name : String}

/-- The statement for an argument sets no other field. -/
theorem initArgument_of_ne {arg : Argument} {s s' : Heap × (String → ℕ)}
    (h : f.initArgument m args addresses s arg = some s')
    (hname : arg.type.isPointer = true → name ≠ arg.name) : s'.2 name = s.2 name := by
  cases hpointer : arg.type.isPointer with
  | false =>
    rw [initArgument_number hpointer] at h
    obtain rfl := Option.some.inj h
    rfl
  | true =>
    rw [initArgument, if_pos hpointer] at h
    obtain ⟨field, -, h⟩ := Option.bind_eq_some_iff.mp h
    cases field with
    | assigned | null =>
      obtain rfl := Option.some.inj h
      exact Function.update_of_ne (hname hpointer) ..
    | block bytes =>
      obtain ⟨heap, -, h⟩ := Option.bind_eq_some_iff.mp h
      obtain rfl := Option.some.inj h
      exact Function.update_of_ne (hname hpointer) ..

theorem foldlM_initArgument_of_ne {left : List Argument} {s s' : Heap × (String → ℕ)}
    (h : left.foldlM (f.initArgument m args addresses) s = some s')
    (hname : ∀ arg ∈ left, arg.type.isPointer = true → name ≠ arg.name) :
    s'.2 name = s.2 name := by
  induction left generalizing s with
  | nil =>
    obtain rfl := Option.some.inj h
    rfl
  | cons arg left ih =>
    rw [List.foldlM_cons] at h
    obtain ⟨s₁, hfirst, hrest⟩ := Option.bind_eq_some_iff.mp h
    rw [ih hrest fun arg' harg' => hname arg' (List.mem_cons_of_mem _ harg')]
    exact initArgument_of_ne hfirst (hname arg List.mem_cons_self)

/-- The number of the argument with a name, where there is one. -/
theorem find?_elim {γ : Type} {pointer : Bool} {number : Argument → ℤ} {zero value : γ} (of : ℤ → γ)
    (hsome : ∀ arg ∈ f.args, arg.name = name → arg.type.isPointer = pointer →
      of (number arg) = value)
    (hnone : (∀ arg ∈ f.args, arg.name = name → arg.type.isPointer ≠ pointer) → zero = value) :
    ((f.args.zip (f.args.map number)).find?
      fun p => p.1.name = name ∧ p.1.type.isPointer = pointer).elim zero (fun p => of p.2) =
        value := by
  rw [find?_zip_map f.args number fun arg => arg.name = name ∧ arg.type.isPointer = pointer]
  cases hfound : f.args.find? fun arg => arg.name = name ∧ arg.type.isPointer = pointer with
  | none =>
    refine hnone fun arg harg hname hpointer => ?_
    have hnot := List.find?_eq_none.mp hfound arg harg
    simp [hname, hpointer] at hnot
  | some arg =>
    have hspec := List.find?_some hfound
    rw [decide_eq_true_eq] at hspec
    exact hsome arg (List.mem_of_find?_eq_some hfound) hspec.1 hspec.2

/-- A command is what its fields say, if the application passes nothing that has no field. -/
theorem commandOf_call (hargs : args.Proper f)
    (hinit : f.init m args addresses heap = some (heap', command)) :
    commandOf command.call.1 command.call.2 = command := by
  obtain ⟨rfl, hvalues, hfold⟩ := init_spec hinit
  obtain ⟨f, values, pointers⟩ := command
  obtain rfl : values = args.values := hvalues
  have hargument : ∀ name, (commandOf f (Command.call ⟨f, args.values, pointers⟩).2).values.argument
      name = args.values.argument name := by
    refine fun name => find?_elim id (fun arg _ hname hpointer => ?_) fun hnot => ?_
    · simp [hpointer, hname]
    · by_contra hne
      obtain ⟨arg, harg, hname, hpointer⟩ := hargs.argument name (Ne.symm hne)
      exact hnot arg harg hname hpointer
  have hpointers : ∀ name, (commandOf f (Command.call ⟨f, args.values, pointers⟩).2).pointers
      name = pointers name := by
    refine fun name => find?_elim Int.toNat (fun arg _ hname hpointer => ?_) fun hnot => ?_
    · simp [hpointer, hname]
    · have hother := foldlM_initArgument_of_ne hfold
        fun arg harg hpointer hname => hnot arg harg hname.symm hpointer
      exact hother.symm
  change (⟨f, ⟨(commandOf f _).values.argument, fun _ _ => 0⟩, (commandOf f _).pointers⟩ :
    Command) = ⟨f, args.values, pointers⟩
  rw [funext hargument, funext hpointers, ← hargs.call]

end Function

/-! ### Both threads -/

/-- An application and its server. -/
structure Proxy (D : Type) where
  calls : Protocol.Calls
  heap : Heap
  server : Server D
  /-- The handler that runs, and the value that it has for the field `result`. -/
  running : Option (Function × ℤ)
  /-- The value of the last call that had one. -/
  returned : Option ℤ
  /-- A record of the commands that were packed. -/
  sent : List Command
  /-- A record of the last value that a handler had for the field `result`. -/
  result : Option ℤ

/-- The application changes its memory, or calls a function. The server handles a command, and is
done with it. The client returns from a synchronous call. All else is of no concern here. -/
inductive ProxyEvent
  | own (memory : Memory)
  | call (call : Function × Arguments)
  | handle
  | finish
  | leave
  | other (step : Protocol.CallStep)

/-- The step of the threads. -/
def ProxyEvent.step? : ProxyEvent → Option Protocol.CallStep
  | .own _ => none
  | .call _ => some (.run .client)
  | .leave => some (.run .client)
  | .handle => some (.run .server)
  | .finish => some (.run .server)
  | .other step => some step

/-- What the event is without the ring. -/
def ProxyEvent.event? : ProxyEvent → Option (Remote.Event Memory (Function × Arguments))
  | .own memory => some (.client (.own memory))
  | .call (f, args) => some (.client (.call (f, args)))
  | .handle => some .serve
  | .finish => none
  | .leave => none
  | .other _ => none

/-- The step packs no command, runs no handler and ends no handler or synchronous call. -/
def IsPlain (s t : Protocol.State) : Protocol.CallStep → Prop
  | .run .client => (∀ r a, s.client ≠ .reserved r a) ∧
      ∀ token, s.client = .checking token → t.client ≠ .idle
  | .run .server => (∀ a, s.server ≠ .handling a) ∧ ∀ a, s.server ≠ .advancing a
  | .store _ _ => True

variable {D : Type}

/-- The steps. A handler may store into the fields of its command as it likes until it returns, and
then the field `result` has the value, converted to its type. -/
inductive Proxy.Move (functions : List Function) (driver : Driver D) (s : Proxy D) :
    ProxyEvent → Proxy D → Prop
  | own {memory : Memory} (hpc : s.calls.threads.client = .idle)
      (hmemory : ∀ p ∈ s.heap.blocks, memory p = none) :
      Move functions driver s (.own memory) { s with heap := s.heap.setRest memory }
  | call {f : Function} {args : Arguments} {r : Protocol.Request} {a : ℕ}
      {addresses : String → ℕ} {calls : Protocol.Calls} {heap : Heap} {command : Command}
      (hpc : s.calls.threads.client = .reserved r a)
      (hstep : s.calls.step (.run .client) = some calls) (hf : f.Generated)
      (hvalid : f.isSynchronous = false → args.Valid .lp64 f s.heap.rest) (hargs : args.Proper f)
      (hinit : f.init .lp64 args addresses s.heap = some (heap, command))
      (hencodes : Encodes functions command.call r) :
      Move functions driver s (.call (f, args))
        { s with calls := calls, heap := heap, sent := s.sent ++ [command] }
  | handle {a : ℕ} {calls : Protocol.Calls} {f : Function} {numbers : List ℤ} {heap : Heap}
      {server : Server D} {result : ℤ} (hpc : s.calls.threads.server = .handling a)
      (hstep : s.calls.step (.run .server) = some calls)
      (hcall : handlerCall functions (Protocol.commandAt s.calls.threads.buffer a).type
        (Protocol.commandAt s.calls.threads.buffer a).payload = some (f, numbers))
      (hhandle : (commandOf f numbers).handle .lp64 driver s.heap s.server =
        some (heap, server, result)) :
      Move functions driver s .handle { s with
        calls := calls, heap := heap, server := server
        running := some (f, result)
        result := if f.returnType = .void then s.result else some result }
  | finish {a : ℕ} {calls : Protocol.Calls} {f : Function} {result : ℤ}
      (hpc : s.calls.threads.server = .advancing a)
      (hstep : s.calls.step (.run .server) = some calls) (hrunning : s.running = some (f, result))
      (hresult : f.returnType ≠ .void →
        f.resultIn (Protocol.argumentsAt s.calls.threads.buffer a) =
          some (numberOf f.resultType (fieldValue f.resultType result))) :
      Move functions driver s .finish { s with calls := calls }
  | leave {token : ℕ} {calls : Protocol.Calls} {command : Command}
      (hpc : s.calls.threads.client = .checking token)
      (hstep : s.calls.step (.run .client) = some calls) (hleft : calls.threads.client = .idle)
      (hlast : s.sent.getLast? = some command) :
      Move functions driver s .leave { s with
        calls := calls
        returned := if command.function.returnType = .void then s.returned
          else command.function.resultIn
            (s.calls.threads.buffer.load (s.calls.command + Protocol.headerSize)
              (sizeofCommand command.function - Protocol.headerSize)) }
  | other {step : Protocol.CallStep} {calls : Protocol.Calls}
      (hstep : s.calls.step step = some calls)
      (hplain : IsPlain s.calls.threads calls.threads step) :
      Move functions driver s (.other step) { s with calls := calls }

/-- Every interleaving of both threads, for an application that makes the requests `todo`. -/
def proxySystem (length : ℕ) (todo : List Protocol.Request) (functions : List Function)
    (driver : Driver D) : System (Proxy D) ProxyEvent where
  Init s := (∃ memory, s.calls = ⟨Protocol.initial length memory todo, 0, []⟩) ∧
    s.heap.blocks = ∅ ∧ s.sent = [] ∧ s.running = none ∧ s.result = s.returned
  Step := Proxy.Move functions driver

/-- The steps keep the order of the tokens. -/
def KeepsOrder (s : Proxy D) (event : ProxyEvent) : Prop :=
  ∀ step ∈ event.step?, Protocol.KeepsCallOrder s.calls step

namespace Proxy

variable (s : Proxy D)

/-- The commands that no handler has got yet. -/
def pending : List Command := s.sent.drop s.calls.threads.ran.length

/-- What there is without the ring. -/
def process : Process D where
  heap := s.heap
  server := s.server
  pending := s.pending
  waiting := s.pending.getLast?.any (·.function.isSynchronous)
  returned := s.result

/-- What the application has. -/
def application : Application := ⟨s.heap.rest, s.returned⟩

end Proxy

end GpuProxy.Generator
