import GpuProxy.Math.TransitionSystem
import Mathlib.Data.List.Dedup
import Mathlib.Logic.Function.Basic

/-!
# The cached states of contexts

`cached_gl_states` is the list of the `egl_state_t` the clients keep for contexts, and
`contexts_sharing` a count that decides when `_caching_client_destroy_state` takes one
from the list and frees it. The entry points that make states, make them current and
destroy them are modelled for any number of clients, one per thread, and for every answer
of the driver.

A state is known by its address, and addresses are not used twice. It is freed when it
leaves the list; a call that reads a freed state has no result. An entry point does its
last work on the list in `_caching_client_destroy_state`, so it is given as the part
before and the state that is passed on. The loop of `eglTerminate` is taken one round at
a time, and no other call runs meanwhile, since the list's mutex is held.

## Main definitions

* `EglState`, `State` — `egl_state_t`, the list and the clients' `active_state`
* `destroyState` — `_caching_client_destroy_state`
* `Op`, `run`, `step` — the entry points
* `system` — all sequences of calls
-/

namespace GpuProxy.Contexts

open Math

/-- `egl_state_t`, as far as these entry points read it. -/
structure EglState where
  context : ℕ
  display : ℕ
  drawable : ℕ
  readable : ℕ
  shareContext : Option ℕ
  /-- A `size_t`. -/
  contextsSharing : BitVec 64
  active : Bool
  destroyDpy : Bool
  destroyCtx : Bool
  destroyRead : Bool
  destroyDraw : Bool
  deriving DecidableEq, Repr

/-- `EGL_NO_CONTEXT`, `EGL_NO_DISPLAY` and `EGL_NO_SURFACE`. -/
def eglNo : ℕ := 0

/-- `egl_state_init`. -/
def eglStateInit (display context : ℕ) : EglState where
  context := context
  display := display
  drawable := eglNo
  readable := eglNo
  shareContext := none
  contextsSharing := 0
  active := false
  destroyDpy := false
  destroyCtx := false
  destroyRead := false
  destroyDraw := false

/-- The loop of `eglTerminate`: its client and display, and the saved `list`. -/
structure Terminating where
  client : ℕ
  display : ℕ
  list : Option ℕ
  deriving DecidableEq, Repr

structure State where
  heap : ℕ → EglState
  /-- The address the next `malloc` returns. -/
  nextState : ℕ
  cachedGlStates : List ℕ
  /-- `active_state` of each client. -/
  activeState : ℕ → Option ℕ
  terminating : Option Terminating

namespace State

variable (s : State)

/-- Change one state in memory. -/
def update (x : ℕ) (f : EglState → EglState) : State :=
  { s with heap := Function.update s.heap x (f (s.heap x)) }

def decrement (e : EglState) : EglState :=
  { e with contextsSharing := e.contextsSharing - 1 }

def increment (e : EglState) : EglState :=
  { e with contextsSharing := e.contextsSharing + 1 }

/-- `_caching_client_destroy_state`. -/
def destroyState : ℕ → State → ℕ → Option State
  | 0, _, _ => none
  | fuel + 1, s, x =>
    if x ∉ s.cachedGlStates then none
    else
      let s := s.update x decrement
      if (s.heap x).contextsSharing > 0 then some s
      else do
        let s ← match (s.heap x).shareContext with
          | none => some s
          | some y => destroyState fuel (s.update y decrement) y
        return { s with cachedGlStates := s.cachedGlStates.erase x }

/-- `find_state_with_display_and_context`. -/
def find (display context : ℕ) : Option ℕ :=
  s.cachedGlStates.find? fun x => (s.heap x).context = context ∧ (s.heap x).display = display

/-- `_caching_client_get_or_create_state`. -/
def getOrCreate (display context : ℕ) : ℕ × State :=
  match s.find display context with
  | some x => (x, s)
  | none => (s.nextState, { s with
      heap := Function.update s.heap s.nextState (eglStateInit display context)
      nextState := s.nextState + 1
      cachedGlStates := s.cachedGlStates ++ [s.nextState] })

/-- The state a client leaves, without its surfaces that were destroyed meanwhile. -/
def deactivate (e : EglState) : EglState :=
  { e with
    active := false
    readable := if e.destroyRead then eglNo else e.readable
    drawable := if e.destroyDraw then eglNo else e.drawable }

/-- The first part of `_caching_client_make_current`: `new_state`, with its surfaces. -/
def enter (display drawable readable context : ℕ) : Option ℕ × State :=
  if context ≠ eglNo ∧ display ≠ eglNo then
    let (x, s) := s.getOrCreate display context
    (some x, s.update x fun e =>
      { e with drawable := drawable, readable := readable, active := true })
  else (none, s)

/-- The second part: the client switches to `new_state`. -/
def switch (client : ℕ) (newState : Option ℕ) : Option (State × Option ℕ) :=
  let currentState := s.activeState client
  if currentState = newState then some (s, none)
  else
    let s := { s with activeState := Function.update s.activeState client newState }
    match currentState with
    | none => some (s, none)
    | some x =>
      if x ∉ s.cachedGlStates then none
      else
        let s := s.update x deactivate
        if (s.heap x).destroyDpy ∨ (s.heap x).destroyCtx then some (s, some x) else some (s, none)

/-- `_caching_client_make_current`, up to the call of `_caching_client_destroy_state`. -/
def makeCurrent (client display drawable readable context : ℕ) : Option (State × Option ℕ) :=
  let (newState, s) := s.enter display drawable readable context
  s.switch client newState

/-- `caching_client_eglCreateContext`, when the driver returns `result`. -/
def eglCreateContext (display shareContext result : ℕ) : State :=
  if result = eglNo then s
  else if shareContext ≠ eglNo then
    let (x, s) := s.getOrCreate display result
    let (y, s) := s.getOrCreate display shareContext
    (s.update x fun e => { e with shareContext := some y }).update y increment
  else s

/-- `caching_client_eglMakeCurrent`. `surfaces` is whether both surfaces are known for the
display, and `answer` what the driver returns when it is waited for. -/
def eglMakeCurrent (client display draw read context : ℕ) (surfaces answer : Bool) :
    Option (State × Option ℕ) :=
  match s.activeState client with
  | none =>
    if display = eglNo ∨ context = eglNo then some (s, none)
    else if answer then s.makeCurrent client display draw read context
    else some (s, none)
  | some x =>
    if x ∉ s.cachedGlStates then none
    else
      let e := s.heap x
      let displayAndContextMatch := e.display = display ∧ e.context = context
      if displayAndContextMatch ∧ e.drawable = draw ∧ e.readable = read then some (s, none)
      else if displayAndContextMatch ∧ surfaces then
        s.makeCurrent client display draw read context
      else if answer then s.makeCurrent client display draw read context
      else some (s, none)

/-- `caching_client_eglReleaseThread`. -/
def eglReleaseThread (client : ℕ) (answer : Bool) : Option (State × Option ℕ) :=
  if answer then s.makeCurrent client eglNo eglNo eglNo eglNo else some (s, none)

/-- `caching_client_eglDestroyContext`. -/
def eglDestroyContext (display context : ℕ) (answer : Bool) : State × Option ℕ :=
  if answer then
    match s.find display context with
    | none => (s, none)
    | some x =>
      if (s.heap x).active then (s.update x fun e => { e with destroyCtx := true }, none)
      else (s, some x)
  else (s, none)

/-- The body of the loop of `_caching_client_destroy_surface`. -/
def markSurface (surface : ℕ) (e : EglState) : EglState :=
  let e := { e with
    destroyRead := e.destroyRead || e.readable = surface
    destroyDraw := e.destroyDraw || e.drawable = surface }
  if e.active then e
  else { e with
    readable := if e.readable = surface ∧ e.destroyRead then eglNo else e.readable
    drawable := if e.drawable = surface ∧ e.destroyDraw then eglNo else e.drawable }

/-- `caching_client_eglDestroySurface`. -/
def eglDestroySurface (client display surface : ℕ) (answer : Bool) : State :=
  if (s.activeState client).isSome ∧ answer then
    { s with heap := fun x =>
        if x ∈ s.cachedGlStates ∧ (s.heap x).display = display then markSurface surface (s.heap x)
        else s.heap x }
  else s

/-- `caching_client_eglTerminate`, up to the loop. -/
def eglTerminate (client display : ℕ) (answer : Bool) : State :=
  if answer ∧ s.cachedGlStates ≠ [] then
    { s with terminating := some ⟨client, display, s.cachedGlStates.head?⟩ }
  else s

/-- The state behind `x` in the list. -/
def nextInList (x : ℕ) : Option ℕ := (s.cachedGlStates.dropWhile (· ≠ x)).tail.head?

/-- A round of the loop of `caching_client_eglTerminate`, and what follows the last one. -/
def terminateRound (l : Terminating) : Option (State × Option ℕ) :=
  match l.list with
  | some x =>
    if x ∉ s.cachedGlStates then none
    else
      let s := { s with terminating := some { l with list := s.nextInList x } }
      if (s.heap x).display = l.display ∧ (s.heap x).active = false then some (s, some x)
      else some (s, none)
  | none =>
    let s := { s with terminating := none }
    match s.activeState l.client with
    | some x =>
      if x ∉ s.cachedGlStates then none
      else if (s.heap x).display = l.display then
        some (s.update x fun e => { e with destroyDpy := true }, none)
      else some (s, none)
    | none => some (s, none)

end State

/-- The calls of the clients, with the driver's answers, and the rounds of `eglTerminate`. -/
inductive Op
  | eglCreateContext (display shareContext result : ℕ)
  | eglMakeCurrent (client display draw read context : ℕ) (surfaces answer : Bool)
  | eglReleaseThread (client : ℕ) (answer : Bool)
  | eglDestroyContext (display context : ℕ) (answer : Bool)
  | eglDestroySurface (client display surface : ℕ) (answer : Bool)
  | eglTerminate (client display : ℕ) (answer : Bool)
  | terminateRound
  deriving DecidableEq, Repr

/-- A call, up to its call of `_caching_client_destroy_state`: the state then, and the
state to be destroyed, if there is one. -/
def run (s : State) (op : Op) : Option (State × Option ℕ) :=
  match s.terminating, op with
  | none, .eglCreateContext display shareContext result =>
    some (s.eglCreateContext display shareContext result, none)
  | none, .eglMakeCurrent client display draw read context surfaces answer =>
    s.eglMakeCurrent client display draw read context surfaces answer
  | none, .eglReleaseThread client answer => s.eglReleaseThread client answer
  | none, .eglDestroyContext display context answer =>
    some (s.eglDestroyContext display context answer)
  | none, .eglDestroySurface client display surface answer =>
    some (s.eglDestroySurface client display surface answer, none)
  | none, .eglTerminate client display answer =>
    some (s.eglTerminate client display answer, none)
  | some l, .terminateRound => s.terminateRound l
  | _, _ => none

/-- The call of `_caching_client_destroy_state`, with as many levels as there are states. -/
def finish : State × Option ℕ → Option State
  | (s, none) => some s
  | (s, some x) => s.destroyState (s.nextState + 1) x

def step (s : State) (op : Op) : Option State := (run s op).bind finish

/-- No states, and no client with a context. -/
def initial : State where
  heap _ := eglStateInit eglNo eglNo
  nextState := 0
  cachedGlStates := []
  activeState _ := none
  terminating := none

/-- All sequences of calls, with all answers of the driver. -/
def system : System State Op := System.ofStep (· = initial) step

end GpuProxy.Contexts
