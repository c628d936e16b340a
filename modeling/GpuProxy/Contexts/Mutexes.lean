import GpuProxy.Math.Locks
import Mathlib.Data.Fintype.EquivFin
import Mathlib.Data.Set.Insert

/-!
# The mutexes

Threads of the application share the cached states and the list of displays, and the threads of
their servers share `name_mapping`. Here are, for the entry points of EGL, the handlers and all
others that lock a mutex, all ways through them: what is locked, what is read and written, and
where the driver is called or the server waited for. Data decide which way is taken; here any may
be. The entry points of GL lock nothing and are not here: they work on the current state.

Most accesses are made under the mutex of the data. Some are not: `eglGetDisplay` looks for the
display before it locks, `eglMakeCurrent` looks for the surfaces under the other mutex, several
functions read the current state without a mutex, though another thread may destroy it,
`eglDestroySurface` loads the head of the list before it locks, and a handler uses what it has
looked up, and enters a name that is missing, after it has unlocked. Data are taken as a whole:
two threads that meet at the states need not be at the same state.

## Main definitions

* `Mutex`, `Shared` — the mutexes, and what they guard
* `EntryPoint`, `ways` — the functions, and the ways through them
* `bareAccesses` — the accesses without the mutex

## Main results

* `leads_ways` — every way unlocks what it locks, in order, and calls nothing meanwhile
* `exists_lock_of_waiting` — no deadlock
* `mem_bareAccesses_of_meet` — threads meet at the same data only by one of these accesses
* `bareAccesses_spec` — there are no others, and each of them meets a write under the mutex
-/

namespace GpuProxy.Contexts.Mutexes

open Math

/-- `cached_gl_states_mutex`, `cached_gl_display_list_mutex`, `name_mapping_mutex` and
`client_thread_mutex`. -/
inductive Mutex
  | states
  | displays
  | names
  | clientThread
  deriving DecidableEq

/-- The list of states with what they keep about contexts and surfaces, the list of displays with
all that is in it, the table of names, and the cells with the names of the driver. -/
inductive Shared
  | states
  | displays
  | names
  | cells
  deriving DecidableEq

def Mutex.rank : Mutex → Fin 4
  | .states => 0
  | .displays => 1
  | .names => 2
  | .clientThread => 3

theorem Mutex.rank_injective : Function.Injective Mutex.rank := by
  intro a b h
  cases a <;> cases b <;> first | rfl | cases h

instance : LinearOrder Mutex := LinearOrder.lift' Mutex.rank Mutex.rank_injective

instance : Finite Mutex := Finite.of_injective Mutex.rank Mutex.rank_injective

/-- The mutex that is meant for the data. -/
def guard : Shared → Mutex
  | .states => .states
  | .displays => .displays
  | .names => .names
  | .cells => .names

abbrev Action := LockAction Mutex Shared

/-! ### Entry points -/

/-- `_caching_client_destroy_state`, which goes on to the states it shares with. -/
def destroyState (shared : ℕ) : List Action :=
  List.replicate (shared + 1) (.access .states true)

/-- The tests of `_caching_client_make_current`. -/
structure MakeCurrentTests where
  toContext : Bool
  sameState : Bool
  fromState : Bool
  destroyRead : Bool
  destroyDraw : Bool
  sameSurface : Bool
  destroyDisplayOrContext : Bool
  destroyContext : Bool

/-- The part of `_caching_client_make_current` about the state that is left. -/
def leaveState (c : MakeCurrentTests) (shared : ℕ) : List Action :=
  .lock .displays :: .access .states true ::
    ((if c.destroyRead then [.access .displays true, .access .states true] else []) ++
      ((if c.destroyDraw then
          (if c.sameSurface then [] else [.access .displays true]) ++ [.access .states true]
        else []) ++
        ((if c.destroyDisplayOrContext then destroyState shared else []) ++
          ((if c.destroyContext then [.access .displays true] else []) ++ [.unlock .displays]))))

/-- `_caching_client_make_current`. -/
def makeCurrent (c : MakeCurrentTests) (shared : ℕ) : List Action :=
  .lock .states ::
    ((if c.toContext then [.access .states false, .access .states true] else []) ++
      if c.sameState then [.unlock .states]
      else (if c.fromState then leaveState c shared else []) ++ [.unlock .states])

/-- A call of `cached_gl_surface_add`, `cached_gl_surface_destroy` and the like. -/
def changeDisplays : List Action := [.lock .displays, .access .displays true, .unlock .displays]

/-- `caching_client_eglGetDisplay`. -/
def eglGetDisplay (isDisplay isNew : Bool) : List Action :=
  .call ::
    if isDisplay then .bare .displays false :: if isNew then changeDisplays else [] else []

/-- `caching_client_eglQueryString`. -/
def eglQueryString (isSurfaceless : Bool) : List Action :=
  .call :: if isSurfaceless then changeDisplays else []

/-- The loop of `caching_client_eglTerminate` at a state: whether it is destroyed, and with how many
it shares. -/
def terminateRound : Option ℕ → List Action
  | some shared => .access .states false :: destroyState shared
  | none => [.access .states false]

/-- `caching_client_eglTerminate`. -/
def eglTerminate (succeeds hasStates isCurrent : Bool) (rounds : List (Option ℕ)) : List Action :=
  .call ::
    if succeeds then
      .lock .states :: .access .states false ::
        if hasStates then
          rounds.flatMap terminateRound ++
            ((if isCurrent then [.access .states true] else changeDisplays) ++ [.unlock .states])
        -- Without any state it returns early, and the display stays.
        else [.unlock .states]
    else []

/-- `_caching_client_destroy_surface`. A round says whether the state is of the display and
inactive. -/
def destroySurface (hasStates : Bool) (rounds : List Bool) : List Action :=
  .bare .states false :: .lock .states :: .access .states false ::
    if hasStates then
      rounds.flatMap (fun isInactive =>
        .access .states true :: if isInactive then changeDisplays else []) ++ [.unlock .states]
    else [.unlock .states]

/-- `caching_client_eglDestroySurface`. -/
def eglDestroySurface (isCurrent succeeds hasStates : Bool) (rounds : List Bool) : List Action :=
  if isCurrent then .call :: if succeeds then destroySurface hasStates rounds else [] else []

/-- `caching_client_eglReleaseThread`. -/
def eglReleaseThread (succeeds : Bool) (c : MakeCurrentTests) (shared : ℕ) : List Action :=
  .call :: if succeeds then makeCurrent { c with toContext := false } shared else []

/-- `caching_client_eglDestroyContext`. -/
def eglDestroyContext (succeeds isCached isActive : Bool) (shared : ℕ) : List Action :=
  .call ::
    if succeeds then
      .lock .states :: .access .states false ::
        if isCached then
          (if isActive then [.access .states true] else destroyState shared ++ changeDisplays) ++
            [.unlock .states]
        else [.unlock .states]
    else []

/-- `caching_client_eglGetCurrentContext`, `caching_client_eglGetCurrentDisplay` and
`caching_client_eglGetCurrentSurface`. -/
def eglGetCurrent (isCurrent : Bool) : List Action :=
  if isCurrent then [.bare .states false] else []

/-- `caching_client_eglSwapBuffers`. -/
def eglSwapBuffers (isCurrent isDrawable : Bool) : List Action :=
  if isCurrent then .bare .states false :: if isDrawable then [.call] else [] else []

/-- `caching_client_eglCreatePbufferSurface`, `caching_client_eglCreatePixmapSurface` and
`caching_client_eglCreateWindowSurface`. -/
def eglCreateSurface (succeeds : Bool) : List Action :=
  .call :: if succeeds then changeDisplays else []

/-- `caching_client_eglCreateContext`. -/
def eglCreateContext (succeeds shares : Bool) : List Action :=
  .call ::
    if succeeds then
      changeDisplays ++
        if shares then
          [.lock .states, .access .states false, .access .states true, .unlock .states]
        else []
    else []

/-- `caching_client_eglMakeCurrent`. -/
def eglMakeCurrent (isCurrent isNeeded sameContext isAsync succeeds : Bool) (c : MakeCurrentTests)
    (shared : ℕ) : List Action :=
  -- Display, context and surfaces of the current state are compared without a mutex.
  (if isCurrent then [.bare .states false] else []) ++
    if isNeeded then
      -- The surfaces are in the list of displays, but it is the other mutex that is locked.
      (if sameContext then [.lock .states, .bare .displays false, .unlock .states] else []) ++
        .call :: if isAsync || succeeds then makeCurrent c shared else []
    else []

/-- `caching_client_init`, which waits for the server. -/
def cachingClientInit : List Action := [.call, .lock .states, .unlock .states]

/-- `on_client_thread`. It would return without unlocking if `initialized` were set meanwhile, but
every thread has its own. -/
def onClientThread (isFirst : Bool) : List Action :=
  if isFirst then [.lock .clientThread, .unlock .clientThread] else []

/-! ### Handlers -/

/-- `hash_insert`, which frees the cell that was there. -/
def hashInsert : List Action := [.access .names true, .access .cells true]

/-- `server_handle_glgen*`. -/
def handleGen (n : ℕ) : List Action :=
  .call :: .lock .names :: ((List.range n).flatMap (fun _ => hashInsert) ++ [.unlock .names])

/-- `server_handle_gldelete*`. A round says whether the name is there. -/
def handleDelete (rounds : List Bool) : List Action :=
  .lock .names ::
    (rounds.flatMap (fun isThere =>
      .access .names true :: if isThere then [.access .cells false, .access .cells true] else []) ++
      [.unlock .names, .call])

/-- `server_handle_glcreateprogram` and `server_handle_glcreateshader`. -/
def handleGlCreate : List Action := .call :: .lock .names :: (hashInsert ++ [.unlock .names])

/-- `server_handle_gldeleteprogram` and `server_handle_gldeleteshader`. The cell that was taken is
not in the table any more, and nobody frees it. -/
def handleGlDelete (calls : Bool) : List Action :=
  .lock .names :: .access .names true :: .unlock .names :: if calls then [.call] else []

/-- The lookup in a generated handler, which unlocks before it uses what it has found. -/
def lookUp : List Action := [.lock .names, .access .names false, .unlock .names]

/-- What a generated handler does about a name: the name is there, or it is entered, again by
`hash_insert`. -/
def mapName (isThere : Bool) : List Action :=
  lookUp ++ ((if isThere then [] else [.bare .names true, .bare .cells true]) ++
    [.bare .cells false])

/-- A generated handler, which returns when a name is missing and is not to be entered. -/
def handleMapped (names : List Bool) (isComplete : Bool) : List Action :=
  names.flatMap mapName ++ if isComplete then [.call] else lookUp

/-- `server_init`. -/
def serverInit (isFirst : Bool) : List Action :=
  .lock .names :: .access .names false ::
    if isFirst then [.access .names true, .unlock .names] else [.unlock .names]

/-! ### All functions -/

inductive EntryPoint
  | eglGetDisplay
  | eglQueryString
  | eglTerminate
  | eglDestroySurface
  | eglReleaseThread
  | eglDestroyContext
  | eglGetCurrent
  | eglSwapBuffers
  | eglCreateSurface
  | eglCreateContext
  | eglMakeCurrent
  | cachingClientInit
  | onClientThread
  | handleGen
  | handleDelete
  | handleGlCreate
  | handleGlDelete
  | handleMapped
  | serverInit
  deriving DecidableEq

/-- The ways through each function. -/
def ways : EntryPoint → Set (List Action)
  | .eglGetDisplay => {way | ∃ a b, way = eglGetDisplay a b}
  | .eglQueryString => {way | ∃ a, way = eglQueryString a}
  | .eglTerminate => {way | ∃ a b c rounds, way = eglTerminate a b c rounds}
  | .eglDestroySurface => {way | ∃ a b c rounds, way = eglDestroySurface a b c rounds}
  | .eglReleaseThread => {way | ∃ a c shared, way = eglReleaseThread a c shared}
  | .eglDestroyContext => {way | ∃ a b c shared, way = eglDestroyContext a b c shared}
  | .eglGetCurrent => {way | ∃ a, way = eglGetCurrent a}
  | .eglSwapBuffers => {way | ∃ a b, way = eglSwapBuffers a b}
  | .eglCreateSurface => {way | ∃ a, way = eglCreateSurface a}
  | .eglCreateContext => {way | ∃ a b, way = eglCreateContext a b}
  | .eglMakeCurrent =>
    {way | ∃ a b c d e tests shared, way = eglMakeCurrent a b c d e tests shared}
  | .cachingClientInit => {cachingClientInit}
  | .onClientThread => {way | ∃ a, way = onClientThread a}
  | .handleGen => {way | ∃ n, way = handleGen n}
  | .handleDelete => {way | ∃ rounds, way = handleDelete rounds}
  | .handleGlCreate => {handleGlCreate}
  | .handleGlDelete => {way | ∃ a, way = handleGlDelete a}
  | .handleMapped => {way | ∃ names a, way = handleMapped names a}
  | .serverInit => {way | ∃ a, way = serverInit a}

/-- The accesses that a function makes without the mutex of the data, and whether they write. -/
def bareAccesses : EntryPoint → List (Shared × Bool)
  | .eglGetDisplay => [(.displays, false)]
  -- The head of the list is loaded before the mutex is locked.
  | .eglDestroySurface => [(.states, false)]
  | .eglGetCurrent => [(.states, false)]
  | .eglSwapBuffers => [(.states, false)]
  | .eglMakeCurrent => [(.states, false), (.displays, false)]
  -- `hash_insert` of a missing name, which frees the cell that another handler may have entered.
  | .handleMapped => [(.names, true), (.cells, true), (.cells, false)]
  | _ => []

abbrev Threads (ι : Type*) := ι → ThreadState Mutex Shared EntryPoint

/-! ### The rules -/

section Rules

variable {bares : List (Shared × Bool)} {held : List Mutex} {c : MakeCurrentTests} {shared : ℕ}

theorem forall_mem_nil_lt {m : Mutex} : ∀ h ∈ ([] : List Mutex), h < m := fun _ h => nomatch h

theorem leads_destroyState (h : Mutex.states ∈ held) :
    Leads guard bares held (destroyState shared) held :=
  .replicate (.access h .nil)

theorem leads_changeDisplays (h : ∀ m ∈ held, m < .displays) :
    Leads guard bares held changeDisplays held :=
  .lock h (.access List.mem_cons_self (.unlock .nil))

theorem forall_mem_states : ∀ m ∈ [Mutex.states], m < .displays := by
  intro m hm
  rw [List.mem_singleton.mp hm]
  decide

/-- While a state is left, both mutexes are held. -/
theorem leads_leaveState : Leads guard bares [.states] (leaveState c shared) [.states] := by
  have hdisplays : guard .displays ∈ [Mutex.displays, .states] := List.mem_cons_self
  have hstates : guard .states ∈ [Mutex.displays, .states] :=
    List.mem_cons_of_mem _ List.mem_cons_self
  refine .lock forall_mem_states (.access hstates ?_)
  -- The read surface, the draw surface, the state itself and its context, as the flags tell.
  refine .append (.ite (.access hdisplays (.access hstates .nil)) .nil) ?_
  refine .append (.ite (.append (.ite .nil (.access hdisplays .nil)) ?_) .nil) ?_
  · exact .access hstates .nil
  refine .append (.ite (leads_destroyState hstates) .nil) ?_
  exact .append (.ite (.access hdisplays .nil) .nil) (.unlock .nil)

theorem leads_makeCurrent : Leads guard bares [] (makeCurrent c shared) [] := by
  refine .lock forall_mem_nil_lt (.append (.ite ?_ .nil) (.ite (.unlock .nil) ?_))
  · exact .access List.mem_cons_self (.access List.mem_cons_self .nil)
  · exact .append (.ite leads_leaveState .nil) (.unlock .nil)

theorem leads_eglTerminate {a b c : Bool} {rounds : List (Option ℕ)} :
    Leads guard bares [] (eglTerminate a b c rounds) [] := by
  refine .call (.ite (.lock forall_mem_nil_lt (.access List.mem_cons_self (.ite ?_ (.unlock .nil))))
    .nil)
  refine .append (.flatMap fun round => ?_) (.append (.ite ?_ ?_) (.unlock .nil))
  · cases round with
    | none => exact .access List.mem_cons_self .nil
    | some shared =>
      exact .access List.mem_cons_self (leads_destroyState List.mem_cons_self)
  · exact .access List.mem_cons_self .nil
  · exact leads_changeDisplays forall_mem_states

theorem leads_eglDestroySurface {a b c : Bool} {rounds : List Bool} :
    Leads guard (bareAccesses .eglDestroySurface) [] (eglDestroySurface a b c rounds) [] := by
  refine .ite (.call (.ite (.bare (by decide) (.lock forall_mem_nil_lt (.access List.mem_cons_self
    (.ite ?_ (.unlock .nil))))) .nil)) .nil
  refine .append (.flatMap fun isInactive => .access List.mem_cons_self ?_) (.unlock .nil)
  exact .ite (leads_changeDisplays forall_mem_states) .nil

theorem leads_eglDestroyContext {a b c : Bool} :
    Leads guard bares [] (eglDestroyContext a b c shared) [] := by
  refine .call (.ite (.lock forall_mem_nil_lt (.access List.mem_cons_self (.ite ?_ (.unlock .nil))))
    .nil)
  refine .append (.ite (.access List.mem_cons_self .nil) ?_) (.unlock .nil)
  exact .append (leads_destroyState List.mem_cons_self) (leads_changeDisplays forall_mem_states)

theorem leads_eglCreateContext {a b : Bool} : Leads guard bares [] (eglCreateContext a b) [] := by
  refine .call (.ite (.append (leads_changeDisplays forall_mem_nil_lt) (.ite ?_ .nil)) .nil)
  exact .lock forall_mem_nil_lt
    (.access List.mem_cons_self (.access List.mem_cons_self (.unlock .nil)))

theorem leads_eglMakeCurrent {a b d e f : Bool} :
    Leads guard (bareAccesses .eglMakeCurrent) [] (eglMakeCurrent a b d e f c shared) [] := by
  refine .append (.ite (.bare (by decide) .nil) .nil) (.ite (.append (.ite ?_ .nil) ?_) .nil)
  · exact .lock forall_mem_nil_lt (.bare (by decide) (.unlock .nil))
  · exact .call (.ite leads_makeCurrent .nil)

theorem leads_hashInsert : Leads guard bares [.names] hashInsert [.names] :=
  .access List.mem_cons_self (.access List.mem_cons_self .nil)

theorem leads_handleDelete {rounds : List Bool} :
    Leads guard bares [] (handleDelete rounds) [] := by
  refine .lock forall_mem_nil_lt (.append (.flatMap fun isThere => ?_) (.unlock (.call .nil)))
  exact .access List.mem_cons_self
    (.ite (.access List.mem_cons_self (.access List.mem_cons_self .nil)) .nil)

theorem leads_lookUp : Leads guard bares [] lookUp [] :=
  .lock forall_mem_nil_lt (.access List.mem_cons_self (.unlock .nil))

theorem leads_mapName {isThere : Bool} :
    Leads guard (bareAccesses .handleMapped) [] (mapName isThere) [] :=
  leads_lookUp.append (.append (.ite .nil (.bare (by decide) (.bare (by decide) .nil)))
    (.bare (by decide) .nil))

end Rules

/-- Every way locks in order, unlocks what it has locked, calls nothing while it holds a mutex, and
makes no other access without the mutex than the given ones. -/
theorem leads_ways : ∀ f, ∀ way ∈ ways f, Leads guard (bareAccesses f) [] way [] := by
  intro f way hway
  cases f with
  | eglGetDisplay =>
    obtain ⟨a, b, rfl⟩ := hway
    exact .call (.ite (.bare (by decide) (.ite (leads_changeDisplays forall_mem_nil_lt) .nil)) .nil)
  | eglQueryString | eglCreateSurface =>
    obtain ⟨a, rfl⟩ := hway
    exact .call (.ite (leads_changeDisplays forall_mem_nil_lt) .nil)
  | eglTerminate =>
    obtain ⟨a, b, c, rounds, rfl⟩ := hway
    exact leads_eglTerminate
  | eglDestroySurface =>
    obtain ⟨a, b, c, rounds, rfl⟩ := hway
    exact leads_eglDestroySurface
  | eglReleaseThread =>
    obtain ⟨a, c, shared, rfl⟩ := hway
    exact .call (.ite leads_makeCurrent .nil)
  | eglDestroyContext =>
    obtain ⟨a, b, c, shared, rfl⟩ := hway
    exact leads_eglDestroyContext
  | eglGetCurrent =>
    obtain ⟨a, rfl⟩ := hway
    exact .ite (.bare (by decide) .nil) .nil
  | eglSwapBuffers =>
    obtain ⟨a, b, rfl⟩ := hway
    exact .ite (.bare (by decide) (.ite (.call .nil) .nil)) .nil
  | eglCreateContext =>
    obtain ⟨a, b, rfl⟩ := hway
    exact leads_eglCreateContext
  | eglMakeCurrent =>
    obtain ⟨a, b, d, e, f, c, shared, rfl⟩ := hway
    exact leads_eglMakeCurrent
  | cachingClientInit =>
    obtain rfl := hway
    exact .call (.lock forall_mem_nil_lt (.unlock .nil))
  | onClientThread =>
    obtain ⟨a, rfl⟩ := hway
    exact .ite (.lock forall_mem_nil_lt (.unlock .nil)) .nil
  | handleGen =>
    obtain ⟨n, rfl⟩ := hway
    refine .call (.lock forall_mem_nil_lt (.append ?_ (.unlock .nil)))
    exact .flatMap fun _ => leads_hashInsert
  | handleDelete =>
    obtain ⟨rounds, rfl⟩ := hway
    exact leads_handleDelete
  | handleGlCreate =>
    obtain rfl := hway
    exact .call (.lock forall_mem_nil_lt (leads_hashInsert.append (.unlock .nil)))
  | handleGlDelete =>
    obtain ⟨a, rfl⟩ := hway
    exact .lock forall_mem_nil_lt (.access List.mem_cons_self (.unlock (.ite (.call .nil) .nil)))
  | handleMapped =>
    obtain ⟨names, a, rfl⟩ := hway
    exact .append (.flatMap fun _ => leads_mapName) (.ite (.call .nil) leads_lookUp)
  | serverInit =>
    obtain ⟨a, rfl⟩ := hway
    refine .lock forall_mem_nil_lt (.access List.mem_cons_self (.ite ?_ (.unlock .nil)))
    exact .access List.mem_cons_self (.unlock .nil)

/-! ### Runs -/

/-- Threads that are in no function yet. -/
def noFunction : Threads Bool := fun _ => ⟨.cachingClientInit, [], []⟩

/-- One thread stops on its way, and then another one, which locks nothing that the first one
holds. -/
theorem exists_two_threads {f g : EntryPoint} {pre rest pre' rest' : List Action}
    {held held' : List Mutex} (hf : pre ++ rest ∈ ways f)
    (hpre : heldAfter guard (bareAccesses f) [] pre = some held) (hg : pre' ++ rest' ∈ ways g)
    (hpre' : heldAfter guard (bareAccesses g) [] pre' = some held')
    (hfree : ∀ m, .lock m ∈ pre' → m ∉ held) :
    ∃ s : Threads Bool, (lockSystem ways).Reachable s ∧ s false = ⟨f, held, rest⟩ ∧
      s true = ⟨g, held', rest'⟩ := by
  have hinit : (lockSystem ways).Reachable noFunction := .init fun _ => ⟨rfl, rfl⟩
  -- Nobody holds anything while the first thread is on its way.
  have hfirst := reachable_within (i := false) hinit rfl rfl hf hpre fun _ _ _ _ hm => nomatch hm
  have hsecond := reachable_within (i := true) hfirst rfl rfl hg hpre' fun m hm j hj => by
    cases j with
    | true => exact absurd rfl hj
    | false => exact hfree m hm
  exact ⟨_, hsecond, rfl, rfl⟩

section Runs

variable {ι : Type*} [DecidableEq ι] {s : Threads ι} {i j : ι} {m : Mutex} {x : Shared}
  {rest : List Action}

theorem disciplined (hs : (lockSystem ways).Reachable s) : Disciplined guard bareAccesses s :=
  (disciplined_invariant leads_ways).holds hs

/-- A thread that waits for a mutex gets it after some steps of threads that hold one, none of which
calls the driver or waits for a server. -/
theorem exists_lock_of_waiting (hs : (lockSystem ways).Reachable s)
    (hrest : (s i).rest = .lock m :: rest) :
    ∃ t t', Relation.ReflTransGen (HolderStep ways) s t ∧ t i = s i ∧ LockStep ways t i t' :=
  (disciplined hs).exists_lock leads_ways hrest

/-- One thread adds a surface, and another one is going to. -/
theorem exists_lock_twoSurfaces : ∃ (s : Threads Bool) (rest : List Action),
    (lockSystem ways).Reachable s ∧ Mutex.displays ∈ (s false).held ∧
      (s true).rest = .lock .displays :: rest ∧
        ∃ t t', Relation.ReflTransGen (HolderStep ways) s t ∧ t true = s true ∧
          LockStep ways t true t' := by
  have hinside : [.call, .lock .displays] ++ [.access .displays true, .unlock .displays] ∈
      ways .eglCreateSurface := ⟨true, rfl⟩
  have hbefore : [.call] ++ changeDisplays ∈ ways .eglCreateSurface := ⟨true, rfl⟩
  obtain ⟨s, hs, hfalse, htrue⟩ := exists_two_threads hinside rfl hbefore rfl (by simp)
  have hrest : (s true).rest = .lock .displays :: [.access .displays true, .unlock .displays] := by
    rw [htrue]
    rfl
  refine ⟨s, _, hs, ?_, hrest, exists_lock_of_waiting hs hrest⟩
  rw [hfalse]
  exact List.mem_cons_self

/-- Where threads meet at the same data, one of them makes one of the given accesses. -/
theorem mem_bareAccesses_of_meet (hs : (lockSystem ways).Reachable s) (hmeet : Meet s i j x) :
    (∃ writes, (x, writes) ∈ bareAccesses (s i).function ∧
        (s i).rest.head? = some (.bare x writes)) ∨
      ∃ writes, (x, writes) ∈ bareAccesses (s j).function ∧
        (s j).rest.head? = some (.bare x writes) :=
  (disciplined hs).bare_of_meet hmeet

/-- A thread adds a surface while another one looks for the display. -/
theorem mem_bareAccesses_of_meet_displays : ∃ s : Threads Bool, (lockSystem ways).Reachable s ∧
    Meet s false true .displays ∧
      ((∃ writes, (Shared.displays, writes) ∈ bareAccesses (s false).function ∧
          (s false).rest.head? = some (.bare .displays writes)) ∨
        ∃ writes, (Shared.displays, writes) ∈ bareAccesses (s true).function ∧
          (s true).rest.head? = some (.bare .displays writes)) := by
  have hlooks : [.call] ++ .bare .displays false :: changeDisplays ∈ ways .eglGetDisplay :=
    ⟨true, true, rfl⟩
  have hadds : [.call, .lock .displays] ++ [.access .displays true, .unlock .displays] ∈
      ways .eglCreateSurface := ⟨true, rfl⟩
  obtain ⟨s, hs, hfalse, htrue⟩ := exists_two_threads hlooks rfl hadds rfl (by simp)
  have hmeet : Meet s false true .displays := by
    refine ⟨Bool.false_ne_true, .bare .displays false, .access .displays true, false, true, ?_, ?_,
      rfl, rfl, .inr rfl⟩
    · rw [hfalse]
      rfl
    · rw [htrue]
      rfl
  exact ⟨s, hs, hmeet, mem_bareAccesses_of_meet hs hmeet⟩

end Runs

/-- A state is found or made for the context, and it is the current one already. -/
def sameStateTests : MakeCurrentTests := ⟨true, true, false, false, false, false, false, false⟩

/-- Some function writes to any of the data, and locks nothing but their mutex before. -/
theorem exists_writer (x : Shared) : ∃ g pre rest, pre ++ .access x true :: rest ∈ ways g ∧
    heldAfter guard (bareAccesses g) [] pre = some [guard x] ∧
      ∀ m, .lock m ∈ pre → m = guard x := by
  cases x with
  | states =>
    -- The surfaces of the state are stored before the states are compared.
    refine ⟨.eglMakeCurrent, [.call, .lock .states, .access .states false], [.unlock .states],
      ⟨false, true, false, false, true, sameStateTests, 0, rfl⟩, rfl, ?_⟩
    simp [guard]
  | displays =>
    refine ⟨.eglCreateSurface, [.call, .lock .displays], [.unlock .displays], ⟨true, rfl⟩, rfl, ?_⟩
    simp [guard]
  | names =>
    refine ⟨.handleGlCreate, [.call, .lock .names], [.access .cells true, .unlock .names], rfl, rfl,
      ?_⟩
    simp [guard]
  | cells =>
    refine ⟨.handleGlCreate, [.call, .lock .names, .access .names true], [.unlock .names], rfl, rfl,
      ?_⟩
    simp [guard]

/-- Each of the given accesses is on a way, at a place where the mutex is not held. -/
theorem exists_bare {f : EntryPoint} {x : Shared} {writes : Bool}
    (hmem : (x, writes) ∈ bareAccesses f) : ∃ pre rest held,
      pre ++ .bare x writes :: rest ∈ ways f ∧
        heldAfter guard (bareAccesses f) [] pre = some held ∧ guard x ∉ held := by
  cases f with
  | eglGetDisplay =>
    obtain ⟨rfl, rfl⟩ : x = .displays ∧ writes = false := by simpa [bareAccesses] using hmem
    exact ⟨[.call], changeDisplays, [], ⟨true, true, rfl⟩, rfl, List.not_mem_nil⟩
  | eglDestroySurface =>
    obtain ⟨rfl, rfl⟩ : x = .states ∧ writes = false := by simpa [bareAccesses] using hmem
    exact ⟨[.call], _, [], ⟨true, true, false, [], rfl⟩, rfl, List.not_mem_nil⟩
  | eglGetCurrent =>
    obtain ⟨rfl, rfl⟩ : x = .states ∧ writes = false := by simpa [bareAccesses] using hmem
    exact ⟨[], [], [], ⟨true, rfl⟩, rfl, List.not_mem_nil⟩
  | eglSwapBuffers =>
    obtain ⟨rfl, rfl⟩ : x = .states ∧ writes = false := by simpa [bareAccesses] using hmem
    exact ⟨[], [.call], [], ⟨true, true, rfl⟩, rfl, List.not_mem_nil⟩
  | eglMakeCurrent =>
    have hcases : x = .states ∧ writes = false ∨ x = .displays ∧ writes = false := by
      simpa [bareAccesses] using hmem
    obtain ⟨rfl, rfl⟩ | ⟨rfl, rfl⟩ := hcases
    -- It compares with the current state first, and looks for the surfaces under the other mutex.
    · exact ⟨[], [], [], ⟨true, false, false, false, false, sameStateTests, 0, rfl⟩, rfl,
        List.not_mem_nil⟩
    · exact ⟨[.bare .states false, .lock .states], [.unlock .states, .call], [.states],
        ⟨true, true, true, false, false, sameStateTests, 0, rfl⟩, rfl, by decide⟩
  | handleMapped =>
    have hcases : x = .names ∧ writes = true ∨ x = .cells ∧ writes = true ∨
        x = .cells ∧ writes = false := by simpa [bareAccesses] using hmem
    obtain ⟨rfl, rfl⟩ | ⟨rfl, rfl⟩ | ⟨rfl, rfl⟩ := hcases
    -- A name that is missing is entered, and one that is there is used.
    · exact ⟨lookUp, _, [], ⟨[false], true, rfl⟩, rfl, List.not_mem_nil⟩
    · exact ⟨lookUp ++ [.bare .names true], _, [], ⟨[false], true, rfl⟩, rfl, List.not_mem_nil⟩
    · exact ⟨lookUp, _, [], ⟨[true], true, rfl⟩, rfl, List.not_mem_nil⟩
  | _ => cases hmem

/-- What threads access without the mutex are the given data only; and each of these accesses
meets a write under the mutex: two threads are enough. -/
theorem bareAccesses_spec :
    (∀ (ι : Type*) [DecidableEq ι] (s : Threads ι) (i : ι) (x : Shared) (writes : Bool),
      (lockSystem ways).Reachable s → (s i).rest.head? = some (.bare x writes) →
        (x, writes) ∈ bareAccesses (s i).function) ∧
    ∀ (f : EntryPoint) (x : Shared) (writes : Bool), (x, writes) ∈ bareAccesses f →
      ∃ s : Threads Bool, (lockSystem ways).Reachable s ∧ (s false).function = f ∧
        (s false).rest.head? = some (.bare x writes) ∧
        (s true).rest.head? = some (.access x true) ∧ guard x ∈ (s true).held ∧
        Meet s false true x := by
  refine ⟨fun ι _ s i x writes hs hnext => (disciplined hs).mem_bares hnext, ?_⟩
  intro f x writes hmem
  obtain ⟨pre, rest, held, hf, hpre, hguard⟩ := exists_bare hmem
  obtain ⟨g, pre', rest', hg, hpre', honly⟩ := exists_writer x
  have hfree : ∀ m, .lock m ∈ pre' → m ∉ held := by
    intro m hm
    rwa [honly m hm]
  -- The first thread stops before the access, the second one before it writes.
  obtain ⟨s, hs, hfalse, htrue⟩ := exists_two_threads hf hpre hg hpre' hfree
  have hnext : (s false).rest.head? = some (.bare x writes) := by
    rw [hfalse]
    rfl
  have hwrites : (s true).rest.head? = some (.access x true) := by
    rw [htrue]
    rfl
  have hmeet : Meet s false true x :=
    ⟨Bool.false_ne_true, .bare x writes, .access x true, writes, true, hnext, hwrites, rfl, rfl,
      .inr rfl⟩
  exact ⟨s, hs, by rw [hfalse], hnext, hwrites, (disciplined hs).guard_mem hwrites, hmeet⟩

end GpuProxy.Contexts.Mutexes
