import GpuProxy.GlState.Errors
import GpuProxy.Programs.InUse
import GpuProxy.Programs.Locations

/-!
# Uniforms of the current program

The entry points `glUniform*` pass a call on only if the current program has the location in
its cache, where `glGetUniformLocation` leaves the locations it returns. On one context that
shares its programs with no other one, those are the locations that were returned for the
program: names are never given to a second program, and a program in use is not forgotten.

## Main definitions

* `UniformState` — the programs of a context, with their caches
* `UniformCall`, `UniformState.glUniform` — the entry points `glUniform*`
* `UniformHistory`, `uniformSystem` — runs, with the locations that were returned

## Main results

* `forwards_iff_returned` — a call is passed on if and only if its location was returned for
  the current program
-/

namespace GpuProxy.Programs

open Math Names GlState Objects

/-! ### The entry points -/

/-- The calls that set uniforms. -/
inductive UniformCall (F : Type)
  | glUniform1f (location : ℤ) (v0 : F)
  | glUniform2f (location : ℤ) (v0 v1 : F)
  | glUniform3f (location : ℤ) (v0 v1 v2 : F)
  | glUniform4f (location : ℤ) (v0 v1 v2 v3 : F)
  | glUniform1i (location v0 : ℤ)
  | glUniform2i (location v0 v1 : ℤ)
  | glUniform3i (location v0 v1 v2 : ℤ)
  | glUniform4i (location v0 v1 v2 v3 : ℤ)
  | glUniform1fv (location count : ℤ) (value : List F)
  | glUniform2fv (location count : ℤ) (value : List F)
  | glUniform3fv (location count : ℤ) (value : List F)
  | glUniform4fv (location count : ℤ) (value : List F)
  | glUniform1iv (location count : ℤ) (value : List ℤ)
  | glUniform2iv (location count : ℤ) (value : List ℤ)
  | glUniform3iv (location count : ℤ) (value : List ℤ)
  | glUniform4iv (location count : ℤ) (value : List ℤ)
  | glUniformMatrix2fv (location count : ℤ) (transpose : Bool) (value : List F)
  | glUniformMatrix3fv (location count : ℤ) (transpose : Bool) (value : List F)
  | glUniformMatrix4fv (location count : ℤ) (transpose : Bool) (value : List F)

/-- One context that is current, and shares its programs with no other one. Its programs are
those of context 0; each has its caches. -/
structure UniformState where
  group : Group
  caches : ℕ → ProgramCaches
  error : ℕ
  needGetError : Bool

namespace UniformState

/-- A new context. -/
def init (memory : ℕ → ℕ) : UniformState where
  group := .sharing (fun _ => none) memory
  caches _ := .new
  error := glNoError
  needGetError := false

variable (s : UniformState)

/-- `caching_client_glSetError`. -/
def glSetError (error : ℕ) : UniformState :=
  if s.error = glNoError then { s with error := error } else s

/-- `current_program`. -/
def currentProgram : ℕ := (s.group 0).currentProgram

/-- `egl_state_lookup_cached_program_err`: the error that it records, if any. -/
def programError (id error : ℕ) : Option ℕ := s.group.programError 0 id error

/-- `caching_client_glCreateProgram`. The new program has new caches. -/
def glCreateProgram : Option (UniformState × ℕ) := do
  let (group, result) ← s.group.glCreateProgram 0
  if result = 0 then return ({ s with group := group, needGetError := true }, 0)
  return ({ s with group := group, caches := Function.update s.caches result .new }, result)

/-- `caching_client_glUseProgram`. -/
def glUseProgram (program : ℕ) : UniformState :=
  let (group, effects) := s.group.glUseProgram 0 program
  effects.foldl
    (fun s effect =>
      match effect with
      | .setError error => s.glSetError error
      | .forward _ => s)
    { s with group := group }

/-- `caching_client_glDeleteProgram`. -/
def glDeleteProgram (program : ℕ) : UniformState :=
  match s.group.lookupCachedShaderObject 0 program with
  | none => s.glSetError glInvalidValue
  | some _ => { s with group := s.group.glDeleteProgram 0 program }

/-- `caching_client_glLinkProgram`, which leaves the caches as they are. -/
def glLinkProgram (program : ℕ) : UniformState :=
  match s.programError program glInvalidValue with
  | some error => s.glSetError error
  | none => s

/-- `caching_client_glGetUniformLocation`, with what the driver answers if it is asked. -/
def glGetUniformLocation (program : ℕ) (name : CString) (answer : ℤ) :
    Option (UniformState × ℤ) :=
  match s.programError program glInvalidValue with
  | some error => some (s.glSetError error, -1)
  | none => do
    let (caches, result) ← (s.caches program).glGetUniformLocation name answer
    return ({ s with
      caches := Function.update s.caches program caches
      needGetError := s.needGetError || result.needsGetError }, result.location)

/-- `_synthesize_uniform_error`: the error that it records, if any. -/
def synthesizeUniformError (location : ℤ) : Option ℕ :=
  match s.programError s.currentProgram glInvalidOperation with
  | some error => some error
  | none =>
    if hashHasElement (s.caches s.currentProgram).uniformLocationCache (· = location) then none
    else some glInvalidOperation

/-- `_synthesize_uniform_vector_error`: the error that it records, if any. -/
def synthesizeUniformVectorError (location count : ℤ) : Option ℕ :=
  if count < 0 then some glInvalidValue else s.synthesizeUniformError location

section Entries

variable {F : Type}

/-- A call that is passed on unless an error is recorded. -/
def passOn (error : Option ℕ) (call : UniformCall F) : UniformState × List (UniformCall F) :=
  match error with
  | some error => (s.glSetError error, [])
  | none => (s, [call])

/-- An entry point that sets one uniform. -/
def scalar (location : ℤ) (call : UniformCall F) : UniformState × List (UniformCall F) :=
  s.passOn (s.synthesizeUniformError location) call

/-- An entry point that sets an array of uniforms. -/
def vector (location count : ℤ) (call : UniformCall F) : UniformState × List (UniformCall F) :=
  s.passOn (s.synthesizeUniformVectorError location count) call

/-- `caching_client_glUniform1f`. -/
def glUniform1f (location : ℤ) (v0 : F) := s.scalar location (.glUniform1f location v0)

/-- `caching_client_glUniform2f`. -/
def glUniform2f (location : ℤ) (v0 v1 : F) := s.scalar location (.glUniform2f location v0 v1)

/-- `caching_client_glUniform3f`. -/
def glUniform3f (location : ℤ) (v0 v1 v2 : F) :=
  s.scalar location (.glUniform3f location v0 v1 v2)

/-- `caching_client_glUniform4f`. -/
def glUniform4f (location : ℤ) (v0 v1 v2 v3 : F) :=
  s.scalar location (.glUniform4f location v0 v1 v2 v3)

/-- `caching_client_glUniform1i`. -/
def glUniform1i (location v0 : ℤ) : UniformState × List (UniformCall F) :=
  s.scalar location (.glUniform1i location v0)

/-- `caching_client_glUniform2i`. -/
def glUniform2i (location v0 v1 : ℤ) : UniformState × List (UniformCall F) :=
  s.scalar location (.glUniform2i location v0 v1)

/-- `caching_client_glUniform3i`. -/
def glUniform3i (location v0 v1 v2 : ℤ) : UniformState × List (UniformCall F) :=
  s.scalar location (.glUniform3i location v0 v1 v2)

/-- `caching_client_glUniform4i`. -/
def glUniform4i (location v0 v1 v2 v3 : ℤ) : UniformState × List (UniformCall F) :=
  s.scalar location (.glUniform4i location v0 v1 v2 v3)

/-- `caching_client_glUniform1fv`. -/
def glUniform1fv (location count : ℤ) (value : List F) :=
  s.vector location count (.glUniform1fv location count value)

/-- `caching_client_glUniform2fv`. -/
def glUniform2fv (location count : ℤ) (value : List F) :=
  s.vector location count (.glUniform2fv location count value)

/-- `caching_client_glUniform3fv`. -/
def glUniform3fv (location count : ℤ) (value : List F) :=
  s.vector location count (.glUniform3fv location count value)

/-- `caching_client_glUniform4fv`. -/
def glUniform4fv (location count : ℤ) (value : List F) :=
  s.vector location count (.glUniform4fv location count value)

/-- `caching_client_glUniform1iv`. -/
def glUniform1iv (location count : ℤ) (value : List ℤ) : UniformState × List (UniformCall F) :=
  s.vector location count (.glUniform1iv location count value)

/-- `caching_client_glUniform2iv`. -/
def glUniform2iv (location count : ℤ) (value : List ℤ) : UniformState × List (UniformCall F) :=
  s.vector location count (.glUniform2iv location count value)

/-- `caching_client_glUniform3iv`. -/
def glUniform3iv (location count : ℤ) (value : List ℤ) : UniformState × List (UniformCall F) :=
  s.vector location count (.glUniform3iv location count value)

/-- `caching_client_glUniform4iv`. -/
def glUniform4iv (location count : ℤ) (value : List ℤ) : UniformState × List (UniformCall F) :=
  s.vector location count (.glUniform4iv location count value)

/-- `caching_client_glUniformMatrix2fv`. -/
def glUniformMatrix2fv (location count : ℤ) (transpose : Bool) (value : List F) :=
  s.vector location count (.glUniformMatrix2fv location count transpose value)

/-- `caching_client_glUniformMatrix3fv`. -/
def glUniformMatrix3fv (location count : ℤ) (transpose : Bool) (value : List F) :=
  s.vector location count (.glUniformMatrix3fv location count transpose value)

/-- `caching_client_glUniformMatrix4fv`. -/
def glUniformMatrix4fv (location count : ℤ) (transpose : Bool) (value : List F) :=
  s.vector location count (.glUniformMatrix4fv location count transpose value)

/-- The entry points `caching_client_glUniform*`, with the calls that are passed on. -/
def glUniform : UniformCall F → UniformState × List (UniformCall F)
  | .glUniform1f location v0 => s.glUniform1f location v0
  | .glUniform2f location v0 v1 => s.glUniform2f location v0 v1
  | .glUniform3f location v0 v1 v2 => s.glUniform3f location v0 v1 v2
  | .glUniform4f location v0 v1 v2 v3 => s.glUniform4f location v0 v1 v2 v3
  | .glUniform1i location v0 => s.glUniform1i location v0
  | .glUniform2i location v0 v1 => s.glUniform2i location v0 v1
  | .glUniform3i location v0 v1 v2 => s.glUniform3i location v0 v1 v2
  | .glUniform4i location v0 v1 v2 v3 => s.glUniform4i location v0 v1 v2 v3
  | .glUniform1fv location count value => s.glUniform1fv location count value
  | .glUniform2fv location count value => s.glUniform2fv location count value
  | .glUniform3fv location count value => s.glUniform3fv location count value
  | .glUniform4fv location count value => s.glUniform4fv location count value
  | .glUniform1iv location count value => s.glUniform1iv location count value
  | .glUniform2iv location count value => s.glUniform2iv location count value
  | .glUniform3iv location count value => s.glUniform3iv location count value
  | .glUniform4iv location count value => s.glUniform4iv location count value
  | .glUniformMatrix2fv location count transpose value =>
    s.glUniformMatrix2fv location count transpose value
  | .glUniformMatrix3fv location count transpose value =>
    s.glUniformMatrix3fv location count transpose value
  | .glUniformMatrix4fv location count transpose value =>
    s.glUniformMatrix4fv location count transpose value

end Entries

end UniformState

variable {F : Type}

/-- The location that a call sets. -/
def UniformCall.location : UniformCall F → ℤ
  | .glUniform1f location .. | .glUniform2f location .. | .glUniform3f location ..
  | .glUniform4f location .. | .glUniform1i location .. | .glUniform2i location ..
  | .glUniform3i location .. | .glUniform4i location .. | .glUniform1fv location ..
  | .glUniform2fv location .. | .glUniform3fv location .. | .glUniform4fv location ..
  | .glUniform1iv location .. | .glUniform2iv location .. | .glUniform3iv location ..
  | .glUniform4iv location .. | .glUniformMatrix2fv location .. | .glUniformMatrix3fv location ..
  | .glUniformMatrix4fv location .. => location

/-- The count of a call, if it has one. -/
def UniformCall.count : UniformCall F → Option ℤ
  | .glUniform1fv _ count _ | .glUniform2fv _ count _ | .glUniform3fv _ count _
  | .glUniform4fv _ count _ | .glUniform1iv _ count _ | .glUniform2iv _ count _
  | .glUniform3iv _ count _ | .glUniform4iv _ count _ | .glUniformMatrix2fv _ count ..
  | .glUniformMatrix3fv _ count .. | .glUniformMatrix4fv _ count .. => some count
  | _ => none

/-! ### Runs -/

/-- The calls of an application, with the answers of the driver. -/
inductive UniformOp (F : Type)
  | glCreateProgram
  | glUseProgram (program : ℕ)
  | glDeleteProgram (program : ℕ)
  | glLinkProgram (program : ℕ)
  | glGetUniformLocation (program : ℕ) (name : CString) (answer : ℤ)
  | glUniform (call : UniformCall F)

/-- A state, with what `glGetUniformLocation` has returned: programs and locations. -/
structure UniformHistory where
  state : UniformState
  returned : List (ℕ × ℤ)

/-- A call of an application. -/
def UniformHistory.step (h : UniformHistory) : UniformOp F → Option UniformHistory
  | .glCreateProgram => h.state.glCreateProgram.map fun (s, _) => { h with state := s }
  | .glUseProgram program => some { h with state := h.state.glUseProgram program }
  | .glDeleteProgram program => some { h with state := h.state.glDeleteProgram program }
  | .glLinkProgram program => some { h with state := h.state.glLinkProgram program }
  | .glGetUniformLocation program name answer =>
    (h.state.glGetUniformLocation program name answer).map fun (s, location) =>
      ⟨s, (program, location) :: h.returned⟩
  | .glUniform call => some { h with state := (h.state.glUniform call).1 }

/-- All runs of a context, with any driver. -/
def uniformSystem (F : Type) : System UniformHistory (UniformOp F) :=
  System.ofStep (fun h => ∃ memory, h = ⟨.init memory, []⟩) UniformHistory.step

variable {h h' : UniformHistory} {s t : UniformState} {p : ℕ} {location answer : ℤ}
  {name : CString} {caches caches' : ProgramCaches} {result : LocationResult}

/-! ### What the entry points leave -/

/-- All entry points for uniforms make the same checks. -/
theorem UniformState.glUniform_eq (s : UniformState) (call : UniformCall F) :
    s.glUniform call = s.passOn
      (match call.count with
        | some count => s.synthesizeUniformVectorError call.location count
        | none => s.synthesizeUniformError call.location) call := by
  cases call <;> rfl

/-- A state with another error. -/
def SameButErrors (s t : UniformState) : Prop := t.group = s.group ∧ t.caches = s.caches

theorem UniformState.sameButErrors_glSetError (s : UniformState) (error : ℕ) :
    SameButErrors s (s.glSetError error) := by
  unfold glSetError
  split_ifs <;> exact ⟨rfl, rfl⟩

theorem UniformState.sameButErrors_glLinkProgram (s : UniformState) (program : ℕ) :
    SameButErrors s (s.glLinkProgram program) := by
  unfold glLinkProgram
  split
  · exact s.sameButErrors_glSetError _
  · exact ⟨rfl, rfl⟩

theorem UniformState.sameButErrors_glUniform (s : UniformState) (call : UniformCall F) :
    SameButErrors s (s.glUniform call).1 := by
  rw [glUniform_eq]
  unfold passOn
  split
  · exact s.sameButErrors_glSetError _
  · exact ⟨rfl, rfl⟩

/-- The programs after the entry point of another name are those of the group. -/
theorem UniformState.sameButErrors_glUseProgram (s : UniformState) (program : ℕ) :
    SameButErrors { s with group := (s.group.glUseProgram 0 program).1 }
      (s.glUseProgram program) := by
  unfold glUseProgram
  dsimp only
  generalize { s with group := (s.group.glUseProgram 0 program).1 } = t
  generalize (s.group.glUseProgram 0 program).2 = effects
  induction effects generalizing t with
  | nil => exact ⟨rfl, rfl⟩
  | cons effect effects ih =>
    rw [List.foldl_cons]
    cases effect with
    | setError error =>
      obtain ⟨hgroup, hcaches⟩ := ih (t.glSetError error)
      obtain ⟨hgroup', hcaches'⟩ := t.sameButErrors_glSetError error
      exact ⟨hgroup.trans hgroup', hcaches.trans hcaches'⟩
    | forward call => exact ih t

theorem UniformState.sameButErrors_glDeleteProgram (s : UniformState) (program : ℕ) :
    SameButErrors { s with group := s.group.glDeleteProgram 0 program }
      (s.glDeleteProgram program) := by
  unfold glDeleteProgram Group.glDeleteProgram
  cases s.group.lookupCachedShaderObject 0 program with
  | none => exact s.sameButErrors_glSetError _
  | some object => exact ⟨rfl, rfl⟩

/-- A query leaves the location it returns in the cache, if the driver knows it. -/
theorem hasLocation_glGetUniformLocation
    (h : caches.glGetUniformLocation name answer = some (caches', result)) :
    hashHasElement caches'.uniformLocationCache (· = location) = true ↔
      hashHasElement caches.uniformLocationCache (· = location) = true ∨
        location ≠ -1 ∧ result.location = location := by
  obtain ⟨⟨cache, found⟩, hcached, heq⟩ := Option.bind_eq_some_iff.mp h
  cases heq
  unfold cachedLocation at hcached
  cases hlookup : hashLookup caches.uniformLocationCache (hashStr name) with
  | some stored =>
    rw [hlookup] at hcached
    cases hcached
    refine (or_iff_left_of_imp ?_).symm
    rintro ⟨-, rfl⟩
    exact hashHasElement_of_hashLookup hlookup (decide_eq_true rfl)
  | none =>
    rw [hlookup] at hcached
    dsimp only at hcached
    split_ifs at hcached with hanswer
    · cases hcached
      refine (or_iff_left_of_imp ?_).symm
      rintro ⟨hne, rfl⟩
      exact absurd rfl hne
    · obtain ⟨table, hinsert, heq⟩ := Option.bind_eq_some_iff.mp hcached
      cases heq
      rw [hashHasElement_hashInsert hlookup hinsert, Bool.or_eq_true, decide_eq_true_eq, or_comm]
      refine or_congr_right ⟨?_, And.right⟩
      rintro rfl
      exact ⟨hanswer, rfl⟩

/-! ### The programs of one context -/

/-- The names of a context's programs are never given to a second one, and its list is right.
The calls of one context only remove programs that no context uses. -/
structure Owned (g : Group) (created deleted : Finset (ℕ × ℕ)) : Prop where
  tracked : Tracked (fun _ => none) ⟨g, created, deleted⟩
  deals : Deals (g 0).shaderObjectsNameHandler fun p => (0, p) ∈ created

variable {g g' : Group} {created deleted : Finset (ℕ × ℕ)}

theorem Owned.cacheOwner (h : Owned g created deleted) (c : ℕ) : g.cacheOwner c = c := by
  have hshare : (g c).shareContext = none := h.tracked.share c
  unfold Group.cacheOwner
  rw [hshare]
  rfl

theorem owned_init {memory : ℕ → ℕ} : Owned (.sharing (fun _ => none) memory) ∅ ∅ :=
  ⟨tracked_sharing _ memory, deals_create fun _ => Finset.notMem_empty _⟩

/-- A new program has a name that no program had before. -/
theorem Owned.glCreateProgram {result : ℕ} (h : Owned g created deleted)
    (hcreate : g.glCreateProgram 0 = some (g', result)) :
    result ≠ 0 ∧ (0, result) ∉ created ∧
      Owned g' (insert (0, result) created) (deleted.erase (0, result)) := by
  obtain ⟨⟨handler, halloc, hhandler⟩, hchange⟩ := changes_glCreateProgram hcreate
  obtain ⟨-, hone, htake⟩ := h.deals.take halloc
  have hsupply : supply (g 0).shaderObjectsNameHandler result = 1 :=
    hone result (List.mem_singleton_self result)
  have hresult : result ≠ 0 := by
    rintro rfl
    rw [h.deals.supply_zero] at hsupply
    cases hsupply
  have hnew : (0, result) ∉ created := by
    intro hmem
    rw [h.deals.supply_live result hmem] at hsupply
    cases hsupply
  have hlists : ¬ g.Lists 0 result := by
    intro hlist
    have hmem := ((h.tracked.listed 0 result).mp hlist).1
    rw [h.cacheOwner] at hmem
    exact hnew hmem
  rw [if_neg hresult] at hchange
  have htracked := h.tracked.glCreateProgram hresult hlists hchange
  rw [h.cacheOwner] at htracked
  refine ⟨hresult, hnew, htracked, ?_⟩
  rw [hhandler]
  refine htake.mono fun p hp => ?_
  rcases Finset.mem_insert.mp hp with heq | hmem
  · exact .inr (List.mem_singleton.mpr (Prod.mk.inj heq).2)
  · exact .inl hmem

theorem Owned.glUseProgram (h : Owned g created deleted) :
    Owned (g.glUseProgram 0 p).1 created deleted := by
  refine ⟨h.tracked.glUseProgram fun _ _ _ _ _ c hc howner => ?_, ?_⟩
  · rw [h.cacheOwner, h.cacheOwner] at howner
    exact absurd howner hc
  · rw [Group.shaderObjectsNameHandler_glUseProgram]
    exact h.deals

theorem Owned.glDeleteProgram (h : Owned g created deleted) :
    Owned (g.glDeleteProgram 0 p) created (insert (0, p) deleted) := by
  have hkeeps : (⟨g, created, deleted⟩ : ProgramHistory).KeepsUsed (0, .glDeleteProgram p) := by
    intro _ hne c howner
    rw [h.cacheOwner, h.cacheOwner] at howner
    rw [howner]
    exact hne
  have htracked := h.tracked.glDeleteProgram hkeeps
  rw [h.cacheOwner] at htracked
  refine ⟨htracked, ?_⟩
  rw [Group.shaderObjectsNameHandler_glDeleteProgram]
  exact h.deals

/-- The caches have the known locations that were returned, and those were returned for
programs that were created. -/
structure Remembers (h : UniformHistory) : Prop where
  locations : ∀ p location,
    hashHasElement (h.state.caches p).uniformLocationCache (· = location) = true ↔
      location ≠ -1 ∧ (p, location) ∈ h.returned
  programs : ∃ created deleted, Owned h.state.group created deleted ∧
    ∀ p location, (p, location) ∈ h.returned → location ≠ -1 → (0, p) ∈ created

variable {returned : List (ℕ × ℤ)}

theorem Remembers.congr (h : Remembers ⟨s, returned⟩) (hsame : SameButErrors s t) :
    Remembers ⟨t, returned⟩ := by
  obtain ⟨hgroup, hcaches⟩ := hsame
  refine ⟨?_, ?_⟩
  · simp only [hcaches]
    exact h.locations
  · simp only [hgroup]
    exact h.programs

theorem remembers_init {memory : ℕ → ℕ} : Remembers ⟨.init memory, []⟩ := by
  refine ⟨fun p location => ?_, ∅, ∅, owned_init, fun p location hmem => ?_⟩
  · have hnone : hashHasElement ((UniformState.init memory).caches p).uniformLocationCache
        (· = location) = false := hashHasElement_newHashTable
    simp [hnone]
  · cases hmem

/-- A new program has no locations, and none were returned for it. -/
theorem Remembers.glCreateProgram {result : ℕ} (h : Remembers ⟨s, returned⟩)
    (hcreate : s.glCreateProgram = some (t, result)) : Remembers ⟨t, returned⟩ := by
  obtain ⟨created, deleted, howned, hprograms⟩ := h.programs
  obtain ⟨⟨g, name⟩, hgroup, hrest⟩ := Option.bind_eq_some_iff.mp hcreate
  obtain ⟨hname, hnew, howned'⟩ := howned.glCreateProgram hgroup
  dsimp only at hrest
  rw [if_neg hname] at hrest
  cases hrest
  refine ⟨fun p location => ?_, _, _, howned', fun p location hmem hne =>
    Finset.mem_insert_of_mem (hprograms p location hmem hne)⟩
  dsimp only
  by_cases hp : p = result
  · subst hp
    rw [Function.update_self, ProgramCaches.new, hashHasElement_newHashTable]
    refine iff_of_false Bool.false_ne_true ?_
    rintro ⟨hne, hmem⟩
    exact hnew (hprograms p location hmem hne)
  · rw [Function.update_of_ne hp]
    exact h.locations p location

/-- A program that is found was created. -/
theorem Owned.mem_created_of_programError (h : Owned g created deleted) {error : ℕ}
    (hfound : g.programError 0 p error = none) : (0, p) ∈ created := by
  unfold Group.programError at hfound
  cases hlookup : g.lookupCachedShaderObject 0 p with
  | none =>
    rw [hlookup] at hfound
    cases hfound
  | some object =>
    obtain ⟨hobject, hid⟩ := (find?_eq_some_iff (h.tracked.nodup 0)).mp hlookup
    have hmem := ((h.tracked.listed 0 p).mp (List.mem_map.mpr ⟨object, hobject, hid⟩)).1
    rwa [h.cacheOwner] at hmem

/-- A location that is returned is in the cache from then on. -/
theorem Remembers.glGetUniformLocation (h : Remembers ⟨s, returned⟩)
    (hquery : s.glGetUniformLocation p name answer = some (t, location)) :
    Remembers ⟨t, (p, location) :: returned⟩ := by
  obtain ⟨created, deleted, howned, hprograms⟩ := h.programs
  unfold UniformState.glGetUniformLocation at hquery
  split at hquery
  next error _ =>
    cases hquery
    -- The location -1 that is returned with an error is none to be known.
    have hsame := h.congr (s.sameButErrors_glSetError error)
    obtain ⟨created', deleted', howned', hprograms'⟩ := hsame.programs
    refine ⟨fun q location => ?_, created', deleted', howned', fun q location hmem hne => ?_⟩
    · rw [hsame.locations q location, List.mem_cons, Prod.mk.injEq]
      refine and_congr_right fun hne => (or_iff_right ?_).symm
      exact fun heq => hne heq.2
    · rcases List.mem_cons.mp hmem with heq | hmem
      · exact absurd (Prod.mk.inj heq).2 hne
      · exact hprograms' q location hmem hne
  next hfound =>
    have hcreated := howned.mem_created_of_programError hfound
    obtain ⟨⟨caches, result⟩, hcaches, heq⟩ := Option.bind_eq_some_iff.mp hquery
    cases heq
    refine ⟨fun q location => ?_, created, deleted, howned, fun q location hmem hne => ?_⟩
    · by_cases hq : q = p
      · subst hq
        have hbefore := h.locations q location
        dsimp only at hbefore ⊢
        rw [Function.update_self, hasLocation_glGetUniformLocation hcaches, hbefore, List.mem_cons,
          Prod.mk.injEq, and_iff_right rfl, eq_comm (a := result.location), or_comm, and_or_left]
      · have hbefore := h.locations q location
        dsimp only at hbefore ⊢
        rw [Function.update_of_ne hq, hbefore, List.mem_cons, Prod.mk.injEq]
        simp [hq]
    · rcases List.mem_cons.mp hmem with heq | hmem
      · rw [(Prod.mk.inj heq).1]
        exact hcreated
      · exact hprograms q location hmem hne

theorem remembers_of_reachable (h₀ : (uniformSystem F).Reachable h) : Remembers h := by
  refine System.Invariant.holds ⟨?_, ?_⟩ h₀
  · rintro _ ⟨memory, rfl⟩
    exact remembers_init
  · rintro ⟨s, returned⟩ op h' - hs hstep
    obtain ⟨created, deleted, howned, hprograms⟩ := hs.programs
    cases op with
    | glCreateProgram =>
      obtain ⟨⟨t, result⟩, hcreate, rfl⟩ := Option.map_eq_some_iff.mp hstep
      exact hs.glCreateProgram hcreate
    | glUseProgram program =>
      cases hstep
      have hgroup : Remembers
          ⟨{ s with group := (s.group.glUseProgram 0 program).1 }, returned⟩ :=
        ⟨hs.locations, created, deleted, howned.glUseProgram, hprograms⟩
      exact hgroup.congr (s.sameButErrors_glUseProgram program)
    | glDeleteProgram program =>
      cases hstep
      have hgroup : Remembers
          ⟨{ s with group := s.group.glDeleteProgram 0 program }, returned⟩ :=
        ⟨hs.locations, created, _, howned.glDeleteProgram, hprograms⟩
      exact hgroup.congr (s.sameButErrors_glDeleteProgram program)
    | glLinkProgram program =>
      cases hstep
      exact hs.congr (s.sameButErrors_glLinkProgram program)
    | glGetUniformLocation program name answer =>
      obtain ⟨⟨t, location⟩, hquery, rfl⟩ := Option.map_eq_some_iff.mp hstep
      exact hs.glGetUniformLocation hquery
    | glUniform call =>
      cases hstep
      exact hs.congr (s.sameButErrors_glUniform call)

/-! ### Setting uniforms -/

/-- The current program is found. -/
theorem Owned.programError_current (h : Owned g created deleted) {error : ℕ}
    (hcurrent : (g 0).currentProgram ≠ 0) :
    g.programError 0 (g 0).currentProgram error = none := by
  obtain ⟨object, hobject, hid⟩ := List.mem_map.mp (h.tracked.current 0 hcurrent)
  have hlookup : g.lookupCachedShaderObject 0 (g 0).currentProgram = some object :=
    (find?_eq_some_iff (h.tracked.nodup 0)).mpr ⟨hobject, hid⟩
  unfold Group.programError
  rw [hlookup]
  exact if_neg (not_not.mpr (h.tracked.program 0 object hobject).1)

/-- While a program is current, a call with no negative count is passed on if and only if its
location is a known one that was returned for the program. Otherwise nothing is passed on, and
`GL_INVALID_OPERATION` is recorded if no error is pending. -/
theorem forwards_iff_returned (h₀ : (uniformSystem F).Reachable h)
    (hcurrent : h.state.currentProgram ≠ 0) (call : UniformCall F)
    (hcount : ∀ count, call.count = some count → 0 ≤ count) :
    ((h.state.glUniform call).2 = [call] ↔
      call.location ≠ -1 ∧ (h.state.currentProgram, call.location) ∈ h.returned) ∧
    (¬ (call.location ≠ -1 ∧ (h.state.currentProgram, call.location) ∈ h.returned) →
      (h.state.glUniform call).2 = [] ∧
        (h.state.error = glNoError → (h.state.glUniform call).1.error = glInvalidOperation)) := by
  have hs := remembers_of_reachable h₀
  obtain ⟨created, deleted, howned, -⟩ := hs.programs
  have hfound : h.state.programError h.state.currentProgram glInvalidOperation = none :=
    howned.programError_current hcurrent
  -- With or without a count, the location is what is checked.
  have hcheck : h.state.glUniform call =
      h.state.passOn (h.state.synthesizeUniformError call.location) call := by
    rw [UniformState.glUniform_eq]
    cases hcall : call.count with
    | none => rfl
    | some count =>
      dsimp only
      rw [UniformState.synthesizeUniformVectorError, if_neg (Int.not_lt.mpr (hcount count hcall))]
  have herror : h.state.synthesizeUniformError call.location =
      if call.location ≠ -1 ∧ (h.state.currentProgram, call.location) ∈ h.returned then none
      else some glInvalidOperation := by
    unfold UniformState.synthesizeUniformError
    rw [hfound]
    dsimp only
    exact if_congr (hs.locations _ _) rfl rfl
  rw [hcheck, herror]
  split_ifs with hreturned
  · exact ⟨iff_of_true rfl hreturned, fun hnot => absurd hreturned hnot⟩
  · refine ⟨iff_of_false (fun heq => by cases heq) hreturned, fun _ => ⟨rfl, fun hnone => ?_⟩⟩
    change (h.state.glSetError glInvalidOperation).error = glInvalidOperation
    rw [UniformState.glSetError, if_pos hnone]

/-- A program is created, linked and used, and its location 3 is asked for and set. -/
theorem forwards_returned_three : ∃ h : UniformHistory,
    (h.state.glUniform (.glUniform1f 3 (0 : ℕ))).2 = [.glUniform1f 3 0] := by
  let ops : List (UniformOp ℕ) :=
    [.glCreateProgram, .glLinkProgram 1, .glUseProgram 1,
      .glGetUniformLocation 1 ⟨[97], by simp⟩ 3]
  have hresult : (ops.foldlM UniformHistory.step ⟨.init fun _ => 0, []⟩).map (fun h =>
      (h.state.currentProgram, h.returned)) = some (1, [(1, 3)]) := by
    decide +kernel
  obtain ⟨h, hrun, hlast⟩ := Option.map_eq_some_iff.mp hresult
  rw [Prod.mk.injEq] at hlast
  have hreach : (uniformSystem ℕ).Reachable h :=
    System.reachable_of_foldlM (.init ⟨_, rfl⟩) hrun
  refine ⟨h, (forwards_iff_returned hreach ?_ _ ?_).1.mpr ?_⟩
  · rw [hlast.1]
    decide
  · intro count hcount
    cases hcount
  · rw [hlast.1, hlast.2]
    decide

end GpuProxy.Programs
