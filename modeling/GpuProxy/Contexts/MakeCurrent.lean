import GpuProxy.Contexts.Sharing

/-!
# What making a context current does

`caching_client_eglMakeCurrent` goes one of three ways: nothing changes, the client answers
for the driver, or it asks the driver. Where it calls `_caching_client_make_current`, one
state is entered and another one is left, and the rest stays as it is.

## Main definitions

* `MakeCurrentPath`, `makeCurrentPath` — the three ways
* `MadeCurrent` — what `_caching_client_make_current` does to each state

## Main results

* `eglMakeCurrent_cases` — the outcomes of `caching_client_eglMakeCurrent`
* `exists_madeCurrent` — `_caching_client_make_current` does this
-/

namespace GpuProxy.Contexts

open Math State

/-- The ways `caching_client_eglMakeCurrent` goes. -/
inductive MakeCurrentPath
  /-- Nothing to do. -/
  | unchanged
  /-- The driver is not waited for. -/
  | async
  | sync
  deriving DecidableEq, Repr

namespace State

/-- The way `caching_client_eglMakeCurrent` goes. -/
def makeCurrentPath (s : State) (client display draw read context : ℕ) (surfaces : Bool) :
    MakeCurrentPath :=
  match s.activeState client with
  | none => if display = eglNo ∨ context = eglNo then .unchanged else .sync
  | some x =>
    let e := s.heap x
    let displayAndContextMatch := e.display = display ∧ e.context = context
    if displayAndContextMatch ∧ e.drawable = draw ∧ e.readable = read then .unchanged
    else if displayAndContextMatch ∧ surfaces then .async
    else .sync

/-- Whether `caching_client_eglMakeCurrent` calls `_caching_client_make_current`. -/
def switches (path : MakeCurrentPath) (answer : Bool) : Bool :=
  match path with
  | .unchanged => false
  | .async => true
  | .sync => answer

/-- What `caching_client_eglMakeCurrent` returns. -/
def makeCurrentResult (path : MakeCurrentPath) (answer : Bool) : Bool :=
  match path with
  | .unchanged => true
  | .async => true
  | .sync => answer

end State

variable {s t : State} {x y z client display draw read drawable readable context : ℕ}
  {surfaces answer : Bool} {newState destroyed : Option ℕ}

/-- A call of `eglMakeCurrent` does nothing to the states, or what
`_caching_client_make_current` does. -/
theorem eglMakeCurrent_cases
    (h : s.eglMakeCurrent client display draw read context surfaces answer =
      some (t, destroyed)) :
    let path := s.makeCurrentPath client display draw read context surfaces
    (switches path answer = true ∧
        s.makeCurrent client display draw read context = some (t, destroyed)) ∨
      (switches path answer = false ∧ t = s ∧ destroyed = none) := by
  unfold State.eglMakeCurrent at h
  unfold State.makeCurrentPath
  cases hactive : s.activeState client with
  | none =>
    simp only [hactive] at h ⊢
    split at h
    next hnone =>
      cases h
      rw [if_pos hnone]
      exact Or.inr ⟨rfl, rfl, rfl⟩
    next hsome =>
      rw [if_neg hsome]
      cases answer with
      | true => exact Or.inl ⟨rfl, h⟩
      | false =>
        cases h
        exact Or.inr ⟨rfl, rfl, rfl⟩
  | some x =>
    simp only [hactive] at h ⊢
    split at h
    · cases h
    split at h
    next hsame =>
      cases h
      rw [if_pos hsame]
      exact Or.inr ⟨rfl, rfl, rfl⟩
    next hdiffer =>
      rw [if_neg hdiffer]
      split at h
      next hasync =>
        rw [if_pos hasync]
        exact Or.inl ⟨rfl, h⟩
      next hsync =>
        rw [if_neg hsync]
        cases answer with
        | true => exact Or.inl ⟨rfl, h⟩
        | false =>
          cases h
          exact Or.inr ⟨rfl, rfl, rfl⟩

/-- On the two short ways the client has the context already, or has none and is to have
none. -/
theorem context_of_makeCurrentPath_ne_sync
    (h : s.makeCurrentPath client display draw read context surfaces ≠ .sync) :
    (s.activeState client = none ∧ (display = eglNo ∨ context = eglNo)) ∨
      ∃ x, s.activeState client = some x ∧ (s.heap x).display = display ∧
        (s.heap x).context = context := by
  unfold State.makeCurrentPath at h
  cases hactive : s.activeState client with
  | none =>
    simp only [hactive] at h
    by_cases hnone : display = eglNo ∨ context = eglNo
    · exact Or.inl ⟨rfl, hnone⟩
    · exact absurd (if_neg hnone) h
  | some x =>
    simp only [hactive] at h
    by_cases hmatch : (s.heap x).display = display ∧ (s.heap x).context = context
    · exact Or.inr ⟨x, rfl, hmatch.1, hmatch.2⟩
    · simp [hmatch] at h

/-- What `_caching_client_make_current` does, up to the destruction of a state: the client
enters `newState` and leaves the state it had, if that is another one. -/
structure MadeCurrent (s : State) (client display drawable readable context : ℕ)
    (newState : Option ℕ) (t : State) (destroyed : Option ℕ) : Prop where
  newState_iff : newState.isSome ↔ context ≠ eglNo ∧ display ≠ eglNo
  activeState : t.activeState = Function.update s.activeState client newState
  terminating : t.terminating = s.terminating
  mem_iff : ∀ z, z ∈ t.cachedGlStates ↔ z ∈ s.cachedGlStates ∨ newState = some z
  entered : ∀ x, newState = some x → ∃ e, e.display = display ∧ e.context = context ∧
    (x ∈ s.cachedGlStates ∧ e = s.heap x ∨
      x ∉ s.cachedGlStates ∧ e = eglStateInit display context) ∧
    t.heap x = { e with drawable := drawable, readable := readable, active := true }
  left : ∀ x ∈ s.cachedGlStates, s.activeState client = some x → newState ≠ some x →
    t.heap x = deactivate (s.heap x)
  same : ∀ z ∈ s.cachedGlStates, s.activeState client ≠ some z → newState ≠ some z →
    t.heap z = s.heap z
  destroyed : ∀ x, destroyed = some x →
    x ∈ s.cachedGlStates ∧ s.activeState client = some x ∧ newState ≠ some x

/-- What entering a state does. -/
structure Entered (s : State) (display drawable readable context : ℕ) (newState : Option ℕ)
    (t : State) : Prop where
  newState_iff : newState.isSome ↔ context ≠ eglNo ∧ display ≠ eglNo
  activeState : t.activeState = s.activeState
  terminating : t.terminating = s.terminating
  mem_iff : ∀ z, z ∈ t.cachedGlStates ↔ z ∈ s.cachedGlStates ∨ newState = some z
  entered : ∀ x, newState = some x → ∃ e, e.display = display ∧ e.context = context ∧
    (x ∈ s.cachedGlStates ∧ e = s.heap x ∨
      x ∉ s.cachedGlStates ∧ e = eglStateInit display context) ∧
    t.heap x = { e with drawable := drawable, readable := readable, active := true }
  same : ∀ z ∈ s.cachedGlStates, newState ≠ some z → t.heap z = s.heap z

theorem entered_enter (hs : WellFormed s)
    (h : s.enter display drawable readable context = (newState, t)) :
    Entered s display drawable readable context newState t := by
  unfold State.enter at h
  split at h
  next hsome =>
    rcases getOrCreate_cases s display context with ⟨x, hfind, hget⟩ | ⟨hfind, hget⟩
    -- The state is in the list already.
    · rw [hget] at h
      cases h
      obtain ⟨hmem, hdisplay, hcontext⟩ := find_eq_some hfind
      refine ⟨by simpa using hsome, rfl, rfl, ?_, ?_, ?_⟩
      · intro z
        simp only [cachedGlStates_update, Option.some.injEq]
        exact ⟨Or.inl, fun h => h.elim id fun heq => heq ▸ hmem⟩
      · intro y hy
        cases hy
        exact ⟨s.heap x, hdisplay, hcontext, Or.inl ⟨hmem, rfl⟩, heap_update_self⟩
      · intro z _ hne
        exact heap_update_of_ne fun heq => hne (congrArg some heq.symm)
    -- A fresh state goes to the end of the list.
    · rw [hget] at h
      cases h
      have hfresh : s.nextState ∉ s.cachedGlStates := fun hmem =>
        Nat.lt_irrefl _ (hs.lt_nextState _ hmem)
      refine ⟨by simpa using hsome, rfl, rfl, ?_, ?_, ?_⟩
      · intro z
        simp [eq_comm]
      · intro y hy
        cases hy
        refine ⟨eglStateInit display context, rfl, rfl, Or.inr ⟨hfresh, rfl⟩, ?_⟩
        simp
      · intro z hz hne
        rw [heap_update_of_ne fun heq => hne (congrArg some heq.symm)]
        exact Function.update_of_ne (fun heq => hne (congrArg some heq.symm)) _ _
  next hnone =>
    cases h
    refine ⟨by simpa using hnone, rfl, rfl, by simp, by simp, fun _ _ _ => rfl⟩

/-- Leaving the state `x` after entering another one, or none. -/
theorem Entered.madeCurrent_of_left {u : State}
    (hu : Entered s display drawable readable context newState u)
    (hx : s.activeState client = some x) (hne : newState ≠ some x)
    (hlisted : x ∈ s.cachedGlStates) (hdestroyed : destroyed = some x ∨ destroyed = none) :
    MadeCurrent s client display drawable readable context newState
      (({ u with activeState := Function.update s.activeState client newState } : State).update x
        deactivate) destroyed := by
  refine ⟨hu.newState_iff, rfl, hu.terminating, hu.mem_iff, ?_, ?_, ?_, ?_⟩
  · intro y hy
    have hyx : y ≠ x := by
      rintro rfl
      exact hne hy
    rw [heap_update_of_ne hyx]
    exact hu.entered y hy
  · intro y hy hyactive hyne
    cases hx.symm.trans hyactive
    rw [heap_update_self]
    exact congrArg deactivate (hu.same x hlisted hne)
  · intro z hz hzactive hzne
    have hzx : z ≠ x := by
      rintro rfl
      exact hzactive hx
    rw [heap_update_of_ne hzx]
    exact hu.same z hz hzne
  · intro y hy
    rcases hdestroyed with h | h <;> rw [h] at hy <;> cases hy
    exact ⟨hlisted, hx, hne⟩

/-- What `_caching_client_make_current` does. -/
theorem exists_madeCurrent (hs : WellFormed s)
    (h : s.makeCurrent client display drawable readable context = some (t, destroyed)) :
    ∃ newState, MadeCurrent s client display drawable readable context newState t destroyed := by
  rcases henter : s.enter display drawable readable context with ⟨newState, u⟩
  have hu := entered_enter hs henter
  rw [State.makeCurrent, henter] at h
  refine ⟨newState, ?_⟩
  simp only [State.switch, hu.activeState] at h
  split at h
  -- The client has the state already.
  next hsame =>
    cases h
    refine ⟨hu.newState_iff, ?_, hu.terminating, hu.mem_iff, hu.entered, ?_, ?_, by simp⟩
    · rw [hu.activeState, ← hsame, Function.update_eq_self]
    · intro x _ hx hne
      exact absurd (hsame.symm.trans hx) hne
    · intro z hz _ hne
      exact hu.same z hz hne
  next hother =>
    split at h
    next hnone =>
      cases h
      refine ⟨hu.newState_iff, rfl, hu.terminating, hu.mem_iff, hu.entered, ?_, ?_, by simp⟩
      · intro x _ hx
        rw [hnone] at hx
        cases hx
      · intro z hz _ hne
        exact hu.same z hz hne
    next x hx =>
      split at h
      · cases h
      next hmem =>
        have hne : newState ≠ some x := fun heq => hother (hx.trans heq.symm)
        have hlisted : x ∈ s.cachedGlStates :=
          ((hu.mem_iff x).mp (not_not.mp hmem)).resolve_right hne
        split at h
        · cases h
          exact hu.madeCurrent_of_left hx hne hlisted (.inl rfl)
        · cases h
          exact hu.madeCurrent_of_left hx hne hlisted (.inr rfl)

end GpuProxy.Contexts
