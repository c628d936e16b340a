import GpuProxy.Contexts.Destroy

/-!
# When the states in use are kept

A state in use is the `active_state` of a client, or the share context of a listed state.
`contexts_sharing` starts at 0 and not at 1, so it gets to 0 for a state that has one
state sharing it, which is then left without its share context. Here is the condition on
the calls of `_caching_client_destroy_state` under which no state in use leaves the list.

## Main definitions

* `Kept` — the states in use are listed
* `SafeToDestroy` — no state that a destruction removes is in use
* `KeepsNeeded` — the calls that destroy only such states

## Main results

* `wellFormed_invariant` — the list stays well formed in all runs
* `kept_iff_safeToDestroy` — one destruction
* `kept_of_keepsNeeded` — whole runs
* `exists_step` — in such runs calls return, and read no freed state
* `exists_removed_shareContext` — a share context that leaves the list
-/

namespace GpuProxy.Contexts

open Math State

variable {s t u : State} {op : Op} {x y z client display context drawable readable : ℕ}
  {newState destroyed : Option ℕ}

/-- Every share context of a listed state is listed, and so is every client's active state. -/
structure Kept (s : State) : Prop where
  share_mem : ∀ x ∈ s.cachedGlStates, ∀ y, (s.heap x).shareContext = some y → y ∈ s.cachedGlStates
  active_mem : ∀ client x, s.activeState client = some x → x ∈ s.cachedGlStates

/-- Moreover, a listed state is marked active only if some client has it, or is about to
get it. -/
structure Tended (s : State) (newState : Option ℕ) : Prop extends Kept s where
  attended : ∀ x ∈ s.cachedGlStates, (s.heap x).active = true →
    (∃ client, s.activeState client = some x) ∨ newState = some x

/-- A change that keeps the list, the clients' states and what the states share. -/
structure SameUse (s t : State) : Prop where
  cachedGlStates : t.cachedGlStates = s.cachedGlStates
  nextState : t.nextState = s.nextState
  activeState : t.activeState = s.activeState
  display : ∀ z, (t.heap z).display = (s.heap z).display
  context : ∀ z, (t.heap z).context = (s.heap z).context
  shareContext : ∀ z, (t.heap z).shareContext = (s.heap z).shareContext
  active : ∀ z, (t.heap z).active = (s.heap z).active

theorem SameUse.wellFormed (h : SameUse s t) (hs : WellFormed s) : WellFormed t :=
  hs.congr h.cachedGlStates h.nextState fun z => ⟨h.display z, h.context z⟩

theorem SameUse.tended (h : SameUse s t) (hs : Tended s newState) : Tended t newState := by
  refine ⟨⟨fun x hx y hy => ?_, fun c x hx => ?_⟩, fun x hx hactive => ?_⟩
  · rw [h.cachedGlStates] at hx ⊢
    rw [h.shareContext] at hy
    exact hs.share_mem x hx y hy
  · rw [h.activeState] at hx
    exact h.cachedGlStates ▸ hs.active_mem c x hx
  · rw [h.cachedGlStates] at hx
    rw [h.active] at hactive
    rw [h.activeState]
    exact hs.attended x hx hactive

theorem SameUse.refl : SameUse s s :=
  ⟨rfl, rfl, rfl, fun _ => rfl, fun _ => rfl, fun _ => rfl, fun _ => rfl⟩

theorem SameUse.trans (h : SameUse s t) (h' : SameUse t u) : SameUse s u :=
  ⟨h'.cachedGlStates.trans h.cachedGlStates, h'.nextState.trans h.nextState,
    h'.activeState.trans h.activeState, fun z => (h'.display z).trans (h.display z),
    fun z => (h'.context z).trans (h.context z),
    fun z => (h'.shareContext z).trans (h.shareContext z),
    fun z => (h'.active z).trans (h.active z)⟩

theorem sameUse_update {f : EglState → EglState} (hdisplay : ∀ e, (f e).display = e.display)
    (hcontext : ∀ e, (f e).context = e.context)
    (hshare : ∀ e, (f e).shareContext = e.shareContext) (hactive : ∀ e, (f e).active = e.active) :
    SameUse s (s.update x f) :=
  ⟨rfl, rfl, rfl, field_update _ hdisplay, field_update _ hcontext, field_update _ hshare,
    field_update _ hactive⟩

/-- What a call does before it destroys a state: the list may grow, and states in use stay
listed. -/
structure Prepared (s t : State) : Prop where
  wellFormed : WellFormed t
  subset : s.cachedGlStates ⊆ t.cachedGlStates
  tended : Tended s none → Tended t none

/-- Moreover, no client's active state changes. -/
structure Steady (s t : State) : Prop extends Prepared s t where
  activeState : t.activeState = s.activeState

theorem SameUse.steady (h : SameUse s t) (hs : WellFormed s) : Steady s t :=
  ⟨⟨h.wellFormed hs, h.cachedGlStates ▸ List.Subset.refl _, h.tended⟩, h.activeState⟩

theorem Steady.refl (hs : WellFormed s) : Steady s s := ⟨⟨hs, List.Subset.refl _, id⟩, rfl⟩

/-! ### Making a state current -/

theorem Found.tended (h : Found s display context x t) (hs : Tended s newState) :
    Tended t newState := by
  refine ⟨⟨fun z hz y hy => ?_, fun c z hz => ?_⟩, fun z hz hactive => ?_⟩
  · rcases h.fresh z hz with hold | hfresh
    · rw [h.heap_eq z hold] at hy
      exact h.subset (hs.share_mem z hold y hy)
    · rw [hfresh] at hy
      cases hy
  · rw [h.activeState] at hz
    exact h.subset (hs.active_mem c z hz)
  · rcases h.fresh z hz with hold | hfresh
    · rw [h.heap_eq z hold] at hactive
      rw [h.activeState]
      exact hs.attended z hold hactive
    · rw [hfresh] at hactive
      cases hactive

/-- The state to be switched to is listed, and marked active. -/
theorem enter_spec (hs : WellFormed s)
    (h : s.enter display drawable readable context = (newState, t)) :
    WellFormed t ∧ s.cachedGlStates ⊆ t.cachedGlStates ∧
      (∀ x, newState = some x → x ∈ t.cachedGlStates) ∧ t.activeState = s.activeState ∧
      (Tended s none → Tended t newState) := by
  unfold State.enter at h
  split at h
  next =>
    rcases hget : s.getOrCreate display context with ⟨x, u⟩
    have hfound := hs.getOrCreate hget
    rw [hget] at h
    cases h
    refine ⟨hfound.wellFormed.update (fun _ => rfl) fun _ => rfl, hfound.subset, ?_,
      hfound.activeState, fun htended => ?_⟩
    · intro y hy
      cases hy
      exact hfound.mem
    · have hu := hfound.tended htended
      refine ⟨⟨fun z hz y hy => ?_, hu.active_mem⟩, fun z hz hactive => ?_⟩
      · rw [field_update EglState.shareContext] at hy
        · exact hu.share_mem z hz y hy
        · exact fun _ => rfl
      -- Only the state that is entered becomes active.
      · rcases eq_or_ne z x with rfl | hne
        · exact .inr rfl
        · rw [heap_update_of_ne hne] at hactive
          exact .inl ((hu.attended z hz hactive).resolve_right nofun)
  next =>
    cases h
    exact ⟨hs, List.Subset.refl _, nofun, rfl, id⟩

/-- An active state that the client does not leave has a client after the switch. -/
theorem Tended.attended_switch (h : Tended s newState) (hx : x ∈ s.cachedGlStates)
    (hactive : (s.heap x).active = true) (hkept : s.activeState client ≠ some x) :
    ∃ c, Function.update s.activeState client newState c = some x := by
  rcases h.attended x hx hactive with ⟨c, hc⟩ | hnewState
  · refine ⟨c, ?_⟩
    rw [Function.update_of_ne, hc]
    rintro rfl
    exact hkept hc
  · exact ⟨client, by rw [Function.update_self, hnewState]⟩

/-- Switching leaves the list as it is, and the state that is left is not marked active. -/
theorem switch_spec (hs : WellFormed s) (hnew : ∀ x, newState = some x → x ∈ s.cachedGlStates)
    (h : s.switch client newState = some (t, destroyed)) :
    WellFormed t ∧ t.cachedGlStates = s.cachedGlStates ∧
      (Tended s newState → Tended t none) := by
  have hmember : ∀ htended : Tended s newState, ∀ c x,
      Function.update s.activeState client newState c = some x → x ∈ s.cachedGlStates := by
    intro htended c x hx
    rw [Function.update_apply] at hx
    split at hx
    · exact hnew x hx
    · exact htended.active_mem c x hx
  simp only [State.switch] at h
  split at h
  -- Nothing to do: the state that was entered is the one the client has.
  next heq =>
    cases h
    refine ⟨hs, rfl, fun htended => ⟨htended.toKept, fun x hx hactive => ?_⟩⟩
    rcases htended.attended x hx hactive with hclient | hnewState
    · exact .inl hclient
    · exact .inl ⟨client, heq.trans hnewState⟩
  next hne =>
    split at h
    next hcurrent =>
      cases h
      refine ⟨⟨hs.nodup, hs.lt_nextState, hs.unique⟩, rfl,
        fun htended => ⟨⟨htended.share_mem, hmember htended⟩, fun x hx hactive => .inl ?_⟩⟩
      exact htended.attended_switch hx hactive (by simp [hcurrent])
    next x hcurrent =>
      split at h
      next => cases h
      next hlisted =>
      -- Whether the state is then destroyed makes no difference to the rest.
      have ht : t = ({ s with activeState := Function.update s.activeState client newState } :
          State).update x deactivate := by
        split at h <;> cases h <;> rfl
      subst ht
      refine ⟨WellFormed.update ⟨hs.nodup, hs.lt_nextState, hs.unique⟩ (fun _ => rfl) fun _ => rfl,
        rfl, fun htended => ⟨⟨fun z hz y hy => ?_, hmember htended⟩, fun z hz hactive => .inl ?_⟩⟩
      · rw [field_update EglState.shareContext] at hy
        · exact htended.share_mem z hz y hy
        · exact fun _ => rfl
      -- The state that is left is not active any more, so `z` is another one.
      · have hzx : z ≠ x := by
          rintro rfl
          rw [heap_update_self] at hactive
          cases hactive
        rw [heap_update_of_ne hzx] at hactive
        refine htended.attended_switch hz hactive fun hz => hzx ?_
        exact (Option.some.inj (hcurrent.symm.trans hz)).symm

theorem prepared_makeCurrent (hs : WellFormed s)
    (h : s.makeCurrent client display drawable readable context = some (t, destroyed)) :
    Prepared s t := by
  rcases henter : s.enter display drawable readable context with ⟨newState, u⟩
  obtain ⟨hu, hsubset, hnew, -, htended⟩ := enter_spec hs henter
  rw [State.makeCurrent, henter] at h
  obtain ⟨ht, hlist, hswitch⟩ := switch_spec hu hnew h
  exact ⟨ht, hlist ▸ hsubset, fun hs => hswitch (htended hs)⟩

/-! ### The other calls -/

/-- Making a context share another one: both states are listed. -/
theorem steady_eglCreateContext {shareContext result : ℕ} (hs : WellFormed s) :
    Steady s (s.eglCreateContext display shareContext result) := by
  unfold State.eglCreateContext
  split
  · exact .refl hs
  split
  · rcases hx : s.getOrCreate display result with ⟨x, u⟩
    have hfoundx := hs.getOrCreate hx
    simp only
    rcases hy : u.getOrCreate display shareContext with ⟨y, t⟩
    have hfoundy := hfoundx.wellFormed.getOrCreate hy
    simp only
    set f : EglState → EglState := fun e => { e with shareContext := some y } with hf
    have hwell : WellFormed ((t.update x f).update y increment) := by
      refine WellFormed.update (WellFormed.update hfoundy.wellFormed ?_ ?_) ?_ ?_ <;>
        exact fun _ => rfl
    refine ⟨⟨hwell, List.Subset.trans hfoundx.subset hfoundy.subset, fun htended => ?_⟩,
      hfoundy.activeState.trans hfoundx.activeState⟩
    have ht := hfoundy.tended (hfoundx.tended htended)
    refine ⟨⟨fun z hz w hw => ?_, ht.active_mem⟩, fun z hz hactive => ?_⟩
    -- The one new share context was looked up just before.
    · rw [field_update EglState.shareContext] at hw
      · rcases eq_or_ne z x with rfl | hne
        · rw [heap_update_self, hf] at hw
          cases hw
          exact hfoundy.mem
        · rw [heap_update_of_ne hne] at hw
          exact ht.share_mem z hz w hw
      · exact fun _ => rfl
    · rw [field_update EglState.active, field_update EglState.active] at hactive
      · exact ht.attended z hz hactive
      · exact fun _ => rfl
      · exact fun _ => rfl
  · exact .refl hs

theorem sameUse_eglDestroyContext (display context : ℕ) (answer : Bool) :
    SameUse s (s.eglDestroyContext display context answer).1 := by
  unfold State.eglDestroyContext
  split
  · split
    · exact .refl
    · split
      · simp only
        apply sameUse_update <;> exact fun _ => rfl
      · exact .refl
  · exact .refl

theorem sameUse_eglDestroySurface {surface : ℕ} {answer : Bool} :
    SameUse s (s.eglDestroySurface client display surface answer) := by
  unfold State.eglDestroySurface
  split
  · refine ⟨rfl, rfl, rfl, ?_, ?_, ?_, ?_⟩ <;> intro z <;> simp only <;> split <;> try rfl
    all_goals simp only [State.markSurface]; split <;> rfl
  · exact .refl

theorem sameUse_eglTerminate {answer : Bool} :
    SameUse s (s.eglTerminate client display answer) := by
  unfold State.eglTerminate
  split
  · exact ⟨rfl, rfl, rfl, fun _ => rfl, fun _ => rfl, fun _ => rfl, fun _ => rfl⟩
  · exact .refl

theorem sameUse_terminateRound {l : Terminating}
    (h : s.terminateRound l = some (t, destroyed)) : SameUse s t := by
  have hloop : ∀ terminating, SameUse s { s with terminating := terminating } := fun _ =>
    ⟨rfl, rfl, rfl, fun _ => rfl, fun _ => rfl, fun _ => rfl, fun _ => rfl⟩
  unfold State.terminateRound at h
  split at h
  · split at h
    · cases h
    · simp only at h
      split at h <;> cases h <;> exact hloop _
  · simp only at h
    split at h
    · split at h
      · cases h
      · split at h
        · cases h
          refine SameUse.trans (hloop none) (sameUse_update ?_ ?_ ?_ ?_) <;> exact fun _ => rfl
        · cases h
          exact hloop _
    · cases h
      exact hloop _

/-- A call makes a state current, or changes no client's active state. -/
theorem run_cases (hs : WellFormed s) (h : run s op = some (t, destroyed)) :
    (∃ client display drawable readable context,
      s.makeCurrent client display drawable readable context = some (t, destroyed)) ∨
      Steady s t := by
  have hnothing : ∀ {r : State × Option ℕ}, some r = some (t, destroyed) → r.1 = s →
      Steady s t := by
    rintro r heq rfl
    cases heq
    exact .refl hs
  unfold run at h
  split at h
  next =>
    cases h
    exact .inr (steady_eglCreateContext hs)
  next =>
    unfold State.eglMakeCurrent at h
    split at h
    · split at h
      · exact .inr (hnothing h rfl)
      · split at h
        · exact .inl ⟨_, _, _, _, _, h⟩
        · exact .inr (hnothing h rfl)
    · simp only at h
      split at h
      · cases h
      · split at h
        · exact .inr (hnothing h rfl)
        · split at h
          · exact .inl ⟨_, _, _, _, _, h⟩
          · split at h
            · exact .inl ⟨_, _, _, _, _, h⟩
            · exact .inr (hnothing h rfl)
  next =>
    unfold State.eglReleaseThread at h
    split at h
    · exact .inl ⟨_, _, _, _, _, h⟩
    · exact .inr (hnothing h rfl)
  next display context answer _ =>
    have hsame := sameUse_eglDestroyContext (s := s) display context answer
    rw [Option.some.inj h] at hsame
    exact .inr (hsame.steady hs)
  next =>
    cases h
    exact .inr (sameUse_eglDestroySurface.steady hs)
  next =>
    cases h
    exact .inr (sameUse_eglTerminate.steady hs)
  next => exact .inr ((sameUse_terminateRound h).steady hs)
  next => cases h

theorem prepared_run (hs : WellFormed s) (h : run s op = some (t, destroyed)) : Prepared s t := by
  rcases run_cases hs h with ⟨client, display, drawable, readable, context, hmake⟩ | hsteady
  · exact prepared_makeCurrent hs hmake
  · exact hsteady.toPrepared

/-- A call is what it does before, and a destruction if there is one. -/
theorem step_cases (hs : WellFormed s) (h : step s op = some t) :
    (run s op = some (t, none) ∧ Prepared s t) ∨
      ∃ u x, run s op = some (u, some x) ∧ Prepared s u ∧ Destroyed u x t := by
  obtain ⟨⟨u, destroyed⟩, hrun, hfinish⟩ := Option.bind_eq_some_iff.mp h
  have hprepared := prepared_run hs hrun
  cases destroyed with
  | none =>
    cases hfinish
    exact .inl ⟨hrun, hprepared⟩
  | some x =>
    exact .inr ⟨u, x, hrun, hprepared, destroyState_spec hprepared.wellFormed.nodup hfinish⟩

/-! ### Calls return -/

/-- No call runs in the loop of `eglTerminate`, and its rounds only there, with a saved
state that was not freed. -/
def Allowed (s : State) (op : Op) : Prop :=
  match s.terminating with
  | none => op ≠ .terminateRound
  | some l => op = .terminateRound ∧ ∀ x, l.list = some x → x ∈ s.cachedGlStates

theorem exists_makeCurrent_of_tended (hs : WellFormed s) (htended : Tended s none) :
    ∃ u destroyed, s.makeCurrent client display drawable readable context = some (u, destroyed) ∧
      ∀ x, destroyed = some x → x ∈ u.cachedGlStates := by
  rcases henter : s.enter display drawable readable context with ⟨newState, v⟩
  obtain ⟨-, -, -, -, hv⟩ := enter_spec hs henter
  simp only [State.makeCurrent, henter, State.switch]
  split
  · exact ⟨_, _, rfl, nofun⟩
  · split
    · exact ⟨_, _, rfl, nofun⟩
    next x hcurrent =>
      have hx := (hv htended).active_mem client x hcurrent
      rw [if_neg (not_not.mpr hx)]
      split
      · refine ⟨_, _, rfl, fun y hy => ?_⟩
        cases hy
        exact hx
      · exact ⟨_, _, rfl, nofun⟩

theorem exists_eglMakeCurrent {draw read : ℕ} {surfaces answer : Bool} (hs : WellFormed s)
    (htended : Tended s none) :
    ∃ u destroyed,
      s.eglMakeCurrent client display draw read context surfaces answer = some (u, destroyed) ∧
      ∀ x, destroyed = some x → x ∈ u.cachedGlStates := by
  unfold State.eglMakeCurrent
  split
  · split
    · exact ⟨_, _, rfl, nofun⟩
    · split
      · exact exists_makeCurrent_of_tended hs htended
      · exact ⟨_, _, rfl, nofun⟩
  next x hcurrent =>
    rw [if_neg (not_not.mpr (htended.active_mem client x hcurrent))]
    simp only
    split
    · exact ⟨_, _, rfl, nofun⟩
    · split
      · exact exists_makeCurrent_of_tended hs htended
      · split
        · exact exists_makeCurrent_of_tended hs htended
        · exact ⟨_, _, rfl, nofun⟩

theorem exists_terminateRound {l : Terminating} (htended : Tended s none)
    (hsaved : ∀ x, l.list = some x → x ∈ s.cachedGlStates) :
    ∃ u destroyed, s.terminateRound l = some (u, destroyed) ∧
      ∀ x, destroyed = some x → x ∈ u.cachedGlStates := by
  unfold State.terminateRound
  split
  next x hx =>
    rw [if_neg (not_not.mpr (hsaved x hx))]
    simp only
    split
    · refine ⟨_, _, rfl, fun y hy => ?_⟩
      cases hy
      exact hsaved x hx
    · exact ⟨_, _, rfl, nofun⟩
  next =>
    simp only
    split
    next x hcurrent =>
      rw [if_neg (not_not.mpr (htended.active_mem l.client x hcurrent))]
      split <;> exact ⟨_, _, rfl, nofun⟩
    next => exact ⟨_, _, rfl, nofun⟩

theorem exists_run (hs : WellFormed s) (htended : Tended s none) (hallowed : Allowed s op) :
    ∃ u destroyed, run s op = some (u, destroyed) ∧
      ∀ x, destroyed = some x → x ∈ u.cachedGlStates := by
  unfold Allowed at hallowed
  split at hallowed
  next hidle =>
    cases op with
    | eglCreateContext | eglDestroySurface | eglTerminate =>
      simp only [run, hidle]
      exact ⟨_, _, rfl, nofun⟩
    | eglMakeCurrent client display draw read context surfaces answer =>
      simp only [run, hidle]
      exact exists_eglMakeCurrent hs htended
    | eglReleaseThread client answer =>
      simp only [run, hidle, State.eglReleaseThread]
      split
      · exact exists_makeCurrent_of_tended hs htended
      · exact ⟨_, _, rfl, nofun⟩
    | eglDestroyContext display context answer =>
      simp only [run, hidle, State.eglDestroyContext]
      split
      · split
        · exact ⟨_, _, rfl, nofun⟩
        next y hfind =>
          split
          · exact ⟨_, _, rfl, nofun⟩
          · refine ⟨_, _, rfl, fun x hx => ?_⟩
            cases hx
            exact (find_eq_some hfind).1
      · exact ⟨_, _, rfl, nofun⟩
    | terminateRound => exact absurd rfl hallowed
  next l hloop =>
    obtain ⟨rfl, hsaved⟩ := hallowed
    simp only [run, hloop]
    exact exists_terminateRound htended hsaved

/-- As long as the states in use are listed, every call returns and reads no freed state,
but for the state `eglTerminate` has saved. -/
theorem exists_step (hs : WellFormed s) (htended : Tended s none) (hallowed : Allowed s op) :
    ∃ t, step s op = some t := by
  obtain ⟨u, destroyed, hrun, hlisted⟩ := exists_run hs htended hallowed
  have hprepared := prepared_run hs hrun
  rw [step, hrun]
  cases destroyed with
  | none => exact ⟨u, rfl⟩
  | some x =>
    refine exists_destroyState (hprepared.tended htended).share_mem (hlisted x rfl) ?_
    have hsubset : counted u ⊆ Finset.range u.nextState := fun z hz => by
      simp only [counted, Finset.mem_filter, List.mem_toFinset] at hz
      exact Finset.mem_range.mpr (hprepared.wellFormed.lt_nextState z hz.1)
    have hcard := Finset.card_le_card hsubset
    rw [Finset.card_range] at hcard
    omega

/-! ### Whole runs -/

theorem wellFormed_initial : WellFormed initial := by
  constructor <;> simp [initial]

theorem wellFormed_step (hs : WellFormed s) (h : step s op = some t) : WellFormed t := by
  rcases step_cases hs h with ⟨-, hprepared⟩ | ⟨u, x, -, hprepared, hdestroyed⟩
  · exact hprepared.wellFormed
  · exact hprepared.wellFormed.destroyed hdestroyed

theorem wellFormed_invariant : system.Invariant WellFormed where
  init := by
    rintro _ rfl
    exact wellFormed_initial
  step _ _ _ _ hs hstep := wellFormed_step hs hstep

/-- None of the states that go when `x` is destroyed is some client's active state or the
share context of a listed state that stays. -/
def SafeToDestroy (s : State) (x : ℕ) : Prop :=
  ∀ z, Doomed s x z → (∀ client, s.activeState client ≠ some z) ∧
    ∀ w ∈ s.cachedGlStates, (s.heap w).shareContext = some z → Doomed s x w

/-- The call destroys a state only where that is safe. -/
def KeepsNeeded (s : State) (op : Op) : Prop :=
  ∀ u x, run s op = some (u, some x) → SafeToDestroy u x

/-- A destruction keeps the states in use exactly if it is safe. -/
theorem kept_iff_safeToDestroy (hs : Kept s) (hd : Destroyed s x t) :
    Kept t ↔ SafeToDestroy s x := by
  have hshare : ∀ w, (t.heap w).shareContext = (s.heap w).shareContext := fun w => by
    obtain ⟨n, hn⟩ := hd.heap w
    rw [hn]
  constructor
  · intro ht z hz
    have hgone : z ∉ t.cachedGlStates := fun hmem => ((hd.mem_iff z).mp hmem).2 hz
    refine ⟨fun c hc => hgone (ht.active_mem c z ?_), fun w hw hwz => ?_⟩
    · rw [hd.activeState]
      exact hc
    · by_contra hstays
      refine hgone (ht.share_mem w ((hd.mem_iff w).mpr ⟨hw, hstays⟩) z ?_)
      rw [hshare]
      exact hwz
  · refine fun hsafe => ⟨fun w hw z hwz => ?_, fun c z hz => ?_⟩
    · obtain ⟨hw, hstays⟩ := (hd.mem_iff w).mp hw
      rw [hshare] at hwz
      exact (hd.mem_iff z).mpr ⟨hs.share_mem w hw z hwz,
        fun hdoomed => hstays ((hsafe z hdoomed).2 w hw hwz)⟩
    · rw [hd.activeState] at hz
      exact (hd.mem_iff z).mpr ⟨hs.active_mem c z hz, fun hdoomed => (hsafe z hdoomed).1 c hz⟩

theorem tended_step (hwell : WellFormed s) (hs : Tended s none) (hkeeps : KeepsNeeded s op)
    (h : step s op = some t) : Tended t none := by
  rcases step_cases hwell h with ⟨-, hprepared⟩ | ⟨u, x, hrun, hprepared, hdestroyed⟩
  · exact hprepared.tended hs
  -- The call leaves the states in use listed, and so does the destruction.
  · have hu := hprepared.tended hs
    refine ⟨(kept_iff_safeToDestroy hu.toKept hdestroyed).mpr (hkeeps u x hrun), ?_⟩
    intro z hz hactive
    obtain ⟨n, hn⟩ := hdestroyed.heap z
    rw [hn] at hactive
    rw [hdestroyed.activeState]
    exact hu.attended z (hdestroyed.sublist.subset hz) hactive

theorem tended_invariant : (system.guarded KeepsNeeded).Invariant fun s => Tended s none where
  init := by
    rintro _ rfl
    constructor
    · constructor <;> simp [initial]
    · simp [initial]
  step s _ _ hreach hs := by
    rintro ⟨hkeeps, hstep⟩
    exact tended_step (wellFormed_invariant.holds hreach.of_guarded) hs hkeeps hstep

/-- In every run whose calls destroy states only where that is safe, the states in use are
listed, and a call removes from the list only states that are not active, that no client
has and that no state left in the list shares. -/
theorem kept_of_keepsNeeded (hs : (system.guarded KeepsNeeded).Reachable s) :
    Kept s ∧ ∀ op t, KeepsNeeded s op → step s op = some t →
      ∀ z ∈ s.cachedGlStates, z ∉ t.cachedGlStates →
        (t.heap z).active = false ∧ (∀ client, t.activeState client ≠ some z) ∧
          ∀ w ∈ t.cachedGlStates, (t.heap w).shareContext ≠ some z := by
  have htended := tended_invariant.holds hs
  have hwell := wellFormed_invariant.holds hs.of_guarded
  refine ⟨htended.toKept, fun op t hkeeps hstep z hz hgone => ?_⟩
  have ht := tended_step hwell htended hkeeps hstep
  refine ⟨?_, fun c hc => hgone (ht.active_mem c z hc),
    fun w hw hwz => hgone (ht.share_mem w hw z hwz)⟩
  rcases step_cases hwell hstep with ⟨-, hprepared⟩ | ⟨u, x, -, hprepared, hdestroyed⟩
  · exact absurd (hprepared.subset hz) hgone
  · obtain ⟨n, hn⟩ := hdestroyed.heap z
    rw [hn]
    by_contra hactive
    have hu := hprepared.tended htended
    obtain ⟨c, hc⟩ := (hu.attended z (hprepared.subset hz) (by simpa using hactive)).resolve_right
      nofun
    rw [← hdestroyed.activeState] at hc
    exact hgone (ht.active_mem c z hc)

/-- A destruction of a state that is not counted 1 removes nothing. -/
theorem safeToDestroy_of_ne_one (h : (s.heap x).contextsSharing ≠ 1) : SafeToDestroy s x :=
  fun _ hdoomed => absurd hdoomed.1 h

/-- The call destroys no state that is counted 1. -/
def destroysNone (s : State) (op : Op) : Bool :=
  match run s op with
  | some (u, some x) => (u.heap x).contextsSharing ≠ 1
  | _ => true

theorem keepsNeeded_of_destroysNone (h : destroysNone s op = true) : KeepsNeeded s op := by
  intro u x hrun
  rw [destroysNone, hrun] at h
  exact safeToDestroy_of_ne_one (by simpa using h)

/-- A context is made and made current, another one is made that shares it and destroyed,
and the thread is released. -/
def sharingRun : List Op :=
  [.eglCreateContext 1 0 10, .eglMakeCurrent 0 1 5 5 10 false true, .eglCreateContext 1 10 11,
    .eglDestroyContext 1 11 true, .eglReleaseThread 0 true]

theorem kept_of_keepsNeeded_sharingRun : ∃ s,
    sharingRun.foldlM (fun u op => if destroysNone u op then step u op else none) initial =
      some s ∧ s.cachedGlStates = [0, 1] ∧ Kept s := by
  have hrun : (sharingRun.foldlM (fun u op => if destroysNone u op then step u op else none)
      initial).map (·.cachedGlStates) = some [0, 1] := by
    decide +kernel
  obtain ⟨s, hs, hlist⟩ := Option.map_eq_some_iff.mp hrun
  exact ⟨s, hs, hlist, (kept_of_keepsNeeded (System.guarded_of_foldlM (fun _ _ _ h => h)
    (fun _ _ => keepsNeeded_of_destroysNone) (.init rfl) hs)).1⟩

/-- A context is made, another one is made that shares it, and the first is destroyed. -/
def orphaningRun : List Op :=
  [.eglCreateContext 1 0 10, .eglCreateContext 1 10 11, .eglDestroyContext 1 10 true]

/-- The state of the first context is counted 1 and removed; the other one, which stays in
the list, has it as its share context. -/
theorem exists_removed_shareContext : ∃ s,
    orphaningRun.foldlM step initial = some s ∧ system.Reachable s ∧
      s.cachedGlStates = [0] ∧ (s.heap 0).shareContext = some 1 ∧ ¬Kept s := by
  have hrun : (orphaningRun.foldlM step initial).map
      (fun s => (s.cachedGlStates, (s.heap 0).shareContext)) = some ([0], some 1) := by
    decide +kernel
  obtain ⟨s, hs, hobserved⟩ := Option.map_eq_some_iff.mp hrun
  simp only [Prod.mk.injEq] at hobserved
  obtain ⟨hlist, hshare⟩ := hobserved
  refine ⟨s, hs, System.reachable_of_foldlM (.init rfl) hs, hlist, hshare, fun hkept => ?_⟩
  have hmem := hkept.share_mem 0 (by simp [hlist]) 1 hshare
  simp [hlist] at hmem

end GpuProxy.Contexts
