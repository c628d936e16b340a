import GpuProxy.Contexts.Sharing

/-!
# What is left of a destroyed context

When a context is destroyed, its cached state should leave the list, so that a later
context with the same handle starts from a fresh one. The state leaves it exactly if
`contexts_sharing` is 1 at that moment; for a context that was never shared it is 0, and
the count wraps around instead.

## Main definitions

* `CachedFor` — a listed state for a display and a context
* `Forgotten` — there is none

## Main results

* `getOrCreate_of_forgotten` — then the next state for the context is a fresh one
* `forgotten_iff` — when the destruction of a context leaves nothing behind
* `exists_remembered` — a context that was made current once, and released
-/

namespace GpuProxy.Contexts

open Math State

variable {s t u : State} {op : Op} {x y client display context drawable readable : ℕ}
  {destroyed newState : Option ℕ}

/-- `x` is a cached state for a context. -/
structure CachedFor (s : State) (display context x : ℕ) : Prop where
  mem : x ∈ s.cachedGlStates
  display_eq : (s.heap x).display = display
  context_eq : (s.heap x).context = context

/-- No state is cached for a context. -/
def Forgotten (s : State) (display context : ℕ) : Prop := ∀ x, ¬CachedFor s display context x

/-- No listed state has `x` as its share context. -/
def Unshared (s : State) (x : ℕ) : Prop :=
  ∀ w ∈ s.cachedGlStates, (s.heap w).shareContext ≠ some x

theorem forgotten_iff_find_eq_none :
    Forgotten s display context ↔ s.find display context = none := by
  rw [find_eq_none_iff]
  constructor
  · exact fun h x hx hdisplay hcontext => h x ⟨hx, hdisplay, hcontext⟩
  · exact fun h x hx => h x hx.mem hx.display_eq hx.context_eq

/-- The next state for a forgotten context is a fresh one. -/
theorem getOrCreate_of_forgotten (h : Forgotten s display context)
    (hget : s.getOrCreate display context = (x, t)) : t.heap x = eglStateInit display context := by
  rw [forgotten_iff_find_eq_none] at h
  rw [State.getOrCreate, h] at hget
  cases hget
  exact Function.update_self _ _ _

/-- Destroying the cached state of a context leaves none exactly if the state is counted 1. -/
theorem forgotten_iff_of_destroyed (hs : WellFormed s) (hx : CachedFor s display context x)
    (hd : Destroyed s x t) : Forgotten t display context ↔ (s.heap x).contextsSharing = 1 := by
  have hfields : ∀ y, (t.heap y).display = (s.heap y).display ∧
      (t.heap y).context = (s.heap y).context := fun y => by
    obtain ⟨n, hn⟩ := hd.heap y
    rw [hn]
    exact ⟨rfl, rfl⟩
  rw [← doomed_self_iff]
  constructor
  · intro hforgotten
    by_contra hstays
    exact hforgotten x ⟨(hd.mem_iff x).mpr ⟨hx.mem, hstays⟩, (hfields x).1.trans hx.display_eq,
      (hfields x).2.trans hx.context_eq⟩
  · intro hdoomed y hy
    have hmem := (hd.mem_iff y).mp hy.mem
    -- The list has one state for a context at most.
    have hxy : y = x := hs.unique y hmem.1 x hx.mem
      ((hfields y).1.symm.trans (hy.display_eq.trans hx.display_eq.symm))
      ((hfields y).2.symm.trans (hy.context_eq.trans hx.context_eq.symm))
    exact hmem.2 (hxy ▸ hdoomed)

/-! ### The two ways a context is destroyed -/

theorem forgotten_eglDestroyContext (hs : WellFormed s)
    (hinactive : ∀ x, CachedFor s display context x → (s.heap x).active = false)
    (h : step s (.eglDestroyContext display context true) = some t) :
    Forgotten t display context ↔
      ∀ x, CachedFor s display context x → (s.heap x).contextsSharing = 1 := by
  have hidle : s.terminating = none := by
    by_contra hloop
    obtain ⟨l, hl⟩ := Option.ne_none_iff_exists'.mp hloop
    simp [step, run, hl] at h
  rcases hfind : s.find display context with _ | x
  · have hnone := forgotten_iff_find_eq_none.mpr hfind
    have hrun : run s (.eglDestroyContext display context true) = some (s, none) := by
      simp [run, hidle, State.eglDestroyContext, hfind]
    rw [step, hrun] at h
    cases h
    exact iff_of_true hnone fun x hx => absurd hx (hnone x)
  · obtain ⟨hmem, hdisplay, hcontext⟩ := find_eq_some hfind
    have hx : CachedFor s display context x := ⟨hmem, hdisplay, hcontext⟩
    have hrun : run s (.eglDestroyContext display context true) = some (s, some x) := by
      simp [run, hidle, State.eglDestroyContext, hfind, hinactive x hx]
    rw [step, hrun] at h
    rw [forgotten_iff_of_destroyed hs hx (destroyState_spec hs.nodup h)]
    constructor
    · intro hone y hy
      rw [hs.unique y hy.mem x hmem (hy.display_eq.trans hdisplay.symm)
        (hy.context_eq.trans hcontext.symm)]
      exact hone
    · exact fun hone => hone x hx

/-- Making a state current changes none of the other states in the list. -/
theorem heap_enter (hs : WellFormed s)
    (h : s.enter display drawable readable context = (newState, t)) (hx : x ∈ s.cachedGlStates)
    (hne : newState ≠ some x) : t.heap x = s.heap x := by
  unfold State.enter at h
  split at h
  next =>
    rcases hget : s.getOrCreate display context with ⟨y, u⟩
    have hfound := hs.getOrCreate hget
    rw [hget] at h
    cases h
    rw [heap_update_of_ne fun heq => hne (congrArg some heq.symm), hfound.heap_eq x hx]
  next =>
    cases h
    rfl

/-- A client that leaves a state whose context was destroyed destroys the state. -/
theorem switch_destroys (hcurrent : s.activeState client = some x)
    (hdestroy : (s.heap x).destroyCtx = true) (hne : newState ≠ some x)
    (h : s.switch client newState = some (t, destroyed)) :
    destroyed = some x ∧ t.heap x = deactivate (s.heap x) := by
  simp only [State.switch, hcurrent, if_neg hne.symm] at h
  split at h
  · cases h
  · rw [if_pos] at h
    · cases h
      exact ⟨rfl, heap_update_self⟩
    · rw [heap_update_self]
      exact .inr hdestroy

theorem activeState_switch (h : s.switch client newState = some (t, destroyed)) :
    t.activeState = Function.update s.activeState client newState := by
  simp only [State.switch] at h
  split at h
  next heq =>
    cases h
    rw [← heq, Function.update_eq_self]
  next =>
    split at h
    · cases h
      rfl
    · split at h
      · cases h
      · split at h <;> cases h <;> rfl

/-- A client switches away from a state whose context was destroyed. -/
theorem forgotten_makeCurrent (hs : WellFormed s) (hx : x ∈ s.cachedGlStates)
    (hcurrent : s.activeState client = some x) (hdestroy : (s.heap x).destroyCtx = true)
    (h : s.makeCurrent client display drawable readable context = some (u, destroyed))
    (hleft : u.activeState client ≠ some x) (hfinish : finish (u, destroyed) = some t) :
    Forgotten t (s.heap x).display (s.heap x).context ↔ (s.heap x).contextsSharing = 1 := by
  rcases henter : s.enter display drawable readable context with ⟨newState, v⟩
  obtain ⟨hv, hsubset, hnew, hactive, -⟩ := enter_spec hs henter
  rw [State.makeCurrent, henter] at h
  rw [activeState_switch h, Function.update_self] at hleft
  -- Entering another state leaves this one as it was, its destroy flag and count included.
  have hheap := heap_enter hs henter hx hleft
  obtain ⟨rfl, hu⟩ := switch_destroys (hactive ▸ hcurrent) (hheap ▸ hdestroy) hleft h
  obtain ⟨hwell, hlist, -⟩ := switch_spec hv hnew h
  rw [hheap] at hu
  have hcached : CachedFor u (s.heap x).display (s.heap x).context x := by
    refine ⟨hlist ▸ hsubset hx, ?_, ?_⟩ <;> rw [hu] <;> rfl
  rw [forgotten_iff_of_destroyed hwell hcached (destroyState_spec hwell.nodup hfinish), hu]
  rfl

/-- Only making a state current changes the client's active state. -/
theorem exists_makeCurrent (hs : WellFormed s) (h : run s op = some (u, destroyed))
    (hne : u.activeState client ≠ s.activeState client) :
    ∃ display drawable readable context,
      s.makeCurrent client display drawable readable context = some (u, destroyed) := by
  rcases run_cases hs h with ⟨c, display, drawable, readable, context, hmake⟩ | hsteady
  · rcases eq_or_ne client c with rfl | hother
    · exact ⟨display, drawable, readable, context, hmake⟩
    · rcases henter : s.enter display drawable readable context with ⟨newState, v⟩
      obtain ⟨-, -, -, hactive, -⟩ := enter_spec hs henter
      rw [State.makeCurrent, henter] at hmake
      rw [activeState_switch hmake, Function.update_of_ne hother, hactive] at hne
      exact absurd rfl hne
  · rw [hsteady.activeState] at hne
    exact absurd rfl hne

theorem forgotten_of_leaving (hs : WellFormed s) (hx : x ∈ s.cachedGlStates)
    (hcurrent : s.activeState client = some x) (hdestroy : (s.heap x).destroyCtx = true)
    (h : step s op = some t) (hleft : t.activeState client ≠ some x) :
    Forgotten t (s.heap x).display (s.heap x).context ↔ (s.heap x).contextsSharing = 1 := by
  obtain ⟨⟨u, destroyed⟩, hrun, hfinish⟩ := Option.bind_eq_some_iff.mp h
  have hactive : t.activeState = u.activeState := by
    cases destroyed with
    | none =>
      cases hfinish
      rfl
    | some y =>
      exact (destroyState_spec (prepared_run hs hrun).wellFormed.nodup hfinish).activeState
  rw [hactive] at hleft
  obtain ⟨_, _, _, _, hmake⟩ := exists_makeCurrent hs hrun (hcurrent ▸ hleft)
  exact forgotten_makeCurrent hs hx hcurrent hdestroy hmake hleft hfinish

/-! ### Whole runs -/

/-- In every run: destroying a context that is not active, and switching away from one that
was destroyed while active, leave no state for the context exactly if its state was counted
1 or there was none; and a context without a state gets a fresh one. -/
theorem forgotten_iff (hs : system.Reachable s) :
    (∀ display context t,
      (∀ x, CachedFor s display context x → (s.heap x).active = false ∧ Unshared s x) →
      step s (.eglDestroyContext display context true) = some t →
      (Forgotten t display context ↔
        ∀ x, CachedFor s display context x → (s.heap x).contextsSharing = 1)) ∧
    (∀ client x op t, s.activeState client = some x → x ∈ s.cachedGlStates →
      (s.heap x).destroyCtx = true → Unshared s x → step s op = some t →
      t.activeState client ≠ some x →
      (Forgotten t (s.heap x).display (s.heap x).context ↔ (s.heap x).contextsSharing = 1)) ∧
    ∀ display context x t, Forgotten s display context →
      s.getOrCreate display context = (x, t) → t.heap x = eglStateInit display context := by
  have hwell := wellFormed_invariant.holds hs
  refine ⟨fun display context t hunused hstep => ?_,
    fun client x op t hcurrent hx hdestroy _ hstep hleft => ?_,
    fun display context x t hforgotten hget => getOrCreate_of_forgotten hforgotten hget⟩
  · exact forgotten_eglDestroyContext hwell (fun x hx => (hunused x hx).1) hstep
  · exact forgotten_of_leaving hwell hx hcurrent hdestroy hstep hleft

/-- A context is made, made current and released. -/
def releasedRun : List Op :=
  [.eglCreateContext 1 0 10, .eglMakeCurrent 0 1 5 5 10 false true, .eglReleaseThread 0 true]

/-- Its state is counted 0, and destroying the context leaves it in the list. -/
theorem exists_releasedRun : ∃ s t, releasedRun.foldlM step initial = some s ∧
    system.Reachable s ∧ step s (.eglDestroyContext 1 10 true) = some t ∧
    s.cachedGlStates = [0] ∧ (s.heap 0).active = false ∧ (s.heap 0).shareContext = none ∧
    CachedFor t 1 10 0 ∧ (t.heap 0).contextsSharing = -1 := by
  have hrun : ((releasedRun.foldlM step initial).bind fun s =>
      (step s (.eglDestroyContext 1 10 true)).map fun t => (s, t)).map
        (fun p => ((p.1.cachedGlStates, (p.1.heap 0).active, (p.1.heap 0).shareContext),
          p.2.cachedGlStates, (p.2.heap 0).display, (p.2.heap 0).context,
          (p.2.heap 0).contextsSharing)) = some (([0], false, none), [0], 1, 10, -1) := by
    decide +kernel
  obtain ⟨⟨s, t⟩, hsteps, hobserved⟩ := Option.map_eq_some_iff.mp hrun
  obtain ⟨s', hs, hlast⟩ := Option.bind_eq_some_iff.mp hsteps
  obtain ⟨t', ht, heq⟩ := Option.map_eq_some_iff.mp hlast
  cases heq
  simp only [Prod.mk.injEq] at hobserved
  obtain ⟨⟨hlist, hactive, hshare⟩, hmem, hdisplay, hcontext, hcount⟩ := hobserved
  exact ⟨s, t, hs, System.reachable_of_foldlM (.init rfl) hs, ht, hlist, hactive, hshare,
    ⟨by simp [hmem], hdisplay, hcontext⟩, hcount⟩

theorem forgotten_iff_releasedRun : ∃ s t, releasedRun.foldlM step initial = some s ∧
    step s (.eglDestroyContext 1 10 true) = some t ∧
    (Forgotten t 1 10 ↔ ∀ x, CachedFor s 1 10 x → (s.heap x).contextsSharing = 1) := by
  obtain ⟨s, t, hs, hreach, ht, hlist, hactive, hshare, -⟩ := exists_releasedRun
  refine ⟨s, t, hs, ht, (forgotten_iff hreach).1 1 10 t (fun x hx => ?_) ht⟩
  obtain rfl : x = 0 := by simpa [hlist] using hx.mem
  exact ⟨hactive, by simp [Unshared, hlist, hshare]⟩

/-- A context that was never shared is destroyed when it is not active, and its state stays
in the list. -/
theorem exists_remembered : ∃ s t, system.Reachable s ∧
    (∀ x, CachedFor s 1 10 x → (s.heap x).active = false ∧ Unshared s x) ∧
    step s (.eglDestroyContext 1 10 true) = some t ∧ ¬Forgotten t 1 10 := by
  obtain ⟨s, t, -, hreach, ht, hlist, hactive, hshare, hcached, -⟩ := exists_releasedRun
  refine ⟨s, t, hreach, fun x hx => ?_, ht, fun hforgotten => hforgotten 0 hcached⟩
  obtain rfl : x = 0 := by simpa [hlist] using hx.mem
  exact ⟨hactive, by simp [Unshared, hlist, hshare]⟩

end GpuProxy.Contexts
