import GpuProxy.Contexts.CachedStates
import Mathlib.Data.Finset.Card
import Mathlib.Data.List.Nodup
import Mathlib.Logic.Relation

/-!
# What the destruction of a state removes

`_caching_client_destroy_state` counts a state down and removes it when the count gets to
0, after doing the same with its share context, which it counts down twice. So it removes
the states of a chain of share contexts: the first one is counted 1 before the call, the
others 2, and the chain goes on as long as that is so.

## Main definitions

* `Doomed` — the states of that chain
* `WellFormed` — the list has no state twice, and no two states for one context
* `Found` — what looking a context's state up, or making it, gives

## Main results

* `destroyState_spec` — exactly the states of the chain leave the list
* `WellFormed.destroyed`, `WellFormed.getOrCreate` — the list stays well formed
-/

namespace GpuProxy.Contexts

open Math Relation

namespace State

variable {s t : State} {x y z fuel : ℕ} {f : EglState → EglState}

@[simp] theorem heap_update_self : (s.update x f).heap x = f (s.heap x) := by simp [update]

theorem heap_update_of_ne (h : z ≠ x) : (s.update x f).heap z = s.heap z := by simp [update, h]

@[simp] theorem cachedGlStates_update : (s.update x f).cachedGlStates = s.cachedGlStates := rfl

@[simp] theorem nextState_update : (s.update x f).nextState = s.nextState := rfl

@[simp] theorem activeState_update : (s.update x f).activeState = s.activeState := rfl

@[simp] theorem contextsSharing_decrement (e : EglState) :
    (decrement e).contextsSharing = e.contextsSharing - 1 := rfl

@[simp] theorem shareContext_decrement (e : EglState) :
    (decrement e).shareContext = e.shareContext := rfl

/-- A field that `f` does not change is the same in all of memory. -/
theorem field_update {α : Type*} (field : EglState → α) (hf : ∀ e, field (f e) = field e) (z : ℕ) :
    field ((s.update x f).heap z) = field (s.heap z) := by
  rcases eq_or_ne z x with rfl | hne
  · rw [heap_update_self, hf]
  · rw [heap_update_of_ne hne]

end State

open State

variable {s t u : State} {op : Op} {x y z fuel : ℕ}

/-- `y` is the share context of `x`, and goes when `x` does. -/
def Drops (s : State) (x y : ℕ) : Prop :=
  (s.heap x).shareContext = some y ∧ (s.heap y).contextsSharing = 2

/-- The states that go when `x` is destroyed. -/
def Doomed (s : State) (x z : ℕ) : Prop :=
  (s.heap x).contextsSharing = 1 ∧ ReflTransGen (Drops s) x z

theorem doomed_self_iff : Doomed s x x ↔ (s.heap x).contextsSharing = 1 :=
  and_iff_left .refl

theorem doomed_iff_of_shareContext_eq_none (hone : (s.heap x).contextsSharing = 1)
    (hnone : (s.heap x).shareContext = none) : Doomed s x z ↔ z = x := by
  constructor
  · rintro ⟨-, hpath⟩
    rcases hpath.cases_head with rfl | ⟨y, hdrops, -⟩
    · rfl
    · rw [hdrops.1] at hnone
      cases hnone
  · rintro rfl
    exact ⟨hone, .refl⟩

/-- The states when `x` was counted down from 1 and its share context `y` once. -/
structure CountedDown (s : State) (x y : ℕ) (t : State) : Prop where
  cachedGlStates : t.cachedGlStates = s.cachedGlStates
  shareContext : ∀ z, (t.heap z).shareContext = (s.heap z).shareContext
  same : ∀ z, z ≠ x → z ≠ y → t.heap z = s.heap z
  first : x ≠ y → (t.heap x).contextsSharing = 0
  first_ne_two : (t.heap x).contextsSharing ≠ 2
  second : (t.heap y).contextsSharing = 1 ↔ x ≠ y ∧ (s.heap y).contextsSharing = 2

theorem countedDown (hone : (s.heap x).contextsSharing = 1) :
    CountedDown s x y ((s.update x decrement).update y decrement) := by
  have hfirst : x ≠ y →
      (((s.update x decrement).update y decrement).heap x).contextsSharing = 0 := fun hne => by
    rw [heap_update_of_ne hne, heap_update_self, contextsSharing_decrement, hone]
    decide
  refine ⟨rfl, fun z => ?_, fun z hx hy => ?_, hfirst, ?_, ?_⟩
  · exact (field_update _ shareContext_decrement z).trans (field_update _ shareContext_decrement z)
  · rw [heap_update_of_ne hy, heap_update_of_ne hx]
  · rcases eq_or_ne x y with rfl | hne
    · simp only [heap_update_self, contextsSharing_decrement, hone]
      decide
    · rw [hfirst hne]
      decide
  · rcases eq_or_ne x y with rfl | hne
    · simp only [heap_update_self, contextsSharing_decrement, hone]
      exact iff_of_false (by decide) fun h => h.1 rfl
    · rw [heap_update_self, heap_update_of_ne hne.symm, contextsSharing_decrement]
      simp only [ne_eq, hne, not_false_eq_true, true_and]
      bv_omega

/-- When `x` goes, its share context `y` is counted down and then destroyed, and what goes
besides `x` is what that destruction removes. -/
theorem doomed_iff_of_shareContext_eq_some (hone : (s.heap x).contextsSharing = 1)
    (hshare : (s.heap x).shareContext = some y) (ht : CountedDown s x y t) :
    Doomed s x z ↔ z = x ∨ Doomed t y z := by
  constructor
  · rintro ⟨-, hwhole⟩
    rcases hwhole.cases_head with rfl | ⟨y', ⟨hshare', htwo⟩, hpath⟩
    · exact .inl rfl
    clear hwhole
    obtain rfl : y = y' := by
      rw [hshare'] at hshare
      exact (Option.some.inj hshare).symm
    have hne : x ≠ y := by
      rintro rfl
      rw [hone] at htwo
      exact absurd htwo (by decide)
    refine .inr ⟨ht.second.mpr ⟨hne, htwo⟩, ?_⟩
    -- A chain that comes back to `y` can start there.
    induction hpath with
    | refl => exact .refl
    | @tail a b _ hdrops ih =>
      rcases eq_or_ne b y with rfl | hby
      · exact .refl
      rcases eq_or_ne b x with rfl | hbx
      · have htwo' := hdrops.2
        rw [hone] at htwo'
        exact absurd htwo' (by decide)
      · refine ih.tail ⟨?_, ?_⟩
        · rw [ht.shareContext]
          exact hdrops.1
        · rw [ht.same b hbx hby]
          exact hdrops.2
  · rintro (rfl | ⟨hyone, hpath⟩)
    · exact ⟨hone, .refl⟩
    obtain ⟨hne, htwo⟩ := ht.second.mp hyone
    refine ⟨hone, .head ⟨hshare, htwo⟩ (ReflTransGen.mono (fun a b hdrops => ?_) y z hpath)⟩
    have hbx : b ≠ x := by
      rintro rfl
      exact ht.first_ne_two hdrops.2
    have hby : b ≠ y := by
      rintro rfl
      have htwo' := hdrops.2
      rw [hyone] at htwo'
      exact absurd htwo' (by decide)
    rw [Drops, ht.shareContext, ht.same b hbx hby] at hdrops
    exact hdrops

/-- The effect of a call of `_caching_client_destroy_state`. -/
structure Destroyed (s : State) (x : ℕ) (t : State) : Prop where
  heap : ∀ z, ∃ n, t.heap z = { s.heap z with contextsSharing := n }
  nextState : t.nextState = s.nextState
  activeState : t.activeState = s.activeState
  sublist : t.cachedGlStates.Sublist s.cachedGlStates
  mem_iff : ∀ z, z ∈ t.cachedGlStates ↔ z ∈ s.cachedGlStates ∧ ¬Doomed s x z

theorem heap_update_decrement (z : ℕ) :
    ∃ n, (s.update x decrement).heap z = { s.heap z with contextsSharing := n } := by
  rcases eq_or_ne z x with rfl | hne
  · exact ⟨_, heap_update_self⟩
  · exact ⟨_, heap_update_of_ne hne⟩

theorem destroyState_spec (hnodup : s.cachedGlStates.Nodup)
    (h : s.destroyState fuel x = some t) : Destroyed s x t := by
  induction fuel generalizing s x t with
  | zero => cases h
  | succ fuel ih =>
    rw [State.destroyState] at h
    split at h
    next => cases h
    next hlisted =>
    simp only [heap_update_self, contextsSharing_decrement, shareContext_decrement] at h
    split at h
    -- Counted down to something else than 0: nothing goes.
    next hpos =>
      cases h
      have hnot : ∀ z, ¬Doomed s x z := by
        rintro z ⟨hone, -⟩
        rw [hone] at hpos
        exact absurd hpos (by decide)
      exact ⟨heap_update_decrement, rfl, rfl, .refl _, fun z => by simp [hnot z]⟩
    next hzero =>
      have hone : (s.heap x).contextsSharing = 1 := by bv_omega
      split at h
      -- No share context: the state goes alone.
      next hnone =>
        cases h
        refine ⟨heap_update_decrement, rfl, rfl, List.erase_sublist, fun z => ?_⟩
        simp only [cachedGlStates_update, hnodup.mem_erase_iff,
          doomed_iff_of_shareContext_eq_none hone hnone]
        exact and_comm
      next y hsome =>
        -- The share context is counted down here and once more in the call for it.
        obtain ⟨u, hu, heq⟩ := Option.bind_eq_some_iff.mp h
        cases heq
        have hrest := ih (s := (s.update x decrement).update y decrement) hnodup hu
        refine ⟨fun z => ?_, hrest.nextState, hrest.activeState,
          List.erase_sublist.trans hrest.sublist, fun z => ?_⟩
        · obtain ⟨n, hn⟩ := hrest.heap z
          obtain ⟨m, hm⟩ := heap_update_decrement (s := s.update x decrement) (x := y) z
          obtain ⟨k, hk⟩ := heap_update_decrement (s := s) (x := x) z
          exact ⟨n, by rw [hn, hm, hk]⟩
        · simp only [(hrest.sublist.nodup hnodup).mem_erase_iff, hrest.mem_iff,
            doomed_iff_of_shareContext_eq_some hone hsome (countedDown hone), cachedGlStates_update,
            not_or]
          tauto

/-- A state that is not counted 1 is counted down only. -/
theorem destroyState_of_ne_one (hx : x ∈ s.cachedGlStates) (hne : (s.heap x).contextsSharing ≠ 1) :
    s.destroyState (fuel + 1) x = some (s.update x decrement) := by
  rw [State.destroyState, if_neg (not_not.mpr hx)]
  simp only [heap_update_self, contextsSharing_decrement]
  exact if_pos (by bv_omega)

/-- The states that are not counted 0, of which a destruction passes each once at most. -/
def counted (s : State) : Finset ℕ :=
  s.cachedGlStates.toFinset.filter fun z => (s.heap z).contextsSharing ≠ 0

theorem counted_ssubset (hone : (s.heap x).contextsSharing = 1) (hx : x ∈ s.cachedGlStates)
    (ht : CountedDown s x y t) (hy : (t.heap y).contextsSharing = 1) : counted t ⊂ counted s := by
  obtain ⟨hne, htwo⟩ := ht.second.mp hy
  refine Finset.ssubset_iff_of_subset (fun z hz => ?_) |>.mpr ⟨x, ?_, ?_⟩
  · simp only [counted, ht.cachedGlStates, Finset.mem_filter] at hz ⊢
    refine ⟨hz.1, ?_⟩
    rcases eq_or_ne z x with rfl | hzx
    · exact absurd (ht.first hne) hz.2
    rcases eq_or_ne z y with rfl | hzy
    · rw [htwo]
      decide
    · rw [← ht.same z hzx hzy]
      exact hz.2
  · simp only [counted, Finset.mem_filter, List.mem_toFinset, hone]
    exact ⟨hx, by decide⟩
  · simp [counted, ht.first hne]

/-- A destruction comes to an end, if no freed state is a share context. -/
theorem exists_destroyState
    (hshare : ∀ w ∈ s.cachedGlStates, ∀ y, (s.heap w).shareContext = some y → y ∈ s.cachedGlStates)
    (hx : x ∈ s.cachedGlStates) (hfuel : (counted s).card < fuel) :
    ∃ t, s.destroyState fuel x = some t := by
  induction fuel generalizing s x with
  | zero => exact absurd hfuel (Nat.not_lt_zero _)
  | succ fuel ih =>
    rw [State.destroyState, if_neg (not_not.mpr hx)]
    simp only [heap_update_self, contextsSharing_decrement, shareContext_decrement]
    split
    · exact ⟨_, rfl⟩
    next hzero =>
      have hone : (s.heap x).contextsSharing = 1 := by bv_omega
      split
      · exact ⟨_, rfl⟩
      next y hsome =>
        have ht : CountedDown s x y ((s.update x decrement).update y decrement) := countedDown hone
        have hy : y ∈ s.cachedGlStates := hshare x hx y hsome
        suffices ∃ u, ((s.update x decrement).update y decrement).destroyState fuel y = some u by
          obtain ⟨u, hu⟩ := this
          rw [hu]
          exact ⟨_, rfl⟩
        -- Either the chain goes on, with one state less counted, or the next call is the last.
        by_cases hlast :
            (((s.update x decrement).update y decrement).heap y).contextsSharing = 1
        · have hless := Finset.card_lt_card (counted_ssubset hone hx ht hlast)
          refine ih (fun w hw v hv => ?_) hy (by omega)
          rw [ht.shareContext] at hv
          exact hshare w hw v hv
        · have hpos : 0 < fuel := by
            have hmem : x ∈ counted s := by
              simp only [counted, Finset.mem_filter, List.mem_toFinset, hone]
              exact ⟨hx, by decide⟩
            have := Finset.card_pos.mpr ⟨x, hmem⟩
            omega
          obtain ⟨fuel, rfl⟩ := Nat.exists_eq_succ_of_ne_zero hpos.ne'
          exact ⟨_, destroyState_of_ne_one hy hlast⟩

/-! ### The list -/

/-- The list has allocated states, none twice, and one for each context at most. -/
structure WellFormed (s : State) : Prop where
  nodup : s.cachedGlStates.Nodup
  lt_nextState : ∀ x ∈ s.cachedGlStates, x < s.nextState
  unique : ∀ x ∈ s.cachedGlStates, ∀ y ∈ s.cachedGlStates,
    (s.heap x).display = (s.heap y).display → (s.heap x).context = (s.heap y).context → x = y

/-- Well-formedness depends on the list, and on the contexts the states are for. -/
theorem WellFormed.congr (h : WellFormed s) (hlist : t.cachedGlStates = s.cachedGlStates)
    (hnext : t.nextState = s.nextState)
    (hheap : ∀ z, (t.heap z).display = (s.heap z).display ∧
      (t.heap z).context = (s.heap z).context) : WellFormed t := by
  refine ⟨hlist ▸ h.nodup, hlist ▸ hnext ▸ h.lt_nextState, fun x hx y hy => ?_⟩
  rw [hlist] at hx hy
  rw [(hheap x).1, (hheap x).2, (hheap y).1, (hheap y).2]
  exact h.unique x hx y hy

theorem WellFormed.update {f : EglState → EglState} (h : WellFormed s)
    (hdisplay : ∀ e, (f e).display = e.display) (hcontext : ∀ e, (f e).context = e.context) :
    WellFormed (s.update x f) :=
  h.congr rfl rfl fun z => ⟨field_update _ hdisplay z, field_update _ hcontext z⟩

theorem WellFormed.destroyed (h : WellFormed s) (hd : Destroyed s x t) : WellFormed t := by
  refine ⟨hd.sublist.nodup h.nodup, fun y hy => ?_, fun y hy z hz => ?_⟩
  · rw [hd.nextState]
    exact h.lt_nextState y (hd.sublist.subset hy)
  · obtain ⟨n, hn⟩ := hd.heap y
    obtain ⟨m, hm⟩ := hd.heap z
    rw [hn, hm]
    exact h.unique y (hd.sublist.subset hy) z (hd.sublist.subset hz)

variable {display context drawable readable client : ℕ} {destroyed newState : Option ℕ}

theorem find_eq_some (h : s.find display context = some x) :
    x ∈ s.cachedGlStates ∧ (s.heap x).display = display ∧ (s.heap x).context = context := by
  have hprop := List.find?_some h
  simp only [decide_eq_true_eq] at hprop
  exact ⟨List.mem_of_find?_eq_some h, hprop.2, hprop.1⟩

theorem find_eq_none_iff : s.find display context = none ↔
    ∀ x ∈ s.cachedGlStates, (s.heap x).display = display → (s.heap x).context ≠ context := by
  simp only [find, List.find?_eq_none, decide_eq_true_eq, not_and, ne_eq]
  exact forall₂_congr fun _ _ => imp_not_comm

/-- The state for a context is the one in the list, or a new one at its end. -/
theorem getOrCreate_cases (s : State) (display context : ℕ) :
    (∃ x, s.find display context = some x ∧ s.getOrCreate display context = (x, s)) ∨
      (s.find display context = none ∧ s.getOrCreate display context = (s.nextState, { s with
        heap := Function.update s.heap s.nextState (eglStateInit display context)
        nextState := s.nextState + 1
        cachedGlStates := s.cachedGlStates ++ [s.nextState] })) := by
  unfold State.getOrCreate
  split
  next x hfind => exact .inl ⟨x, hfind, rfl⟩
  next hfind => exact .inr ⟨hfind, rfl⟩

/-- What holds after looking a context's state up, or making it. -/
structure Found (s : State) (display context x : ℕ) (t : State) : Prop where
  wellFormed : WellFormed t
  mem : x ∈ t.cachedGlStates
  subset : s.cachedGlStates ⊆ t.cachedGlStates
  heap_eq : ∀ z ∈ s.cachedGlStates, t.heap z = s.heap z
  fresh : ∀ z ∈ t.cachedGlStates, z ∈ s.cachedGlStates ∨ t.heap z = eglStateInit display context
  activeState : t.activeState = s.activeState
  display_eq : (t.heap x).display = display
  context_eq : (t.heap x).context = context

theorem WellFormed.getOrCreate (h : WellFormed s) (hget : s.getOrCreate display context = (x, t)) :
    Found s display context x t := by
  rcases getOrCreate_cases s display context with ⟨y, hfind, heq⟩ | ⟨hfind, heq⟩
  · rw [heq] at hget
    cases hget
    obtain ⟨hmem, hdisplay, hcontext⟩ := find_eq_some hfind
    exact ⟨h, hmem, List.Subset.refl _, fun _ _ => rfl, fun _ hz => .inl hz, rfl, hdisplay,
      hcontext⟩
  · rw [heq] at hget
    cases hget
    have hold : ∀ z ∈ s.cachedGlStates,
        Function.update s.heap s.nextState (eglStateInit display context) z = s.heap z :=
      fun z hz => Function.update_of_ne (Nat.ne_of_lt (h.lt_nextState z hz)) _ _
    have hnone := find_eq_none_iff.mp hfind
    have hmem : ∀ z ∈ s.cachedGlStates ++ [s.nextState], z ∈ s.cachedGlStates ∨ z = s.nextState :=
      fun z hz => by simpa using hz
    refine ⟨⟨?_, ?_, ?_⟩, by simp, List.subset_append_left _ _, hold, fun z hz => ?_, rfl,
      by simp [eglStateInit], by simp [eglStateInit]⟩
    · refine List.nodup_append.mpr ⟨h.nodup, List.nodup_singleton _, fun y hy z hz => ?_⟩
      rw [List.mem_singleton] at hz
      exact hz ▸ Nat.ne_of_lt (h.lt_nextState y hy)
    · intro z hz
      rcases hmem z hz with hz | rfl
      · exact Nat.lt_succ_of_lt (h.lt_nextState z hz)
      · exact Nat.lt_succ_self _
    · intro y hy z hz hdisplay hcontext
      simp only at hdisplay hcontext
      -- Two states for one context: both old, or the new one and one that was not found.
      rcases hmem y hy with hy | rfl <;> rcases hmem z hz with hz | rfl
      · rw [hold y hy, hold z hz] at hdisplay hcontext
        exact h.unique y hy z hz hdisplay hcontext
      · rw [hold y hy, Function.update_self] at hdisplay hcontext
        exact absurd hcontext (hnone y hy hdisplay)
      · rw [hold z hz, Function.update_self] at hdisplay hcontext
        exact absurd hcontext.symm (hnone z hz hdisplay.symm)
      · rfl
    · rcases hmem z hz with hz | rfl
      · exact .inl hz
      · exact .inr (Function.update_self _ _ _)

end GpuProxy.Contexts
