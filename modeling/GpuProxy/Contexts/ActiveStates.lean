import GpuProxy.Contexts.MakeCurrent

/-!
# Active states and clients

Without share contexts, and with a driver that does not make one context current for two
clients, the active states of the list and the clients that have a state match one to one.

## Main definitions

* `Clients` — the states with what each client last made current
* `clientSystem` — all sequences of calls
* `Assumed` — the assumptions on the calls and on the driver
* `OneToOne` — the correspondence

## Main results

* `Matched.step` — a call that meets the assumptions keeps the invariant
* `oneToOne_of_reachable` — the correspondence holds in all such runs
-/

namespace GpuProxy.Contexts

open Math Relation State

/-- The cached states, and two records of what the clients did: the display and context of
each client's last successful `eglMakeCurrent`, and what is current for it in the driver. -/
structure Clients where
  state : State
  lastMakeCurrent : ℕ → Option (ℕ × ℕ)
  current : ℕ → Option (ℕ × ℕ)

/-- What a successful `eglMakeCurrent` makes current. -/
def bound (display context : ℕ) : Option (ℕ × ℕ) :=
  if context ≠ eglNo ∧ display ≠ eglNo then some (display, context) else none

/-- The records after a call that leads to the state `t`. The driver executes an
`eglMakeCurrent` unless the client finds nothing to do. -/
def Clients.record (c : Clients) (t : State) : Op → Clients
  | .eglMakeCurrent client display draw read context surfaces answer =>
      let path := c.state.makeCurrentPath client display draw read context surfaces
      { state := t
        lastMakeCurrent :=
          if makeCurrentResult path answer then
            Function.update c.lastMakeCurrent client (some (display, context))
          else c.lastMakeCurrent
        current :=
          if switches path answer then
            Function.update c.current client (bound display context)
          else c.current }
  | .eglReleaseThread client answer =>
      if answer then { c with state := t, current := Function.update c.current client none }
      else { c with state := t }
  | _ => { c with state := t }

/-- All sequences of calls, with the records. -/
def clientSystem : System Clients Op where
  Init c := c = ⟨initial, fun _ => none, fun _ => none⟩
  Step c op d := ∃ t, step c.state op = some t ∧ d = c.record t op

/-- The call makes no context that shares another one. Where the driver is asked to make a
context current and does, the context is not current in another client. -/
def Assumed (c : Clients) : Op → Prop
  | .eglCreateContext _ shareContext _ => shareContext = eglNo
  | .eglMakeCurrent client display draw read context surfaces answer =>
      c.state.makeCurrentPath client display draw read context surfaces = .sync →
        answer = true → ∀ other, other ≠ client → c.current other ≠ some (display, context)
  | _ => True

/-- The active states and the clients match one to one. -/
structure OneToOne (c : Clients) : Prop where
  nodup : c.state.cachedGlStates.Nodup
  unique : ∀ x ∈ c.state.cachedGlStates, ∀ y ∈ c.state.cachedGlStates,
    (c.state.heap x).display = (c.state.heap y).display →
      (c.state.heap x).context = (c.state.heap y).context → x = y
  active_iff : ∀ x ∈ c.state.cachedGlStates,
    (c.state.heap x).active = true ↔ ∃! client, c.state.activeState client = some x
  listed : ∀ client x, c.state.activeState client = some x → x ∈ c.state.cachedGlStates
  fields : ∀ client x, c.state.activeState client = some x →
    c.lastMakeCurrent client = some ((c.state.heap x).display, (c.state.heap x).context)

/-! ### The invariant -/

/-- The states, as what is current in the driver says. -/
structure Matched (s : State) (current : ℕ → Option (ℕ × ℕ)) : Prop where
  wellFormed : WellFormed s
  tended : Tended s none
  noShare : ∀ x ∈ s.cachedGlStates, (s.heap x).shareContext = none
  active : ∀ client x, s.activeState client = some x → (s.heap x).active = true
  current_eq : ∀ client, current client =
    (s.activeState client).map fun x => ((s.heap x).display, (s.heap x).context)
  alone : ∀ client other x, s.activeState client = some x → s.activeState other = some x →
    client = other

variable {s t u : State} {current : ℕ → Option (ℕ × ℕ)} {op : Op} {c d : Clients}
  {x y z client other display context draw read drawable readable : ℕ}
  {surfaces answer : Bool} {destroyed newState : Option ℕ}

theorem matched_initial : Matched initial fun _ => none where
  wellFormed := wellFormed_initial
  tended := by
    constructor
    · constructor <;> simp [initial]
    · simp [initial]
  noShare := by simp [initial]
  active := by simp [initial]
  current_eq := by simp [initial]
  alone := by simp [initial]

/-- A client whose context is current in the driver has its state. -/
theorem Matched.exists_of_current (h : Matched s current)
    (hcurrent : current client = some (display, context)) :
    ∃ x, s.activeState client = some x ∧ x ∈ s.cachedGlStates ∧ (s.heap x).display = display ∧
      (s.heap x).context = context := by
  rw [h.current_eq, Option.map_eq_some_iff] at hcurrent
  obtain ⟨x, hx, hpair⟩ := hcurrent
  cases hpair
  exact ⟨x, hx, h.tended.active_mem client x hx, rfl, rfl⟩

/-- Two clients do not have the same context current. -/
theorem Matched.ne_of_current (h : Matched s current)
    (hcurrent : current client = some (display, context)) (hne : other ≠ client) :
    current other ≠ some (display, context) := by
  intro hother
  obtain ⟨x, hx, hxmem, hxdisplay, hxcontext⟩ := h.exists_of_current hcurrent
  obtain ⟨y, hy, hymem, hydisplay, hycontext⟩ := h.exists_of_current hother
  have hxy : x = y := h.wellFormed.unique x hxmem y hymem (hxdisplay.trans hydisplay.symm)
    (hxcontext.trans hycontext.symm)
  exact hne (h.alone other client x (hxy ▸ hy) hx)

theorem Matched.sameUse (h : Matched s current) (hsame : SameUse s t) : Matched t current where
  wellFormed := hsame.wellFormed h.wellFormed
  tended := hsame.tended h.tended
  noShare x hx := by
    rw [hsame.cachedGlStates] at hx
    rw [hsame.shareContext]
    exact h.noShare x hx
  active client x hx := by
    rw [hsame.activeState] at hx
    rw [hsame.active]
    exact h.active client x hx
  current_eq client := by
    simp only [hsame.activeState, hsame.display, hsame.context]
    exact h.current_eq client
  alone client other x hx hy := by
    rw [hsame.activeState] at hx hy
    exact h.alone client other x hx hy

/-- A state without a share context goes alone, if it goes. -/
theorem eq_of_doomed (hnone : (s.heap x).shareContext = none) (h : Doomed s x z) : z = x :=
  (doomed_iff_of_shareContext_eq_none h.1 hnone).mp h

/-- The destruction of a state that no client has. -/
theorem Matched.of_destroyed (h : Matched s current) (hx : x ∈ s.cachedGlStates)
    (hunused : ∀ client, s.activeState client ≠ some x) (hd : Destroyed s x t) :
    Matched t current := by
  have hheap : ∀ z, (t.heap z).display = (s.heap z).display ∧
      (t.heap z).context = (s.heap z).context ∧ (t.heap z).active = (s.heap z).active ∧
      (t.heap z).shareContext = (s.heap z).shareContext := by
    intro z
    obtain ⟨n, hn⟩ := hd.heap z
    rw [hn]
    exact ⟨rfl, rfl, rfl, rfl⟩
  -- Without share contexts no other state goes with it, and no state refers to it.
  have hsafe : SafeToDestroy s x := by
    intro z hz
    obtain rfl := eq_of_doomed (h.noShare x hx) hz
    refine ⟨hunused, fun w hw hshare => ?_⟩
    rw [h.noShare w hw] at hshare
    cases hshare
  refine ⟨h.wellFormed.destroyed hd, ⟨(kept_iff_safeToDestroy h.tended.toKept hd).mpr hsafe, ?_⟩,
    ?_, ?_, ?_, ?_⟩
  · intro z hz hactive
    rw [(hheap z).2.2.1] at hactive
    rw [hd.activeState]
    exact h.tended.attended z (hd.sublist.subset hz) hactive
  · intro z hz
    rw [(hheap z).2.2.2]
    exact h.noShare z (hd.sublist.subset hz)
  · intro client z hz
    rw [hd.activeState] at hz
    rw [(hheap z).2.2.1]
    exact h.active client z hz
  · intro client
    simp only [hd.activeState, (hheap _).1, (hheap _).2.1]
    exact h.current_eq client
  · intro client other z hz hz'
    rw [hd.activeState] at hz hz'
    exact h.alone client other z hz hz'

/-! ### Making a context current -/

/-- Display and context of a listed state stay when a context is made current. -/
theorem MadeCurrent.fields
    (h : MadeCurrent s client display drawable readable context newState t destroyed)
    (hz : z ∈ s.cachedGlStates) :
    (t.heap z).display = (s.heap z).display ∧ (t.heap z).context = (s.heap z).context ∧
      (t.heap z).shareContext = (s.heap z).shareContext := by
  by_cases hnew : newState = some z
  · obtain ⟨e, -, -, hold | hfresh, heq⟩ := h.entered z hnew
    · rw [heq, hold.2]
      exact ⟨rfl, rfl, rfl⟩
    · exact absurd hz hfresh.1
  · by_cases hleft : s.activeState client = some z
    · rw [h.left z hz hleft hnew]
      exact ⟨rfl, rfl, rfl⟩
    · rw [h.same z hz hleft hnew]
      exact ⟨rfl, rfl, rfl⟩

theorem MadeCurrent.activeState_self
    (h : MadeCurrent s client display drawable readable context newState t destroyed) :
    t.activeState client = newState := by
  rw [h.activeState, Function.update_self]

theorem MadeCurrent.activeState_of_ne
    (h : MadeCurrent s client display drawable readable context newState t destroyed)
    (hne : other ≠ client) : t.activeState other = s.activeState other := by
  rw [h.activeState, Function.update_of_ne hne]

/-- The state that is entered is the one of the new context. -/
theorem MadeCurrent.entered_fields
    (h : MadeCurrent s client display drawable readable context newState t destroyed)
    (hx : newState = some x) : (t.heap x).display = display ∧ (t.heap x).context = context := by
  obtain ⟨e, hdisplay, hcontext, -, heq⟩ := h.entered x hx
  rw [heq]
  exact ⟨hdisplay, hcontext⟩

/-- No client has the context, but perhaps the one that is to get it. -/
def FreeFor (current : ℕ → Option (ℕ × ℕ)) (client display context : ℕ) : Prop :=
  context ≠ eglNo ∧ display ≠ eglNo →
    ∀ other, other ≠ client → current other ≠ some (display, context)

/-- No other client has the state that is entered. -/
theorem Matched.entered_alone (h : Matched s current)
    (hfree : FreeFor current client display context)
    (hmade : MadeCurrent s client display drawable readable context newState t destroyed)
    (hx : newState = some x) (hne : other ≠ client) : s.activeState other ≠ some x := by
  intro hother
  obtain ⟨hdisplay, hcontext⟩ := hmade.entered_fields hx
  obtain ⟨hdisplay', hcontext', -⟩ := hmade.fields (h.tended.active_mem other x hother)
  refine hfree (hmade.newState_iff.mp (by simp [hx])) other hne ?_
  rw [h.current_eq, hother, Option.map_some, ← hdisplay', ← hcontext', hdisplay, hcontext]

theorem Matched.noShare_of_madeCurrent (h : Matched s current)
    (hmade : MadeCurrent s client display drawable readable context newState t destroyed)
    (hz : z ∈ t.cachedGlStates) : (t.heap z).shareContext = none := by
  rcases (hmade.mem_iff z).mp hz with hold | hnew
  · rw [(hmade.fields hold).2.2]
    exact h.noShare z hold
  · obtain ⟨e, -, -, hsource, heq⟩ := hmade.entered z hnew
    rw [heq]
    rcases hsource with ⟨hold, rfl⟩ | ⟨-, rfl⟩
    · exact h.noShare z hold
    · rfl

theorem Matched.active_of_madeCurrent (h : Matched s current)
    (hmade : MadeCurrent s client display drawable readable context newState t destroyed)
    (hx : t.activeState other = some x) : (t.heap x).active = true := by
  by_cases hnew : newState = some x
  · obtain ⟨e, -, -, -, heq⟩ := hmade.entered x hnew
    rw [heq]
  · have hne : other ≠ client := by
      rintro rfl
      exact hnew (hmade.activeState_self.symm.trans hx)
    rw [hmade.activeState_of_ne hne] at hx
    have hkept : s.activeState client ≠ some x := fun hclient =>
      hne (h.alone other client x hx hclient)
    rw [hmade.same x (h.tended.active_mem other x hx) hkept hnew]
    exact h.active other x hx

theorem Matched.current_eq_of_madeCurrent (h : Matched s current)
    (hmade : MadeCurrent s client display drawable readable context newState t destroyed) :
    Function.update current client (bound display context) other =
      (t.activeState other).map fun x => ((t.heap x).display, (t.heap x).context) := by
  rcases eq_or_ne other client with rfl | hne
  · rw [Function.update_self, hmade.activeState_self]
    cases hnew : newState with
    | none =>
      -- No state is entered for a display or a context that is none.
      have hnone : ¬ (context ≠ eglNo ∧ display ≠ eglNo) := fun hboth => by
        simpa [hnew] using hmade.newState_iff.mpr hboth
      rw [bound, if_neg hnone]
      rfl
    | some x =>
      have hboth := hmade.newState_iff.mp (by simp [hnew])
      obtain ⟨hdisplay, hcontext⟩ := hmade.entered_fields hnew
      rw [bound, if_pos hboth, Option.map_some, hdisplay, hcontext]
  · rw [Function.update_of_ne hne, hmade.activeState_of_ne hne, h.current_eq]
    cases hother : s.activeState other with
    | none => rfl
    | some x =>
      obtain ⟨hdisplay, hcontext, -⟩ := hmade.fields (h.tended.active_mem other x hother)
      rw [Option.map_some, Option.map_some, hdisplay, hcontext]

theorem Matched.alone_of_madeCurrent (h : Matched s current)
    (hfree : FreeFor current client display context)
    (hmade : MadeCurrent s client display drawable readable context newState t destroyed)
    {first second : ℕ} (hfirst : t.activeState first = some x)
    (hsecond : t.activeState second = some x) : first = second := by
  -- The caller has the state that is entered, and each other client the one it had.
  rcases eq_or_ne first client with rfl | hfirst_ne
  · by_contra hne
    rw [hmade.activeState_of_ne (Ne.symm hne)] at hsecond
    exact h.entered_alone hfree hmade (hmade.activeState_self.symm.trans hfirst) (Ne.symm hne)
      hsecond
  · rw [hmade.activeState_of_ne hfirst_ne] at hfirst
    rcases eq_or_ne second client with rfl | hsecond_ne
    · exact absurd hfirst
        (h.entered_alone hfree hmade (hmade.activeState_self.symm.trans hsecond) hfirst_ne)
    · rw [hmade.activeState_of_ne hsecond_ne] at hsecond
      exact h.alone first second x hfirst hsecond

/-- A client gets a state that no other client has, and the state it leaves is nobody's. -/
theorem Matched.makeCurrent (h : Matched s current) (hfree : FreeFor current client display context)
    (hmake : s.makeCurrent client display drawable readable context = some (t, destroyed)) :
    Matched t (Function.update current client (bound display context)) ∧
      ∀ x, destroyed = some x → x ∈ t.cachedGlStates ∧ ∀ other, t.activeState other ≠ some x := by
  have hprepared := prepared_makeCurrent h.wellFormed hmake
  obtain ⟨newState, hmade⟩ := exists_madeCurrent h.wellFormed hmake
  constructor
  · constructor
    case wellFormed => exact hprepared.wellFormed
    case tended => exact hprepared.tended h.tended
    case noShare => exact fun z => h.noShare_of_madeCurrent hmade
    case active => exact fun other x => h.active_of_madeCurrent hmade
    case current_eq => exact fun other => h.current_eq_of_madeCurrent hmade
    case alone => exact fun first second x => h.alone_of_madeCurrent hfree hmade
  · intro x hx
    obtain ⟨hold, hclient, hne⟩ := hmade.destroyed x hx
    refine ⟨(hmade.mem_iff x).mpr (Or.inl hold), fun other hother => ?_⟩
    rcases eq_or_ne other client with rfl | hother_ne
    · exact hne (hmade.activeState_self.symm.trans hother)
    · rw [hmade.activeState_of_ne hother_ne] at hother
      exact hother_ne (h.alone other client x hother hclient)

/-! ### One call -/

theorem bound_none : bound eglNo eglNo = none := rfl

/-- `eglDestroyContext` destroys at once only a state that is not active. -/
theorem eglDestroyContext_destroyed
    (h : s.eglDestroyContext display context answer = (t, destroyed))
    (hx : destroyed = some x) : x ∈ s.cachedGlStates ∧ (s.heap x).active = false := by
  unfold State.eglDestroyContext at h
  split at h
  · split at h
    · cases h
      cases hx
    next y hfind =>
      split at h
      · cases h
        cases hx
      next hidle =>
        cases h
        cases hx
        exact ⟨(find_eq_some hfind).1, by simpa using hidle⟩
  · cases h
    cases hx

/-- `eglTerminate` destroys only states that are not active. -/
theorem terminateRound_destroyed {l : Terminating} (h : s.terminateRound l = some (t, destroyed))
    (hx : destroyed = some x) : x ∈ s.cachedGlStates ∧ (s.heap x).active = false := by
  unfold State.terminateRound at h
  split at h
  next y hy =>
    split at h
    · cases h
    next hmem =>
      simp only at h
      split at h
      next hidle =>
        cases h
        cases hx
        exact ⟨not_not.mp hmem, hidle.2⟩
      next =>
        cases h
        cases hx
  next =>
    simp only at h
    split at h
    · split at h
      · cases h
      · split at h <;> cases h <;> cases hx
    · cases h
      cases hx

/-- A call, up to the destruction of a state, which then is nobody's. -/
theorem matched_run (h : Matched c.state c.current) (hassumed : Assumed c op)
    (hrun : run c.state op = some (u, destroyed)) :
    Matched u (c.record u op).current ∧
      ∀ x, destroyed = some x → x ∈ u.cachedGlStates ∧ ∀ other, u.activeState other ≠ some x := by
  have hinactive : ∀ x, (c.state.heap x).active = false → ∀ other,
      c.state.activeState other ≠ some x := by
    intro x hx other hother
    rw [h.active other x hother] at hx
    cases hx
  unfold run at hrun
  split at hrun
  next display shareContext result _ =>
    cases hrun
    have hshare : shareContext = eglNo := hassumed
    have hsame : c.state.eglCreateContext display shareContext result = c.state := by
      simp [State.eglCreateContext, hshare]
    rw [hsame]
    exact ⟨h, nofun⟩
  next client display draw read context surfaces answer _ =>
    rcases eglMakeCurrent_cases hrun with ⟨hswitches, hmake⟩ | ⟨hstays, rfl, rfl⟩
    · simp only [Clients.record, hswitches, if_true]
      apply h.makeCurrent _ hmake
      -- A context that is the client's already, or one the driver made current.
      intro hboth other hne
      by_cases hpath : c.state.makeCurrentPath client display draw read context surfaces = .sync
      · rw [hpath] at hswitches
        exact hassumed hpath hswitches other hne
      · rcases context_of_makeCurrentPath_ne_sync hpath with ⟨-, hnone⟩ | ⟨x, hx, rfl, rfl⟩
        · exact absurd hnone (by simp [hboth])
        · refine h.ne_of_current ?_ hne
          rw [h.current_eq, hx]
          rfl
    · simp only [Clients.record, hstays]
      exact ⟨h, nofun⟩
  next client answer _ =>
    unfold State.eglReleaseThread at hrun
    split at hrun
    next hanswer =>
      simp only [Clients.record, hanswer, if_true]
      have hmade := h.makeCurrent (fun hboth => absurd rfl hboth.1) hrun
      rwa [bound_none] at hmade
    next hanswer =>
      cases hrun
      simp only [Clients.record, hanswer]
      exact ⟨h, nofun⟩
  next display context answer _ =>
    have hsame := sameUse_eglDestroyContext (s := c.state) display context answer
    rw [Option.some.inj hrun] at hsame
    refine ⟨h.sameUse hsame, fun x hx => ?_⟩
    obtain ⟨hmem, hidle⟩ := eglDestroyContext_destroyed (Option.some.inj hrun) hx
    rw [hsame.cachedGlStates, hsame.activeState]
    exact ⟨hmem, hinactive x hidle⟩
  next =>
    cases hrun
    exact ⟨h.sameUse sameUse_eglDestroySurface, nofun⟩
  next =>
    cases hrun
    exact ⟨h.sameUse sameUse_eglTerminate, nofun⟩
  next l _ =>
    have hsame := sameUse_terminateRound hrun
    refine ⟨h.sameUse hsame, fun x hx => ?_⟩
    obtain ⟨hmem, hidle⟩ := terminateRound_destroyed hrun hx
    rw [hsame.cachedGlStates, hsame.activeState]
    exact ⟨hmem, hinactive x hidle⟩
  next => cases hrun

/-- What is current in the driver is what the client last made current. -/
def Recorded (c : Clients) : Prop :=
  ∀ client p, c.current client = some p → c.lastMakeCurrent client = some p

theorem makeCurrentResult_of_switches {path : MakeCurrentPath} (h : switches path answer = true) :
    makeCurrentResult path answer = true := by
  cases path <;> simp_all [switches, makeCurrentResult]

/-- The driver is not asked for a context the client has. -/
theorem Matched.eq_of_makeCurrentPath_ne_sync {p : ℕ × ℕ} (h : Matched s current)
    (hpath : s.makeCurrentPath client display draw read context surfaces ≠ .sync)
    (hp : current client = some p) : p = (display, context) := by
  rw [h.current_eq, Option.map_eq_some_iff] at hp
  obtain ⟨x, hx, rfl⟩ := hp
  rcases context_of_makeCurrentPath_ne_sync hpath with ⟨hnone, -⟩ | ⟨y, hy, rfl, rfl⟩
  · rw [hnone] at hx
    cases hx
  · cases hx.symm.trans hy
    rfl

theorem recorded_record (h : Matched c.state c.current) (hrecorded : Recorded c) :
    Recorded (c.record u op) := by
  intro client p hp
  cases op with
  | eglMakeCurrent caller display draw read context surfaces answer =>
    simp only [Clients.record] at hp ⊢
    by_cases hswitches : switches (c.state.makeCurrentPath caller display draw read context
        surfaces) answer
    · rw [if_pos hswitches] at hp
      rw [if_pos (makeCurrentResult_of_switches hswitches)]
      rcases eq_or_ne client caller with rfl | hne
      · rw [Function.update_self, bound] at hp
        split at hp
        · rw [Function.update_self, hp]
        · cases hp
      · rw [Function.update_of_ne hne] at hp ⊢
        exact hrecorded client p hp
    · rw [if_neg hswitches] at hp
      split
      next hresult =>
        rcases eq_or_ne client caller with rfl | hne
        · -- The client had this context already: otherwise it would have asked the driver.
          have hpath : c.state.makeCurrentPath client display draw read context surfaces ≠
              .sync := by
            intro hsync
            rw [hsync] at hswitches hresult
            exact hswitches hresult
          rw [Function.update_self, h.eq_of_makeCurrentPath_ne_sync hpath hp]
        · rw [Function.update_of_ne hne]
          exact hrecorded client p hp
      next => exact hrecorded client p hp
  | eglReleaseThread caller answer =>
    simp only [Clients.record] at hp ⊢
    split at hp
    next hanswer =>
      rw [if_pos hanswer]
      rcases eq_or_ne client caller with rfl | hne
      · simp at hp
      · exact hrecorded client p (by simpa [hne] using hp)
    next hanswer =>
      rw [if_neg hanswer]
      exact hrecorded client p hp
  | _ => exact hrecorded client p hp

theorem state_record : (c.record t op).state = t := by
  cases op with
  | eglReleaseThread client answer =>
    simp only [Clients.record]
    split <;> rfl
  | _ => rfl

theorem current_record_congr : (c.record t op).current = (c.record u op).current := by
  cases op with
  | eglReleaseThread client answer =>
    simp only [Clients.record]
    split <;> rfl
  | _ => rfl

/-- A call that meets the assumptions keeps the invariant. -/
theorem Matched.step (h : Matched c.state c.current) (hassumed : Assumed c op)
    (hstep : step c.state op = some t) :
    Matched (c.record t op).state (c.record t op).current := by
  rw [state_record]
  obtain ⟨⟨u, destroyed⟩, hrun, hfinish⟩ := Option.bind_eq_some_iff.mp hstep
  obtain ⟨hu, hunused⟩ := matched_run h hassumed hrun
  rw [current_record_congr (u := u)]
  cases destroyed with
  | none =>
    cases hfinish
    exact hu
  | some x =>
    obtain ⟨hmem, hnobody⟩ := hunused x rfl
    exact hu.of_destroyed hmem hnobody (destroyState_spec hu.wellFormed.nodup hfinish)

/-! ### Whole runs -/

theorem matched_invariant :
    (clientSystem.guarded Assumed).Invariant fun c => Matched c.state c.current ∧ Recorded c where
  init := by
    rintro _ rfl
    exact ⟨matched_initial, by simp [Recorded]⟩
  step := by
    rintro c op d - ⟨hmatched, hrecorded⟩ ⟨hassumed, t, hstep, rfl⟩
    exact ⟨hmatched.step hassumed hstep, recorded_record hmatched hrecorded⟩

theorem Matched.oneToOne (h : Matched c.state c.current) (hrecorded : Recorded c) :
    OneToOne c where
  nodup := h.wellFormed.nodup
  unique := h.wellFormed.unique
  active_iff x hx := by
    constructor
    · intro hactive
      obtain ⟨client, hclient⟩ := (h.tended.attended x hx hactive).resolve_right (by simp)
      exact ⟨client, hclient, fun other hother => h.alone other client x hother hclient⟩
    · rintro ⟨client, hclient, -⟩
      exact h.active client x hclient
  listed := h.tended.active_mem
  fields client x hx := by
    apply hrecorded
    rw [h.current_eq, hx]
    rfl

/-- In every run in which no context shares another one, and the driver makes no context
current that is current in another client, the active states and the clients match one to
one. -/
theorem oneToOne_of_reachable (h : (clientSystem.guarded Assumed).Reachable c) : OneToOne c := by
  obtain ⟨hmatched, hrecorded⟩ := matched_invariant.holds h
  exact hmatched.oneToOne hrecorded

/-- Two clients make a context current each. -/
theorem oneToOne_of_two_clients : ∃ c, (clientSystem.guarded Assumed).Reachable c ∧
    c.state.activeState 0 = some 0 ∧ c.state.activeState 1 = some 1 ∧ OneToOne c := by
  let first : Op := .eglMakeCurrent 0 1 5 5 10 false true
  let second : Op := .eglMakeCurrent 1 1 6 6 11 false true
  have hrun : ((step initial first).bind fun s => step s second).map
      (fun s => (s.activeState 0, s.activeState 1)) = some (some 0, some 1) := by
    decide +kernel
  obtain ⟨t, ht, hactive⟩ := Option.map_eq_some_iff.mp hrun
  obtain ⟨s, hs, ht⟩ := Option.bind_eq_some_iff.mp ht
  simp only [Prod.mk.injEq] at hactive
  let start : Clients := ⟨initial, fun _ => none, fun _ => none⟩
  have hfirst : (clientSystem.guarded Assumed).Reachable (start.record s first) := by
    refine .step (.init rfl) ⟨?_, s, hs, rfl⟩
    intro _ _ other _
    simp
  have hcurrent : (start.record s first).current =
      Function.update (fun _ : ℕ => none) 0 (some (1, 10)) := rfl
  have hsecond : (clientSystem.guarded Assumed).Reachable
      ((start.record s first).record t second) := by
    refine .step hfirst ⟨?_, t, ht, rfl⟩
    intro _ _ other _
    rw [hcurrent, Function.update_apply]
    split <;> simp
  exact ⟨_, hsecond, hactive.1, hactive.2, oneToOne_of_reachable hsecond⟩

end GpuProxy.Contexts
