import GpuProxy.Contexts.ActiveStates
import GpuProxy.Contexts.PendingFlags

/-!
# What is current

The client answers `eglGetCurrentContext`, `eglGetCurrentDisplay` and `eglGetCurrentSurface`
without the driver, from its active state, and passes `eglSwapBuffers` on only for the surface it
draws to. As long as the driver accepts the calls of `eglMakeCurrent` that it is not waited for, and
no context is shared or current in two clients, the answers are those of the driver, also when the
surfaces were destroyed meanwhile.

## Main definitions

* `eglGetCurrentContext`, `eglGetCurrentDisplay`, `eglGetCurrentSurface`, `eglSwapBuffers` — the
  entry points
* `executes` — whether the driver executes an `eglMakeCurrent`
* `CurrentClients`, `currentSystem` — the calls of all clients, with what is current in the driver
* `CurrentAssumed` — the assumptions on the calls and on the driver

## Main results

* `Shown.step` — a call keeps the surfaces of the active states as they are in the driver
* `current_eq_driver` — the answers are those of the driver
-/

namespace GpuProxy.Contexts

open Math State

/-- `EGL_DRAW`. -/
def eglDraw : ℕ := 0x3059

namespace State

variable (s : State) (client : ℕ)

/-- `caching_client_eglGetCurrentContext`. -/
def eglGetCurrentContext : Option ℕ :=
  match s.activeState client with
  | none => some eglNo
  | some x => if x ∉ s.cachedGlStates then none else some (s.heap x).context

/-- `caching_client_eglGetCurrentDisplay`. -/
def eglGetCurrentDisplay : Option ℕ :=
  match s.activeState client with
  | none => some eglNo
  | some x => if x ∉ s.cachedGlStates then none else some (s.heap x).display

/-- `caching_client_eglGetCurrentSurface`. -/
def eglGetCurrentSurface (readdraw : ℕ) : Option ℕ :=
  match s.activeState client with
  | none => some eglNo
  | some x =>
    if x ∉ s.cachedGlStates then none
    else
      let e := s.heap x
      if e.display = eglNo ∨ e.context = eglNo then some eglNo
      else if readdraw = eglDraw then some e.drawable
      else some e.readable

/-- `caching_client_eglSwapBuffers`: whether the driver is asked, and the result. `answer` is what
the driver returns. -/
def eglSwapBuffers (display surface : ℕ) (answer : Bool) : Option (Bool × Bool) :=
  match s.activeState client with
  | none => some (false, false)
  | some x =>
    if x ∉ s.cachedGlStates then none
    else
      let e := s.heap x
      if ¬(e.display = display ∧ e.drawable = surface) then some (false, false)
      else some (true, answer)

end State

/-- Whether the driver executes an `eglMakeCurrent`: it is asked, waited for or not, and accepts. -/
def executes (path : MakeCurrentPath) (answer : Bool) : Bool :=
  match path with
  | .unchanged => false
  | .async => answer
  | .sync => answer

/-- The cached states, with what each client has current in the driver: the display and context,
and the surfaces to draw to and to read from. -/
structure CurrentClients where
  state : State
  current : ℕ → Option (ℕ × ℕ)
  surfaces : ℕ → ℕ × ℕ

namespace CurrentClients

variable (c : CurrentClients)

/-- The record after a call that leads to the state `t`. -/
def record (t : State) : Op → CurrentClients
  | .eglMakeCurrent client display draw read context surfaces answer =>
    let path := c.state.makeCurrentPath client display draw read context surfaces
    if executes path answer then
      { state := t
        current := Function.update c.current client (bound display context)
        surfaces := Function.update c.surfaces client (draw, read) }
    else { c with state := t }
  | .eglReleaseThread client answer =>
    if answer then { c with state := t, current := Function.update c.current client none }
    else { c with state := t }
  | _ => { c with state := t }

/-- What `eglGetCurrentSurface` of the driver returns. -/
def driverSurface (client readdraw : ℕ) : ℕ :=
  match c.current client with
  | none => eglNo
  | some _ => if readdraw = eglDraw then (c.surfaces client).1 else (c.surfaces client).2

/-- The surface is the one that the client draws to in the driver. -/
def DrawsTo (client display surface : ℕ) : Prop :=
  (∃ context, c.current client = some (display, context)) ∧ (c.surfaces client).1 = surface

end CurrentClients

/-- All sequences of calls, with the record. -/
def currentSystem : System CurrentClients Op where
  Init c := c.state = initial ∧ c.current = fun _ => none
  Step c op d := ∃ t, step c.state op = some t ∧ d = c.record t op

/-- The call makes no context that shares another one. The driver accepts what it is not waited
for, and makes no context current that is current in another client. -/
def CurrentAssumed (c : CurrentClients) : Op → Prop
  | .eglCreateContext _ shareContext _ => shareContext = eglNo
  | .eglMakeCurrent client display draw read context surfaces answer =>
    let path := c.state.makeCurrentPath client display draw read context surfaces
    (path = .async → answer = true) ∧
      (path = .sync → answer = true →
        ∀ other, other ≠ client → c.current other ≠ some (display, context))
  | _ => True

/-! ### The surfaces of active states -/

/-- A client's active state has the surfaces that the client has in the driver. -/
def Shown (s : State) (surfaces : ℕ → ℕ × ℕ) : Prop :=
  ∀ client x, s.activeState client = some x →
    ((s.heap x).drawable, (s.heap x).readable) = surfaces client

variable {s t u : State} {current : ℕ → Option (ℕ × ℕ)} {op : Op} {c : CurrentClients}
  {x client display context draw read : ℕ} {surfaces : ℕ → ℕ × ℕ} {answer : Bool}
  {destroyed : Option ℕ} {path : MakeCurrentPath}

theorem executes_eq_switches (h : path = .async → answer = true) :
    executes path answer = switches path answer := by
  cases path with
  | async => exact h rfl
  | _ => rfl

@[simp] theorem CurrentClients.state_record : (c.record t op).state = t := by
  cases op <;> simp only [CurrentClients.record]
  all_goals split <;> rfl

/-- A change that keeps the surfaces of the active states. -/
theorem Shown.of_same (h : Shown s surfaces) (hactive : t.activeState = s.activeState)
    (hsame : ∀ client x, s.activeState client = some x →
      (t.heap x).drawable = (s.heap x).drawable ∧ (t.heap x).readable = (s.heap x).readable) :
    Shown t surfaces := by
  intro client x hx
  rw [hactive] at hx
  obtain ⟨hdraw, hread⟩ := hsame client x hx
  rw [hdraw, hread]
  exact h client x hx

/-- A surface that is destroyed stays in the states that are active. -/
theorem markSurface_of_active {surface : ℕ} {e : EglState} (h : e.active = true) :
    (markSurface surface e).drawable = e.drawable ∧
      (markSurface surface e).readable = e.readable := by
  simp [markSurface, h]

theorem Shown.eglDestroySurface (hmatched : Matched s current) (h : Shown s surfaces)
    (surface : ℕ) : Shown (s.eglDestroySurface client display surface answer) surfaces := by
  refine h.of_same sameUse_eglDestroySurface.activeState fun other x hx => ?_
  unfold State.eglDestroySurface
  split
  · by_cases hmarked : x ∈ s.cachedGlStates ∧ (s.heap x).display = display
    · simp only [if_pos hmarked]
      exact markSurface_of_active (hmatched.active other x hx)
    · simp only [if_neg hmarked, and_self]
  · exact ⟨rfl, rfl⟩

/-- The surfaces of the new state are stored, and no other client has that state. -/
theorem Shown.makeCurrent (hmatched : Matched s current) (h : Shown s surfaces)
    (hfree : FreeFor current client display context)
    (hmake : s.makeCurrent client display draw read context = some (t, destroyed)) :
    Shown t (Function.update surfaces client (draw, read)) := by
  obtain ⟨newState, hmade⟩ := exists_madeCurrent hmatched.wellFormed hmake
  intro other x hx
  rcases eq_or_ne other client with rfl | hne
  · obtain ⟨e, -, -, -, heq⟩ := hmade.entered x (hmade.activeState_self.symm.trans hx)
    rw [Function.update_self, heq]
  · rw [hmade.activeState_of_ne hne] at hx
    have hentered : newState ≠ some x := fun hnew =>
      hmatched.entered_alone hfree hmade hnew hne hx
    have hleft : s.activeState client ≠ some x := fun hclient =>
      hne (hmatched.alone other client x hx hclient)
    rw [Function.update_of_ne hne, hmade.same x (hmatched.tended.active_mem other x hx) hleft
      hentered]
    exact h other x hx

/-- A client that has no context any more has no state to show. -/
theorem Shown.leave (hmatched : Matched s current) (h : Shown s surfaces)
    (hmake : s.makeCurrent client eglNo draw read eglNo = some (t, destroyed)) :
    Shown t surfaces := by
  have hshown := h.makeCurrent hmatched (fun hboth => absurd rfl hboth.1) hmake
  obtain ⟨newState, hmade⟩ := exists_madeCurrent hmatched.wellFormed hmake
  intro other x hx
  rcases eq_or_ne other client with rfl | hne
  · rw [hmade.activeState_self] at hx
    have hboth := hmade.newState_iff.mp (by simp [hx])
    exact absurd rfl hboth.1
  · have hother := hshown other x hx
    rwa [Function.update_of_ne hne] at hother

theorem Shown.of_destroyed (h : Shown s surfaces) (hd : Destroyed s x t) : Shown t surfaces := by
  refine h.of_same hd.activeState fun client z _ => ?_
  obtain ⟨n, hn⟩ := hd.heap z
  rw [hn]
  exact ⟨rfl, rfl⟩

/-- A call, up to the destruction of a state. -/
theorem Shown.run (hmatched : Matched c.state c.current) (h : Shown c.state c.surfaces)
    (hassumed : CurrentAssumed c op) (hrun : run c.state op = some (u, destroyed)) :
    Shown u (c.record t op).surfaces := by
  unfold Contexts.run at hrun
  split at hrun
  next display shareContext result _ =>
    cases hrun
    have hshare : shareContext = eglNo := hassumed
    have hsame : c.state.eglCreateContext display shareContext result = c.state := by
      simp [State.eglCreateContext, hshare]
    rw [hsame]
    exact h
  next client display draw read context surfaces answer _ =>
    obtain ⟨haccepted, halone⟩ := hassumed
    have hexecutes := executes_eq_switches haccepted
    rcases eglMakeCurrent_cases hrun with ⟨hswitches, hmake⟩ | ⟨hstays, rfl, rfl⟩
    · simp only [CurrentClients.record, hexecutes, hswitches, if_true]
      refine h.makeCurrent hmatched (fun hboth other hne => ?_) hmake
      -- A context that is the client's already, or one the driver made current.
      by_cases hpath : c.state.makeCurrentPath client display draw read context surfaces = .sync
      · rw [hpath] at hswitches
        exact halone hpath hswitches other hne
      · rcases context_of_makeCurrentPath_ne_sync hpath with ⟨-, hnone⟩ | ⟨x, hx, rfl, rfl⟩
        · exact absurd hnone (by simp [hboth])
        · refine hmatched.ne_of_current ?_ hne
          rw [hmatched.current_eq, hx]
          rfl
    · simp only [CurrentClients.record, hexecutes, hstays]
      exact h
  next client answer _ =>
    have hsurfaces : (c.record t (.eglReleaseThread client answer)).surfaces = c.surfaces := by
      simp only [CurrentClients.record]
      split <;> rfl
    rw [hsurfaces]
    unfold State.eglReleaseThread at hrun
    split at hrun
    · exact h.leave hmatched hrun
    · cases hrun
      exact h
  next display context answer _ =>
    have hsame := sameUse_eglDestroyContext (s := c.state) display context answer
    have hmarks : ∀ z, SameMarks (c.state.heap z)
        ((c.state.eglDestroyContext display context answer).1.heap z) := fun z =>
      sameMarks_eglDestroyContext
    rw [Option.some.inj hrun] at hsame hmarks
    exact h.of_same hsame.activeState fun _ x _ => ⟨(hmarks x).drawable, (hmarks x).readable⟩
  next =>
    cases hrun
    exact h.eglDestroySurface hmatched _
  next =>
    cases hrun
    unfold State.eglTerminate
    split <;> exact h
  next l _ =>
    have hsame := sameUse_terminateRound hrun
    refine h.of_same hsame.activeState fun _ x _ => ?_
    have hmarks : SameMarks (c.state.heap x) (u.heap x) := sameMarks_terminateRound hrun
    exact ⟨hmarks.drawable, hmarks.readable⟩
  next => cases hrun

/-- A call keeps the surfaces of the active states as they are in the driver. -/
theorem Shown.step (hmatched : Matched c.state c.current) (h : Shown c.state c.surfaces)
    (hassumed : CurrentAssumed c op) (hstep : step c.state op = some t) :
    Shown t (c.record t op).surfaces := by
  obtain ⟨⟨u, destroyed⟩, hrun, hfinish⟩ := Option.bind_eq_some_iff.mp hstep
  have hu := h.run (t := t) hmatched hassumed hrun
  cases destroyed with
  | none =>
    cases hfinish
    exact hu
  | some x =>
    have hwell := (prepared_run hmatched.wellFormed hrun).wellFormed
    exact hu.of_destroyed (destroyState_spec hwell.nodup hfinish)

/-! ### Whole runs -/

/-- What is current in the driver is what the states say, if the driver accepts what it is not
waited for. -/
theorem matched_record (h : Matched c.state c.current) (hassumed : CurrentAssumed c op)
    (hstep : step c.state op = some t) : Matched t (c.record t op).current := by
  let clients : Clients := ⟨c.state, fun _ => none, c.current⟩
  have hclients : Assumed clients op := by
    cases op with
    | eglMakeCurrent => exact hassumed.2
    | eglCreateContext => exact hassumed
    | _ => trivial
  have hcurrent : (clients.record t op).current = (c.record t op).current := by
    cases op with
    | eglMakeCurrent client display draw read context surfaces answer =>
      have hexecutes := executes_eq_switches hassumed.1
      simp only [Clients.record, CurrentClients.record, hexecutes, clients]
      split <;> rfl
    | eglReleaseThread client answer => cases answer <;> rfl
    | _ => rfl
  have hmatched : Matched (clients.record t op).state (clients.record t op).current :=
    Matched.step (c := clients) h hclients hstep
  rwa [hcurrent, state_record] at hmatched

/-- What is current in the driver is a context of a display. -/
def Named (current : ℕ → Option (ℕ × ℕ)) : Prop :=
  ∀ client display context, current client = some (display, context) →
    display ≠ eglNo ∧ context ≠ eglNo

theorem Named.record (h : Named c.current) (t : State) (op : Op) :
    Named (c.record t op).current := by
  intro client display context hcurrent
  cases op with
  | eglMakeCurrent caller display' draw read context' surfaces answer =>
    simp only [CurrentClients.record] at hcurrent
    split at hcurrent
    · dsimp only at hcurrent
      rcases eq_or_ne client caller with rfl | hne
      · rw [Function.update_self, bound] at hcurrent
        split_ifs at hcurrent with hboth
        cases hcurrent
        exact hboth.symm
      · rw [Function.update_of_ne hne] at hcurrent
        exact h client display context hcurrent
    · exact h client display context hcurrent
  | eglReleaseThread caller answer =>
    simp only [CurrentClients.record] at hcurrent
    split at hcurrent
    · rcases eq_or_ne client caller with rfl | hne
      · simp at hcurrent
      · exact h client display context (by simpa [hne] using hcurrent)
    · exact h client display context hcurrent
  | _ => exact h client display context hcurrent

theorem shown_invariant : (currentSystem.guarded CurrentAssumed).Invariant fun c =>
    Matched c.state c.current ∧ Named c.current ∧ Shown c.state c.surfaces where
  init := by
    rintro ⟨state, current, surfaces⟩ ⟨hstate, hcurrent⟩
    obtain rfl : state = initial := hstate
    obtain rfl : current = fun _ => none := hcurrent
    exact ⟨matched_initial, by simp [Named], by simp [Shown, initial]⟩
  step := by
    rintro c op d - ⟨hmatched, hnamed, hshown⟩ ⟨hassumed, t, hstep, rfl⟩
    refine ⟨?_, hnamed.record t op, ?_⟩ <;> rw [CurrentClients.state_record]
    · exact matched_record hmatched hassumed hstep
    · exact hshown.step hmatched hassumed hstep

/-- In every run that meets the assumptions, the client's answers are those of the driver, and
`eglSwapBuffers` is passed on exactly for the surface that the client draws to in the driver. -/
theorem current_eq_driver (h : (currentSystem.guarded CurrentAssumed).Reachable c) :
    c.state.eglGetCurrentDisplay client =
        some (((c.current client).map Prod.fst).getD eglNo) ∧
      c.state.eglGetCurrentContext client =
        some (((c.current client).map Prod.snd).getD eglNo) ∧
      (∀ readdraw, c.state.eglGetCurrentSurface client readdraw =
        some (c.driverSurface client readdraw)) ∧
      ∀ display surface answer, ∃ asked, c.state.eglSwapBuffers client display surface
          answer = some (asked, asked && answer) ∧
        (asked = true ↔ c.DrawsTo client display surface) := by
  obtain ⟨hmatched, hnamed, hshown⟩ := shown_invariant.holds h
  have hcurrent := hmatched.current_eq client
  cases hactive : c.state.activeState client with
  | none =>
    rw [hactive, Option.map_none] at hcurrent
    refine ⟨?_, ?_, fun readdraw => ?_, fun display surface answer => ⟨false, ?_, ?_⟩⟩
    · rw [eglGetCurrentDisplay, hactive, hcurrent]
      rfl
    · rw [eglGetCurrentContext, hactive, hcurrent]
      rfl
    · rw [eglGetCurrentSurface, hactive, CurrentClients.driverSurface, hcurrent]
    · rw [eglSwapBuffers, hactive]
      rfl
    · simp [CurrentClients.DrawsTo, hcurrent]
  | some x =>
    rw [hactive, Option.map_some] at hcurrent
    have hmem := hmatched.tended.active_mem client x hactive
    have hlisted : ¬x ∉ c.state.cachedGlStates := not_not.mpr hmem
    obtain ⟨hdisplay, hcontext⟩ := hnamed client _ _ hcurrent
    have hsurfaces := hshown client x hactive
    refine ⟨?_, ?_, fun readdraw => ?_, fun display surface answer => ?_⟩
    · rw [eglGetCurrentDisplay, hactive, hcurrent]
      exact if_neg hlisted
    · rw [eglGetCurrentContext, hactive, hcurrent]
      exact if_neg hlisted
    · simp only [eglGetCurrentSurface, hactive, if_neg hlisted, hdisplay, hcontext, or_self,
        if_false, CurrentClients.driverSurface, hcurrent, ← hsurfaces]
      split_ifs <;> rfl
    · refine ⟨decide ((c.state.heap x).display = display ∧
        (c.state.heap x).drawable = surface), ?_, ?_⟩
      · simp only [eglSwapBuffers, hactive, if_neg hlisted]
        by_cases hdraws : (c.state.heap x).display = display ∧
            (c.state.heap x).drawable = surface
        · rw [if_neg (not_not.mpr hdraws), decide_eq_true hdraws, Bool.true_and]
        · rw [if_pos hdraws, decide_eq_false hdraws, Bool.false_and]
      · simp [CurrentClients.DrawsTo, hcurrent, ← hsurfaces]

/-- A client makes a context current, and destroys the surface that it draws to. -/
theorem current_eq_driver_destroyed : ∃ c, (currentSystem.guarded CurrentAssumed).Reachable c ∧
    c.state.eglGetCurrentSurface 0 eglDraw = some 5 ∧
    (c.state.eglGetCurrentDisplay 0 =
        some (((c.current 0).map Prod.fst).getD eglNo) ∧
      c.state.eglGetCurrentContext 0 =
        some (((c.current 0).map Prod.snd).getD eglNo) ∧
      (∀ readdraw, c.state.eglGetCurrentSurface 0 readdraw =
        some (c.driverSurface 0 readdraw)) ∧
      ∀ display surface answer, ∃ asked, c.state.eglSwapBuffers 0 display surface answer =
          some (asked, asked && answer) ∧
        (asked = true ↔ c.DrawsTo 0 display surface)) := by
  let first : Op := .eglMakeCurrent 0 1 5 6 10 false true
  let second : Op := .eglDestroySurface 0 1 5 true
  have hrun : ((step initial first).bind fun s => step s second).map
      (fun s => s.eglGetCurrentSurface 0 eglDraw) = some (some 5) := by
    decide +kernel
  obtain ⟨t, ht, hsurface⟩ := Option.map_eq_some_iff.mp hrun
  obtain ⟨s, hs, ht⟩ := Option.bind_eq_some_iff.mp ht
  let start : CurrentClients := ⟨initial, fun _ => none, fun _ => (0, 0)⟩
  have hentered : (currentSystem.guarded CurrentAssumed).Reachable (start.record s first) := by
    have hassumed : CurrentAssumed start first := by
      refine ⟨fun _ => rfl, fun _ _ other _ => ?_⟩
      simp [start]
    exact .step (.init (s := start) ⟨rfl, rfl⟩) ⟨hassumed, s, hs, rfl⟩
  have hdestroyed : (currentSystem.guarded CurrentAssumed).Reachable
      ((start.record s first).record t second) := by
    have hassumed : CurrentAssumed (start.record s first) second := trivial
    refine .step hentered ⟨hassumed, t, ?_, rfl⟩
    rwa [CurrentClients.state_record]
  exact ⟨_, hdestroyed, hsurface, current_eq_driver hdestroyed⟩

end GpuProxy.Contexts
