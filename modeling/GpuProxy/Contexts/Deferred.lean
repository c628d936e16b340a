import GpuProxy.Contexts.MakeCurrent
import GpuProxy.Contexts.Registry

/-!
# Deferred destruction

A surface that is destroyed while it is current, and a display that is terminated while the
current state belongs to it, are to go when the client leaves the state. The surface's
record is then looked for in the registry of the display the client switches to, and by its
handle; the display's record is not looked for at all. So both stay.

The runs are those of one client, and the driver does what it is asked. A surface that is
created again, or a display that is got again, is a new one.

## Main definitions

* `Egl`, `EglOp`, `eglStep` — the cached states with the registry, and the entry points
* `leaveDisplays` — what `_caching_client_make_current` does to the registry
* `Deferred` — with what is to be destroyed, and what was to be by now
* `CarriedOut` — what was to be destroyed by now is not in the registry
* `NothingDue` — the calls that leave no state while something recorded is to be destroyed

## Main results

* `CarriedOut.step` — such a call leaves nothing that was to be destroyed
* `not_carriedOut_of_due` — something is left after every other call
* `carriedOut_iff` — so a run carries out what was deferred exactly when all its calls are such
-/

namespace GpuProxy.Contexts

open Math State

/-- The cached states and the registry. -/
structure Egl where
  state : State
  displays : List DisplayRecord

/-- The entry points, with the results of the driver and of `malloc`. The three functions
that create surfaces do the same. -/
inductive EglOp
  | eglGetDisplay (result : ℕ)
  | eglCreateSurface (display result address : ℕ)
  | eglCreateContext (display shareContext result address : ℕ)
  | eglMakeCurrent (display draw read context : ℕ)
  | eglReleaseThread
  | eglDestroyContext (display context : ℕ)
  | eglDestroySurface (display surface : ℕ)
  | eglTerminate (display : ℕ)
  | terminateRound
  deriving DecidableEq, Repr

/-- The part of `_caching_client_make_current` that changes the registry, for the state `e`
that is left. It is given the display that is switched to. The last line comes after
`_caching_client_destroy_state`, which may have freed the state; it finds `destroy_ctx`,
`display` and `context` there as if it had not. -/
def leaveDisplays (displays : List DisplayRecord) (display : ℕ) (e : EglState) :
    List DisplayRecord :=
  -- The context is looked for on the state's own display, the surfaces are not.
  let displays :=
    if e.destroyRead then cachedGlSurfaceDestroy displays display e.readable else displays
  let displays :=
    if e.destroyDraw ∧ e.readable ≠ e.drawable then
      cachedGlSurfaceDestroy displays display e.drawable
    else displays
  if e.destroyCtx then cachedGlContextDestroy displays e.display e.context else displays

/-- The registry after `_caching_client_make_current`. -/
def makeCurrentDisplays (s : Egl) (client display drawable readable context : ℕ) :
    List DisplayRecord :=
  let (newState, t) := s.state.enter display drawable readable context
  match t.activeState client with
  | none => s.displays
  | some x => if newState = some x then s.displays else leaveDisplays s.displays display (t.heap x)

/-- The registry after the loop of `_caching_client_destroy_surface`. -/
def destroySurfaceDisplays (s : Egl) (display surface : ℕ) : List DisplayRecord :=
  s.state.cachedGlStates.foldl
    (fun displays x =>
      if (s.state.heap x).display = display ∧ (s.state.heap x).active = false then
        cachedGlSurfaceDestroy displays display surface
      else displays)
    s.displays

/-- Whether the client's current state belongs to a display. -/
def belongsTo (s : State) (client display : ℕ) : Bool :=
  (s.activeState client).any fun x => (s.heap x).display = display

/-- The registry after a round of `eglTerminate`. -/
def terminateDisplays (s : Egl) : List DisplayRecord :=
  match s.state.terminating with
  | some ⟨client, display, none⟩ =>
      if belongsTo s.state client display then s.displays
      else cachedGlDisplayDestroy s.displays display
  | _ => s.displays

/-- A call of the client, whose number is 0. -/
def eglStep (s : Egl) : EglOp → Option Egl
  | .eglGetDisplay result =>
      if s.state.terminating.isSome then none
      else if result ≠ eglNo ∧ cachedGlDisplayFind s.displays result = none then
        some { s with displays := s.displays ++ [cachedGlDisplayNew result] }
      else some s
  | .eglCreateSurface display result address =>
      if s.state.terminating.isSome then none
      else if result ≠ eglNo then
        some { s with displays := cachedGlSurfaceAdd s.displays display result address }
      else some s
  | .eglCreateContext display shareContext result address =>
      (step s.state (.eglCreateContext display shareContext result)).map fun t =>
        { state := t
          displays :=
            if result = eglNo then s.displays
            else cachedGlContextAdd s.displays display result address }
  | .eglMakeCurrent display draw read context =>
      -- Whether the client need not wait for the driver depends on the registry.
      let surfaces := cachedGlSurfaceMatch (cachedGlSurfaces s.displays display) draw &&
        cachedGlSurfaceMatch (cachedGlSurfaces s.displays display) read
      (step s.state (.eglMakeCurrent 0 display draw read context surfaces true)).map fun t =>
        { state := t
          displays :=
            if switches (s.state.makeCurrentPath 0 display draw read context surfaces) true then
              makeCurrentDisplays s 0 display draw read context
            else s.displays }
  | .eglReleaseThread =>
      (step s.state (.eglReleaseThread 0 true)).map fun t =>
        { state := t, displays := makeCurrentDisplays s 0 eglNo eglNo eglNo eglNo }
  | .eglDestroyContext display context =>
      (step s.state (.eglDestroyContext display context true)).map fun t =>
        { state := t
          displays :=
            if (s.state.find display context).any fun x => !(s.state.heap x).active then
              cachedGlContextDestroy s.displays display context
            else s.displays }
  | .eglDestroySurface display surface =>
      (step s.state (.eglDestroySurface 0 display surface true)).map fun t =>
        { state := t
          displays :=
            if (s.state.activeState 0).isSome then destroySurfaceDisplays s display surface
            else s.displays }
  | .eglTerminate display =>
      (step s.state (.eglTerminate 0 display true)).map fun t =>
        { state := t, displays := s.displays }
  | .terminateRound =>
      (step s.state .terminateRound).map fun t =>
        { state := t, displays := terminateDisplays s }

/-! ### What is to be destroyed -/

/-- A surface is the client's current draw or read surface. -/
def isCurrentSurface (s : State) (client surface : ℕ) : Bool :=
  (s.activeState client).any fun x =>
    (s.heap x).drawable = surface ∨ (s.heap x).readable = surface

/-- The call makes a different context current, or none. -/
def leavesContext (s : State) : EglOp → Bool
  | .eglMakeCurrent display _ _ context =>
      (s.activeState 0).any fun x =>
        ¬ ((s.heap x).display = display ∧ (s.heap x).context = context)
  | .eglReleaseThread => (s.activeState 0).isSome
  | _ => false

/-- The display that the last round of `eglTerminate` leaves to be destroyed later. -/
def deferredDisplay (s : State) : Option ℕ :=
  match s.terminating with
  | some ⟨client, display, none⟩ => if belongsTo s client display then some display else none
  | _ => none

/-- The states and the registry, with the display each surface was created on, the surfaces
and displays that are to be destroyed, and those that were to be destroyed by now. -/
structure Deferred where
  egl : Egl
  createdOn : ℕ → Option ℕ
  pendingSurfaces : List (ℕ × ℕ)
  pendingDisplays : List ℕ
  dueSurfaces : List (ℕ × ℕ)
  dueDisplays : List ℕ

/-- The records after a call that leads to `t`. -/
def Deferred.record (s : Deferred) (t : Egl) : EglOp → Deferred
  | .eglGetDisplay result =>
      { s with
        egl := t
        pendingDisplays := s.pendingDisplays.filter (· ≠ result)
        dueDisplays := s.dueDisplays.filter (· ≠ result) }
  | .eglCreateSurface display result _ =>
      if result = eglNo then { s with egl := t }
      else
        -- The handle is that of a new surface from now on.
        { s with
          egl := t
          createdOn := Function.update s.createdOn result (some display)
          pendingSurfaces := s.pendingSurfaces.filter (· ≠ (display, result))
          dueSurfaces := s.dueSurfaces.filter (· ≠ (display, result)) }
  | .eglDestroySurface _ surface =>
      if isCurrentSurface s.egl.state 0 surface then
        { s with
          egl := t
          pendingSurfaces :=
            ((s.createdOn surface).map fun display => (display, surface)).toList ++
              s.pendingSurfaces }
      else { s with egl := t }
  | .terminateRound =>
      { s with
        egl := t
        pendingDisplays := (deferredDisplay s.egl.state).toList ++ s.pendingDisplays }
  | op =>
      if leavesContext s.egl.state op then
        -- What is pending is due.
        { s with
          egl := t
          pendingSurfaces := []
          pendingDisplays := []
          dueSurfaces := s.pendingSurfaces ++ s.dueSurfaces
          dueDisplays := s.pendingDisplays ++ s.dueDisplays }
      else { s with egl := t }

def deferredStep (s : Deferred) (op : EglOp) : Option Deferred :=
  (eglStep s.egl op).map fun t => s.record t op

/-- No states, no displays, and nothing to be destroyed. -/
def deferredInitial : Deferred where
  egl := { state := initial, displays := [] }
  createdOn _ := none
  pendingSurfaces := []
  pendingDisplays := []
  dueSurfaces := []
  dueDisplays := []

/-- All sequences of calls of one client. -/
def deferredSystem : System Deferred EglOp := System.ofStep (· = deferredInitial) deferredStep

/-- A surface has a record in the registry of a display. -/
def HasSurface (displays : List DisplayRecord) (display surface : ℕ) : Prop :=
  ∃ r ∈ cachedGlSurfaces displays display, r.handle = surface

/-- A display has a record. -/
def HasDisplay (displays : List DisplayRecord) (display : ℕ) : Prop :=
  cachedGlDisplayFind displays display ≠ none

/-- What was to be destroyed by now is not in the registry. -/
structure CarriedOut (s : Deferred) : Prop where
  surfaces : ∀ p ∈ s.dueSurfaces, ¬ HasSurface s.egl.displays p.1 p.2
  displays : ∀ display ∈ s.dueDisplays, ¬ HasDisplay s.egl.displays display

/-- The call does not leave a context, or nothing that is to be destroyed is in the registry
when it does. -/
def NothingDue (s : Deferred) (op : EglOp) : Prop :=
  leavesContext s.egl.state op = true →
    (∀ p ∈ s.pendingSurfaces, ¬ HasSurface s.egl.displays p.1 p.2) ∧
      ∀ display ∈ s.pendingDisplays, ¬ HasDisplay s.egl.displays display

/-! ### What the calls do to the registry -/

variable {displays displays' : List DisplayRecord} {display other handle address surface : ℕ}
  {kind : RecordKind} {s t : Deferred} {op : EglOp} {e : EglState}

theorem hasDisplay_iff :
    HasDisplay displays display ↔ display ≠ eglNo ∧ (matchedDisplay displays display).isSome := by
  unfold HasDisplay cachedGlDisplayFind
  by_cases hnone : display = eglNo <;> simp [hnone, Option.isSome_iff_ne_none]

/-- Nothing new is in the registry, and no display is in it twice. -/
structure Shrinks (displays displays' : List DisplayRecord) : Prop where
  hasSurface : ∀ display surface, HasSurface displays' display surface →
    HasSurface displays display surface
  hasDisplay : ∀ display, HasDisplay displays' display → HasDisplay displays display
  nodup : (displays.map DisplayRecord.display).Nodup → (displays'.map DisplayRecord.display).Nodup

theorem Shrinks.refl : Shrinks displays displays := ⟨fun _ _ h => h, fun _ h => h, id⟩

theorem Shrinks.trans {displays'' : List DisplayRecord} (h : Shrinks displays displays')
    (h' : Shrinks displays' displays'') : Shrinks displays displays'' :=
  ⟨fun d x hx => h.hasSurface d x (h'.hasSurface d x hx),
    fun d hd => h.hasDisplay d (h'.hasDisplay d hd), fun hnodup => h'.nodup (h.nodup hnodup)⟩

theorem Shrinks.ite {condition : Prop} [Decidable condition] (h : Shrinks displays displays') :
    Shrinks displays (if condition then displays' else displays) := by
  split
  · exact h
  · exact .refl

theorem map_display_changeMatched {f : DisplayRecord → DisplayRecord}
    (hf : ∀ d, (f d).display = d.display) :
    (changeMatched f display displays).map DisplayRecord.display =
      displays.map DisplayRecord.display := by
  induction displays with
  | nil => rfl
  | cons d displays ih =>
    rw [changeMatched]
    split
    · simp [hf]
    · simp [ih]

theorem hasDisplay_changeMatched {f : DisplayRecord → DisplayRecord}
    (hf : ∀ d, (f d).display = d.display) :
    HasDisplay (changeMatched f display displays) other ↔ HasDisplay displays other := by
  rw [hasDisplay_iff, hasDisplay_iff, isSome_matchedDisplay_changeMatched hf]

theorem shrinks_destroyRecord : Shrinks displays (destroyRecord kind displays display handle) where
  hasSurface d x := by
    rintro ⟨r, hr, heq⟩
    refine ⟨r, ?_, heq⟩
    rw [cachedGlSurfaces, cachedRecords_destroyRecord] at hr
    split at hr
    · exact List.mem_of_mem_eraseP hr
    · exact hr
  hasDisplay d := (hasDisplay_changeMatched fun _ => DisplayRecord.display_change).mp
  nodup h := by
    rw [destroyRecord, map_display_changeMatched fun _ => DisplayRecord.display_change]
    exact h

theorem matchedDisplay_cachedGlDisplayDestroy
    (hnodup : (displays.map DisplayRecord.display).Nodup) :
    matchedDisplay (cachedGlDisplayDestroy displays display) other =
      if other = display then none else matchedDisplay displays other := by
  induction displays with
  | nil => simp [cachedGlDisplayDestroy, matchedDisplay]
  | cons d displays ih =>
    rw [List.map_cons, List.nodup_cons] at hnodup
    have hrest := ih hnodup.2
    by_cases hd : d.display = display
    · have herase : cachedGlDisplayDestroy (d :: displays) display = displays := by
        simp [cachedGlDisplayDestroy, hd]
      rw [herase]
      by_cases hother : other = display
      · rw [if_pos hother, matchedDisplay, List.find?_eq_none]
        intro d' hd' heq
        refine hnodup.1 ?_
        rw [hd, ← hother, ← of_decide_eq_true heq]
        exact List.mem_map_of_mem hd'
      · rw [if_neg hother, matchedDisplay_cons_of_ne fun h => hother (h.symm.trans hd)]
    · have herase : cachedGlDisplayDestroy (d :: displays) display =
          d :: cachedGlDisplayDestroy displays display := by
        simp [cachedGlDisplayDestroy, hd]
      rw [herase]
      by_cases hother : d.display = other
      · have hne : other ≠ display := fun h => hd (hother.trans h)
        rw [matchedDisplay_cons_of_eq hother, matchedDisplay_cons_of_eq hother, if_neg hne]
      · rw [matchedDisplay_cons_of_ne hother, matchedDisplay_cons_of_ne hother, hrest]

/-- Taking a display out of the list brings no other record of it to light, since there is
none. -/
theorem shrinks_cachedGlDisplayDestroy (hnodup : (displays.map DisplayRecord.display).Nodup) :
    Shrinks displays (cachedGlDisplayDestroy displays display) where
  hasSurface d x := by
    unfold HasSurface cachedGlSurfaces cachedRecords
    rw [matchedDisplay_cachedGlDisplayDestroy hnodup]
    by_cases hd : d = display <;> simp [hd]
  hasDisplay d := by
    rw [hasDisplay_iff, hasDisplay_iff, matchedDisplay_cachedGlDisplayDestroy hnodup]
    by_cases hd : d = display <;> simp [hd]
  nodup h := h.sublist (List.eraseP_sublist.map _)

theorem shrinks_leaveDisplays : Shrinks displays (leaveDisplays displays display e) :=
  (shrinks_destroyRecord.ite.trans shrinks_destroyRecord.ite).trans shrinks_destroyRecord.ite

variable {g : Egl} {drawable readable context client : ℕ}

theorem shrinks_makeCurrentDisplays :
    Shrinks g.displays (makeCurrentDisplays g client display drawable readable context) := by
  unfold makeCurrentDisplays
  simp only
  split
  · exact .refl
  · split
    · exact .refl
    · exact shrinks_leaveDisplays

theorem shrinks_destroySurfaceDisplays :
    Shrinks g.displays (destroySurfaceDisplays g display surface) := by
  have hloop : ∀ (list : List ℕ) (displays : List DisplayRecord), Shrinks displays
      (list.foldl (fun displays x =>
        if (g.state.heap x).display = display ∧ (g.state.heap x).active = false then
          cachedGlSurfaceDestroy displays display surface
        else displays) displays) := by
    intro list
    induction list with
    | nil => exact fun _ => .refl
    | cons x list ih => exact fun displays => shrinks_destroyRecord.ite.trans (ih _)
  exact hloop _ _

theorem shrinks_terminateDisplays (hnodup : (g.displays.map DisplayRecord.display).Nodup) :
    Shrinks g.displays (terminateDisplays g) := by
  unfold terminateDisplays
  split
  · split
    · exact .refl
    · exact shrinks_cachedGlDisplayDestroy hnodup
  · exact .refl

theorem shrinks_addContext :
    Shrinks displays (cachedGlContextAdd displays display handle address) where
  hasSurface d x := by
    rintro ⟨r, hr, heq⟩
    rcases mem_cachedRecords_addRecord hr with hold | ⟨-, hkind, -⟩
    · exact ⟨r, hold, heq⟩
    · cases hkind
  hasDisplay d := (hasDisplay_changeMatched fun _ => DisplayRecord.display_change).mp
  nodup h := by
    rw [cachedGlContextAdd, addRecord,
      map_display_changeMatched fun _ => DisplayRecord.display_change]
    exact h

/-- Only the creation of a surface and `eglGetDisplay` bring something into the registry. -/
theorem shrinks_eglStep {g' : Egl} (hnodup : (g.displays.map DisplayRecord.display).Nodup)
    (hget : ∀ result, op ≠ .eglGetDisplay result)
    (hcreate : ∀ display result address, op ≠ .eglCreateSurface display result address)
    (h : eglStep g op = some g') : Shrinks g.displays g'.displays := by
  cases op with
  | eglGetDisplay result => exact absurd rfl (hget result)
  | eglCreateSurface display result address => exact absurd rfl (hcreate _ _ _)
  | eglCreateContext display shareContext result address =>
    obtain ⟨u, -, rfl⟩ := Option.map_eq_some_iff.mp h
    simp only
    split
    · exact .refl
    · exact shrinks_addContext
  | eglMakeCurrent display draw read context =>
    obtain ⟨u, -, rfl⟩ := Option.map_eq_some_iff.mp h
    exact shrinks_makeCurrentDisplays.ite
  | eglReleaseThread =>
    obtain ⟨u, -, rfl⟩ := Option.map_eq_some_iff.mp h
    change Shrinks g.displays (makeCurrentDisplays g 0 eglNo eglNo eglNo eglNo)
    exact shrinks_makeCurrentDisplays
  | eglDestroyContext display context =>
    obtain ⟨u, -, rfl⟩ := Option.map_eq_some_iff.mp h
    exact shrinks_destroyRecord.ite
  | eglDestroySurface display surface =>
    obtain ⟨u, -, rfl⟩ := Option.map_eq_some_iff.mp h
    exact shrinks_destroySurfaceDisplays.ite
  | eglTerminate display =>
    obtain ⟨u, -, rfl⟩ := Option.map_eq_some_iff.mp h
    exact .refl
  | terminateRound =>
    obtain ⟨u, -, rfl⟩ := Option.map_eq_some_iff.mp h
    exact shrinks_terminateDisplays hnodup

/-- What is in the registry after a surface was created: what was there, and the surface. -/
theorem hasSurface_eglCreateSurface {g' : Egl} {result x : ℕ}
    (h : eglStep g (.eglCreateSurface display result address) = some g')
    (hx : HasSurface g'.displays other x) :
    HasSurface g.displays other x ∨ result ≠ eglNo ∧ (other, x) = (display, result) := by
  simp only [eglStep] at h
  split at h
  · cases h
  split at h
  next hresult =>
    cases h
    obtain ⟨r, hr, heq⟩ := hx
    rcases mem_cachedRecords_addRecord hr with hold | ⟨hother, -, rfl⟩
    · exact Or.inl ⟨r, hold, heq⟩
    · exact Or.inr ⟨hresult, by rw [hother, ← heq]⟩
  next =>
    cases h
    exact Or.inl hx

theorem displays_eglCreateSurface {g' : Egl} {result : ℕ}
    (h : eglStep g (.eglCreateSurface display result address) = some g') :
    g'.displays.map DisplayRecord.display = g.displays.map DisplayRecord.display ∧
      ∀ other, HasDisplay g'.displays other → HasDisplay g.displays other := by
  simp only [eglStep] at h
  split at h
  · cases h
  split at h
  · cases h
    exact ⟨map_display_changeMatched fun _ => DisplayRecord.display_change,
      fun other => (hasDisplay_changeMatched fun _ => DisplayRecord.display_change).mp⟩
  · cases h
    exact ⟨rfl, fun _ h => h⟩

/-- What is in the registry after a display was got: what was there, and the display. -/
theorem registry_eglGetDisplay {g' : Egl} {result : ℕ}
    (h : eglStep g (.eglGetDisplay result) = some g') :
    ((g.displays.map DisplayRecord.display).Nodup →
      (g'.displays.map DisplayRecord.display).Nodup) ∧
    (∀ other x, HasSurface g'.displays other x → HasSurface g.displays other x) ∧
      ∀ other, HasDisplay g'.displays other → HasDisplay g.displays other ∨ other = result := by
  simp only [eglStep] at h
  split at h
  · cases h
  split at h
  next hnew =>
    cases h
    obtain ⟨hresult, hnone⟩ := hnew
    have hfind : matchedDisplay g.displays result = none := by
      simpa [cachedGlDisplayFind, hresult] using hnone
    have hmatched : ∀ other, matchedDisplay (g.displays ++ [cachedGlDisplayNew result]) other =
        (matchedDisplay g.displays other).or
          (if other = result then some (cachedGlDisplayNew result) else none) := by
      intro other
      by_cases hother : other = result <;>
        simp [matchedDisplay, List.find?_append, cachedGlDisplayNew, hother, eq_comm]
    refine ⟨fun hnodup => ?_, fun other x => ?_, fun other => ?_⟩
    · rw [List.map_append, List.nodup_append]
      refine ⟨hnodup, List.nodup_singleton _, ?_⟩
      intro a ha b hb
      obtain ⟨d, hd, rfl⟩ := List.mem_map.mp ha
      have hne := List.find?_eq_none.mp hfind d hd
      simp only [List.map_cons, List.map_nil, List.mem_singleton, cachedGlDisplayNew] at hb
      rw [hb]
      simpa using hne
    · rintro ⟨r, hr, heq⟩
      refine ⟨r, ?_, heq⟩
      unfold cachedGlSurfaces cachedRecords at hr ⊢
      rw [hmatched] at hr
      rcases hold : matchedDisplay g.displays other with _ | d
      · rw [hold] at hr
        by_cases hother : other = result <;>
          simp [hother, cachedGlDisplayNew, DisplayRecord.list] at hr
      · rw [hold] at hr
        exact hr
    · rw [hasDisplay_iff, hasDisplay_iff, hmatched]
      by_cases hother : other = result
      · exact fun _ => Or.inr hother
      · simp [hother]
  next =>
    cases h
    exact ⟨id, fun _ _ h => h, fun _ h => Or.inl h⟩

/-! ### Whole runs -/

theorem egl_record {g' : Egl} : (s.record g' op).egl = g' := by
  cases op <;> simp only [Deferred.record] <;> try split
  all_goals rfl

/-- What is due after a call was due before, or becomes due since the context is left. -/
theorem due_record {g' : Egl} :
    (∀ p ∈ (s.record g' op).dueSurfaces, p ∈ s.dueSurfaces ∨
      leavesContext s.egl.state op = true ∧ p ∈ s.pendingSurfaces) ∧
    ∀ d ∈ (s.record g' op).dueDisplays, d ∈ s.dueDisplays ∨
      leavesContext s.egl.state op = true ∧ d ∈ s.pendingDisplays := by
  cases op with
  | eglGetDisplay result =>
    refine ⟨fun p hp => Or.inl hp, fun d hd => Or.inl ?_⟩
    exact List.mem_of_mem_filter hd
  | eglCreateSurface display result address =>
    simp only [Deferred.record]
    split
    · exact ⟨fun p hp => Or.inl hp, fun d hd => Or.inl hd⟩
    · exact ⟨fun p hp => Or.inl (List.mem_of_mem_filter hp), fun d hd => Or.inl hd⟩
  | eglDestroySurface display surface =>
    simp only [Deferred.record]
    split <;> exact ⟨fun p hp => Or.inl hp, fun d hd => Or.inl hd⟩
  | terminateRound => exact ⟨fun p hp => Or.inl hp, fun d hd => Or.inl hd⟩
  | _ =>
    simp only [Deferred.record]
    split
    next hleaves =>
      simp only [hleaves, true_and, List.mem_append]
      exact ⟨fun p hp => hp.symm, fun d hd => hd.symm⟩
    next => exact ⟨fun p hp => Or.inl hp, fun d hd => Or.inl hd⟩

/-- A call that leaves no state while something recorded is to be destroyed. -/
theorem CarriedOut.step (h : CarriedOut s)
    (hnodup : (s.egl.displays.map DisplayRecord.display).Nodup) (hdue : NothingDue s op)
    (hstep : deferredStep s op = some t) :
    CarriedOut t ∧ (t.egl.displays.map DisplayRecord.display).Nodup := by
  obtain ⟨g', hg', rfl⟩ := Option.map_eq_some_iff.mp hstep
  -- Two calls add to the registry, and what they add is not due any more.
  by_cases hget : ∃ result, op = .eglGetDisplay result
  · obtain ⟨result, rfl⟩ := hget
    obtain ⟨hkeeps, hsurface, hdisplay⟩ := registry_eglGetDisplay hg'
    refine ⟨⟨fun p hp hin => h.surfaces p hp (hsurface _ _ hin), fun d hd hin => ?_⟩,
      hkeeps hnodup⟩
    obtain ⟨hold, hne⟩ := List.mem_filter.mp hd
    rcases hdisplay d hin with hbefore | rfl
    · exact h.displays d hold hbefore
    · simp at hne
  by_cases hcreate : ∃ display result address, op = .eglCreateSurface display result address
  · obtain ⟨display, result, address, rfl⟩ := hcreate
    obtain ⟨hsame, hdisplay⟩ := displays_eglCreateSurface hg'
    rw [egl_record, hsame]
    refine ⟨⟨fun p hp hin => ?_, fun d hd hin => ?_⟩, hnodup⟩
    · rw [egl_record] at hin
      have hold := (due_record.1 p hp).resolve_right (by simp [leavesContext])
      rcases hasSurface_eglCreateSurface hg' hin with hbefore | ⟨hresult, heq⟩
      · exact h.surfaces p hold hbefore
      · simp only [Deferred.record, hresult, if_false] at hp
        have hne := (List.mem_filter.mp hp).2
        rw [show p = (display, result) from heq] at hne
        simp at hne
    · rw [egl_record] at hin
      have hold := (due_record.2 d hd).resolve_right (by simp [leavesContext])
      exact h.displays d hold (hdisplay d hin)
  -- The others do not, so what is left was there before the call.
  · have hshrinks : Shrinks s.egl.displays g'.displays := shrinks_eglStep hnodup
      (fun result heq => hget ⟨result, heq⟩)
      (fun display result address heq => hcreate ⟨display, result, address, heq⟩) hg'
    rw [egl_record]
    refine ⟨⟨fun p hp hin => ?_, fun d hd hin => ?_⟩, hshrinks.nodup hnodup⟩
    · rw [egl_record] at hin
      have hbefore := hshrinks.hasSurface _ _ hin
      rcases due_record.1 p hp with hold | ⟨hleaves, hpending⟩
      · exact h.surfaces p hold hbefore
      · exact (hdue hleaves).1 p hpending hbefore
    · rw [egl_record] at hin
      have hbefore := hshrinks.hasDisplay _ hin
      rcases due_record.2 d hd with hold | ⟨hleaves, hpending⟩
      · exact h.displays d hold hbefore
      · exact (hdue hleaves).2 d hpending hbefore

theorem carriedOut_invariant : (deferredSystem.guarded NothingDue).Invariant fun s =>
    CarriedOut s ∧ (s.egl.displays.map DisplayRecord.display).Nodup where
  init := by
    rintro _ rfl
    refine ⟨⟨?_, ?_⟩, ?_⟩ <;> simp [deferredInitial]
  step := by
    rintro s op t - ⟨hcarried, hnodup⟩ ⟨hdue, hstep⟩
    exact hcarried.step hnodup hdue hstep

/-! ### The other calls -/

/-- The handles in a state are not the addresses of records. -/
def Apart (displays : List DisplayRecord) (e : EglState) : Prop :=
  ∀ kind display, ∀ r ∈ cachedRecords kind displays display,
    r.address ≠ e.drawable ∧ r.address ≠ e.readable ∧ r.address ≠ e.context

/-- The registry has the same records, and the same displays. -/
structure SameRecords (displays displays' : List DisplayRecord) : Prop where
  records : ∀ kind display, cachedRecords kind displays' display =
    cachedRecords kind displays display
  hasDisplay : ∀ display, HasDisplay displays display → HasDisplay displays' display

theorem SameRecords.refl : SameRecords displays displays := ⟨fun _ _ => rfl, fun _ h => h⟩

theorem SameRecords.trans {displays'' : List DisplayRecord} (h : SameRecords displays displays')
    (h' : SameRecords displays' displays'') : SameRecords displays displays'' :=
  ⟨fun kind d => (h'.records kind d).trans (h.records kind d),
    fun d hd => h'.hasDisplay d (h.hasDisplay d hd)⟩

theorem SameRecords.ite {condition : Prop} [Decidable condition]
    (h : SameRecords displays displays') :
    SameRecords displays (if condition then displays' else displays) := by
  split
  · exact h
  · exact .refl

theorem Apart.congr (h : Apart displays e) (hsame : SameRecords displays displays') :
    Apart displays' e := by
  intro kind d r hr
  rw [hsame.records] at hr
  exact h kind d r hr

theorem sameRecords_destroyRecord
    (h : ∀ kind d, ∀ r ∈ cachedRecords kind displays d, r.address ≠ handle) :
    SameRecords displays (destroyRecord kind displays display handle) :=
  ⟨fun kind' d => cachedRecords_destroyRecord_of_ne (h kind' d),
    fun _ => (hasDisplay_changeMatched fun _ => DisplayRecord.display_change).mpr⟩

/-- A state that is left takes nothing out of the registry. -/
theorem sameRecords_leaveDisplays (h : Apart displays e) :
    SameRecords displays (leaveDisplays displays display e) := by
  -- Each deletion is given a handle of the state, and looks for an address.
  have hdelete : ∀ displays', SameRecords displays displays' → ∀ kind other handle,
      handle = e.drawable ∨ handle = e.readable ∨ handle = e.context →
      ∀ (condition : Prop) [Decidable condition], SameRecords displays
        (if condition then destroyRecord kind displays' other handle else displays') := by
    intro displays' hsame kind other handle hhandle condition _
    refine hsame.trans (SameRecords.ite (sameRecords_destroyRecord fun kind' d r hr => ?_))
    obtain ⟨hdraw, hread, hcontext⟩ := h.congr hsame kind' d r hr
    rcases hhandle with rfl | rfl | rfl
    · exact hdraw
    · exact hread
    · exact hcontext
  unfold leaveDisplays
  simp only
  apply hdelete _ _ .context _ _ (Or.inr (Or.inr rfl))
  apply hdelete _ _ .surface _ _ (Or.inl rfl)
  apply hdelete _ _ .surface _ _ (Or.inr (Or.inl rfl))
  exact .refl

/-- Entering a state leaves the others as they are. -/
theorem heap_enter_of_ne {s u : State} {newState : Option ℕ} {x : ℕ}
    (h : s.enter display drawable readable context = (newState, u)) (hne : newState ≠ some x) :
    u.heap x = s.heap x := by
  unfold State.enter at h
  split at h
  · rcases getOrCreate_cases s display context with ⟨y, -, hget⟩ | ⟨-, hget⟩
    · rw [hget] at h
      cases h
      exact heap_update_of_ne fun heq => hne (congrArg some heq.symm)
    · rw [hget] at h
      cases h
      rw [heap_update_of_ne fun heq => hne (congrArg some heq.symm)]
      exact Function.update_of_ne (fun heq => hne (congrArg some heq.symm)) _ _
  · cases h
    rfl

theorem activeState_enter {s u : State} {newState : Option ℕ}
    (h : s.enter display drawable readable context = (newState, u)) :
    u.activeState = s.activeState := by
  unfold State.enter at h
  split at h
  · rcases getOrCreate_cases s display context with ⟨y, -, hget⟩ | ⟨-, hget⟩ <;> rw [hget] at h <;>
      cases h <;> rfl
  · cases h
    rfl

theorem sameRecords_makeCurrentDisplays
    (hapart : ∀ x, g.state.activeState client = some x → Apart g.displays (g.state.heap x)) :
    SameRecords g.displays (makeCurrentDisplays g client display drawable readable context) := by
  rcases henter : g.state.enter display drawable readable context with ⟨newState, u⟩
  simp only [makeCurrentDisplays, henter, activeState_enter henter]
  split
  · exact .refl
  next x hx =>
    split
    · exact .refl
    next hne =>
      rw [heap_enter_of_ne henter hne]
      exact sameRecords_leaveDisplays (hapart x hx)

/-- A call by which the client leaves its context takes nothing out of the registry. -/
theorem sameRecords_of_leaves {g' : Egl} (hleaves : leavesContext g.state op = true)
    (hapart : ∀ x, g.state.activeState 0 = some x → Apart g.displays (g.state.heap x))
    (h : eglStep g op = some g') : SameRecords g.displays g'.displays := by
  cases op with
  | eglMakeCurrent display draw read context =>
    obtain ⟨u, -, rfl⟩ := Option.map_eq_some_iff.mp h
    exact (sameRecords_makeCurrentDisplays hapart).ite
  | eglReleaseThread =>
    obtain ⟨u, -, rfl⟩ := Option.map_eq_some_iff.mp h
    change SameRecords g.displays (makeCurrentDisplays g 0 eglNo eglNo eglNo eglNo)
    exact sameRecords_makeCurrentDisplays hapart
  | _ => simp [leavesContext] at hleaves

/-- What is pending when the client leaves its context is due then. -/
theorem due_of_leaves {g' : Egl} (hleaves : leavesContext s.egl.state op = true) :
    (s.record g' op).dueSurfaces = s.pendingSurfaces ++ s.dueSurfaces ∧
      (s.record g' op).dueDisplays = s.pendingDisplays ++ s.dueDisplays := by
  cases op with
  | eglMakeCurrent display draw read context =>
    simp only [Deferred.record]
    rw [if_pos hleaves]
    exact ⟨rfl, rfl⟩
  | eglReleaseThread =>
    simp only [Deferred.record]
    rw [if_pos hleaves]
    exact ⟨rfl, rfl⟩
  | _ => simp [leavesContext] at hleaves

/-- When something recorded is to be destroyed, and the handles in the state that is left
are not the addresses of records, it is still recorded afterwards. -/
theorem not_carriedOut_of_due (hdue : ¬ NothingDue s op)
    (hapart : ∀ x, s.egl.state.activeState 0 = some x →
      Apart s.egl.displays (s.egl.state.heap x))
    (hstep : deferredStep s op = some t) : ¬ CarriedOut t := by
  obtain ⟨g', hg', rfl⟩ := Option.map_eq_some_iff.mp hstep
  intro hcarried
  refine hdue fun hleaves => ?_
  have hsame := sameRecords_of_leaves hleaves hapart hg'
  obtain ⟨hsurfaces, hdisplays⟩ :=
    (due_of_leaves hleaves :
      (s.record g' op).dueSurfaces = s.pendingSurfaces ++ s.dueSurfaces ∧
        (s.record g' op).dueDisplays = s.pendingDisplays ++ s.dueDisplays)
  constructor
  · rintro p hp ⟨r, hr, heq⟩
    refine hcarried.surfaces p ?_ ⟨r, ?_, heq⟩
    · rw [hsurfaces]
      exact List.mem_append_left _ hp
    · rw [egl_record, cachedGlSurfaces, hsame.records]
      exact hr
  · intro d hd hin
    refine hcarried.displays d ?_ ?_
    · rw [hdisplays]
      exact List.mem_append_left _ hd
    · rw [egl_record]
      exact hsame.hasDisplay d hin

/-- In every run in which the client leaves no context while something recorded is to be
destroyed, nothing is left that was to be destroyed by now. The next call keeps this exactly
if it is such a call too, unless a handle happens to be the address of a record. -/
theorem carriedOut_iff (hs : (deferredSystem.guarded NothingDue).Reachable s) :
    CarriedOut s ∧ ∀ op t, deferredStep s op = some t →
      (∀ x, s.egl.state.activeState 0 = some x → Apart s.egl.displays (s.egl.state.heap x)) →
      (CarriedOut t ↔ NothingDue s op) := by
  refine ⟨(carriedOut_invariant.holds hs).1, fun op t hstep hapart => ⟨?_, fun hdue => ?_⟩⟩
  · intro hcarried
    by_contra hdue
    exact not_carriedOut_of_due hdue hapart hstep hcarried
  · exact (carriedOut_invariant.holds (.step hs ⟨hdue, hstep⟩)).1

instance : Decidable (HasSurface displays display surface) :=
  inferInstanceAs (Decidable (∃ r ∈ cachedGlSurfaces displays display, r.handle = surface))

instance : Decidable (HasDisplay displays display) :=
  inferInstanceAs (Decidable (cachedGlDisplayFind displays display ≠ none))

instance : Decidable (NothingDue s op) :=
  inferInstanceAs (Decidable (leavesContext s.egl.state op = true →
    (∀ p ∈ s.pendingSurfaces, ¬ HasSurface s.egl.displays p.1 p.2) ∧
      ∀ display ∈ s.pendingDisplays, ¬ HasDisplay s.egl.displays display))

/-- A surface on a display that was never got is destroyed while it is current. -/
def unrecordedRun : List EglOp :=
  [.eglCreateSurface 1 5 100, .eglMakeCurrent 1 5 5 10, .eglDestroySurface 1 5,
    .eglReleaseThread]

/-- A surface is destroyed and its display terminated while they are current. -/
def recordedRun : List EglOp :=
  [.eglGetDisplay 1, .eglCreateSurface 1 5 100, .eglMakeCurrent 1 5 5 10, .eglDestroySurface 1 5,
    .eglTerminate 1, .terminateRound, .terminateRound]

/-- What was deferred in the one run is carried out; in the other it is not when the thread
is released. -/
theorem carriedOut_iff_runs :
    (∃ s, unrecordedRun.foldlM
        (fun u op => if decide (NothingDue u op) then deferredStep u op else none)
        deferredInitial = some s ∧ s.dueSurfaces = [(1, 5)] ∧ CarriedOut s) ∧
      ∃ s t, recordedRun.foldlM
          (fun u op => if decide (NothingDue u op) then deferredStep u op else none)
          deferredInitial = some s ∧
        deferredStep s .eglReleaseThread = some t ∧ CarriedOut s ∧ ¬ CarriedOut t := by
  constructor
  · have hrun : (unrecordedRun.foldlM
        (fun u op => if decide (NothingDue u op) then deferredStep u op else none)
        deferredInitial).map (·.dueSurfaces) = some [(1, 5)] := by
      decide +kernel
    obtain ⟨s, hs, hdue⟩ := Option.map_eq_some_iff.mp hrun
    have hreachable : (deferredSystem.guarded NothingDue).Reachable s :=
      System.guarded_of_foldlM (fun _ _ _ h => h) (fun _ _ h => of_decide_eq_true h)
        (.init rfl) hs
    exact ⟨s, hs, hdue, (carriedOut_iff hreachable).1⟩
  · have hrun : ((recordedRun.foldlM
        (fun u op => if decide (NothingDue u op) then deferredStep u op else none)
        deferredInitial).bind fun s =>
          (deferredStep s .eglReleaseThread).map fun t => (s, t)).map
            (fun p => (p.1.egl.displays, p.1.egl.state.activeState 0,
              ((p.1.egl.state.heap 0).drawable, (p.1.egl.state.heap 0).readable,
                (p.1.egl.state.heap 0).context),
              decide (NothingDue p.1 .eglReleaseThread))) =
          some ([⟨1, [⟨100, 5⟩], []⟩], some 0, (5, 5, 10), false) := by
      decide +kernel
    obtain ⟨⟨s, t⟩, hsteps, hobserved⟩ := Option.map_eq_some_iff.mp hrun
    obtain ⟨s', hs, hlast⟩ := Option.bind_eq_some_iff.mp hsteps
    obtain ⟨t', ht, heq⟩ := Option.map_eq_some_iff.mp hlast
    cases heq
    simp only [Prod.mk.injEq, decide_eq_false_iff_not] at hobserved
    obtain ⟨hdisplays, hactive, ⟨hdraw, hread, hcontext⟩, hdue⟩ := hobserved
    have hreachable : (deferredSystem.guarded NothingDue).Reachable s :=
      System.guarded_of_foldlM (fun _ _ _ h => h) (fun _ _ h => of_decide_eq_true h)
        (.init rfl) hs
    obtain ⟨hcarried, hnext⟩ := carriedOut_iff hreachable
    refine ⟨s, t, hs, ht, hcarried, fun hcarriedOut => hdue ((hnext _ t ht ?_).mp hcarriedOut)⟩
    intro x hx
    obtain rfl : x = 0 := by simpa using hx.symm.trans hactive
    intro kind display r hr
    rw [hdraw, hread, hcontext]
    rw [hdisplays] at hr
    -- The one record is that of the surface.
    have hrecord : r = ⟨100, 5⟩ := by
      by_cases hdisplay : 1 = display
      · cases kind with
        | surface =>
          simpa [cachedRecords, matchedDisplay, DisplayRecord.list, hdisplay] using hr
        | context => simp [cachedRecords, matchedDisplay, DisplayRecord.list, hdisplay] at hr
      · simp [cachedRecords, matchedDisplay, hdisplay] at hr
    rw [hrecord]
    decide

/-- Neither the surface nor the display is gone when the client has left the context. -/
theorem recorded_after_leaving : ∃ s, deferredSystem.Reachable s ∧ ¬ CarriedOut s := by
  have hrun : ((recordedRun ++ [EglOp.eglReleaseThread]).foldlM deferredStep deferredInitial).map
      (fun s => (s.dueSurfaces, s.dueDisplays, decide (HasSurface s.egl.displays 1 5),
        decide (HasDisplay s.egl.displays 1))) = some ([(1, 5)], [1], true, true) := by
    decide +kernel
  obtain ⟨s, hs, hobserved⟩ := Option.map_eq_some_iff.mp hrun
  simp only [Prod.mk.injEq, decide_eq_true_eq] at hobserved
  obtain ⟨hdue, -, hsurface, -⟩ := hobserved
  refine ⟨s, System.reachable_of_foldlM (.init rfl) hs, fun hcarried => ?_⟩
  exact hcarried.surfaces (1, 5) (by simp [hdue]) hsurface

end GpuProxy.Contexts
