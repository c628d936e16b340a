import GpuProxy.Contexts.MakeCurrent

/-!
# The flags of destroyed surfaces

`_caching_client_destroy_surface` marks the states that have the surface, and a client that
leaves a marked state takes the surface out of it. The marks are never taken back, and
`_caching_client_make_current` stores new surfaces in a marked state, which are then taken
out in the same way. Here is the condition on the calls under which that does not happen.

## Main definitions

* `Surfaces` — the states with the surfaces that were destroyed
* `SurfaceOp`, `surfaceSystem` — all sequences of calls, and of creations of surfaces
* `FlagsSpeak` — a mark is about the surface that is stored
* `StoresDestroyed` — the calls that store no live surface in a marked state

## Main results

* `flagsSpeak_of_reachable` — in runs of such calls, marks are about the stored surfaces
* `live_surface_marked` — a run that stores a live surface in a marked state
-/

namespace GpuProxy.Contexts

open Math State

/-- The cached states, and the surfaces `eglDestroySurface` succeeded on since they were
created, with their displays. -/
structure Surfaces where
  state : State
  destroyed : List (ℕ × ℕ)

/-- The creation of a surface, when the driver returns `result`, or another call. -/
inductive SurfaceOp
  | eglCreateSurface (display result : ℕ)
  | call (op : Op)
  deriving DecidableEq, Repr

/-- The surfaces that are destroyed after a call. -/
def Surfaces.record (s : Surfaces) : Op → List (ℕ × ℕ)
  | .eglDestroySurface client display surface answer =>
      if (s.state.activeState client).isSome ∧ answer then (display, surface) :: s.destroyed
      else s.destroyed
  | _ => s.destroyed

def surfaceStep (s : Surfaces) : SurfaceOp → Option Surfaces
  | .eglCreateSurface display result =>
      if s.state.terminating.isSome ∨ result = eglNo then none
      else some { s with destroyed := s.destroyed.filter fun p => p ≠ (display, result) }
  | .call op => (step s.state op).map fun t => { state := t, destroyed := s.record op }

/-- All sequences of calls and creations of surfaces. -/
def surfaceSystem : System Surfaces SurfaceOp :=
  System.ofStep (· = ⟨initial, []⟩) surfaceStep

/-- There is no surface, or it was destroyed. -/
def Gone (destroyed : List (ℕ × ℕ)) (display surface : ℕ) : Prop :=
  surface = eglNo ∨ (display, surface) ∈ destroyed

instance {destroyed : List (ℕ × ℕ)} {display surface : ℕ} :
    Decidable (Gone destroyed display surface) :=
  inferInstanceAs (Decidable (surface = eglNo ∨ (display, surface) ∈ destroyed))

/-- The surfaces of a state that are marked are gone. -/
structure MarksGone (destroyed : List (ℕ × ℕ)) (e : EglState) : Prop where
  draw : e.destroyDraw = true → Gone destroyed e.display e.drawable
  read : e.destroyRead = true → Gone destroyed e.display e.readable

/-- In every listed state the surfaces that are marked are gone, and leaving the state takes
no other surface out of it. -/
structure FlagsSpeak (s : Surfaces) : Prop where
  draw : ∀ x ∈ s.state.cachedGlStates, (s.state.heap x).destroyDraw = true →
    Gone s.destroyed (s.state.heap x).display (s.state.heap x).drawable
  read : ∀ x ∈ s.state.cachedGlStates, (s.state.heap x).destroyRead = true →
    Gone s.destroyed (s.state.heap x).display (s.state.heap x).readable
  leaving : ∀ x ∈ s.state.cachedGlStates,
    ((deactivate (s.state.heap x)).drawable = (s.state.heap x).drawable ∨
      Gone s.destroyed (s.state.heap x).display (s.state.heap x).drawable) ∧
    ((deactivate (s.state.heap x)).readable = (s.state.heap x).readable ∨
      Gone s.destroyed (s.state.heap x).display (s.state.heap x).readable)

/-- Where a call of `eglMakeCurrent` stores a surface in a marked state, the surface is
gone. A new surface does not have the handle of one that a listed state is marked for. -/
def StoresDestroyed (s : Surfaces) : SurfaceOp → Prop
  | .eglCreateSurface display result => ∀ x ∈ s.state.cachedGlStates,
      (s.state.heap x).display = display →
        ((s.state.heap x).destroyDraw = true → (s.state.heap x).drawable ≠ result) ∧
          ((s.state.heap x).destroyRead = true → (s.state.heap x).readable ≠ result)
  | .call (.eglMakeCurrent client display draw read context surfaces answer) =>
      switches (s.state.makeCurrentPath client display draw read context surfaces) answer = true →
        ∀ x ∈ s.state.find display context,
          ((s.state.heap x).destroyDraw = true → Gone s.destroyed display draw) ∧
            ((s.state.heap x).destroyRead = true → Gone s.destroyed display read)
  | .call _ => True

/-! ### What a call does to the surfaces of the states -/

variable {s t u : State} {op : Op} {e e' : EglState} {destroyed destroyed' : List (ℕ × ℕ)}
  {x z client display context draw read surface : ℕ} {answer surfaces : Bool}
  {removed newState : Option ℕ}

/-- Marks and surfaces are the same, with their display. -/
structure SameMarks (e e' : EglState) : Prop where
  display : e'.display = e.display
  drawable : e'.drawable = e.drawable
  readable : e'.readable = e.readable
  destroyDraw : e'.destroyDraw = e.destroyDraw
  destroyRead : e'.destroyRead = e.destroyRead

theorem SameMarks.refl : SameMarks e e := ⟨rfl, rfl, rfl, rfl, rfl⟩

theorem MarksGone.congr (h : MarksGone destroyed e) (hsame : SameMarks e e') :
    MarksGone destroyed e' := by
  constructor
  · rw [hsame.destroyDraw, hsame.display, hsame.drawable]
    exact h.draw
  · rw [hsame.destroyRead, hsame.display, hsame.readable]
    exact h.read

/-- A fresh state is not marked. -/
theorem marksGone_eglStateInit : MarksGone destroyed (eglStateInit display context) := by
  constructor <;> simp [eglStateInit]

theorem Gone.mono (h : Gone destroyed display surface) (hsubset : destroyed ⊆ destroyed') :
    Gone destroyed' display surface :=
  h.imp_right fun hmem => hsubset hmem

theorem MarksGone.mono (h : MarksGone destroyed e) (hsubset : destroyed ⊆ destroyed') :
    MarksGone destroyed' e :=
  ⟨fun hmark => (h.draw hmark).mono hsubset, fun hmark => (h.read hmark).mono hsubset⟩

/-- Every listed state has only marks for surfaces that are gone. -/
def AllMarksGone (destroyed : List (ℕ × ℕ)) (s : State) : Prop :=
  ∀ x ∈ s.cachedGlStates, MarksGone destroyed (s.heap x)

/-- A change to the list that keeps marks and surfaces. -/
theorem AllMarksGone.of_same (h : AllMarksGone destroyed s)
    (hsubset : t.cachedGlStates ⊆ s.cachedGlStates)
    (hsame : ∀ z ∈ t.cachedGlStates, SameMarks (s.heap z) (t.heap z)) :
    AllMarksGone destroyed t :=
  fun z hz => (h z (hsubset hz)).congr (hsame z hz)

theorem sameMarks_update {f : EglState → EglState} (hf : ∀ e, SameMarks e (f e)) :
    SameMarks (s.heap z) ((s.update x f).heap z) := by
  rcases eq_or_ne z x with rfl | hne
  · rw [heap_update_self]
    exact hf _
  · rw [heap_update_of_ne hne]
    exact .refl

theorem AllMarksGone.update {f : EglState → EglState} (h : AllMarksGone destroyed s)
    (hf : ∀ e, SameMarks e (f e)) : AllMarksGone destroyed (s.update x f) :=
  h.of_same (List.Subset.refl _) fun _ _ => sameMarks_update hf

theorem AllMarksGone.found (h : AllMarksGone destroyed s)
    (hfound : Found s display context x t) : AllMarksGone destroyed t := by
  intro z hz
  rcases hfound.fresh z hz with hold | hfresh
  · rw [hfound.heap_eq z hold]
    exact h z hold
  · rw [hfresh]
    exact marksGone_eglStateInit

theorem AllMarksGone.of_destroyed (h : AllMarksGone destroyed s) (hd : Destroyed s x t) :
    AllMarksGone destroyed t := by
  refine h.of_same hd.sublist.subset fun z _ => ?_
  obtain ⟨n, hn⟩ := hd.heap z
  rw [hn]
  exact ⟨rfl, rfl, rfl, rfl, rfl⟩

theorem allMarksGone_eglCreateContext {shareContext result : ℕ} (hs : WellFormed s)
    (h : AllMarksGone destroyed s) :
    AllMarksGone destroyed (s.eglCreateContext display shareContext result) := by
  unfold State.eglCreateContext
  split
  · exact h
  split
  · rcases hx : s.getOrCreate display result with ⟨x, u⟩
    have hfoundx := hs.getOrCreate hx
    simp only
    rcases hy : u.getOrCreate display shareContext with ⟨y, t⟩
    have hfoundy := hfoundx.wellFormed.getOrCreate hy
    simp only
    apply AllMarksGone.update
    · apply AllMarksGone.update
      · exact (h.found hfoundx).found hfoundy
      · intro e
        exact ⟨rfl, rfl, rfl, rfl, rfl⟩
    · intro e
      exact ⟨rfl, rfl, rfl, rfl, rfl⟩
  · exact h

/-- The listed state for a context is the one that is found for it. -/
theorem find_eq_of_mem (hs : WellFormed s) (hx : x ∈ s.cachedGlStates) :
    s.find (s.heap x).display (s.heap x).context = some x := by
  rcases hfind : s.find (s.heap x).display (s.heap x).context with _ | y
  · exact absurd rfl (find_eq_none_iff.mp hfind x hx rfl)
  · obtain ⟨hmem, hdisplay, hcontext⟩ := find_eq_some hfind
    rw [hs.unique y hmem x hx hdisplay hcontext]

/-- Making a context current stores surfaces in its state, and takes the marked surfaces
out of the state that is left. -/
theorem allMarksGone_makeCurrent (hs : WellFormed s) (h : AllMarksGone destroyed s)
    (hstores : context ≠ eglNo ∧ display ≠ eglNo → ∀ x ∈ s.find display context,
      ((s.heap x).destroyDraw = true → Gone destroyed display draw) ∧
        ((s.heap x).destroyRead = true → Gone destroyed display read))
    (hmake : s.makeCurrent client display draw read context = some (t, removed)) :
    AllMarksGone destroyed t := by
  obtain ⟨newState, hmade⟩ := exists_madeCurrent hs hmake
  intro z hz
  by_cases hnew : newState = some z
  -- The state that is entered keeps its marks.
  · obtain ⟨e, hdisplay, hcontext, hsource, heq⟩ := hmade.entered z hnew
    rcases hsource with ⟨hold, rfl⟩ | ⟨-, rfl⟩
    · have hfind := find_eq_of_mem hs hold
      rw [hdisplay, hcontext] at hfind
      have hboth := hmade.newState_iff.mp (by simp [hnew])
      obtain ⟨hdraw, hread⟩ := hstores hboth z hfind
      rw [heq]
      exact ⟨fun hmark => hdisplay ▸ hdraw hmark, fun hmark => hdisplay ▸ hread hmark⟩
    · rw [heq]
      constructor <;> simp [eglStateInit]
  · have hold : z ∈ s.cachedGlStates := ((hmade.mem_iff z).mp hz).resolve_right hnew
    by_cases hleft : s.activeState client = some z
    -- So does the one that is left, but what they are about is taken out.
    · rw [hmade.left z hold hleft hnew]
      constructor
      · intro hmark
        have hdraw : (s.heap z).destroyDraw = true := hmark
        simp [deactivate, hdraw, Gone]
      · intro hmark
        have hread : (s.heap z).destroyRead = true := hmark
        simp [deactivate, hread, Gone]
    · rw [hmade.same z hold hleft hnew]
      exact h z hold

/-- What is stored is gone, if it was gone before, was destroyed now or was taken out. -/
theorem gone_of_kept {stored before : ℕ} (hkept : stored = eglNo ∨ stored = before)
    (hbefore : Gone destroyed display before ∨ before = surface) :
    Gone ((display, surface) :: destroyed) display stored := by
  rcases hkept with hnone | rfl
  · exact Or.inl hnone
  · rcases hbefore with hgone | rfl
    · exact hgone.mono (List.subset_cons_self _ _)
    · exact Or.inr List.mem_cons_self

/-- The surface that is destroyed is marked where it is stored, or taken out. -/
theorem MarksGone.markSurface (h : MarksGone destroyed e) (hdisplay : e.display = display) :
    MarksGone ((display, surface) :: destroyed) (markSurface surface e) := by
  subst hdisplay
  have hdisplay : (State.markSurface surface e).display = e.display := by
    unfold State.markSurface
    simp only
    split <;> rfl
  have hdraw : ((State.markSurface surface e).drawable = eglNo ∨
      (State.markSurface surface e).drawable = e.drawable) ∧
      (State.markSurface surface e).destroyDraw =
        (e.destroyDraw || decide (e.drawable = surface)) := by
    unfold State.markSurface
    simp only
    split_ifs <;> simp
  have hread : ((State.markSurface surface e).readable = eglNo ∨
      (State.markSurface surface e).readable = e.readable) ∧
      (State.markSurface surface e).destroyRead =
        (e.destroyRead || decide (e.readable = surface)) := by
    unfold State.markSurface
    simp only
    split_ifs <;> simp
  constructor
  · intro hmark
    rw [hdraw.2, Bool.or_eq_true, decide_eq_true_eq] at hmark
    rw [hdisplay]
    exact gone_of_kept hdraw.1 (hmark.imp_left h.draw)
  · intro hmark
    rw [hread.2, Bool.or_eq_true, decide_eq_true_eq] at hmark
    rw [hdisplay]
    exact gone_of_kept hread.1 (hmark.imp_left h.read)

theorem allMarksGone_eglDestroySurface (h : AllMarksGone destroyed s) :
    AllMarksGone
      (if (s.activeState client).isSome ∧ answer then (display, surface) :: destroyed
        else destroyed)
      (s.eglDestroySurface client display surface answer) := by
  unfold State.eglDestroySurface
  split
  · intro z hz
    have hmem : z ∈ s.cachedGlStates := hz
    by_cases hdisplay : (s.heap z).display = display
    · simp only [hmem, hdisplay, and_self, if_true]
      exact (h z hz).markSurface hdisplay
    · simp only [hdisplay, and_false, if_false]
      exact (h z hz).mono (List.subset_cons_self _ _)
  · exact h

theorem sameMarks_eglDestroyContext :
    SameMarks (s.heap z) ((s.eglDestroyContext display context answer).1.heap z) := by
  unfold State.eglDestroyContext
  split
  · split
    · exact .refl
    · split
      · simp only
        apply sameMarks_update
        intro e
        exact ⟨rfl, rfl, rfl, rfl, rfl⟩
      · exact .refl
  · exact .refl

theorem sameMarks_terminateRound {l : Terminating} (h : s.terminateRound l = some (t, removed)) :
    SameMarks (s.heap z) (t.heap z) := by
  unfold State.terminateRound at h
  split at h
  · split at h
    · cases h
    · simp only at h
      split at h <;> cases h <;> exact .refl
  · simp only at h
    split at h
    · split at h
      · cases h
      · split at h
        · cases h
          apply sameMarks_update (s := { s with terminating := none })
          intro e
          exact ⟨rfl, rfl, rfl, rfl, rfl⟩
        · cases h
          exact .refl
    · cases h
      exact .refl

/-! ### Whole runs -/

variable {c d : Surfaces} {surfaceOp : SurfaceOp}

theorem allMarksGone_run (hs : WellFormed c.state) (h : AllMarksGone c.destroyed c.state)
    (hstores : StoresDestroyed c (.call op)) (hrun : run c.state op = some (u, removed)) :
    AllMarksGone (c.record op) u := by
  unfold run at hrun
  split at hrun
  next =>
    cases hrun
    exact allMarksGone_eglCreateContext hs h
  next client display draw read context surfaces answer _ =>
    rcases eglMakeCurrent_cases hrun with ⟨hswitches, hmake⟩ | ⟨-, rfl, rfl⟩
    · exact allMarksGone_makeCurrent hs h (fun _ => hstores hswitches) hmake
    · exact h
  next client answer _ =>
    unfold State.eglReleaseThread at hrun
    split at hrun
    · exact allMarksGone_makeCurrent hs h (fun hboth => absurd rfl hboth.1) hrun
    · cases hrun
      exact h
  next display context answer _ =>
    have hsame := sameUse_eglDestroyContext (s := c.state) display context answer
    have hmarks : ∀ z, SameMarks (c.state.heap z)
        ((c.state.eglDestroyContext display context answer).1.heap z) := fun z =>
      sameMarks_eglDestroyContext
    rw [Option.some.inj hrun] at hsame hmarks
    exact h.of_same (hsame.cachedGlStates ▸ List.Subset.refl _) fun z _ => hmarks z
  next =>
    cases hrun
    exact allMarksGone_eglDestroySurface h
  next =>
    cases hrun
    unfold State.eglTerminate
    split <;> exact h
  next l _ =>
    have hsame := sameUse_terminateRound hrun
    exact h.of_same (hsame.cachedGlStates ▸ List.Subset.refl _) fun z _ =>
      sameMarks_terminateRound hrun
  next => cases hrun

/-- What holds in runs that store no live surface in a marked state. -/
structure Marked (c : Surfaces) : Prop where
  wellFormed : WellFormed c.state
  allMarksGone : AllMarksGone c.destroyed c.state

theorem Marked.step (h : Marked c) (hstores : StoresDestroyed c surfaceOp)
    (hstep : surfaceStep c surfaceOp = some d) : Marked d := by
  cases surfaceOp with
  | eglCreateSurface display result =>
    simp only [surfaceStep] at hstep
    split at hstep
    · cases hstep
    -- The new surface is not gone any more.
    · cases hstep
      refine ⟨h.wellFormed, fun x hx => ?_⟩
      obtain ⟨hdraw, hread⟩ := h.allMarksGone x hx
      have hkept : ∀ surface, ((c.state.heap x).display = display → surface ≠ result) →
          Gone c.destroyed (c.state.heap x).display surface →
          Gone (c.destroyed.filter fun p => p ≠ (display, result)) (c.state.heap x).display
            surface := by
        intro surface hne hgone
        refine hgone.imp_right fun hmem => List.mem_filter.mpr ⟨hmem, ?_⟩
        simpa [imp_iff_not_or] using hne
      constructor
      · intro hmark
        exact hkept _ (fun hdisplay => (hstores x hx hdisplay).1 hmark) (hdraw hmark)
      · intro hmark
        exact hkept _ (fun hdisplay => (hstores x hx hdisplay).2 hmark) (hread hmark)
  | call op =>
    simp only [surfaceStep, Option.map_eq_some_iff] at hstep
    obtain ⟨t, ht, rfl⟩ := hstep
    refine ⟨wellFormed_step h.wellFormed ht, ?_⟩
    obtain ⟨⟨u, removed⟩, hrun, hfinish⟩ := Option.bind_eq_some_iff.mp ht
    have hu := allMarksGone_run h.wellFormed h.allMarksGone hstores hrun
    cases removed with
    | none =>
      cases hfinish
      exact hu
    | some x =>
      have hwell := (prepared_run h.wellFormed hrun).wellFormed
      exact hu.of_destroyed (destroyState_spec hwell.nodup hfinish)

theorem marked_invariant : (surfaceSystem.guarded StoresDestroyed).Invariant Marked where
  init := by
    rintro _ rfl
    exact ⟨wellFormed_initial, by simp [AllMarksGone, initial]⟩
  step := by
    rintro c op d - h ⟨hstores, hstep⟩
    exact h.step hstores hstep

theorem Marked.flagsSpeak (h : Marked c) : FlagsSpeak c where
  draw x hx := (h.allMarksGone x hx).draw
  read x hx := (h.allMarksGone x hx).read
  leaving x hx := by
    obtain ⟨hdraw, hread⟩ := h.allMarksGone x hx
    constructor
    · by_cases hmark : (c.state.heap x).destroyDraw = true
      · exact Or.inr (hdraw hmark)
      · left
        simp [deactivate, hmark]
    · by_cases hmark : (c.state.heap x).destroyRead = true
      · exact Or.inr (hread hmark)
      · left
        simp [deactivate, hmark]

/-- In every run in which no call of `eglMakeCurrent` stores a live surface in a marked
state, the marks of the listed states are about the surfaces that are stored. -/
theorem flagsSpeak_of_reachable (h : (surfaceSystem.guarded StoresDestroyed).Reachable c) :
    FlagsSpeak c :=
  (marked_invariant.holds h).flagsSpeak

/-- A surface is destroyed while it is current, and the client leaves its context. -/
def leavingRun : List SurfaceOp :=
  [.eglCreateSurface 1 5, .call (.eglMakeCurrent 0 1 5 5 10 false true),
    .call (.eglDestroySurface 0 1 5 true), .call (.eglReleaseThread 0 true)]

/-- Another surface is made current with the context before the client leaves it. -/
def rebindingRun : List SurfaceOp :=
  [.eglCreateSurface 1 5, .eglCreateSurface 1 6, .call (.eglMakeCurrent 0 1 5 5 10 false true),
    .call (.eglDestroySurface 0 1 5 true), .call (.eglMakeCurrent 0 1 6 6 10 true true)]

instance : Decidable (StoresDestroyed c surfaceOp) :=
  match surfaceOp with
  | .eglCreateSurface display result => inferInstanceAs (Decidable (∀ x ∈ c.state.cachedGlStates,
      (c.state.heap x).display = display →
        ((c.state.heap x).destroyDraw = true → (c.state.heap x).drawable ≠ result) ∧
          ((c.state.heap x).destroyRead = true → (c.state.heap x).readable ≠ result)))
  | .call (.eglMakeCurrent client display draw read context surfaces answer) =>
      inferInstanceAs (Decidable
        (switches (c.state.makeCurrentPath client display draw read context surfaces)
            answer = true →
          ∀ x ∈ c.state.find display context,
            ((c.state.heap x).destroyDraw = true → Gone c.destroyed display draw) ∧
              ((c.state.heap x).destroyRead = true → Gone c.destroyed display read)))
  | .call (.eglCreateContext ..) => isTrue trivial
  | .call (.eglReleaseThread ..) => isTrue trivial
  | .call (.eglDestroyContext ..) => isTrue trivial
  | .call (.eglDestroySurface ..) => isTrue trivial
  | .call (.eglTerminate ..) => isTrue trivial
  | .call .terminateRound => isTrue trivial

/-- A call, if it stores no live surface in a marked state. -/
def storingStep (s : Surfaces) (op : SurfaceOp) : Option Surfaces :=
  if decide (StoresDestroyed s op) then surfaceStep s op else none

/-- The mark stays behind when the surface was taken out. -/
theorem flagsSpeak_leavingRun : ∃ c, leavingRun.foldlM storingStep ⟨initial, []⟩ = some c ∧
    (c.state.heap 0).destroyDraw = true ∧ (c.state.heap 0).drawable = eglNo ∧ FlagsSpeak c := by
  have hrun : (leavingRun.foldlM storingStep ⟨initial, []⟩).map
      (fun c => ((c.state.heap 0).destroyDraw, (c.state.heap 0).drawable)) =
      some (true, eglNo) := by
    decide +kernel
  obtain ⟨c, hc, hobserved⟩ := Option.map_eq_some_iff.mp hrun
  simp only [Prod.mk.injEq] at hobserved
  refine ⟨c, hc, hobserved.1, hobserved.2, flagsSpeak_of_reachable ?_⟩
  exact System.guarded_of_foldlM (fun _ _ _ h => h) (fun _ _ h => of_decide_eq_true h)
    (.init rfl) hc

/-- The new surface was not destroyed, and the state it is stored in is marked. -/
theorem live_surface_marked : ∃ c, surfaceSystem.Reachable c ∧ ¬ FlagsSpeak c := by
  have hrun : (rebindingRun.foldlM surfaceStep ⟨initial, []⟩).map
      (fun c => (c.state.cachedGlStates, (c.state.heap 0).destroyDraw,
        decide (Gone c.destroyed (c.state.heap 0).display (c.state.heap 0).drawable))) =
      some ([0], true, false) := by
    decide +kernel
  obtain ⟨c, hc, hobserved⟩ := Option.map_eq_some_iff.mp hrun
  simp only [Prod.mk.injEq, decide_eq_false_iff_not] at hobserved
  obtain ⟨hlist, hmark, hlive⟩ := hobserved
  refine ⟨c, System.reachable_of_foldlM (.init rfl) hc, fun hspeak => hlive ?_⟩
  exact hspeak.draw 0 (by simp [hlist]) hmark

end GpuProxy.Contexts
