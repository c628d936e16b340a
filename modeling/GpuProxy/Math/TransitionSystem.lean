import Mathlib.Logic.Relation

/-!
# Transition systems and their guarded runs

A `System` has initial states and labelled steps. Every safety result of this
development is a statement about `System.Reachable`, and is proved by an
`System.Invariant`: a predicate that holds initially and that every step from a
reachable state preserves.

A guarded system keeps the runs all of whose steps meet a condition on the label
and on the state the step starts from. It is how a result that fails on some
steps of a program is stated for the runs that avoid them.

## Main definitions

* `System`, `System.Reachable` — labelled transition systems and their states
* `System.Invariant` — inductive invariants
* `System.guarded` — the runs whose steps all meet a condition
* `System.ofStep` — the system of an executable step function
* `System.Run` — the labels along a run
* `System.Refines` — every step of one system is a step of another one, or none
* `System.AlwaysAlong`, `System.MeetsAlong` — all states, or all steps, along a list of labels

## Main results

* `Invariant.holds` — an invariant holds in every reachable state
* `Reachable.of_guarded` — a guarded run is a run
* `Reachable.foldlM`, `guarded_of_foldlM` — executing a list of labels reaches a state
* `Refines.run` — a run of a refining system is one of the other, without some steps
* `alwaysAlong_iff` — a property holds all along exactly if all steps meet a condition
-/

namespace GpuProxy.Math

/-- A transition system: the states a run may start in, and the labelled steps. -/
structure System (σ α : Type*) where
  /-- The states a run may start in. -/
  Init : σ → Prop
  /-- `Step s a t`: the step labelled `a` leads from `s` to `t`. -/
  Step : σ → α → σ → Prop

namespace System

variable {σ α : Type*} {S : System σ α} {I J : σ → Prop} {G : σ → α → Prop} {s t : σ} {a : α}

/-- The states at which some finite run ends. -/
inductive Reachable (S : System σ α) : σ → Prop
  | init {s : σ} : S.Init s → Reachable S s
  | step {s t : σ} {a : α} : Reachable S s → S.Step s a t → Reachable S t

/-- `I` holds initially, and every step from a reachable state preserves it. -/
structure Invariant (S : System σ α) (I : σ → Prop) : Prop where
  init : ∀ s, S.Init s → I s
  step : ∀ s a t, S.Reachable s → I s → S.Step s a t → I t

/-- An invariant holds in every reachable state. -/
theorem Invariant.holds (h : S.Invariant I) (hs : S.Reachable s) : I s := by
  induction hs with
  | init hinit => exact h.init _ hinit
  | step hreach hstep ih => exact h.step _ _ _ hreach ih hstep

/-- `as` are the labels of the steps from `s` to a state. -/
inductive Run (S : System σ α) (s : σ) : List α → σ → Prop
  | nil : Run S s [] s
  | step {as : List α} {t u : σ} {a : α} : Run S s as t → S.Step t a u → Run S s (as ++ [a]) u

theorem Run.reachable {as : List α} (hs : S.Reachable s) (h : S.Run s as t) : S.Reachable t := by
  induction h with
  | nil => exact hs
  | step _ hstep ih => exact .step ih hstep

theorem Run.cons {as : List α} {u : σ} (hstep : S.Step s a u) (h : S.Run u as t) :
    S.Run s (a :: as) t := by
  induction h with
  | nil => exact .step .nil hstep
  | step _ hlast ih => exact .step ih hlast

/-- Executing a list of names for steps of the system. -/
theorem Run.of_foldlM {β : Type*} {exec : σ → β → Option σ} {label : β → α}
    (hexec : ∀ s b t, exec s b = some t → S.Step s (label b) t) {names : List β}
    (h : names.foldlM exec s = some t) : S.Run s (names.map label) t := by
  induction names generalizing s with
  | nil =>
    obtain rfl : s = t := by simpa using h
    exact .nil
  | cons b names ih =>
    rw [List.foldlM_cons] at h
    obtain ⟨u, hu, hrest⟩ := Option.bind_eq_some_iff.mp h
    exact .cons (hexec s b u hu) (ih hrest)

/-- What `f` makes of a step of `S` is a step of `T` with the label that `g` gives it, or no
change if there is none. -/
structure Refines {τ β : Type*} (S : System σ α) (T : System τ β) (f : σ → τ) (g : α → Option β) :
    Prop where
  init : ∀ s, S.Init s → T.Init (f s)
  skip : ∀ s a t, S.Reachable s → S.Step s a t → g a = none → f t = f s
  step : ∀ s a t b, S.Reachable s → S.Step s a t → g a = some b → T.Step (f s) b (f t)

section Refines

variable {τ β υ γ : Type*} {T : System τ β} {U : System υ γ} {f : σ → τ} {g : α → Option β}
  {f' : τ → υ} {g' : β → Option γ}

theorem Refines.run (h : S.Refines T f g) {as : List α} (hs : S.Reachable s)
    (hrun : S.Run s as t) : T.Run (f s) (as.filterMap g) (f t) := by
  induction hrun with
  | nil => exact .nil
  | @step as t u a hrun hstep ih =>
    have ht := hrun.reachable hs
    rw [List.filterMap_append]
    cases hg : g a with
    | none =>
      rw [h.skip t a u ht hstep hg, List.filterMap_cons_none hg, List.filterMap_nil,
        List.append_nil]
      exact ih
    | some b =>
      rw [List.filterMap_cons_some hg, List.filterMap_nil]
      exact .step ih (h.step t a u b ht hstep hg)

theorem Refines.reachable (h : S.Refines T f g) (hs : S.Reachable s) : T.Reachable (f s) := by
  induction hs with
  | init hinit => exact .init (h.init _ hinit)
  | @step s t a hreach hstep ih =>
    cases hg : g a with
    | none =>
      rw [h.skip s a t hreach hstep hg]
      exact ih
    | some b => exact .step ih (h.step s a t b hreach hstep hg)

theorem Refines.trans (hST : S.Refines T f g) (hTU : T.Refines U f' g') :
    S.Refines U (f' ∘ f) fun a => (g a).bind g' where
  init s hs := hTU.init _ (hST.init s hs)
  skip := by
    intro s a t hs hstep hskip
    cases hg : g a with
    | none => exact congrArg f' (hST.skip s a t hs hstep hg)
    | some b =>
      rw [hg, Option.bind_some] at hskip
      exact hTU.skip _ b _ (hST.reachable hs) (hST.step s a t b hs hstep hg) hskip
  step := by
    intro s a t c hs hstep hc
    obtain ⟨b, hg, hc⟩ := Option.bind_eq_some_iff.mp hc
    exact hTU.step _ b _ c (hST.reachable hs) (hST.step s a t b hs hstep hg) hc

end Refines

/-- The runs of `S` all of whose steps meet the condition `G`. -/
def guarded (S : System σ α) (G : σ → α → Prop) : System σ α where
  Init := S.Init
  Step s a t := G s a ∧ S.Step s a t

theorem Reachable.of_guarded (h : (S.guarded G).Reachable s) : S.Reachable s := by
  induction h with
  | init hinit => exact .init hinit
  | step _ hstep ih => exact .step ih hstep.2

/-- The system whose steps are the defined values of a step function. -/
def ofStep (init : σ → Prop) (step : σ → α → Option σ) : System σ α where
  Init := init
  Step s a t := step s a = some t

variable {init : σ → Prop} {step : σ → α → Option σ}

/-- Executing a list of labels with steps of the system, from a reachable state. -/
theorem Reachable.foldlM {exec : σ → α → Option σ}
    (hexec : ∀ s a t, exec s a = some t → S.Step s a t) (hs : S.Reachable s) :
    ∀ {labels : List α}, labels.foldlM exec s = some t → S.Reachable t := by
  intro labels
  induction labels generalizing s with
  | nil =>
    intro h
    obtain rfl : s = t := by simpa using h
    exact hs
  | cons a labels ih =>
    intro h
    rw [List.foldlM_cons] at h
    obtain ⟨u, hu, hrest⟩ := Option.bind_eq_some_iff.mp h
    exact ih (.step hs (hexec s a u hu)) hrest

theorem reachable_of_foldlM (hs : (ofStep init step).Reachable s) {labels : List α}
    (h : labels.foldlM step s = some t) : (ofStep init step).Reachable t :=
  hs.foldlM (fun _ _ _ hstep => hstep) h

/-- Executing a list of labels, with the condition of a guarded system checked before
each step. -/
theorem guarded_of_foldlM {exec : σ → α → Option σ} {check : σ → α → Bool}
    (hexec : ∀ s a t, exec s a = some t → S.Step s a t)
    (hcheck : ∀ s a, check s a = true → G s a) (hs : (S.guarded G).Reachable s)
    {labels : List α}
    (h : labels.foldlM (fun u a => if check u a then exec u a else none) s = some t) :
    (S.guarded G).Reachable t := by
  refine hs.foldlM (fun u a v huv => ?_) h
  split at huv
  next hok => exact ⟨hcheck u a hok, hexec u a v huv⟩
  next => cases huv

/-- All states along a list of labels have a property, as far as the steps are defined. -/
def AlwaysAlong (step : σ → α → Option σ) (I : σ → Prop) : σ → List α → Prop
  | s, [] => I s
  | s, a :: labels => I s ∧ ∀ t, step s a = some t → AlwaysAlong step I t labels

/-- All defined steps along a list of labels meet a condition. -/
def MeetsAlong (step : σ → α → Option σ) (G : σ → α → Prop) : σ → List α → Prop
  | _, [] => True
  | s, a :: labels => ∀ t, step s a = some t → G s a ∧ MeetsAlong step G t labels

/-- If, where an invariant holds, the steps that keep a property are those that meet a condition,
then the property holds all along exactly if it holds at first and all steps meet the
condition. -/
theorem alwaysAlong_iff (hJ : ∀ s a t, J s → step s a = some t → J t)
    (hstep : ∀ s a t, J s → I s → step s a = some t → (I t ↔ G s a)) {labels : List α}
    (hs : J s) : AlwaysAlong step I s labels ↔ I s ∧ MeetsAlong step G s labels := by
  induction labels generalizing s with
  | nil => simp [AlwaysAlong, MeetsAlong]
  | cons a labels ih =>
    refine and_congr_right fun hI => forall_congr' fun t => imp_congr_right fun ht => ?_
    rw [ih (hJ s a t hs ht), hstep s a t hs hI ht]

end System

end GpuProxy.Math
