import GpuProxy.Math.TransitionSystem
import GpuProxy.VertexAttribs.Table

/-!
# What the calls say about the arrays

An application says which arrays are enabled, and with which buffer and arguments each was
specified last. This is recorded beside the state of the client, so that its attributes can
be compared with what they stand for.

## Main definitions

* `Arrays`, `Tracked`, `trackedSystem` — the record, and the runs with it
* `Represents` — the table of attributes agrees with the record

## Main results

* `Represents.setEnabled`, `Represents.setPointer` — changing one index in both
-/

namespace GpuProxy.VertexAttribs

open Math

/-- What an application has said about its arrays: which are enabled, and the buffer bound
and the arguments of the last `glVertexAttribPointer` that was accepted for each. -/
structure Arrays where
  enabled : ℕ → Bool
  pointer : ℕ → Option (ℕ × PointerArgs)

/-- The state of the client, with what the calls said. -/
structure Tracked where
  state : ClientState
  arrays : Arrays

instance {driverMax : ℤ} {s : ClientState} {index : ℕ} : Decidable (Accepted driverMax s index) :=
  inferInstanceAs (Decidable (_ ≤ _))

instance {args : PointerArgs} : Decidable args.Valid := inferInstanceAs (Decidable (_ ∧ _))

/-- A call that is accepted in the state `s` is recorded. -/
def Arrays.record (driverMax : ℤ) (s : ClientState) (g : Arrays) : Op → Arrays
  | .bindBuffer _ _ => g
  | .enableVertexAttribArray index =>
      if Accepted driverMax s index then
        { g with enabled := Function.update g.enabled index true }
      else g
  | .disableVertexAttribArray index =>
      if Accepted driverMax s index then
        { g with enabled := Function.update g.enabled index false }
      else g
  | .vertexAttribPointer index args =>
      if args.Valid ∧ Accepted driverMax s index then
        { g with pointer := Function.update g.pointer index (some (s.arrayBufferBinding, args)) }
      else g

/-- All sequences of calls that return, from `egl_state_init` on. -/
def trackedSystem (driverMax : ℤ) : System Tracked Op where
  Init c := (∃ heap, c.state = initial heap) ∧ c.arrays = ⟨fun _ => false, fun _ => none⟩
  Step c op d := (∃ fuel, runOp driverMax fuel c.state op = some d.state) ∧
    d.arrays = c.arrays.record driverMax c.state op

variable {list list' : AttribList} {g : Arrays} {a : Loc} {index binding : ℕ}
  {args : PointerArgs} {enable : Bool}

/-- The table agrees with what the calls said. An attribute that was never specified has the
size 0, which no call can give it. -/
structure Represents (list : AttribList) (g : Arrays) : Prop where
  specified : ∀ i binding args, g.pointer i = some (binding, args) →
    arrayAt list i = some ⟨g.enabled i, binding, args⟩
  unspecified : ∀ i e, g.pointer i = none → arrayAt list i = some e →
    e.enabled = g.enabled i ∧ e.args.size = 0
  unknown : ∀ i, arrayAt list i = none → g.enabled i = false
  stride_nonneg : ∀ i e, arrayAt list i = some e → 0 ≤ e.args.stride

namespace Represents

theorem enabled_eq {e : ArrayState} (h : Represents list g) (he : arrayAt list index = some e) :
    e.enabled = g.enabled index := by
  cases hpointer : g.pointer index with
  | none => exact (h.unspecified index e hpointer he).1
  | some p =>
    rw [h.specified index p.1 p.2 hpointer, Option.some.injEq] at he
    rw [← he]

theorem of_arrayAt_eq (h : Represents list g) (h' : arrayAt list' = arrayAt list) :
    Represents list' g := by
  constructor <;> rw [h']
  · exact h.specified
  · exact h.unspecified
  · exact h.unknown
  · exact h.stride_nonneg

/-- The flag of one index changes. -/
theorem setEnabled {e : ArrayState} (h : Represents list g)
    (he : arrayAt list index = some e ∨
      arrayAt list index = none ∧ e.args.size = 0 ∧ e.args.stride = 0)
    (h' : arrayAt list' =
      Function.update (arrayAt list) index (some { e with enabled := enable })) :
    Represents list' { g with enabled := Function.update g.enabled index enable } := by
  constructor
  · intro i binding args hpointer
    have hi := h.specified i binding args hpointer
    rw [h']
    by_cases heq : i = index
    · subst heq
      rcases he with he | ⟨hnone, -⟩
      · rw [he, Option.some.injEq] at hi
        simp [hi]
      · rw [hnone] at hi
        cases hi
    · simpa [heq] using hi
  · intro i e' hpointer he'
    rw [h'] at he'
    by_cases heq : i = index
    · subst heq
      rw [Function.update_self, Option.some.injEq] at he'
      rw [← he']
      rcases he with he | ⟨-, hsize⟩
      · exact ⟨by simp, (h.unspecified i e hpointer he).2⟩
      · exact ⟨by simp, hsize.1⟩
    · rw [Function.update_of_ne heq] at he'
      simpa [heq] using h.unspecified i e' hpointer he'
  · intro i hnone
    rw [h'] at hnone
    by_cases heq : i = index
    · subst heq
      simp at hnone
    · rw [Function.update_of_ne heq] at hnone
      simpa [heq] using h.unknown i hnone
  · intro i e' he'
    rw [h'] at he'
    by_cases heq : i = index
    · subst heq
      rw [Function.update_self, Option.some.injEq] at he'
      rw [← he']
      rcases he with he | ⟨-, -, hstride⟩
      · exact h.stride_nonneg i e he
      · exact hstride.ge
    · rw [Function.update_of_ne heq] at he'
      exact h.stride_nonneg i e' he'

/-- One index is specified. -/
theorem setPointer (h : Represents list g) (hvalid : args.Valid)
    (h' : arrayAt list' =
      Function.update (arrayAt list) index (some ⟨g.enabled index, binding, args⟩)) :
    Represents list'
      { g with pointer := Function.update g.pointer index (some (binding, args)) } := by
  constructor
  · intro i binding' args' hpointer
    rw [h']
    by_cases heq : i = index
    · subst heq
      simp only [Function.update_self, Option.some.injEq, Prod.mk.injEq] at hpointer ⊢
      rw [hpointer.1, hpointer.2]
    · simp only [Function.update_of_ne heq] at hpointer ⊢
      exact h.specified i binding' args' hpointer
  · intro i e' hpointer he'
    rw [h'] at he'
    by_cases heq : i = index
    · subst heq
      simp at hpointer
    · simp only [Function.update_of_ne heq] at hpointer he'
      exact h.unspecified i e' hpointer he'
  · intro i hnone
    rw [h'] at hnone
    by_cases heq : i = index
    · subst heq
      simp at hnone
    · rw [Function.update_of_ne heq] at hnone
      exact h.unknown i hnone
  · intro i e' he'
    rw [h'] at he'
    by_cases heq : i = index
    · subst heq
      rw [Function.update_self, Option.some.injEq] at he'
      rw [← he']
      have hrange := hvalid.2
      simp only
      omega
    · rw [Function.update_of_ne heq] at he'
      exact h.stride_nonneg i e' he'

/-- An attribute of the table overlaps itself. -/
theorem overlaps_self (h : Represents list g) (hfind : findIndex list index = some a) :
    attribsMemoryOverlap (list.heap a) (list.heap a) = true := by
  have hstride : 0 ≤ (list.heap a).stride := h.stride_nonneg index _ (arrayAt_of_findIndex hfind)
  simp only [attribsMemoryOverlap, Nat.lt_irrefl, if_false, decide_eq_true_eq]
  omega

end Represents

end GpuProxy.VertexAttribs
