import GpuProxy.Lists.LinkList
import Mathlib.Data.List.Perm.Basic

/-!
# Sequences of entries

What the calls on a list say, without nodes and fields: an entry is put at the end or in front,
one entry is taken out, or all are.

## Main definitions

* `Sequence`, `Sequence.step` — the entries and what the calls do to them
* `Sequence.AdmitsAll` — the runs of calls that are meant
* `Sequence.DisposesOnce` — an entry is there or was disposed of once

## Main results

* `Sequence.DisposesOnce.run` — the last holds in every run
-/

namespace GpuProxy.Lists

variable {α δ : Type}

/-! ### Sequences -/

/-- The call of the delete function of an entry. -/
def Entry.deletion (e : Entry α δ) : Option (δ × α) := e.deleteFunction.map (·, e.data)

theorem filterMap_deletion_cons (e : Entry α δ) (es : List (Entry α δ)) :
    (e :: es).filterMap Entry.deletion = e.deletion.toList ++ es.filterMap Entry.deletion := by
  cases h : e.deletion with
  | none => rw [List.filterMap_cons_none h, Option.toList_none, List.nil_append]
  | some d => rw [List.filterMap_cons_some h, Option.toList_some, List.singleton_append]

/-- The entries in order, and the calls of delete functions. -/
structure Sequence (α δ : Type) where
  entries : List (Entry α δ)
  deleted : List (δ × α)

namespace Sequence

def empty : Sequence α δ := ⟨[], []⟩

variable (q : Sequence α δ)

/-- The addresses of the entries. -/
def elements : List ℕ := q.entries.map Entry.element

/-- The first entry with a property is taken out. -/
def deleteFirst (p : Entry α δ → Bool) : Sequence α δ where
  entries := q.entries.eraseP p
  deleted := q.deleted ++ (q.entries.find? p).toList.filterMap Entry.deletion

/-- What a call does. -/
def step [DecidableEq α] (q : Sequence α δ) : Op α δ → Sequence α δ
  | .append e => { q with entries := q.entries ++ [e] }
  | .prepend e => { q with entries := e :: q.entries }
  | .deleteElement element => q.deleteFirst fun e => e.element = element
  | .deleteFirstEntryMatchingData data => q.deleteFirst fun e => e.data = data
  | .clear => ⟨[], q.deleted ++ q.entries.filterMap Entry.deletion⟩

def run [DecidableEq α] (q : Sequence α δ) (ops : List (Op α δ)) : Sequence α δ :=
  ops.foldl Sequence.step q

@[simp] theorem run_nil [DecidableEq α] : q.run [] = q := rfl

@[simp] theorem run_cons [DecidableEq α] (op : Op α δ) (ops : List (Op α δ)) :
    q.run (op :: ops) = (q.step op).run ops := rfl

/-- The calls that are meant: `malloc` returns an address that is not in use, and an element that
is to be deleted is in the list. -/
def Admits : Op α δ → Prop
  | .append e | .prepend e => e.element ∉ q.elements
  | .deleteElement element => element ∈ q.elements
  | .deleteFirstEntryMatchingData _ | .clear => True

/-- All calls of a run are meant. -/
def AdmitsAll [DecidableEq α] : Sequence α δ → List (Op α δ) → Prop
  | _, [] => True
  | q, op :: ops => q.Admits op ∧ AdmitsAll (q.step op) ops

end Sequence

/-- The entry that a call brings. -/
def Op.entry : Op α δ → Option (Entry α δ)
  | .append e | .prepend e => some e
  | .deleteElement _ | .deleteFirstEntryMatchingData _ | .clear => none

/-- Every entry is in the sequence or was taken out, and the delete functions of these were called
with their data, once each. -/
def Sequence.DisposesOnce (q : Sequence α δ) (brought : List (Entry α δ)) : Prop :=
  ∃ removed : List (Entry α δ), brought.Perm (q.entries ++ removed) ∧
    q.deleted = removed.filterMap Entry.deletion

section Disposes

variable {q : Sequence α δ} {brought : List (Entry α δ)} {p : Entry α δ → Bool}

theorem perm_eraseP (p : Entry α δ → Bool) (es : List (Entry α δ)) :
    es.Perm (es.eraseP p ++ (es.find? p).toList) := by
  induction es with
  | nil => exact List.Perm.refl _
  | cons e es ih =>
    by_cases hp : p e = true
    · rw [List.eraseP_cons_of_pos hp, List.find?_cons_of_pos hp]
      exact (List.perm_append_singleton e es).symm
    · rw [List.eraseP_cons_of_neg hp, List.find?_cons_of_neg hp]
      exact ih.cons e

theorem Sequence.DisposesOnce.deleteFirst (h : q.DisposesOnce brought) :
    (q.deleteFirst p).DisposesOnce brought := by
  obtain ⟨removed, hperm, hdeleted⟩ := h
  refine ⟨removed ++ (q.entries.find? p).toList, hperm.trans ?_, ?_⟩
  · have hsplit := (perm_eraseP p q.entries).append_right removed
    rw [List.append_assoc] at hsplit
    exact hsplit.trans (List.perm_append_comm.append_left _)
  · simp only [Sequence.deleteFirst, hdeleted, List.filterMap_append]

/-- A call brings an entry, or takes some out. -/
theorem Sequence.DisposesOnce.step [DecidableEq α] (h : q.DisposesOnce brought) (op : Op α δ) :
    (q.step op).DisposesOnce (brought ++ op.entry.toList) := by
  cases op with
  | append e =>
    obtain ⟨removed, hperm, hdeleted⟩ := h
    refine ⟨removed, ?_, hdeleted⟩
    have hlonger : (brought ++ [e]).Perm (q.entries ++ (removed ++ [e])) := by
      rw [← List.append_assoc]
      exact hperm.append_right [e]
    refine hlonger.trans ?_
    change (q.entries ++ (removed ++ [e])).Perm (q.entries ++ [e] ++ removed)
    rw [List.append_assoc]
    exact List.perm_append_comm.append_left _
  | prepend e =>
    obtain ⟨removed, hperm, hdeleted⟩ := h
    exact ⟨removed, (List.perm_append_singleton e brought).trans (hperm.cons e), hdeleted⟩
  | deleteElement element =>
    rw [Op.entry, Option.toList_none, List.append_nil]
    exact h.deleteFirst
  | deleteFirstEntryMatchingData data =>
    rw [Op.entry, Option.toList_none, List.append_nil]
    exact h.deleteFirst
  | clear =>
    obtain ⟨removed, hperm, hdeleted⟩ := h
    rw [Op.entry, Option.toList_none, List.append_nil]
    refine ⟨removed ++ q.entries, hperm.trans List.perm_append_comm, ?_⟩
    simp only [Sequence.step, hdeleted, List.filterMap_append]

theorem Sequence.DisposesOnce.run [DecidableEq α] (h : q.DisposesOnce brought)
    (ops : List (Op α δ)) : (q.run ops).DisposesOnce (brought ++ ops.filterMap Op.entry) := by
  induction ops generalizing q brought with
  | nil => simpa using h
  | cons op ops ih =>
    have hrest := ih (h.step op)
    rw [List.append_assoc] at hrest
    cases hentry : op.entry with
    | none =>
      rw [List.filterMap_cons_none hentry]
      simpa [hentry] using hrest
    | some e =>
      rw [List.filterMap_cons_some hentry]
      simpa [hentry] using hrest

theorem Sequence.disposesOnce_empty : (empty : Sequence α δ).DisposesOnce [] :=
  ⟨[], List.Perm.refl _, rfl⟩

end Disposes

/-- A call brings one entry at most. -/
theorem Sequence.length_step_le [DecidableEq α] (q : Sequence α δ) (op : Op α δ) :
    (q.step op).entries.length ≤ q.entries.length + 1 := by
  cases op with
  | append e => simp [Sequence.step]
  | prepend e => simp [Sequence.step]
  | deleteElement element => exact Nat.le_succ_of_le List.length_eraseP_le
  | deleteFirstEntryMatchingData data => exact Nat.le_succ_of_le List.length_eraseP_le
  | clear => exact Nat.zero_le _

end GpuProxy.Lists
