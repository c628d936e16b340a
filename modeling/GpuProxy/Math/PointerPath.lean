import Mathlib.Data.List.Basic

/-!
# Singly linked lists in memory

A linked list is a pointer and a `next` field for every address. `Path next p xs q` says
that from `p` one passes the cells `xs` in turn and arrives at the pointer `q`; with
`none` for `q` this is a whole list. The lemmas on insertion and removal are stated for any
`next'` that differs from `next` where the operation writes, so that they fit every way of
storing the fields.

## Main definitions

* `Path` — the cells between two pointers
* `Passed` — the cells behind a pointer, also if there is no end to them

## Main results

* `Path.nodup` — a list that ends passes no cell twice
* `Path.eq_of_none` — a list is determined by its first pointer
* `Path.not_of_cycle` — a pointer that leads back to itself starts no list
* `Path.insertAfter`, `Path.removeAfter` — the two updates of a list
* `Passed.of_closed` — what holds of the first cell and goes from a cell to the next
-/

namespace GpuProxy.Math

variable {α : Type*} {next next' : α → Option α} {p q : Option α} {x a : α} {xs ys : List α}

/-- Following `next` from `p` passes `xs` and arrives at `q`. -/
def Path (next : α → Option α) : Option α → List α → Option α → Prop
  | p, [], q => p = q
  | p, x :: xs, q => p = some x ∧ Path next (next x) xs q

theorem path_append : Path next p (xs ++ ys) q ↔ ∃ r, Path next p xs r ∧ Path next r ys q := by
  induction xs generalizing p with
  | nil => simp [Path]
  | cons x xs ih => simp only [List.cons_append, Path, ih, ← exists_and_left, and_assoc]

/-- A path depends on the cells it passes only. -/
theorem Path.congr (h : Path next p xs q) (hnext : ∀ x ∈ xs, next' x = next x) :
    Path next' p xs q := by
  induction xs generalizing p with
  | nil => exact h
  | cons x xs ih =>
    refine ⟨h.1, ?_⟩
    rw [hnext x List.mem_cons_self]
    exact ih h.2 fun y hy => hnext y (List.mem_cons_of_mem _ hy)

/-- A list that starts at a cell passes that cell first. -/
theorem Path.exists_eq_cons (h : Path next (some x) xs none) :
    ∃ ys, xs = x :: ys ∧ Path next (next x) ys none := by
  cases xs with
  | nil => cases h
  | cons y ys =>
    obtain ⟨heq, hys⟩ := h
    cases heq
    exact ⟨ys, rfl, hys⟩

theorem Path.eq_of_none (hxs : Path next p xs none) (hys : Path next p ys none) : xs = ys := by
  induction xs generalizing p ys with
  | nil =>
    cases ys with
    | nil => rfl
    | cons y ys =>
      rw [Path] at hxs
      rw [hxs] at hys
      cases hys.1
  | cons x xs ih =>
    obtain ⟨rfl, hxs⟩ := hxs
    obtain ⟨ys, rfl, hrest⟩ := hys.exists_eq_cons
    rw [ih hxs hrest]

/-- A list that starts with a path goes on behind it. -/
theorem Path.exists_rest (h : Path next p xs q) (hys : Path next p ys none) :
    ∃ zs, Path next q zs none := by
  induction xs generalizing p ys with
  | nil =>
    obtain rfl : p = q := h
    exact ⟨ys, hys⟩
  | cons x xs ih =>
    obtain ⟨rfl, hxs⟩ := h
    obtain ⟨rest, -, hrest⟩ := hys.exists_eq_cons
    exact ih hxs hrest

/-- No list starts with a path that leads back. -/
theorem Path.not_of_cycle (h : Path next p (x :: xs) p) : ¬ Path next p ys none := by
  intro hys
  have hlonger := (path_append.mpr ⟨p, h, hys⟩).eq_of_none hys
  have hlength := congrArg List.length hlonger
  simp only [List.cons_append, List.length_cons, List.length_append] at hlength
  omega

/-- A cell passed twice would lead back to itself for ever. -/
theorem Path.nodup (h : Path next p xs none) : xs.Nodup := by
  induction xs generalizing p with
  | nil => exact List.nodup_nil
  | cons x xs ih =>
    refine List.nodup_cons.mpr ⟨fun hx => ?_, ih h.2⟩
    obtain ⟨ys, zs, rfl⟩ := List.append_of_mem hx
    obtain ⟨r, -, hr⟩ := path_append.mp h.2
    have heq := congrArg List.length (h.2.eq_of_none hr.2)
    simp only [List.length_append, List.length_cons] at heq
    omega

/-- Writing a new cell `a` behind `x`. -/
theorem Path.insertAfter (h : Path next p (xs ++ x :: ys) none) (hx : next' x = some a)
    (ha : next' a = next x) (hrest : ∀ y ∈ xs ++ ys, next' y = next y) :
    Path next' p (xs ++ x :: a :: ys) none := by
  obtain ⟨r, hxs, rfl, hys⟩ := path_append.mp h
  refine path_append.mpr ⟨_, hxs.congr fun y hy => hrest y (List.mem_append_left _ hy),
    rfl, hx, ?_⟩
  rw [ha]
  exact hys.congr fun y hy => hrest y (List.mem_append_right _ hy)

/-- Making the cell `x` skip the one behind it. -/
theorem Path.removeAfter (h : Path next p (xs ++ x :: a :: ys) none) (hx : next' x = next a)
    (hrest : ∀ y ∈ xs ++ ys, next' y = next y) : Path next' p (xs ++ x :: ys) none := by
  obtain ⟨r, hxs, rfl, -, hys⟩ := path_append.mp h
  refine path_append.mpr ⟨_, hxs.congr fun y hy => hrest y (List.mem_append_left _ hy), rfl, ?_⟩
  rw [hx]
  exact hys.congr fun y hy => hrest y (List.mem_append_right _ hy)

/-! ### Cells behind a pointer -/

/-- The cells passed when following `next` from `p`. -/
inductive Passed (next : α → Option α) (p : Option α) : α → Prop
  | head {x : α} : p = some x → Passed next p x
  | next {x y : α} : Passed next p x → next x = some y → Passed next p y

/-- All cells passed are in a set that has the first one, and with a cell the next one. -/
theorem Passed.of_closed {P : α → Prop} (h : Passed next p x) (hhead : ∀ x, p = some x → P x)
    (hnext : ∀ x y, P x → next x = some y → P y) : P x := by
  induction h with
  | head hp => exact hhead _ hp
  | next _ hy ih => exact hnext _ _ ih hy

end GpuProxy.Math
