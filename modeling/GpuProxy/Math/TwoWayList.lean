import GpuProxy.Math.PointerPath

/-!
# Doubly linked lists in memory

A list with a second field that leads back from every cell to the one it comes behind. Nothing is
asked of the field of the first cell: it may lead anywhere, also to a cell that is gone. As for
`Path`, the operations are stated for any fields that differ where the operation writes.

## Main definitions

* `TwoWay` — a list whose cells, but for the first one, lead back

## Main results

* `TwoWay.snoc`, `TwoWay.cons` — a new cell at the end, and in front
* `TwoWay.tail`, `TwoWay.removeAfter` — without the first cell, and without a later one
-/

namespace GpuProxy.Math

variable {α : Type*} {next next' prev prev' : α → Option α} {p : Option α} {x a b : α}
  {xs ys : List α}

/-- Following `next` from `p` passes `xs` and ends, and `prev` leads back. -/
structure TwoWay (next prev : α → Option α) (p : Option α) (xs : List α) : Prop where
  path : Path next p xs none
  back : ∀ x ∈ xs, ∀ y, next x = some y → prev y = some x

/-- The cell behind one of the list is in the list. -/
theorem Path.next_mem (h : Path next p xs none) (ha : a ∈ xs) (hb : next a = some b) : b ∈ xs := by
  obtain ⟨before, after, rfl⟩ := List.append_of_mem ha
  obtain ⟨_, -, -, hafter⟩ := path_append.mp h
  rw [hb] at hafter
  obtain ⟨after, rfl, -⟩ := hafter.exists_eq_cons
  simp

/-- There is a pointer to the first cell of a list that has a last one. -/
theorem Path.exists_first (h : Path next p (xs ++ [x]) none) : ∃ y, p = some y := by
  cases xs with
  | nil => exact ⟨x, h.1⟩
  | cons y ys => exact ⟨y, h.1⟩

/-- Nothing leads to the first cell of a list. -/
theorem Path.next_ne_head (h : Path next (some x) xs none) (ha : a ∈ xs) : next a ≠ some x := by
  intro hx
  obtain ⟨ys, rfl, hys⟩ := h.exists_eq_cons
  obtain rfl | ha := List.mem_cons.mp ha
  · rw [hx] at hys
    have hcycle : Path next (some a) [a] (some a) := ⟨rfl, hx⟩
    exact hcycle.not_of_cycle hys
  · exact (List.nodup_cons.mp h.nodup).1 (hys.next_mem ha hx)

theorem TwoWay.nil : TwoWay next prev none [] := ⟨rfl, fun _ h => absurd h List.not_mem_nil⟩

theorem TwoWay.nodup (h : TwoWay next prev p xs) : xs.Nodup := h.path.nodup

/-- A new cell at the end. -/
theorem TwoWay.snoc (h : TwoWay next prev p (xs ++ [x])) (hx : next' x = some a)
    (ha : next' a = none) (hback : prev' a = some x) (hnext : ∀ y ∈ xs, next' y = next y)
    (hprev : ∀ y ∈ xs ++ [x], prev' y = prev y) : TwoWay next' prev' p (xs ++ [x, a]) where
  path := by
    obtain ⟨_, hxs, rfl, -⟩ := path_append.mp h.path
    exact path_append.mpr ⟨_, hxs.congr hnext, rfl, hx, ha⟩
  back := by
    intro c hc b hb
    obtain hc | rfl | rfl : c ∈ xs ∨ c = x ∨ c = a := by simpa using hc
    · rw [hnext c hc] at hb
      have hc' : c ∈ xs ++ [x] := List.mem_append_left _ hc
      rw [hprev b (h.path.next_mem hc' hb)]
      exact h.back c hc' b hb
    · rw [hx] at hb
      exact Option.some.inj hb ▸ hback
    · rw [ha] at hb
      cases hb

/-- A new cell in front. -/
theorem TwoWay.cons (h : TwoWay next prev p xs) (ha : next' a = p)
    (hback : ∀ x, p = some x → prev' x = some a) (hnext : ∀ y ∈ xs, next' y = next y)
    (hprev : ∀ y ∈ xs, p ≠ some y → prev' y = prev y) : TwoWay next' prev' (some a) (a :: xs) where
  path := ⟨rfl, by
    rw [ha]
    exact h.path.congr hnext⟩
  back := by
    intro c hc b hb
    obtain rfl | hc := List.mem_cons.mp hc
    · exact hback b (ha ▸ hb)
    · rw [hnext c hc] at hb
      have hne : p ≠ some b := by
        rintro rfl
        exact h.path.next_ne_head hc hb
      rw [hprev b (h.path.next_mem hc hb) hne]
      exact h.back c hc b hb

/-- The list behind the first cell. -/
theorem TwoWay.tail (h : TwoWay next prev p (x :: xs)) (hnext : ∀ y ∈ xs, next' y = next y)
    (hprev : ∀ y ∈ xs, prev' y = prev y) : TwoWay next' prev' (next x) xs where
  path := h.path.2.congr hnext
  back := by
    intro c hc b hb
    rw [hnext c hc] at hb
    rw [hprev b (h.path.2.next_mem hc hb)]
    exact h.back c (List.mem_cons_of_mem _ hc) b hb

/-- The cell behind another one is skipped, in both directions. -/
theorem TwoWay.removeAfter (h : TwoWay next prev p (xs ++ x :: a :: ys))
    (hx : next' x = next a) (hback : ∀ b, next a = some b → prev' b = some x)
    (hnext : ∀ y ∈ xs ++ ys, next' y = next y)
    (hprev : ∀ y ∈ xs ++ x :: ys, next a ≠ some y → prev' y = prev y) :
    TwoWay next' prev' p (xs ++ x :: ys) where
  path := h.path.removeAfter hx hnext
  back := by
    intro c hc b hb
    obtain ⟨_, -, rfl, hxa, -⟩ := path_append.mp h.path
    have hnodup := h.nodup
    rw [List.nodup_append, List.nodup_cons, List.nodup_cons] at hnodup
    obtain ⟨-, ⟨hxrest, hays, -⟩, hapart⟩ := hnodup
    by_cases hcx : c = x
    · rw [hcx, hx] at hb
      rw [hcx]
      exact hback b hb
    have hc' : c ∈ xs ++ ys := by simpa [hcx] using hc
    have hmem : c ∈ xs ++ x :: a :: ys := by
      simp only [List.mem_append, List.mem_cons] at hc' ⊢
      tauto
    have hca : c ≠ a := by
      rintro rfl
      obtain hc' | hc' := List.mem_append.mp hc'
      · exact hapart c hc' c (by simp) rfl
      · exact hays hc'
    rw [hnext c hc'] at hb
    have hcb := h.back c hmem b hb
    -- Every cell is behind one other at most, as its `prev` tells.
    have hba : b ≠ a := by
      rintro rfl
      have := h.back x (by simp) b hxa
      exact hcx (Option.some.inj (hcb.symm.trans this))
    have hab : next a ≠ some b := fun hab =>
      hca (Option.some.inj (hcb.symm.trans (h.back a (by simp) b hab)))
    have hb' : b ∈ xs ++ x :: ys := by
      have := h.path.next_mem hmem hb
      simp only [List.mem_append, List.mem_cons] at this ⊢
      tauto
    rw [hprev b hb' hab]
    exact hcb

end GpuProxy.Math
