import Mathlib.Data.List.Basic
import Mathlib.Logic.Function.Basic

/-!
# Updating partial maps

Partial maps `α → Option β` with a list of pairs stored, or a list of keys removed, and
pairs of partial maps that are inverse to each other.

## Main definitions

* `assign` — store pairs, later ones over earlier ones
* `without` — remove keys
* `MutualInverse` — two partial maps, each the inverse of the other

## Main results

* `assign_apply`, `without_apply`, `update_map_eq_none` — the values of the updated maps
* `MutualInverse.link_iff`, `MutualInverse.unlink` — a pair is added, or removed
-/

namespace GpuProxy.Math

variable {α β : Type*} [DecidableEq α] {m : α → Option β} {pairs : List (α × β)}
  {keys : List α} {a : α}

/-- `m` with the pairs stored in turn. -/
def assign (m : α → Option β) (pairs : List (α × β)) : α → Option β :=
  pairs.foldl (fun m p => Function.update m p.1 (some p.2)) m

/-- `m` with the keys removed in turn. -/
def without (m : α → Option β) (keys : List α) : α → Option β :=
  keys.foldl (fun m a => Function.update m a none) m

/-- What is stored hides what was there, and nothing else. -/
theorem assign_apply : assign m pairs a = (assign (fun _ => none) pairs a).or (m a) := by
  have hgeneral : ∀ m₀ : α → Option β,
      assign (fun a => (m₀ a).or (m a)) pairs a = (assign m₀ pairs a).or (m a) := by
    induction pairs with
    | nil => exact fun _ => rfl
    | cons p pairs ih =>
      intro m₀
      have hupdate : Function.update (fun a => (m₀ a).or (m a)) p.1 (some p.2) =
          fun a => (Function.update m₀ p.1 (some p.2) a).or (m a) := by
        funext x
        by_cases hx : x = p.1 <;> simp [hx]
      calc assign (fun a => (m₀ a).or (m a)) (p :: pairs) a
          = assign (fun a => (Function.update m₀ p.1 (some p.2) a).or (m a)) pairs a := by
            rw [← hupdate]
            rfl
        _ = (assign m₀ (p :: pairs) a).or (m a) := ih _
  exact hgeneral fun _ => none

theorem without_apply : without m keys a = if a ∈ keys then none else m a := by
  induction keys generalizing m with
  | nil => simp [without]
  | cons key keys ih =>
    have hcons : without m (key :: keys) = without (Function.update m key none) keys := rfl
    rw [hcons, ih]
    by_cases hkey : a = key <;> by_cases hmem : a ∈ keys <;> simp [hkey, hmem]

/-- Changing a value keeps which keys have one. -/
theorem update_map_eq_none {f : β → β} {x : α} :
    Function.update m a ((m a).map f) x = none ↔ m x = none := by
  by_cases hx : x = a
  · rw [hx, Function.update_self, Option.map_eq_none_iff]
  · rw [Function.update_of_ne hx]

/-! ### Inverse maps -/

/-- Each of two partial maps is the inverse of the other. -/
def MutualInverse (f : α → Option β) (g : β → Option α) : Prop :=
  ∀ a b, f a = some b ↔ g b = some a

section MutualInverse

variable [DecidableEq β] {f : α → Option β} {g : β → Option α} {b : β}

/-- A pair may be added if and only if neither of its members is in another pair. -/
theorem MutualInverse.link_iff (h : MutualInverse f g) :
    MutualInverse (Function.update f a (some b)) (Function.update g b (some a)) ↔
      (∀ b', f a = some b' → b' = b) ∧ ∀ a', g b = some a' → a' = a := by
  constructor
  · intro h'
    constructor
    · intro b' hb'
      by_contra hne
      have hold : g b' = some a := (h a b').mp hb'
      have hnew := (h' a b').mpr (by rwa [Function.update_of_ne hne])
      rw [Function.update_self, Option.some.injEq] at hnew
      exact hne hnew.symm
    · intro a' ha'
      by_contra hne
      have hold : f a' = some b := (h a' b).mpr ha'
      have hnew := (h' a' b).mp (by rwa [Function.update_of_ne hne])
      rw [Function.update_self, Option.some.injEq] at hnew
      exact hne hnew.symm
  · rintro ⟨hb, ha⟩ x y
    by_cases hx : x = a
    · subst hx
      rw [Function.update_self, Option.some.injEq]
      by_cases hy : y = b
      · subst hy
        simp
      · rw [Function.update_of_ne hy]
        exact ⟨fun heq => absurd heq.symm hy, fun hg => absurd (hb y ((h x y).mpr hg)) hy⟩
    · rw [Function.update_of_ne hx]
      by_cases hy : y = b
      · subst hy
        rw [Function.update_self, Option.some.injEq]
        exact ⟨fun hf => absurd (ha x ((h x y).mp hf)) hx, fun heq => absurd heq.symm hx⟩
      · rw [Function.update_of_ne hy]
        exact h x y

theorem MutualInverse.unlink (h : MutualInverse f g) (hab : f a = some b) :
    MutualInverse (Function.update f a none) (Function.update g b none) := by
  have hba : g b = some a := (h a b).mp hab
  intro x y
  by_cases hx : x = a
  · subst hx
    by_cases hy : y = b
    · simp [hy]
    · have hxy : f x ≠ some y := fun hf => hy (Option.some.inj (hf.symm.trans hab))
      simp [Function.update_of_ne hy, ← h x y, hxy]
  · rw [Function.update_of_ne hx]
    by_cases hy : y = b
    · subst hy
      have hxy : g y ≠ some x := fun hg => hx (Option.some.inj (hg.symm.trans hba))
      simp [h x y, hxy]
    · rw [Function.update_of_ne hy]
      exact h x y

end MutualInverse

end GpuProxy.Math
