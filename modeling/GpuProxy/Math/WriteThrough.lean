import Mathlib.Data.List.Basic
import Mathlib.Data.List.Induction
import Mathlib.Logic.Function.Basic

/-!
# Write-through caches

A client keeps a copy of a part of a server's state. From the copy it decides which calls
it passes on to the server and which it answers itself. The result wanted of it is that
the server cannot be told from one that is given every call.

A cache that compares and stores is the simplest of these: a call assigns values to some
cells, and is passed on only if one of them holds another value in the copy.

## Main definitions

* `WriteThrough` — the transition functions of a client with a cache, and of its server
* `WriteThrough.Config`, `WriteThrough.run` — the cache, the server it feeds and the
  reference that is fed every call, and their runs
* `WriteThrough.Coherent` — all three agree
* `comparing` — the cache that compares and stores

## Main results

* `run_prefix_iff` — a relation holds after every call of a run exactly if every call
  meets the condition under which it is kept
* `run_abstract` — the run of a cache is that of its abstraction
* `coherent_prefix_iff` — the same for coherence, with a condition on the cache alone
* `comparing_run` — a cell agrees as soon as a call that covers it was passed on
* `comparing_coherent_iff` — when a run of `comparing` ends in agreement
* `comparing_server_iff` — when no call it answers itself was one the server needed
-/

namespace GpuProxy.Math

/-- The transition functions of a client with a cache of states `σ`, and of its server of
states `ρ`, for calls `α`. -/
structure WriteThrough (σ ρ α : Type*) where
  /-- What a call makes of the cache, and the calls it passes on. -/
  call : σ → α → σ × List α
  /-- What executing a call makes of the server. -/
  exec : ρ → α → ρ

namespace WriteThrough

variable {σ ρ α : Type*} (W : WriteThrough σ ρ α)

/-- A cache, the server that is fed what the client passes on, and a server that is fed
every call. -/
@[ext]
structure Config (σ ρ : Type*) where
  cache : σ
  server : ρ
  reference : ρ

/-- One call. -/
def step (c : Config σ ρ) (a : α) : Config σ ρ where
  cache := (W.call c.cache a).1
  server := (W.call c.cache a).2.foldl W.exec c.server
  reference := W.exec c.reference a

/-- A sequence of calls. -/
def run (c : Config σ ρ) (calls : List α) : Config σ ρ := calls.foldl W.step c

variable {W} {c : Config σ ρ} {calls p : List α} {a : α}

@[simp] theorem run_nil : W.run c [] = c := rfl

@[simp] theorem run_concat : W.run c (p ++ [a]) = W.step (W.run c p) a := by
  simp [run]

/-- If `I` survives a call exactly when `C` holds of the call and of the configuration it
is made in, then `I` holds throughout a run exactly when `C` does. -/
theorem run_prefix_iff {I : Config σ ρ → Prop} {C : Config σ ρ → α → Prop} (h0 : I c)
    (hstep : ∀ c a, I c → (I (W.step c a) ↔ C c a)) :
    (∀ p, p <+: calls → I (W.run c p)) ↔ ∀ p a, p ++ [a] <+: calls → C (W.run c p) a := by
  constructor
  · intro h p a hp
    have hbefore : I (W.run c p) := h p ((List.prefix_append p [a]).trans hp)
    have hafter : I (W.run c (p ++ [a])) := h _ hp
    rw [run_concat] at hafter
    exact (hstep _ _ hbefore).mp hafter
  · intro h p hp
    induction p using List.reverseRecOn with
    | nil => exact h0
    | append_singleton p a ih =>
      have hbefore : I (W.run c p) := ih ((List.prefix_append p [a]).trans hp)
      rw [run_concat]
      exact (hstep _ _ hbefore).mpr (h p a hp)

/-- A cache that another one abstracts, call by call, runs as that one does. -/
theorem run_abstract {τ : Type*} {W' : WriteThrough τ ρ α} {f : σ → τ}
    (hcall : ∀ s a, (W'.call (f s) a).1 = f (W.call s a).1)
    (hfed : ∀ s a r, (W'.call (f s) a).2.foldl W'.exec r = (W.call s a).2.foldl W.exec r)
    (hexec : W'.exec = W.exec) :
    W'.run ⟨f c.cache, c.server, c.reference⟩ calls =
      ⟨f (W.run c calls).cache, (W.run c calls).server, (W.run c calls).reference⟩ := by
  induction calls using List.reverseRecOn with
  | nil => rfl
  | append_singleton p a ih =>
    rw [run_concat, ih, run_concat]
    exact Config.ext (hcall _ _) (hfed _ _ _) (by simp only [step, hexec])

/-! ## Agreement -/

/-- The copy is that of the server, and the server is in the state it would be in had it
been given every call. -/
structure Coherent (view : σ → ρ) (c : Config σ ρ) : Prop where
  cache : view c.cache = c.reference
  server : c.server = c.reference

variable {view : σ → ρ}

/-- Coherence survives a call exactly if the call does to the copy, and what it passes on
does to the server, what executing it does. -/
theorem coherent_step_iff (h : Coherent view c) :
    Coherent view (W.step c a) ↔
      view (W.call c.cache a).1 = W.exec (view c.cache) a ∧
        (W.call c.cache a).2.foldl W.exec (view c.cache) = W.exec (view c.cache) a := by
  have hserver : c.server = view c.cache := h.server.trans h.cache.symm
  constructor
  · intro hstep
    have hcache := hstep.cache
    have hfed := hstep.server
    simp only [step, ← h.cache, hserver] at hcache hfed
    exact ⟨hcache, hfed⟩
  · rintro ⟨hcache, hfed⟩
    constructor
    · simpa only [step, ← h.cache] using hcache
    · simpa only [step, ← h.cache, hserver] using hfed

/-- A run is coherent throughout exactly if every call meets the condition under which it
treats the copy as the server does. -/
theorem coherent_prefix_iff {C : σ → α → Prop} (h0 : Coherent view c)
    (hstep : ∀ s a, (view (W.call s a).1 = W.exec (view s) a ∧
      (W.call s a).2.foldl W.exec (view s) = W.exec (view s) a) ↔ C s a) :
    (∀ p, p <+: calls → Coherent view (W.run c p)) ↔
      ∀ p a, p ++ [a] <+: calls → C (W.run c p).cache a :=
  run_prefix_iff h0 fun c a h => (coherent_step_iff h).trans (hstep c.cache a)

end WriteThrough

/-! ## Comparing and storing -/

section Cells

variable {κ : Type*} {V : κ → Type*} {m m' : ∀ k, V k} {writes : List (Sigma V)} {k : κ}

/-- `m` has all the values already. -/
def Holds (m : ∀ k, V k) (writes : List (Sigma V)) : Prop := ∀ w ∈ writes, m w.1 = w.2

instance [∀ k, DecidableEq (V k)] : Decidable (Holds m writes) :=
  inferInstanceAs (Decidable (∀ w ∈ writes, m w.1 = w.2))

@[simp] theorem holds_nil : Holds m [] := fun _ hw => absurd hw List.not_mem_nil

@[simp] theorem holds_cons {w : Sigma V} :
    Holds m (w :: writes) ↔ m w.1 = w.2 ∧ Holds m writes :=
  List.forall_mem_cons

variable [DecidableEq κ]

/-- `m` with values stored, later ones over earlier ones. -/
def store (m : ∀ k, V k) (writes : List (Sigma V)) : ∀ k, V k :=
  writes.foldl (fun m w => Function.update m w.1 w.2) m

@[simp] theorem store_nil : store m [] = m := rfl

@[simp] theorem store_cons {w : Sigma V} :
    store m (w :: writes) = store (Function.update m w.1 w.2) writes := rfl

theorem store_of_holds (h : Holds m writes) : store m writes = m := by
  induction writes with
  | nil => rfl
  | cons w writes ih =>
    have hfirst : Function.update m w.1 w.2 = m := by
      rw [← h w List.mem_cons_self]
      exact Function.update_eq_self _ _
    rw [store_cons, hfirst]
    exact ih fun v hv => h v (List.mem_cons_of_mem _ hv)

/-- A cell that is not written keeps its value. -/
theorem store_of_notMem (h : k ∉ writes.map Sigma.fst) : store m writes k = m k := by
  induction writes generalizing m with
  | nil => rfl
  | cons w writes ih =>
    simp only [List.map_cons, List.mem_cons, not_or] at h
    rw [store_cons, ih h.2]
    exact Function.update_of_ne h.1 _ _

/-- A cell that is written does not keep what it held. -/
theorem store_of_mem (h : k ∈ writes.map Sigma.fst) : store m writes k = store m' writes k := by
  induction writes generalizing m m' with
  | nil => simp at h
  | cons w writes ih =>
    rw [store_cons, store_cons]
    by_cases hmem : k ∈ writes.map Sigma.fst
    · exact ih hmem
    · obtain rfl : k = w.1 := by
        rcases List.mem_cons.mp h with heq | hrest
        · exact heq
        · exact absurd hrest hmem
      rw [store_of_notMem hmem, store_of_notMem hmem]
      simp

variable {α : Type*} [∀ k, DecidableEq (V k)] (writes : α → List (Sigma V))

/-- The cache that compares and stores: a call is passed on unless the copy holds the
values it assigns. -/
def comparing : WriteThrough (∀ k, V k) (∀ k, V k) α where
  call s a := if Holds s (writes a) then (s, []) else (store s (writes a), [a])
  exec r a := store r (writes a)

open WriteThrough

variable {writes} {c : Config (∀ k, V k) (∀ k, V k)} {calls : List α} {a : α}

/-- Some call of the sequence, passed on, assigns a value to the cell. -/
def Refreshed (writes : α → List (Sigma V)) (c : Config (∀ k, V k) (∀ k, V k))
    (calls : List α) (k : κ) : Prop :=
  ∃ p a, p ++ [a] <+: calls ∧ k ∈ (writes a).map Sigma.fst ∧
    ¬ Holds ((comparing writes).run c p).cache (writes a)

theorem refreshed_concat :
    Refreshed writes c (calls ++ [a]) k ↔ Refreshed writes c calls k ∨
      k ∈ (writes a).map Sigma.fst ∧ ¬ Holds ((comparing writes).run c calls).cache (writes a) := by
  constructor
  · rintro ⟨p, b, hp, hk, hforward⟩
    rcases List.prefix_concat_iff.mp hp with heq | hshort
    · obtain ⟨rfl, rfl⟩ : p = calls ∧ b = a := by simpa using heq
      exact Or.inr ⟨hk, hforward⟩
    · exact Or.inl ⟨p, b, hshort, hk, hforward⟩
  · rintro (⟨p, b, hp, hk, hforward⟩ | ⟨hk, hforward⟩)
    · exact ⟨p, b, hp.trans (List.prefix_append _ _), hk, hforward⟩
    · exact ⟨calls, a, List.prefix_refl _, hk, hforward⟩

/-- A call that is answered from the copy. It may still write the reference, and then what
it writes there is what the copy holds. -/
theorem comparing_step_of_holds (h : Holds c.cache (writes a)) :
    ((comparing writes).step c a).cache = c.cache ∧
      ((comparing writes).step c a).server = c.server ∧
      (((comparing writes).step c a).reference k = c.reference k ∨
        ((comparing writes).step c a).reference k = c.cache k) := by
  refine ⟨by simp [step, comparing, h], by simp [step, comparing, h], ?_⟩
  by_cases hk : k ∈ (writes a).map Sigma.fst
  · right
    calc store c.reference (writes a) k = store c.cache (writes a) k := store_of_mem hk
      _ = c.cache k := by rw [store_of_holds h]
  · left
    exact store_of_notMem hk

/-- A call that is passed on is executed in all three places. -/
theorem comparing_step_of_not_holds (h : ¬Holds c.cache (writes a)) :
    ((comparing writes).step c a).cache = store c.cache (writes a) ∧
      ((comparing writes).step c a).server = store c.server (writes a) ∧
      ((comparing writes).step c a).reference = store c.reference (writes a) := by
  refine ⟨by simp [step, comparing, h], by simp [step, comparing, h], rfl⟩

/-- A cell agrees from the first call on that was passed on and covers it. Before that,
the copy and the server have what they started with, and the reference has one of the
two. -/
theorem comparing_run (h0 : c.reference k = c.server k) :
    let d := (comparing writes).run c calls
    (Refreshed writes c calls k → d.cache k = d.reference k ∧ d.server k = d.reference k) ∧
      (¬ Refreshed writes c calls k → d.cache k = c.cache k ∧ d.server k = c.server k ∧
        (d.reference k = c.server k ∨ d.reference k = c.cache k)) := by
  induction calls using List.reverseRecOn with
  | nil =>
    refine ⟨?_, fun _ => ⟨rfl, rfl, Or.inl h0⟩⟩
    rintro ⟨p, a, hp, -, -⟩
    simp at hp
  | append_singleton p a ih =>
    simp only [refreshed_concat, run_concat]
    set d := (comparing writes).run c p
    by_cases hholds : Holds d.cache (writes a)
    -- Answered from the copy: whichever value the cell of the reference has now, if the copy
    -- and the server agreed with it, they still do.
    · obtain ⟨hcache, hserver, hreference⟩ := comparing_step_of_holds (k := k) hholds
      simp only [hcache, hserver, hholds, not_true_eq_false, and_false, or_false]
      constructor
      · intro hfresh
        obtain ⟨h1, h2⟩ := ih.1 hfresh
        rcases hreference with h | h
        · rw [h]
          exact ⟨h1, h2⟩
        · rw [h]
          exact ⟨rfl, h2.trans h1.symm⟩
      · intro hstale
        obtain ⟨h1, h2, h3⟩ := ih.2 hstale
        refine ⟨h1, h2, ?_⟩
        rcases hreference with h | h
        · rwa [h]
        · exact Or.inr (h.trans h1)
    · obtain ⟨hcache, hserver, hreference⟩ := comparing_step_of_not_holds hholds
      rw [hcache, hserver, hreference]
      -- A cell the call covers gets its value in all three places.
      by_cases hk : k ∈ (writes a).map Sigma.fst
      · simp only [hk, hholds, not_false_eq_true, and_self, or_true, not_true_eq_false,
          false_implies, and_true, true_implies]
        exact ⟨store_of_mem hk, store_of_mem hk⟩
      · simp only [hk, false_and, or_false, store_of_notMem hk]
        exact ih

/-- A run of the cache ends in agreement exactly if every cell that the copy had wrong at
the start was covered by a call that was passed on. -/
theorem comparing_coherent_iff (h0 : c.reference = c.server) :
    Coherent id ((comparing writes).run c calls) ↔
      ∀ k, c.cache k = c.server k ∨ Refreshed writes c calls k := by
  let d := (comparing writes).run c calls
  have hcell : ∀ k,
      (Refreshed writes c calls k → d.cache k = d.reference k ∧ d.server k = d.reference k) ∧
        (¬ Refreshed writes c calls k → d.cache k = c.cache k ∧ d.server k = c.server k ∧
          (d.reference k = c.server k ∨ d.reference k = c.cache k)) :=
    fun k => comparing_run (congrFun h0 k)
  constructor
  · intro h k
    by_cases hfresh : Refreshed writes c calls k
    · exact Or.inr hfresh
    · left
      obtain ⟨h1, h2, -⟩ := (hcell k).2 hfresh
      have hcache := congrFun h.cache k
      have hserver := congrFun h.server k
      rw [← h1, ← h2, hserver]
      exact hcache
  · intro h
    have hagree : ∀ k, ((comparing writes).run c calls).cache k =
          ((comparing writes).run c calls).reference k ∧
        ((comparing writes).run c calls).server k =
          ((comparing writes).run c calls).reference k := by
      intro k
      by_cases hfresh : Refreshed writes c calls k
      · exact (hcell k).1 hfresh
      · obtain ⟨h1, h2, h3⟩ := (hcell k).2 hfresh
        have heq : c.cache k = c.server k := (h k).resolve_right hfresh
        rw [h1, h2, heq, and_self]
        rcases h3 with h3 | h3
        · exact h3.symm
        · exact (h3.trans heq).symm
    exact ⟨funext fun k => (hagree k).1, funext fun k => (hagree k).2⟩

/-- The copy of a cell is that of the server from the first call on that was passed on and
covers it, and before that if it was at the start. -/
theorem comparing_agree_iff (h0 : c.reference = c.server) :
    ((comparing writes).run c calls).cache k = ((comparing writes).run c calls).server k ↔
      c.cache k = c.server k ∨ Refreshed writes c calls k := by
  by_cases hk : Refreshed writes c calls k
  · obtain ⟨hcache, hserver⟩ := (comparing_run (congrFun h0 k)).1 hk
    exact iff_of_true (hcache.trans hserver.symm) (Or.inr hk)
  · obtain ⟨hcache, hserver, -⟩ := (comparing_run (congrFun h0 k)).2 hk
    rw [hcache, hserver, or_iff_left hk]

/-- A server that is in the right state stays there exactly if a call that is not passed on
covers only cells of which the copy is right. -/
theorem comparing_server_step_iff (h : c.server = c.reference) :
    ((comparing writes).step c a).server = ((comparing writes).step c a).reference ↔
      (Holds c.cache (writes a) → ∀ k ∈ (writes a).map Sigma.fst, c.cache k = c.server k) := by
  by_cases hholds : Holds c.cache (writes a)
  · have hserver : ((comparing writes).step c a).server = c.server := by
      simp [step, comparing, hholds]
    have hreference : ((comparing writes).step c a).reference = store c.server (writes a) := by
      rw [h]
      rfl
    rw [hserver, hreference, funext_iff]
    -- In a cell it covers the call leaves what the copy holds.
    have hcover : ∀ k ∈ (writes a).map Sigma.fst, store c.server (writes a) k = c.cache k := by
      intro k hk
      rw [store_of_mem hk, store_of_holds hholds]
    constructor
    · intro hsame _ k hk
      rw [hsame k, hcover k hk]
    · intro hright k
      by_cases hk : k ∈ (writes a).map Sigma.fst
      · rw [hcover k hk, hright hholds k hk]
      · exact (store_of_notMem hk).symm
  · obtain ⟨-, hserver, hreference⟩ := comparing_step_of_not_holds hholds
    rw [hserver, hreference, h]
    exact iff_of_true rfl fun hdropped => absurd hdropped hholds

/-- The server is in the right state throughout exactly if every call that is not passed on
covers only cells which the copy had right at the start, or which a call before it was
passed on for. -/
theorem comparing_server_iff (h0 : c.reference = c.server) :
    (∀ p, p <+: calls → ((comparing writes).run c p).server =
        ((comparing writes).run c p).reference) ↔
      ∀ p a, p ++ [a] <+: calls → Holds ((comparing writes).run c p).cache (writes a) →
        ∀ k ∈ (writes a).map Sigma.fst, c.cache k = c.server k ∨ Refreshed writes c p k := by
  simp only [← comparing_agree_iff h0]
  exact run_prefix_iff (W := comparing writes) (I := fun d => d.server = d.reference) h0.symm
    fun d a h => comparing_server_step_iff h

end Cells

end GpuProxy.Math
