import GpuProxy.Math.TransitionSystem
import Mathlib.Data.Fintype.Card
import Mathlib.Logic.Relation

/-!
# Threads that lock mutexes in an order

Any number of threads run functions, one after the other. What a function does to mutexes, to
what they guard, and to what else takes its time, is a list of actions: one list for each way
through the function.

If every way locks in the order of the mutexes, unlocks what it has locked and calls nothing that
may take its time meanwhile, then a mutex is released by the threads that hold one alone. If data
are accessed under the mutex that guards them, no two threads are at the same data at a time.

## Main definitions

* `LockAction`, `heldAfter` — actions, and the mutexes that are held after them
* `Leads` — actions that keep the rules
* `ThreadState`, `lockSystem` — threads
* `Disciplined` — what holds of the threads when all ways through functions keep the rules
* `HolderStep` — the steps of threads that hold a mutex
* `Meet` — two threads are at the same data, and one of them writes

## Main results

* `disciplined_invariant` — it holds in every reachable state
* `Disciplined.exists_lock` — a thread that waits for a mutex gets it by steps of holders
* `Disciplined.bare_of_meet` — where threads meet, one of them is without the mutex
* `reachable_within` — a thread gets to any place of a way as long as the mutexes are free
-/

namespace GpuProxy.Math

/-- What a thread does: it locks and unlocks, is at data with their mutex or without it, or calls
something that may take its time. -/
inductive LockAction (M X : Type*)
  | lock (m : M)
  | unlock (m : M)
  | access (x : X) (writes : Bool)
  | bare (x : X) (writes : Bool)
  | call

/-- The data that an action is at, and whether it writes. -/
def LockAction.data? {M X : Type*} : LockAction M X → Option (X × Bool)
  | .access x writes => some (x, writes)
  | .bare x writes => some (x, writes)
  | _ => none

/-- A thread in a function, with the mutexes that it holds and what it is still going to do. -/
structure ThreadState (M X E : Type*) where
  function : E
  held : List M
  rest : List (LockAction M X)

section Held

variable {M X : Type*} [LinearOrder M] [DecidableEq X] (guard : X → M) (bares : List (X × Bool))

/-- The mutexes that are held after some actions. There is no result if a mutex is locked when a
greater one is held, if one is unlocked that is not held, if data are accessed without their mutex
but for the given accesses, or if something is called that may take its time while a mutex is
held. -/
def heldAfter : List M → List (LockAction M X) → Option (List M)
  | held, [] => some held
  | held, .lock m :: rest => if ∀ h ∈ held, h < m then heldAfter (m :: held) rest else none
  | held, .unlock m :: rest => if m ∈ held then heldAfter (held.erase m) rest else none
  | held, .access x _ :: rest => if guard x ∈ held then heldAfter held rest else none
  | held, .bare x writes :: rest => if (x, writes) ∈ bares then heldAfter held rest else none
  | held, .call :: rest => if held = [] then heldAfter held rest else none

variable {guard bares} {held held' : List M} {rest rest' : List (LockAction M X)} {m : M} {x : X}
  {writes : Bool}

theorem heldAfter_lock : heldAfter guard bares held (.lock m :: rest) = some held' ↔
    (∀ h ∈ held, h < m) ∧ heldAfter guard bares (m :: held) rest = some held' :=
  Option.ite_none_right_eq_some

theorem heldAfter_unlock : heldAfter guard bares held (.unlock m :: rest) = some held' ↔
    m ∈ held ∧ heldAfter guard bares (held.erase m) rest = some held' :=
  Option.ite_none_right_eq_some

theorem heldAfter_access : heldAfter guard bares held (.access x writes :: rest) = some held' ↔
    guard x ∈ held ∧ heldAfter guard bares held rest = some held' :=
  Option.ite_none_right_eq_some

theorem heldAfter_bare : heldAfter guard bares held (.bare x writes :: rest) = some held' ↔
    (x, writes) ∈ bares ∧ heldAfter guard bares held rest = some held' :=
  Option.ite_none_right_eq_some

theorem heldAfter_call : heldAfter guard bares held (.call :: rest) = some held' ↔
    held = [] ∧ heldAfter guard bares held rest = some held' :=
  Option.ite_none_right_eq_some

/-- The actions keep the rules, and lead from the mutexes that are held before to those after. -/
def Leads (guard : X → M) (bares : List (X × Bool)) (held : List M) (rest : List (LockAction M X))
    (held' : List M) : Prop :=
  heldAfter guard bares held rest = some held'

namespace Leads

variable {held'' : List M}

theorem nil : Leads guard bares held [] held := rfl

theorem append (h : Leads guard bares held rest held')
    (h' : Leads guard bares held' rest' held'') :
    Leads guard bares held (rest ++ rest') held'' := by
  induction rest generalizing held with
  | nil =>
    cases h
    exact h'
  | cons action rest ih =>
    cases action with
    | lock =>
      obtain ⟨horder, h⟩ := heldAfter_lock.mp h
      exact heldAfter_lock.mpr ⟨horder, ih h⟩
    | unlock =>
      obtain ⟨hmem, h⟩ := heldAfter_unlock.mp h
      exact heldAfter_unlock.mpr ⟨hmem, ih h⟩
    | access =>
      obtain ⟨hguard, h⟩ := heldAfter_access.mp h
      exact heldAfter_access.mpr ⟨hguard, ih h⟩
    | bare =>
      obtain ⟨hmem, h⟩ := heldAfter_bare.mp h
      exact heldAfter_bare.mpr ⟨hmem, ih h⟩
    | call =>
      obtain ⟨hnone, h⟩ := heldAfter_call.mp h
      exact heldAfter_call.mpr ⟨hnone, ih h⟩

theorem lock (horder : ∀ h ∈ held, h < m) (h : Leads guard bares (m :: held) rest held') :
    Leads guard bares held (.lock m :: rest) held' :=
  heldAfter_lock.mpr ⟨horder, h⟩

theorem unlock (h : Leads guard bares held rest held') :
    Leads guard bares (m :: held) (.unlock m :: rest) held' :=
  heldAfter_unlock.mpr ⟨List.mem_cons_self, by rwa [List.erase_cons_head]⟩

theorem access (hguard : guard x ∈ held) (h : Leads guard bares held rest held') :
    Leads guard bares held (.access x writes :: rest) held' :=
  heldAfter_access.mpr ⟨hguard, h⟩

theorem bare (hmem : (x, writes) ∈ bares) (h : Leads guard bares held rest held') :
    Leads guard bares held (.bare x writes :: rest) held' :=
  heldAfter_bare.mpr ⟨hmem, h⟩

theorem call (h : Leads guard bares [] rest held') : Leads guard bares [] (.call :: rest) held' :=
  heldAfter_call.mpr ⟨rfl, h⟩

theorem ite {p : Prop} [Decidable p] (h : Leads guard bares held rest held')
    (h' : Leads guard bares held rest' held') :
    Leads guard bares held (if p then rest else rest') held' := by
  split_ifs
  · exact h
  · exact h'

theorem flatMap {α : Type*} {rounds : List α} {round : α → List (LockAction M X)}
    (h : ∀ a, Leads guard bares held (round a) held) :
    Leads guard bares held (rounds.flatMap round) held := by
  induction rounds with
  | nil => exact nil
  | cons a rounds ih =>
    rw [List.flatMap_cons]
    exact (h a).append ih

theorem replicate {n : ℕ} {action : LockAction M X} (h : Leads guard bares held [action] held) :
    Leads guard bares held (List.replicate n action) held := by
  induction n with
  | zero => exact nil
  | succ n ih =>
    rw [List.replicate_succ]
    exact h.append ih

end Leads

end Held

/-! ### Threads -/

section Threads

variable {M X E ι : Type*} [LinearOrder M] [DecidableEq X]

/-- A thread begins a function, or takes the next step of the one it is in. -/
inductive LockStep [DecidableEq ι] (ways : E → Set (List (LockAction M X)))
    (s : ι → ThreadState M X E) (i : ι) : (ι → ThreadState M X E) → Prop
  | enter {f : E} {way : List (LockAction M X)} (hrest : (s i).rest = []) (hway : way ∈ ways f) :
      LockStep ways s i (Function.update s i ⟨f, (s i).held, way⟩)
  | lock {m : M} {rest : List (LockAction M X)} (hrest : (s i).rest = .lock m :: rest)
      (hfree : ∀ j, m ∉ (s j).held) :
      LockStep ways s i (Function.update s i ⟨(s i).function, m :: (s i).held, rest⟩)
  | unlock {m : M} {rest : List (LockAction M X)} (hrest : (s i).rest = .unlock m :: rest) :
      LockStep ways s i (Function.update s i ⟨(s i).function, (s i).held.erase m, rest⟩)
  | access {x : X} {writes : Bool} {rest : List (LockAction M X)}
      (hrest : (s i).rest = .access x writes :: rest) :
      LockStep ways s i (Function.update s i ⟨(s i).function, (s i).held, rest⟩)
  | bare {x : X} {writes : Bool} {rest : List (LockAction M X)}
      (hrest : (s i).rest = .bare x writes :: rest) :
      LockStep ways s i (Function.update s i ⟨(s i).function, (s i).held, rest⟩)
  | call {rest : List (LockAction M X)} (hrest : (s i).rest = .call :: rest) :
      LockStep ways s i (Function.update s i ⟨(s i).function, (s i).held, rest⟩)

/-- Threads that are in no function at first, interleaved at will. -/
def lockSystem [DecidableEq ι] (ways : E → Set (List (LockAction M X))) :
    System (ι → ThreadState M X E) ι where
  Init s := ∀ i, (s i).held = [] ∧ (s i).rest = []
  Step := LockStep ways

/-- Every thread keeps the rules on the rest of its way, and no two hold the same mutex. -/
structure Disciplined (guard : X → M) (bares : E → List (X × Bool)) (s : ι → ThreadState M X E) :
    Prop where
  held : ∀ i, heldAfter guard (bares (s i).function) (s i).held (s i).rest = some []
  exclusive : ∀ i j m, m ∈ (s i).held → m ∈ (s j).held → i = j

/-- Two threads are at the same data next, and one of them writes. -/
def Meet (s : ι → ThreadState M X E) (i j : ι) (x : X) : Prop :=
  i ≠ j ∧ ∃ a b writes writes', (s i).rest.head? = some a ∧ (s j).rest.head? = some b ∧
    a.data? = some (x, writes) ∧ b.data? = some (x, writes') ∧ (writes = true ∨ writes' = true)

variable {guard : X → M} {bares : E → List (X × Bool)} {ways : E → Set (List (LockAction M X))}
  {s t : ι → ThreadState M X E} {i j : ι} {m : M} {x : X}

namespace Disciplined

theorem guard_mem (h : Disciplined guard bares s) {writes : Bool}
    (hi : (s i).rest.head? = some (.access x writes)) : guard x ∈ (s i).held := by
  obtain ⟨rest, hrest⟩ := List.head?_eq_some_iff.mp hi
  have hheld := h.held i
  rw [hrest] at hheld
  exact (heldAfter_access.mp hheld).1

theorem mem_bares (h : Disciplined guard bares s) {writes : Bool}
    (hi : (s i).rest.head? = some (.bare x writes)) : (x, writes) ∈ bares (s i).function := by
  obtain ⟨rest, hrest⟩ := List.head?_eq_some_iff.mp hi
  have hheld := h.held i
  rw [hrest] at hheld
  exact (heldAfter_bare.mp hheld).1

/-- Where two threads meet, one of them is at the data without the mutex. -/
theorem bare_of_meet (h : Disciplined guard bares s) (hmeet : Meet s i j x) :
    (∃ writes, (x, writes) ∈ bares (s i).function ∧ (s i).rest.head? = some (.bare x writes)) ∨
      ∃ writes, (x, writes) ∈ bares (s j).function ∧ (s j).rest.head? = some (.bare x writes) := by
  obtain ⟨hne, a, b, writes, writes', hi, hj, ha, hb, -⟩ := hmeet
  cases a with
  | lock | unlock | call => cases ha
  | bare =>
    cases ha
    exact .inl ⟨writes, h.mem_bares hi, hi⟩
  | access =>
    cases ha
    cases b with
    | lock | unlock | call => cases hb
    | bare =>
      cases hb
      exact .inr ⟨writes', h.mem_bares hj, hj⟩
    | access =>
      -- Both would hold the mutex.
      cases hb
      exact absurd (h.exclusive i j _ (h.guard_mem hi) (h.guard_mem hj)) hne

variable [DecidableEq ι]

/-- A thread goes on on its way. -/
theorem update (h : Disciplined guard bares s) {thread : ThreadState M X E}
    (hheld : heldAfter guard (bares thread.function) thread.held thread.rest = some [])
    (hexclusive : ∀ j m, m ∈ thread.held → m ∈ (s j).held → i = j) :
    Disciplined guard bares (Function.update s i thread) := by
  refine ⟨fun j => ?_, fun j k m hj hk => ?_⟩
  · by_cases hij : j = i
    · subst hij
      rwa [Function.update_self]
    · rw [Function.update_of_ne hij]
      exact h.held j
  · by_cases hij : j = i
    · by_cases hik : k = i
      · rw [hij, hik]
      · rw [hij, Function.update_self] at hj
        rw [Function.update_of_ne hik] at hk
        rw [hij]
        exact hexclusive k m hj hk
    · rw [Function.update_of_ne hij] at hj
      by_cases hik : k = i
      · rw [hik, Function.update_self] at hk
        rw [hik]
        exact (hexclusive j m hk hj).symm
      · rw [Function.update_of_ne hik] at hk
        exact h.exclusive j k m hj hk

theorem step (hways : ∀ f, ∀ way ∈ ways f, Leads guard (bares f) [] way [])
    (h : Disciplined guard bares s) (hstep : LockStep ways s i t) : Disciplined guard bares t := by
  have hi := h.held i
  have hself : ∀ j m, m ∈ (s i).held → m ∈ (s j).held → i = j := fun j m => h.exclusive i j m
  cases hstep with
  | enter hrest hway =>
    -- Between two functions nothing is held.
    rw [hrest] at hi
    have hnone : (s i).held = [] := Option.some.inj hi
    refine h.update ?_ hself
    rw [hnone]
    exact hways _ _ hway
  | @lock m rest hrest hfree =>
    rw [hrest] at hi
    refine h.update (heldAfter_lock.mp hi).2 fun j m' hm' hj => ?_
    obtain rfl | hm' := List.mem_cons.mp hm'
    · exact absurd hj (hfree j)
    · exact h.exclusive i j m' hm' hj
  | unlock hrest =>
    rw [hrest] at hi
    exact h.update (heldAfter_unlock.mp hi).2
      fun j m' hm' => h.exclusive i j m' (List.mem_of_mem_erase hm')
  | access hrest =>
    rw [hrest] at hi
    exact h.update (heldAfter_access.mp hi).2 hself
  | bare hrest =>
    rw [hrest] at hi
    exact h.update (heldAfter_bare.mp hi).2 hself
  | call hrest =>
    rw [hrest] at hi
    exact h.update (heldAfter_call.mp hi).2 hself

end Disciplined

variable [DecidableEq ι]

theorem disciplined_invariant (hways : ∀ f, ∀ way ∈ ways f, Leads guard (bares f) [] way []) :
    (lockSystem ways).Invariant (Disciplined guard bares (ι := ι)) where
  init := by
    intro s hs
    refine ⟨fun i => ?_, fun i j m hi => ?_⟩
    · rw [(hs i).1, (hs i).2]
      rfl
    · rw [(hs i).1] at hi
      cases hi
  step _ _ _ _ h hstep := h.step hways hstep

/-! ### Waiting -/

/-- A thread that holds a mutex takes a step that is no call. -/
def HolderStep (ways : E → Set (List (LockAction M X))) (s t : ι → ThreadState M X E) : Prop :=
  ∃ j, (s j).held ≠ [] ∧ (s j).rest.head? ≠ some .call ∧ LockStep ways s j t

/-- By steps of threads that hold a mutex, `m` gets free. Threads that hold smaller ones only stay
where they are. -/
def Released (ways : E → Set (List (LockAction M X))) (m : M) (s : ι → ThreadState M X E) : Prop :=
  ∃ t, Relation.ReflTransGen (HolderStep ways) s t ∧ (∀ j, m ∉ (t j).held) ∧
    ∀ k, (∀ h ∈ (s k).held, h < m) → t k = s k

namespace Disciplined

theorem of_holderSteps (hways : ∀ f, ∀ way ∈ ways f, Leads guard (bares f) [] way [])
    (h : Disciplined guard bares s) (hsteps : Relation.ReflTransGen (HolderStep ways) s t) :
    Disciplined guard bares t := by
  induction hsteps with
  | refl => exact h
  | tail _ hstep ih =>
    obtain ⟨j, -, -, hstep⟩ := hstep
    exact ih.step hways hstep

/-- The thread that holds `m` takes a step, and the mutex is released then if it is still held. -/
theorem released_of_step (h : Disciplined guard bares s) (hj : m ∈ (s j).held)
    {thread : ThreadState M X E} (hcall : (s j).rest.head? ≠ some .call)
    (hstep : LockStep ways s j (Function.update s j thread))
    (hrest : m ∈ thread.held → Released ways m (Function.update s j thread)) :
    Released ways m s := by
  have hholder : HolderStep ways s (Function.update s j thread) :=
    ⟨j, List.ne_nil_of_mem hj, hcall, hstep⟩
  have hframe : ∀ k, (∀ h ∈ (s k).held, h < m) → Function.update s j thread k = s k := by
    intro k hk
    have hkj : k ≠ j := by
      rintro rfl
      exact lt_irrefl m (hk m hj)
    exact Function.update_of_ne hkj _ _
  by_cases hm : m ∈ thread.held
  · obtain ⟨t, hsteps, hfree, hsame⟩ := hrest hm
    refine ⟨t, .head hholder hsteps, hfree, fun k hk => ?_⟩
    rw [hsame k (by rwa [hframe k hk]), hframe k hk]
  · refine ⟨_, .single hholder, fun k hk => ?_, hframe⟩
    by_cases hkj : k = j
    · rw [hkj, Function.update_self] at hk
      exact hm hk
    · rw [Function.update_of_ne hkj] at hk
      exact hkj (h.exclusive k j m hk hj)

/-- The outer induction is on the mutexes above `m`, the inner one on what its holder is still
going to do. -/
theorem released [Finite M] (hways : ∀ f, ∀ way ∈ ways f, Leads guard (bares f) [] way [])
    (h : Disciplined guard bares s) : Released ways m s := by
  induction m using WellFoundedGT.induction generalizing s with
  | _ m ih =>
    by_cases hfree : ∀ j, m ∉ (s j).held
    · exact ⟨s, .refl, hfree, fun _ _ => rfl⟩
    simp only [not_forall, not_not] at hfree
    obtain ⟨j, hj⟩ := hfree
    generalize hrest : (s j).rest = rest
    induction rest generalizing s with
    | nil =>
      have hnone := h.held j
      rw [hrest] at hnone
      rw [Option.some.inj hnone] at hj
      cases hj
    | cons action rest ihrest =>
      have hstill := h.held j
      rw [hrest] at hstill
      have hgo : ∀ {thread}, thread.rest = rest → action ≠ .call →
          LockStep ways s j (Function.update s j thread) → Released ways m s := by
        intro thread hthread hcall hstep
        refine h.released_of_step hj (by rw [hrest]; exact fun heq => hcall (Option.some.inj heq))
          hstep fun hm => ?_
        refine ihrest (h.step hways hstep) ?_ ?_
        · rwa [Function.update_self]
        · rwa [Function.update_self]
      cases action with
      | call => exact absurd (heldAfter_call.mp hstill).1 (List.ne_nil_of_mem hj)
      | unlock => exact hgo rfl (by simp) (.unlock hrest)
      | access => exact hgo rfl (by simp) (.access hrest)
      | bare => exact hgo rfl (by simp) (.bare hrest)
      | lock m' =>
        have horder := (heldAfter_lock.mp hstill).1
        -- First the greater mutex that it waits for is released; it stays where it is meanwhile.
        obtain ⟨t, hsteps, hfree, hsame⟩ := ih m' (horder m hj) h
        have htj : t j = s j := hsame j horder
        have hwaits : (t j).rest = .lock m' :: rest := by rw [htj, hrest]
        have ht := h.of_holderSteps hways hsteps
        have hlock : LockStep ways t j
            (Function.update t j ⟨(t j).function, m' :: (t j).held, rest⟩) := .lock hwaits hfree
        have hreleased : Released ways m t := by
          refine ht.released_of_step (by rwa [htj]) (by rw [hwaits]; simp) hlock fun hm => ?_
          refine ihrest (ht.step hways hlock) ?_ ?_
          · rwa [Function.update_self]
          · rw [Function.update_self]
        obtain ⟨u, hsteps', hfree', hsame'⟩ := hreleased
        refine ⟨u, hsteps.trans hsteps', hfree', fun k hk => ?_⟩
        have htk : t k = s k := hsame k fun h hmem => (hk h hmem).trans (horder m hj)
        rw [hsame' k (by rwa [htk]), htk]

/-- A thread that waits for a mutex gets it after some steps of threads that hold one. -/
theorem exists_lock [Finite M] (hways : ∀ f, ∀ way ∈ ways f, Leads guard (bares f) [] way [])
    (h : Disciplined guard bares s) {rest : List (LockAction M X)}
    (hrest : (s i).rest = .lock m :: rest) :
    ∃ t t', Relation.ReflTransGen (HolderStep ways) s t ∧ t i = s i ∧ LockStep ways t i t' := by
  obtain ⟨t, hsteps, hfree, hsame⟩ := h.released hways (m := m)
  have hi := h.held i
  rw [hrest] at hi
  have hti : t i = s i := hsame i (heldAfter_lock.mp hi).1
  exact ⟨t, _, hsteps, hti, .lock (by rw [hti, hrest]) hfree⟩

end Disciplined

/-- A thread alone takes the steps of the first part of its way, if nobody holds what it locks. -/
theorem reachable_along {pre rest : List (LockAction M X)} {held : List M}
    (hs : (lockSystem ways).Reachable s) (hrest : (s i).rest = pre ++ rest)
    (hheld : heldAfter guard (bares (s i).function) (s i).held pre = some held)
    (hfree : ∀ m, .lock m ∈ pre → ∀ j, j ≠ i → m ∉ (s j).held) :
    (lockSystem ways).Reachable (Function.update s i ⟨(s i).function, held, rest⟩) := by
  induction pre generalizing s with
  | nil =>
    cases hheld
    rw [List.nil_append] at hrest
    rw [← hrest]
    exact (Function.update_eq_self i s).symm ▸ hs
  | cons action pre ih =>
    have hgo : ∀ held',
        LockStep ways s i (Function.update s i ⟨(s i).function, held', pre ++ rest⟩) →
        heldAfter guard (bares (s i).function) held' pre = some held →
        (lockSystem ways).Reachable (Function.update s i ⟨(s i).function, held, rest⟩) := by
      intro held' hstep hpre
      have hnext := ih (.step hs hstep) (by rw [Function.update_self])
        (by rwa [Function.update_self]) fun m hm j hj => by
          rw [Function.update_of_ne hj]
          exact hfree m (List.mem_cons_of_mem _ hm) j hj
      rwa [Function.update_idem, Function.update_self] at hnext
    cases action with
    | lock m =>
      refine hgo _ (.lock hrest fun j => ?_) (heldAfter_lock.mp hheld).2
      by_cases hj : j = i
      · intro hm
        rw [hj] at hm
        exact lt_irrefl m ((heldAfter_lock.mp hheld).1 m hm)
      · exact hfree m List.mem_cons_self j hj
    | unlock => exact hgo _ (.unlock hrest) (heldAfter_unlock.mp hheld).2
    | access => exact hgo _ (.access hrest) (heldAfter_access.mp hheld).2
    | bare => exact hgo _ (.bare hrest) (heldAfter_bare.mp hheld).2
    | call => exact hgo _ (.call hrest) (heldAfter_call.mp hheld).2

/-- A thread that is in no function gets to any place of a way. -/
theorem reachable_within {f : E} {pre rest : List (LockAction M X)} {held : List M}
    (hs : (lockSystem ways).Reachable s) (hnone : (s i).held = []) (hidle : (s i).rest = [])
    (hway : pre ++ rest ∈ ways f) (hheld : heldAfter guard (bares f) [] pre = some held)
    (hfree : ∀ m, .lock m ∈ pre → ∀ j, j ≠ i → m ∉ (s j).held) :
    (lockSystem ways).Reachable (Function.update s i ⟨f, held, rest⟩) := by
  have hentered := System.Reachable.step hs (LockStep.enter hidle hway)
  have halong := reachable_along hentered (i := i)
    (by rw [Function.update_self]) (by rwa [Function.update_self, hnone]) fun m hm j hj => by
      rw [Function.update_of_ne hj]
      exact hfree m hm j hj
  rwa [Function.update_idem, Function.update_self] at halong

end Threads

end GpuProxy.Math
