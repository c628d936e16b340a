import GpuProxy.Math.Balance
import GpuProxy.Names.Server

/-!
# The names a handler hands out

A handler keeps a counter and a list of names to reuse, and no record of the names in use.
What it can still hand out is the names in the list and those above the counter. The two
together are balanced with the names in use as long as no name is given back that is not in
use, or given back twice: `name_handler_delete_names` takes over what the application
passes. A name the application has chosen is claimed by `name_handler_alloc_name`, which
raises the counter by one wherever above it the name is.

## Main definitions

* `supply` — how often a handler has a name left
* `Pool`, `Op`, `Pool.system` — a handler with the names in use
* `GivesBack`, `Claims` — the operations that keep the balance

## Main results

* `supply_allocNames` — a handler hands out of its supply
* `allocNames_fresh` — runs that give back names in use, each once
* `claim_iff` — runs that also claim names
-/

namespace GpuProxy.Names

open Math

variable {handler handler' : NameHandler} {names buffers : List ℕ} {n k b name : ℕ}

/-! ### The supply of a handler -/

/-- The names of objects. The assertion excludes `UINT_MAX`. -/
def objectNames : Set ℕ := {name | 0 < name ∧ name < uintMax}

/-- How often a handler has a name left: in its list, or above its counter. -/
def supply (handler : NameHandler) (name : ℕ) : ℕ :=
  handler.reusableNames.count name +
    if handler.lastName < name ∧ name < uintMax then 1 else 0

theorem uint_succ (h : n < uintMax) : uint (n + 1) = n + 1 := by
  unfold uint
  unfold uintMax at h
  omega

theorem supply_nextName (hlast : handler.lastName < uintMax)
    (h : nextName handler = some (name, handler')) :
    handler'.lastName < uintMax ∧ handler'.lastName ≤ handler.lastName + 1 ∧
      ∀ k, supply handler' k + (if name = k then 1 else 0) = supply handler k := by
  unfold nextName at h
  split at h
  next first rest hlist =>
    cases h
    refine ⟨hlast, Nat.le_succ _, fun k => ?_⟩
    simp only [supply, hlist, List.count_cons, beq_iff_eq]
    omega
  next hlist =>
    simp only [uint_succ hlast] at h
    split at h
    next => cases h
    next hmax =>
      cases h
      have hnext : handler.lastName + 1 < uintMax := by omega
      refine ⟨hnext, le_rfl, fun k => ?_⟩
      simp only [supply, hlist, List.count_nil]
      split <;> split <;> split <;> omega

/-- A handler hands out of its supply. -/
theorem supply_allocNames (hlast : handler.lastName < uintMax)
    (h : allocNames handler n = some (names, handler')) :
    handler'.lastName < uintMax ∧ handler'.lastName ≤ handler.lastName + n ∧
      ∀ k, supply handler' k + names.count k = supply handler k := by
  induction n generalizing handler names with
  | zero =>
    cases h
    exact ⟨hlast, le_rfl, fun _ => rfl⟩
  | succ n ih =>
    rw [allocNames_succ] at h
    obtain ⟨⟨first, next⟩, hnext, hrest⟩ := Option.bind_eq_some_iff.mp h
    obtain ⟨⟨rest, last⟩, halloc, heq⟩ := Option.map_eq_some_iff.mp hrest
    cases heq
    obtain ⟨hbound, hle, hfirst⟩ := supply_nextName hlast hnext
    obtain ⟨hbound', hle', hsupply⟩ := ih hbound halloc
    refine ⟨hbound', by omega, fun k => ?_⟩
    rw [List.count_cons, ← hfirst k, ← hsupply k]
    simp only [beq_iff_eq]
    omega

/-- The assertion holds as long as the counter is far enough from `UINT_MAX`. -/
theorem exists_allocNames (h : handler.lastName + n < uintMax) :
    ∃ names handler', allocNames handler n = some (names, handler') := by
  induction n generalizing handler with
  | zero => exact ⟨[], handler, rfl⟩
  | succ n ih =>
    obtain ⟨first, next, hnext⟩ : ∃ first next, nextName handler = some (first, next) := by
      unfold nextName
      split
      next first rest _ => exact ⟨first, _, rfl⟩
      next =>
        -- The list is empty, and the assertion holds for the counter.
        rw [uint_succ (by omega), if_neg (by omega)]
        exact ⟨_, _, rfl⟩
    have hle := (supply_nextName (by omega) hnext).2.1
    have hroom : next.lastName + n < uintMax := by omega
    obtain ⟨rest, last, hrest⟩ := ih hroom
    exact ⟨first :: rest, last, by simp [allocNames_succ, hnext, hrest]⟩

/-- Whatever a handler has left it hands out, if it is asked for enough names. -/
theorem exists_allocNames_count (handler : NameHandler) (hlast : handler.lastName < uintMax)
    (k : ℕ) : ∃ n names handler', allocNames handler n = some (names, handler') ∧
      names.count k = supply handler k := by
  -- By induction on how far away the last `k` in the list, and `k` above the counter, can be.
  induction hfar : handler.reusableNames.length + (k - handler.lastName)
    generalizing handler with
  | zero =>
    refine ⟨0, [], handler, rfl, ?_⟩
    have hlist : handler.reusableNames = [] := List.length_eq_zero_iff.mp (by omega)
    have hbelow : ¬ (handler.lastName < k ∧ k < uintMax) := by omega
    rw [supply, hlist, if_neg hbelow]
    rfl
  | succ m ih =>
    by_cases hnone : handler.reusableNames = [] ∧ ¬ (handler.lastName < k ∧ k < uintMax)
    · refine ⟨0, [], handler, rfl, ?_⟩
      rw [supply, hnone.1, if_neg hnone.2]
      rfl
    · obtain ⟨first, next, hnext, hnear⟩ : ∃ first next, nextName handler = some (first, next) ∧
          next.reusableNames.length + (k - next.lastName) = m := by
        unfold nextName
        split
        next first rest hlist =>
          refine ⟨_, _, rfl, ?_⟩
          rw [hlist, List.length_cons] at hfar
          change rest.length + (k - handler.lastName) = m
          omega
        next hlist =>
          rw [hlist, List.length_nil] at hfar
          have habove : handler.lastName < k ∧ k < uintMax := not_not.mp fun h => hnone ⟨hlist, h⟩
          rw [uint_succ hlast, if_neg (by omega)]
          refine ⟨_, _, rfl, ?_⟩
          change handler.reusableNames.length + (k - (handler.lastName + 1)) = m
          rw [hlist, List.length_nil]
          omega
      obtain ⟨hbound, -, hsupply⟩ := supply_nextName hlast hnext
      obtain ⟨n, rest, last, hrest, hcount⟩ := ih next hbound hnear
      refine ⟨n + 1, first :: rest, last, by simp [allocNames_succ, hnext, hrest], ?_⟩
      rw [List.count_cons, hcount, ← hsupply k]
      simp only [beq_iff_eq]

theorem supply_deleteNames :
    supply (deleteNames handler buffers) k =
      supply handler k + (buffers.filter (· ≠ 0)).count k := by
  simp only [supply, deleteNames, List.count_append]
  exact Nat.add_right_comm _ _ _

theorem allocName_of_lt (hb : b < handler.lastName) : allocName handler b =
    ⟨handler.lastName, handler.reusableNames.erase b⟩ :=
  if_neg (Nat.not_le.mpr hb)

theorem allocName_of_ge (hb : handler.lastName ≤ b) (hlast : handler.lastName < uintMax) :
    allocName handler b = ⟨handler.lastName + 1, handler.reusableNames⟩ := by
  unfold allocName
  rw [if_pos hb, uint_succ hlast]

theorem supply_allocName_of_lt (hb : b < handler.lastName) (hone : supply handler b ≤ 1) :
    supply (allocName handler b) k = if k = b then 0 else supply handler k := by
  rw [allocName_of_lt hb]
  unfold supply at hone ⊢
  by_cases hk : k = b
  · subst hk
    -- The counter is above `b`, so that only the list can have it, and once.
    have hbelow : ¬ (handler.lastName < k ∧ k < uintMax) := by omega
    rw [if_neg hbelow] at hone
    rw [if_pos rfl, if_neg hbelow, List.count_erase_self]
    omega
  · rw [if_neg hk, List.count_erase_of_ne hk]

theorem supply_allocName_succ (hb : b = handler.lastName + 1) (hmax : b < uintMax)
    (hone : supply handler b ≤ 1) :
    supply (allocName handler b) k = if k = b then 0 else supply handler k := by
  rw [allocName_of_ge (by omega) (by omega), ← hb]
  unfold supply at hone ⊢
  by_cases hk : k = b
  · subst hk
    -- The counter had `b` next, so that the list cannot have it too.
    rw [if_pos ⟨by omega, hmax⟩] at hone
    rw [if_pos rfl, if_neg fun habove => Nat.lt_irrefl _ habove.1]
    change handler.reusableNames.count k + 0 = 0
    omega
  · have habove : (b < k ∧ k < uintMax) ↔ (handler.lastName < k ∧ k < uintMax) := by omega
    rw [if_neg hk]
    simp only [habove]

/-! ### A handler with the names in use -/

/-- A handler, with the names in use: returned or claimed, and not given back since. -/
structure Pool where
  handler : NameHandler
  live : Finset ℕ
  /-- How many names were returned. -/
  returned : ℕ
  deriving DecidableEq

/-- The functions of `name_handler.h`. -/
inductive Op
  | allocNames (n : ℕ)
  | allocName (buffer : ℕ)
  | deleteNames (buffers : List ℕ)
  deriving DecidableEq, Repr

namespace Pool

def claim (p : Pool) (buffer : ℕ) : Pool :=
  { p with handler := allocName p.handler buffer, live := insert buffer p.live }

def giveBack (p : Pool) (buffers : List ℕ) : Pool :=
  { p with handler := deleteNames p.handler buffers, live := p.live \ buffers.toFinset }

def run (p : Pool) : Op → Option Pool
  | .allocNames n => do
    let (names, handler) ← allocNames p.handler n
    return ⟨handler, p.live ∪ names.toFinset, p.returned + n⟩
  | .allocName buffer => some (p.claim buffer)
  | .deleteNames buffers => some (p.giveBack buffers)

/-- All runs of a handler, from its creation. -/
def system : System Pool Op := System.ofStep (· = ⟨nameHandlerCreate, ∅, 0⟩) run

/-- Each name is in use, or the handler has it once. -/
structure Sound (p : Pool) : Prop where
  lastName_lt : p.handler.lastName < uintMax
  balanced : Balanced objectNames (supply p.handler) p.live

/-- The names the handler returns are names of objects, different and not in use. -/
def Fresh (p : Pool) : Prop :=
  ∀ n names handler, allocNames p.handler n = some (names, handler) →
    names.length = n ∧ names.Nodup ∧ ∀ name ∈ names, name ≠ 0 ∧ name ∉ p.live

/-- The handler has every name that is not in use still to return. -/
def Complete (p : Pool) : Prop :=
  ∀ name ∈ objectNames, name ∉ p.live →
    ∃ n names handler, allocNames p.handler n = some (names, handler) ∧ name ∈ names

end Pool

open Pool

/-! ### The operations keep the balance -/

variable {p q : Pool} {op : Op}

theorem Pool.Sound.fresh (h : p.Sound) : p.Fresh := by
  intro n names handler halloc
  obtain ⟨-, -, hsupply⟩ := supply_allocNames h.lastName_lt halloc
  obtain ⟨hnodup, hnew, -⟩ := h.balanced.take hsupply
  exact ⟨length_allocNames halloc, hnodup, fun name hname =>
    ⟨(hnew name hname).1.1.ne', (hnew name hname).2⟩⟩

theorem Pool.Sound.complete (h : p.Sound) : p.Complete := by
  intro name hname hlive
  obtain ⟨n, names, handler, halloc, hcount⟩ :=
    exists_allocNames_count p.handler h.lastName_lt name
  refine ⟨n, names, handler, halloc, List.count_pos_iff.mp ?_⟩
  rw [hcount, h.balanced.supply_eq_one hname hlive]
  exact Nat.one_pos

/-- Executing a list of operations that all meet a condition. -/
theorem Pool.reachable_of_foldlM {G : Pool → Op → Prop} [DecidableRel G] (ops : List Op)
    (h : ops.foldlM (fun p op => if decide (G p op) then p.run op else none)
      ⟨nameHandlerCreate, ∅, 0⟩ = some q) : (Pool.system.guarded G).Reachable q :=
  System.guarded_of_foldlM (fun _ _ _ hrun => hrun) (fun _ _ hG => of_decide_eq_true hG)
    (.init rfl) h

theorem sound_create : Sound ⟨nameHandlerCreate, ∅, 0⟩ := by
  refine ⟨by decide, fun name hname => ?_, fun name hname => ?_⟩
  · have hrange : 0 < name ∧ name < uintMax := hname
    simp [supply, nameHandlerCreate, hrange]
  · have hrange : ¬ (0 < name ∧ name < uintMax) := hname
    simp [supply, nameHandlerCreate, hrange]

theorem Pool.Sound.allocNames (h : p.Sound)
    (halloc : allocNames p.handler n = some (names, handler)) :
    Sound ⟨handler, p.live ∪ names.toFinset, p.returned + n⟩ := by
  obtain ⟨hlast, -, hsupply⟩ := supply_allocNames h.lastName_lt halloc
  exact ⟨hlast, (h.balanced.take hsupply).2.2⟩

/-- Zeros are passed over, and 0 is not a name of an object. -/
theorem Pool.Sound.giveBack_iff (h : p.Sound) : (p.giveBack buffers).Sound ↔
    (buffers.filter (· ≠ 0)).Nodup ∧ ∀ b ∈ buffers, b ≠ 0 → b ∈ p.live := by
  have hlive : p.live \ buffers.toFinset = p.live \ (buffers.filter (· ≠ 0)).toFinset := by
    ext name
    have hzero : name = 0 → name ∉ p.live := by
      rintro rfl
      exact (h.balanced.outside 0 fun hrange => Nat.lt_irrefl 0 hrange.1).2
    -- A zero in the list is the name of no object.
    simp only [Finset.mem_sdiff, List.mem_toFinset, List.mem_filter, decide_eq_true_eq]
    grind
  have hsupply : ∀ k, supply (deleteNames p.handler buffers) k =
      supply p.handler k + (buffers.filter (· ≠ 0)).count k := fun k => supply_deleteNames
  have hgive := h.balanced.give_iff hsupply
  rw [← hlive] at hgive
  have hmem : (∀ b ∈ buffers.filter (· ≠ 0), b ∈ p.live) ↔ ∀ b ∈ buffers, b ≠ 0 → b ∈ p.live := by
    simp
  rw [← hmem, ← hgive]
  exact ⟨fun h' => h'.balanced, fun h' => ⟨h.lastName_lt, h'⟩⟩

/-- A name is claimed rightly if it is below the counter, and so is in the list, or if it is
what the counter is raised to. -/
theorem Pool.Sound.claim (h : p.Sound) (hzero : b ≠ 0)
    (hb : b < p.handler.lastName ∨ b = p.handler.lastName + 1 ∧ b < uintMax) :
    (p.claim b).Sound := by
  have hlast := h.lastName_lt
  have hone := h.balanced.supply_le_one (a := b)
  rcases hb with hbelow | ⟨hnext, habove⟩
  · refine ⟨?_, (h.balanced.claim_iff ⟨by omega, by omega⟩).mpr
      fun k => supply_allocName_of_lt hbelow hone⟩
    change (allocName p.handler b).lastName < uintMax
    rw [allocName_of_lt hbelow]
    exact hlast
  · refine ⟨?_, (h.balanced.claim_iff ⟨by omega, habove⟩).mpr
      fun k => supply_allocName_succ hnext habove hone⟩
    change (allocName p.handler b).lastName < uintMax
    rw [allocName_of_ge (by omega) hlast]
    exact hnext ▸ habove

/-! ### Names given back -/

/-- Names are handed out and given back only, fewer than `UINT_MAX` in total. -/
def HandsOut (p : Pool) : Op → Prop
  | .allocNames n => p.returned + n < uintMax
  | .allocName _ => False
  | .deleteNames _ => True

/-- The names that are given back, but for zeros, are in use, and each is given back once. -/
def GivesBack (p : Pool) : Op → Prop
  | .deleteNames buffers => (buffers.filter (· ≠ 0)).Nodup ∧ ∀ b ∈ buffers, b ≠ 0 → b ∈ p.live
  | _ => True

instance : DecidableRel HandsOut
  | p, .allocNames n => inferInstanceAs (Decidable (p.returned + n < uintMax))
  | _, .allocName _ => inferInstanceAs (Decidable False)
  | _, .deleteNames _ => inferInstanceAs (Decidable True)

instance : DecidableRel GivesBack
  | p, .deleteNames buffers => inferInstanceAs (Decidable
      ((buffers.filter (· ≠ 0)).Nodup ∧ ∀ b ∈ buffers, b ≠ 0 → b ∈ p.live))
  | _, .allocNames _ | _, .allocName _ => inferInstanceAs (Decidable True)

theorem sound_of_givesBack
    (h : (Pool.system.guarded fun p op => HandsOut p op ∧ GivesBack p op).Reachable p) :
    p.Sound ∧ p.handler.lastName ≤ p.returned := by
  refine System.Invariant.holds (I := fun p => p.Sound ∧ p.handler.lastName ≤ p.returned)
    ⟨?_, ?_⟩ h
  · rintro _ rfl
    exact ⟨sound_create, le_rfl⟩
  · rintro p op q - ⟨hsound, hle⟩ ⟨⟨hdomain, hguard⟩, hrun⟩
    cases op with
    | allocNames n =>
      obtain ⟨⟨names, handler⟩, halloc, heq⟩ := Option.bind_eq_some_iff.mp hrun
      cases heq
      have hle' := (supply_allocNames hsound.lastName_lt halloc).2.1
      exact ⟨hsound.allocNames halloc, hle'.trans (Nat.add_le_add_right hle n)⟩
    | allocName buffer => exact hdomain.elim
    | deleteNames buffers =>
      cases hrun
      exact ⟨hsound.giveBack_iff.mpr hguard, hle⟩

/-- As long as only names in use are given back, and each once, the names returned are new. -/
theorem allocNames_fresh
    (h : (Pool.system.guarded fun p op => HandsOut p op ∧ GivesBack p op).Reachable p)
    (hn : HandsOut p (.allocNames n)) :
    ∃ names handler, allocNames p.handler n = some (names, handler) ∧
      names.length = n ∧ names.Nodup ∧ ∀ name ∈ names, name ≠ 0 ∧ name ∉ p.live := by
  obtain ⟨hsound, hle⟩ := sound_of_givesBack h
  have hroom : p.handler.lastName + n < uintMax := (Nat.add_le_add_right hle n).trans_lt hn
  obtain ⟨names, handler, halloc⟩ := exists_allocNames hroom
  exact ⟨names, handler, halloc, hsound.fresh n names handler halloc⟩

/-- One of two names is given back, and the name 0, and two more are asked for. -/
theorem allocNames_fresh_two : ∃ names handler, allocNames ⟨2, [1]⟩ 2 = some (names, handler) ∧
    names.length = 2 ∧ names.Nodup ∧ ∀ name ∈ names, name ≠ 0 ∧ name ∉ ({2} : Finset ℕ) := by
  have hreach : (Pool.system.guarded fun p op => HandsOut p op ∧ GivesBack p op).Reachable
      ⟨⟨2, [1]⟩, {2}, 2⟩ :=
    Pool.reachable_of_foldlM [.allocNames 2, .deleteNames [1, 0]] (by decide)
  exact allocNames_fresh hreach (by decide)

/-- A name that is given back twice is returned twice. -/
theorem exists_returned_twice : ∃ p handler,
    (Pool.system.guarded HandsOut).Reachable p ∧ HandsOut p (.allocNames 2) ∧
      allocNames p.handler 2 = some ([1, 1], handler) := by
  have hreach : (Pool.system.guarded HandsOut).Reachable ⟨⟨1, [1, 1]⟩, ∅, 1⟩ :=
    Pool.reachable_of_foldlM [.allocNames 1, .deleteNames [1, 1]] (by decide)
  exact ⟨_, ⟨1, []⟩, hreach, by decide, by decide⟩

/-- After any other list some later call would return a name twice. -/
theorem Pool.Sound.fresh_giveBack_iff (h : p.Sound) (hmax : ∀ b ∈ buffers, b < uintMax) :
    (p.giveBack buffers).Fresh ↔ GivesBack p (.deleteNames buffers) := by
  refine ⟨fun hfresh => ?_, fun hguard => (h.giveBack_iff.mpr hguard).fresh⟩
  -- Names are handed out as often as they are in the supply.
  have hone : ∀ k, supply p.handler k + (buffers.filter (· ≠ 0)).count k ≤ 1 := by
    intro k
    obtain ⟨n, names, handler, halloc, hcount⟩ :=
      exists_allocNames_count (deleteNames p.handler buffers) h.lastName_lt k
    rw [supply_deleteNames] at hcount
    rw [← hcount]
    exact List.nodup_iff_count_le_one.mp (hfresh n names handler halloc).2.1 k
  refine ⟨List.nodup_iff_count_le_one.mpr fun k => (Nat.le_add_left _ _).trans (hone k),
    fun b hb hzero => ?_⟩
  by_contra hlive
  have hsupply := h.balanced.supply_eq_one ⟨Nat.pos_of_ne_zero hzero, hmax b hb⟩ hlive
  have hcount : 0 < (buffers.filter (· ≠ 0)).count b :=
    List.count_pos_iff.mpr (List.mem_filter.mpr ⟨hb, by simpa using hzero⟩)
  have := hone b
  omega

/-! ### Names claimed -/

/-- Names not in use are claimed, and names in use given back, each once. -/
def Uses (p : Pool) : Op → Prop
  | .allocNames _ => True
  | .allocName b => b ≠ 0 ∧ b < 2 ^ 32 ∧ b ∉ p.live
  | .deleteNames buffers => buffers.Nodup ∧ ∀ b ∈ buffers, b ∈ p.live

/-- A name that is claimed is below the last one, or the one after it. -/
def ClaimsNext (p : Pool) : Op → Prop
  | .allocName b => b < p.handler.lastName ∨ b = p.handler.lastName + 1 ∧ b < uintMax
  | _ => True

instance : DecidableRel Uses
  | _, .allocNames _ => inferInstanceAs (Decidable True)
  | p, .allocName b => inferInstanceAs (Decidable (b ≠ 0 ∧ b < 2 ^ 32 ∧ b ∉ p.live))
  | p, .deleteNames buffers => inferInstanceAs (Decidable
      (buffers.Nodup ∧ ∀ b ∈ buffers, b ∈ p.live))

instance : DecidableRel ClaimsNext
  | p, .allocName b => inferInstanceAs (Decidable
      (b < p.handler.lastName ∨ b = p.handler.lastName + 1 ∧ b < uintMax))
  | _, .allocNames _ | _, .deleteNames _ => inferInstanceAs (Decidable True)

theorem sound_of_claimsNext
    (h : (Pool.system.guarded fun p op => Uses p op ∧ ClaimsNext p op).Reachable p) : p.Sound := by
  refine System.Invariant.holds ⟨?_, ?_⟩ h
  · rintro _ rfl
    exact sound_create
  · rintro p op q - hsound ⟨⟨huse, hclaim⟩, hrun⟩
    cases op with
    | allocNames n =>
      obtain ⟨⟨names, handler⟩, halloc, heq⟩ := Option.bind_eq_some_iff.mp hrun
      cases heq
      exact hsound.allocNames halloc
    | allocName b =>
      cases hrun
      exact hsound.claim huse.1 hclaim
    | deleteNames buffers =>
      cases hrun
      exact hsound.giveBack_iff.mpr ⟨huse.1.filter _, fun b hb _ => huse.2 b hb⟩

/-- The names in the list come first. -/
theorem allocNames_drain (handler : NameHandler) (n : ℕ) :
    allocNames handler (handler.reusableNames.length + n) =
      (allocNames ⟨handler.lastName, []⟩ n).map fun rest =>
        (handler.reusableNames ++ rest.1, rest.2) := by
  obtain ⟨last, names⟩ := handler
  induction names with
  | nil => simp
  | cons name names ih =>
    have hlength : (name :: names).length + n = names.length + n + 1 := by
      rw [List.length_cons]
      omega
    change allocNames ⟨last, name :: names⟩ ((name :: names).length + n) = _
    rw [hlength, allocNames_succ]
    change (allocNames ⟨last, names⟩ (names.length + n)).map _ = _
    rw [ih, Option.map_map]
    rfl

theorem Pool.Fresh.reusableNames (h : p.Fresh) (hname : name ∈ p.handler.reusableNames) :
    name ∉ p.live := by
  have hdrain := allocNames_drain p.handler 0
  exact ((h _ _ _ hdrain).2.2 name (List.mem_append_left _ hname)).2

/-- Elsewhere a name is claimed wrongly: the last name stays in the list, above the counter
another name is lost, and a counter at `UINT_MAX` starts again at 0. -/
theorem Pool.Sound.claim_iff (h : p.Sound) (huse : Uses p (.allocName b)) :
    (p.claim b).Fresh ∧ (p.claim b).Complete ↔ ClaimsNext p (.allocName b) := by
  obtain ⟨hzero, hlt, hlive⟩ := huse
  have hmax : b ≤ uintMax := Nat.le_pred_of_lt hlt
  have hlast := h.lastName_lt
  refine ⟨fun ⟨hfresh, hcomplete⟩ => ?_,
    fun hclaim => ⟨(h.claim hzero hclaim).fresh, (h.claim hzero hclaim).complete⟩⟩
  rcases Nat.lt_or_ge b p.handler.lastName with hbelow | hge
  · exact .inl hbelow
  have hhandler : (p.claim b).handler = ⟨p.handler.lastName + 1, p.handler.reusableNames⟩ :=
    allocName_of_ge hge hlast
  rcases Nat.lt_trichotomy b (p.handler.lastName + 1) with hlt | heq | hgt
  · have hsupply := h.balanced.supply_eq_one (a := b) ⟨by omega, by omega⟩ hlive
    -- The counter is at `b`, which is in the list and stays there.
    rw [supply, if_neg (by omega)] at hsupply
    have hmem : b ∈ (p.claim b).handler.reusableNames := by
      rw [hhandler]
      change b ∈ p.handler.reusableNames
      exact List.count_pos_iff.mp (by omega)
    exact absurd (Finset.mem_insert_self b p.live) (hfresh.reusableNames hmem)
  · refine .inr ⟨heq, ?_⟩
    by_contra hwrap
    have hcounter : p.handler.lastName + 1 = uintMax := by omega
    -- After the list the next name would be 0.
    have hdrain := allocNames_drain (p.claim b).handler 1
    have hnext : Names.allocNames ⟨uintMax, []⟩ 1 = some ([0], ⟨0, []⟩) := by decide
    rw [hhandler, hcounter, hnext] at hdrain
    have hnew := hfresh _ _ _ (hhandler ▸ hcounter ▸ hdrain)
    exact (hnew.2.2 0 (by simp)).1 rfl
  · -- The counter skips the name after the last one.
    have hname : p.handler.lastName + 1 ∈ objectNames := ⟨by omega, by omega⟩
    have hold : supply p.handler (p.handler.lastName + 1) =
        p.handler.reusableNames.count (p.handler.lastName + 1) + 1 := by
      rw [supply, if_pos ⟨Nat.lt_succ_self _, hname.2⟩]
    have hgone : supply ⟨p.handler.lastName + 1, p.handler.reusableNames⟩
        (p.handler.lastName + 1) = p.handler.reusableNames.count (p.handler.lastName + 1) := by
      simp [supply]
    have hone := h.balanced.supply_le_one (a := p.handler.lastName + 1)
    have hnew : p.handler.lastName + 1 ∉ (p.claim b).live := by
      intro hmem
      rcases Finset.mem_insert.mp hmem with heq | hlive'
      · omega
      · exact h.balanced.notMem_live (by omega) hlive'
    obtain ⟨n, names, handler, halloc, hmem⟩ := hcomplete _ hname hnew
    rw [hhandler] at halloc
    have hcount := (supply_allocNames hname.2 halloc).2.2 (p.handler.lastName + 1)
    have hpos := List.count_pos_iff.mpr hmem
    omega

/-- As long as a name is claimed only below the last one or as the next, no name in use is
returned, and none that is not in use is lost. Claiming any other name breaks this. -/
theorem claimed_names_kept
    (h : (Pool.system.guarded fun p op => Uses p op ∧ ClaimsNext p op).Reachable p) :
    p.Fresh ∧ p.Complete ∧
      (∀ n, p.handler.lastName + n < uintMax →
        ∃ names handler, allocNames p.handler n = some (names, handler)) ∧
      ∀ b, Uses p (.allocName b) →
        ((p.claim b).Fresh ∧ (p.claim b).Complete ↔ ClaimsNext p (.allocName b)) := by
  have hsound := sound_of_claimsNext h
  exact ⟨hsound.fresh, hsound.complete, fun _ hn => exists_allocNames hn,
    fun _ huse => hsound.claim_iff huse⟩

/-- Of two names one is given back and claimed again, and then the one after the last. -/
theorem claimed_names_kept_two : Fresh ⟨⟨3, []⟩, {3, 1, 2}, 2⟩ := by
  have hreach : (Pool.system.guarded fun p op => Uses p op ∧ ClaimsNext p op).Reachable
      ⟨⟨3, []⟩, {3, 1, 2}, 2⟩ :=
    Pool.reachable_of_foldlM [.allocNames 2, .deleteNames [1], .allocName 1, .allocName 3]
      (by decide)
  exact (claimed_names_kept hreach).1

/-- Texture 5 is claimed before any name is returned: the fourth of the names returned next
is 5. -/
theorem exists_returned_claimed : ∃ p handler,
    (Pool.system.guarded Uses).Reachable p ∧ 5 ∈ p.live ∧
      allocNames p.handler 4 = some ([2, 3, 4, 5], handler) := by
  have hreach : (Pool.system.guarded Uses).Reachable ⟨⟨1, []⟩, {5}, 0⟩ :=
    Pool.reachable_of_foldlM [.allocName 5] (by decide)
  exact ⟨_, ⟨5, []⟩, hreach, by decide, by decide⟩

end GpuProxy.Names
