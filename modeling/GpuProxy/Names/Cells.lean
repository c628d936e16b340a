import GpuProxy.Math.OwnedHeap
import GpuProxy.Math.TransitionSystem
import GpuProxy.Names.HashTable

/-!
# Tables of allocated cells

Every table of the program has pointers as its data, to cells that were allocated for it, and
`free` as its `delete_function`: a name of the driver, a location, a texture. `hash_insert` frees
the cell it replaces, `hash_remove` the one it removes, `delete_hash_table` all that are left, and
who takes a cell frees it. The rest of the memory belongs to others.

## Main definitions

* `Cells`, `CellOp`, `Cells.step` — a table with its cells, and the operations
* `CellOp.apply` — the operations on a partial map of contents
* `Cells.deleteHashTable` — the end of a table

## Main results

* `Cells.exists_cellStep` — cells are never used or freed after they were freed, and the table is a
  partial map of their contents
* `Cells.exists_deleteHashTable` — all cells are freed in the end
-/

namespace GpuProxy.Names

open Math

/-! ### Entries -/

variable {α : Type*} {table table' : HashTable α} {key k : ℕ} {data : α} {pos : Fin tableSize}

/-- The entries in the order of the walks over a table: position by position. -/
def HashTable.entries (table : HashTable α) : List (Sigma fun _ : ℕ => α) :=
  (List.finRange tableSize).flatMap fun pos => (table.table pos).entries

/-- Every key is in the chain that it is looked for in, and no key is 0. -/
def Placed (table : HashTable α) : Prop :=
  ∀ pos key, key ∈ table.table pos → key ≠ 0 ∧ hashFunc key = pos

namespace Placed

theorem newHashTable : Placed (newHashTable : HashTable α) := by
  intro pos key hkey
  exact (AList.notMem_empty key hkey).elim

/-- An operation on the chain of a key that brings no other key into it. -/
theorem update (h : Placed table) {chain : Chain α}
    (hchain : ∀ k ∈ chain, k ∈ table.table (hashFunc key) ∨ k ≠ 0 ∧ k = key) :
    Placed ⟨Function.update table.table (hashFunc key) chain⟩ := by
  intro pos k hk
  by_cases hpos : pos = hashFunc key
  · subst hpos
    simp only [Function.update_self] at hk
    obtain hold | ⟨hzero, rfl⟩ := hchain k hk
    · exact h _ k hold
    · exact ⟨hzero, rfl⟩
  · simp only [Function.update_of_ne hpos] at hk
    exact h pos k hk

theorem hashInsert (h : Placed table) (hinsert : hashInsert table key data = some table') :
    Placed table' := by
  rw [Names.hashInsert] at hinsert
  split_ifs at hinsert with hkey
  obtain rfl := Option.some.inj hinsert
  refine h.update fun k hk => ?_
  by_cases hk' : k = key
  · exact .inr ⟨hk' ▸ hkey, hk'⟩
  · rw [← AList.lookup_isSome, Chain.lookup_put, if_neg hk', AList.lookup_isSome] at hk
    exact .inl hk

theorem hashRemoveWithDeletion (h : Placed table) : Placed (hashRemoveWithDeletion table key) :=
  h.update fun _ hk => .inl (AList.mem_erase.mp hk).2

/-- A key is found exactly if it is in its chain. -/
theorem lookup_eq (h : Placed table) :
    (table.table (hashFunc key)).lookup key = hashLookup table key := by
  rw [hashLookup]
  split_ifs with hzero
  · exact AList.lookup_eq_none.mpr fun hkey => (h _ _ hkey).1 hzero
  · rfl

/-- The entries are what is found. -/
theorem mem_entries_iff (h : Placed table) :
    (⟨key, data⟩ : Sigma fun _ : ℕ => α) ∈ table.entries ↔ hashLookup table key = some data := by
  rw [HashTable.entries, List.mem_flatMap, ← h.lookup_eq, ← Option.mem_def, AList.mem_lookup_iff]
  constructor
  · rintro ⟨pos, -, hentry⟩
    have hkey : key ∈ table.table pos := List.mem_keys_of_mem hentry
    rwa [(h pos key hkey).2]
  · exact fun hentry => ⟨_, List.mem_finRange _, hentry⟩

/-- No key is in a table twice. -/
theorem nodup_keys (h : Placed table) : (table.entries.map Sigma.fst).Nodup := by
  rw [HashTable.entries, List.map_flatMap, List.nodup_flatMap]
  refine ⟨fun pos _ => (table.table pos).nodupKeys, ?_⟩
  refine (List.nodup_finRange tableSize).imp fun {pos pos'} hne key hkey hkey' => hne ?_
  rw [← (h pos key hkey).2, (h pos' key hkey').2]

end Placed

/-! ### Cells -/

variable {β : Type}

/-- A table with pointers to its cells, and the memory that these are in. -/
structure Cells (β : Type) where
  heap : OwnedHeap β
  table : HashTable ℕ

/-- What is done with a table: a cell is allocated and inserted, removed, taken and freed, or
written to, and others do what they like with their memory. -/
inductive CellOp (β : Type)
  | insert (key address : ℕ) (contents : β)
  | remove (key : ℕ)
  | take (key : ℕ)
  | write (key : ℕ) (f : β → β)
  | others (memory : ℕ → Option β)

namespace Cells

/-- `delete_function`, if there is an entry. -/
def deleteFunction (heap : OwnedHeap β) : Option ℕ → Option (OwnedHeap β)
  | none => some heap
  | some data => heap.free data

/-- `hash_insert` with a new cell, at the address that `malloc` returns. -/
def insert (c : Cells β) (key address : ℕ) (contents : β) : Option (Cells β) := do
  let heap ← c.heap.malloc address contents
  let table ← hashInsert c.table key address
  let heap ← deleteFunction heap (hashLookup c.table key)
  some ⟨heap, table⟩

/-- `hash_remove`. -/
def remove (c : Cells β) (key : ℕ) : Option (Cells β) := do
  let heap ← deleteFunction c.heap ((c.table.table (hashFunc key)).lookup key)
  some ⟨heap, hashRemoveWithDeletion c.table key⟩

/-- `hash_take`, by who reads the cell and frees it. -/
def take (c : Cells β) (key : ℕ) : Option (Option β × Cells β) :=
  match hashTake c.table key with
  | (none, table) => some (none, ⟨c.heap, table⟩)
  | (some data, table) => do
    let contents ← c.heap.memory data
    let heap ← c.heap.free data
    some (some contents, ⟨heap, table⟩)

/-- A cell that `hash_lookup` found is read and written to. -/
def write (c : Cells β) (key : ℕ) (f : β → β) : Option (Cells β) :=
  match hashLookup c.table key with
  | none => some c
  | some data => do
    let contents ← c.heap.memory data
    let heap ← c.heap.store data (f contents)
    some ⟨heap, c.table⟩

/-- The result is what was in the cell that was taken. -/
def step (c : Cells β) : CellOp β → Option (Option β × Cells β)
  | .insert key address contents => (c.insert key address contents).map (none, ·)
  | .remove key => (c.remove key).map (none, ·)
  | .take key => c.take key
  | .write key f => (c.write key f).map (none, ·)
  | .others memory => some (none, ⟨c.heap.setRest memory, c.table⟩)

/-- `delete_hash_table`. -/
def deleteHashTable (c : Cells β) : Option (OwnedHeap β) :=
  c.heap.freeAll (c.table.entries.map Sigma.snd)

/-- The contents of the cells. -/
def values (c : Cells β) (key : ℕ) : Option β := (hashLookup c.table key).bind c.heap.memory

end Cells

namespace CellOp

/-- Keys that are inserted are not 0, and `malloc` returns an address that is not in use. -/
def Admits (c : Cells β) : CellOp β → Prop
  | insert key address _ => key ≠ 0 ∧ address ≠ 0 ∧ c.heap.memory address = none
  | _ => True

/-- The operations on a partial map. -/
def apply (values : ℕ → Option β) : CellOp β → Option β × (ℕ → Option β)
  | insert key _ contents => (none, Function.update values key (some contents))
  | remove key => (none, Function.update values key none)
  | take key => (values key, Function.update values key none)
  | write key f => (none, Function.update values key ((values key).map f))
  | others _ => (none, values)

end CellOp

/-- The runs from an empty table. -/
def cellSystem (β : Type) : System (Cells β) (CellOp β) where
  Init c := c.heap.blocks = ∅ ∧ c.table = newHashTable
  Step c op c' := ∃ result, c.step op = some (result, c')

/-- The table has a cell of its own for every key it has, and no cell is left over. -/
structure Held (c : Cells β) : Prop where
  placed : Placed c.table
  blocks : ∀ p, p ∈ c.heap.blocks ↔ ∃ key, hashLookup c.table key = some p
  apart : ∀ key key' p, hashLookup c.table key = some p → hashLookup c.table key' = some p →
    key = key'

namespace Held

variable {c c' : Cells β} {heap : OwnedHeap β} {cells : HashTable ℕ}

/-- The value of one key changes: its cell is gone, and a new one may be there. -/
theorem update (h : Held c) {address : Option ℕ} (hplaced : Placed cells)
    (hlookup : hashLookup cells = Function.update (hashLookup c.table) key address)
    (hblocks : ∀ p, p ∈ heap.blocks ↔
      address = some p ∨ p ∈ c.heap.blocks ∧ hashLookup c.table key ≠ some p)
    (hfresh : ∀ p, address = some p → p ∉ c.heap.blocks)
    (hmemory : ∀ p ∈ c.heap.blocks, hashLookup c.table key ≠ some p →
      heap.memory p = c.heap.memory p) :
    Held ⟨heap, cells⟩ ∧
      (⟨heap, cells⟩ : Cells β).values =
        Function.update c.values key (address.bind heap.memory) := by
  -- A cell of another key was there before, and is still there.
  have hold : ∀ k p, k ≠ key → hashLookup c.table k = some p →
      p ∈ c.heap.blocks ∧ hashLookup c.table key ≠ some p :=
    fun k p hk hp => ⟨(h.blocks p).mpr ⟨k, hp⟩, fun hkey => hk (h.apart k key p hp hkey)⟩
  have hnew : ∀ k, hashLookup cells k = if k = key then address else hashLookup c.table k := by
    intro k
    rw [hlookup, Function.update_apply]
  refine ⟨⟨hplaced, fun p => ?_, fun k k' p hk hk' => ?_⟩, ?_⟩
  · rw [hblocks]
    constructor
    · rintro (rfl | ⟨hp, hne⟩)
      · exact ⟨key, by rw [hnew, if_pos rfl]⟩
      · obtain ⟨k, hk⟩ := (h.blocks p).mp hp
        have hkey : k ≠ key := by
          rintro rfl
          exact hne hk
        exact ⟨k, by rw [hnew, if_neg hkey, hk]⟩
    · rintro ⟨k, hk⟩
      rw [hnew] at hk
      split_ifs at hk with hkey
      · exact .inl hk
      · exact .inr (hold k p hkey hk)
  · rw [hnew] at hk hk'
    split_ifs at hk hk' with hkey hkey' hkey'
    · rw [hkey, hkey']
    · exact absurd (hold k' p hkey' hk').1 (hfresh p hk)
    · exact absurd (hold k p hkey hk).1 (hfresh p hk')
    · exact h.apart k k' p hk hk'
  · funext k
    rw [Cells.values, hnew, Function.update_apply]
    split_ifs with hkey
    · rfl
    · rw [Cells.values]
      cases hk : hashLookup c.table k with
      | none => rfl
      | some p =>
        obtain ⟨hp, hne⟩ := hold k p hkey hk
        exact hmemory p hp hne

/-- What `delete_function` gets is there to be freed. -/
theorem deleteFunction_spec (hheap : ∀ p, hashLookup c.table key = some p → p ∈ heap.blocks) :
    ∃ heap', Cells.deleteFunction heap (hashLookup c.table key) = some heap' ∧
      (∀ p, p ∈ heap'.blocks ↔ p ∈ heap.blocks ∧ hashLookup c.table key ≠ some p) ∧
      ∀ p, hashLookup c.table key ≠ some p → heap'.memory p = heap.memory p := by
  cases hkey : hashLookup c.table key with
  | none => exact ⟨heap, rfl, by simp, fun _ _ => rfl⟩
  | some q =>
    obtain ⟨heap', hfree, hblocks, hmemory, -⟩ := OwnedHeap.free_spec (hheap q hkey)
    refine ⟨heap', hfree, fun p => ?_, fun p hp => hmemory p fun heq => hp (by rw [heq])⟩
    rw [hblocks, Finset.mem_erase, and_comm, ne_eq, ne_eq, Option.some.injEq, eq_comm]

theorem insert (h : Held c) {address : ℕ} (contents : β) (hkey : key ≠ 0)
    (hzero : address ≠ 0) (hfresh : c.heap.memory address = none) :
    ∃ c', c.insert key address contents = some c' ∧ Held c' ∧
      c'.values = Function.update c.values key (some contents) := by
  obtain ⟨heap, hmalloc⟩ : ∃ heap, c.heap.malloc address contents = some heap := by
    rw [OwnedHeap.malloc, dif_neg (by simp [hzero, hfresh])]
    exact ⟨_, rfl⟩
  obtain ⟨cells, hinsert⟩ : ∃ cells, hashInsert c.table key address = some cells := by
    rw [hashInsert, if_neg hkey]
    exact ⟨_, rfl⟩
  obtain ⟨-, -, hblocks, hcontents, hmemory, -⟩ := OwnedHeap.malloc_spec hmalloc
  have hnotMem : address ∉ c.heap.blocks := OwnedHeap.notMem_of_memory_eq_none hfresh
  have hold : ∀ p, hashLookup c.table key = some p → p ∈ c.heap.blocks :=
    fun p hp => (h.blocks p).mpr ⟨key, hp⟩
  have hother : hashLookup c.table key ≠ some address := fun hp => hnotMem (hold address hp)
  obtain ⟨heap', hfree, hblocks', hmemory'⟩ := deleteFunction_spec fun p hp =>
    (hblocks ▸ Finset.mem_insert_of_mem (hold p hp) : p ∈ heap.blocks)
  have hnew : heap'.memory address = some contents := (hmemory' address hother).trans hcontents
  have hleft : ∀ p, p ∈ heap'.blocks ↔ some address = some p ∨
      p ∈ c.heap.blocks ∧ hashLookup c.table key ≠ some p := by
    intro p
    rw [hblocks', hblocks, Finset.mem_insert, Option.some.injEq, eq_comm (a := address)]
    constructor
    · rintro ⟨rfl | hp, hne⟩
      · exact .inl rfl
      · exact .inr ⟨hp, hne⟩
    · rintro (rfl | ⟨hp, hne⟩)
      · exact ⟨.inl rfl, hother⟩
      · exact ⟨.inr hp, hne⟩
  have hsame : ∀ p ∈ c.heap.blocks, hashLookup c.table key ≠ some p →
      heap'.memory p = c.heap.memory p := by
    intro p hp hne
    rw [hmemory' p hne, hmemory p fun heq => hnotMem (heq ▸ hp)]
  obtain ⟨hheld, hvalues⟩ := h.update (h.placed.hashInsert hinsert)
    (hashLookup_hashInsert hinsert) hleft (fun p hp => Option.some.inj hp ▸ hnotMem) hsame
  refine ⟨⟨heap', cells⟩, ?_, hheld, ?_⟩
  · simp [Cells.insert, hmalloc, hinsert, hfree]
  · rw [hvalues, Option.bind_some, hnew]

theorem remove (h : Held c) (key : ℕ) : ∃ c', c.remove key = some c' ∧ Held c' ∧
    c'.values = Function.update c.values key none := by
  have hold : ∀ p, hashLookup c.table key = some p → p ∈ c.heap.blocks :=
    fun p hp => (h.blocks p).mpr ⟨key, hp⟩
  obtain ⟨heap, hfree, hblocks, hmemory⟩ := deleteFunction_spec hold
  have hleft : ∀ p, p ∈ heap.blocks ↔
      none = some p ∨ p ∈ c.heap.blocks ∧ hashLookup c.table key ≠ some p := by
    simp [hblocks]
  obtain ⟨hheld, hvalues⟩ := h.update h.placed.hashRemoveWithDeletion
    hashLookup_hashRemoveWithDeletion hleft (by simp) fun p _ hne => hmemory p hne
  refine ⟨_, ?_, hheld, hvalues⟩
  simp [Cells.remove, h.placed.lookup_eq, hfree]

theorem take (h : Held c) (key : ℕ) : ∃ c', c.take key = some (c.values key, c') ∧ Held c' ∧
    c'.values = Function.update c.values key none := by
  obtain ⟨c', hremove, hheld, hvalues⟩ := h.remove key
  refine ⟨c', ?_, hheld, hvalues⟩
  rw [Cells.remove, h.placed.lookup_eq] at hremove
  rw [Cells.take, hashTake, Cells.values]
  cases hkey : hashLookup c.table key with
  | none =>
    rw [hkey] at hremove
    obtain rfl := Option.some.inj hremove
    rfl
  | some p =>
    obtain ⟨contents, hcontents⟩ :=
      Option.isSome_iff_exists.mp (c.heap.mapped p ((h.blocks p).mpr ⟨key, hkey⟩))
    obtain ⟨heap, hfree, hc'⟩ := Option.bind_eq_some_iff.mp (hkey ▸ hremove)
    have hfree : c.heap.free p = some heap := hfree
    obtain rfl := Option.some.inj hc'
    simp [hcontents, hfree]

theorem write (h : Held c) (key : ℕ) (f : β → β) : ∃ c', c.write key f = some c' ∧ Held c' ∧
    c'.values = Function.update c.values key ((c.values key).map f) := by
  rw [Cells.write]
  cases hkey : hashLookup c.table key with
  | none =>
    have hnone : c.values key = none := by rw [Cells.values, hkey, Option.bind_none]
    refine ⟨c, rfl, h, ?_⟩
    rw [hnone, Option.map_none, ← hnone, Function.update_eq_self]
  | some p =>
    have hp : p ∈ c.heap.blocks := (h.blocks p).mpr ⟨key, hkey⟩
    obtain ⟨contents, hcontents⟩ := Option.isSome_iff_exists.mp (c.heap.mapped p hp)
    obtain ⟨heap, hstore, hblocks, hnew, hmemory, -⟩ := OwnedHeap.store_spec hp (f contents)
    refine ⟨⟨heap, c.table⟩, by simp [hcontents, hstore],
      ⟨h.placed, hblocks ▸ h.blocks, h.apart⟩, ?_⟩
    funext k
    rw [Function.update_apply]
    split_ifs with hk
    · simp [Cells.values, hk, hkey, hnew, hcontents]
    · rw [Cells.values, Cells.values]
      cases hlookup : hashLookup c.table k with
      | none => rfl
      | some q =>
        refine hmemory q ?_
        rintro rfl
        exact hk (h.apart k key q hlookup hkey)

theorem others (h : Held c) (memory : ℕ → Option β) :
    Held ⟨c.heap.setRest memory, c.table⟩ ∧
      (⟨c.heap.setRest memory, c.table⟩ : Cells β).values = c.values := by
  refine ⟨⟨h.placed, h.blocks, h.apart⟩, ?_⟩
  funext k
  rw [Cells.values, Cells.values]
  cases hlookup : hashLookup c.table k with
  | none => rfl
  | some p => exact OwnedHeap.memory_setRest ((h.blocks p).mpr ⟨k, hlookup⟩)

/-- What an operation does. -/
theorem step (h : Held c) {op : CellOp β} (hop : op.Admits c) :
    ∃ c', c.step op = some ((op.apply c.values).1, c') ∧ Held c' ∧
      c'.values = (op.apply c.values).2 := by
  cases op with
  | insert key address contents =>
    obtain ⟨hkey, hzero, hfresh⟩ := hop
    obtain ⟨c', hc', h'⟩ := h.insert contents hkey hzero hfresh
    exact ⟨c', by rw [Cells.step, hc']; rfl, h'⟩
  | remove key =>
    obtain ⟨c', hc', h'⟩ := h.remove key
    exact ⟨c', by rw [Cells.step, hc']; rfl, h'⟩
  | take key => exact h.take key
  | write key f =>
    obtain ⟨c', hc', h'⟩ := h.write key f
    exact ⟨c', by rw [Cells.step, hc']; rfl, h'⟩
  | others memory => exact ⟨_, rfl, h.others memory⟩

end Held

/-- An operation that has a result is one that is meant. -/
theorem Cells.admits_of_step {c c' : Cells β} {op : CellOp β} {result : Option β}
    (h : c.step op = some (result, c')) : op.Admits c := by
  cases op with
  | insert key address contents =>
    obtain ⟨c', hinsert, -⟩ := Option.map_eq_some_iff.mp h
    obtain ⟨heap, hmalloc, hinsert⟩ := Option.bind_eq_some_iff.mp hinsert
    obtain ⟨hzero, hfresh, -⟩ := OwnedHeap.malloc_spec hmalloc
    refine ⟨?_, hzero, hfresh⟩
    rintro rfl
    cases hinsert
  | remove | take | write | others => trivial

theorem held_invariant : (cellSystem β).Invariant Held where
  init c hc := by
    obtain ⟨hblocks, htable⟩ := hc
    refine ⟨htable ▸ .newHashTable, ?_, ?_⟩ <;> simp [hblocks, htable]
  step := by
    rintro c op c' - h ⟨result, hstep⟩
    obtain ⟨c'', hstep', hheld, -⟩ := h.step (Cells.admits_of_step hstep)
    rw [hstep] at hstep'
    obtain ⟨-, rfl⟩ := Prod.mk.inj (Option.some.inj hstep')
    exact hheld

/-! ### Runs -/

def noCells : Cells ℕ := ⟨.ofRest fun _ => none, newHashTable⟩

/-- A table with one cell, for the name 3. -/
def oneCell : Cells ℕ := (noCells.insert 3 16 7).getD noCells

theorem oneCell_reachable : (cellSystem ℕ).Reachable oneCell := by
  have hstep : noCells.step (.insert 3 16 7) = some (none, oneCell) := rfl
  exact .step (.init ⟨rfl, rfl⟩) ⟨none, hstep⟩

namespace Cells

variable {c : Cells β}

/-- Every operation that is meant has a result, which means that no cell is used or freed after it
was freed. It does to the contents what it does to a partial map, whatever others do. -/
theorem exists_cellStep (hc : (cellSystem β).Reachable c) {op : CellOp β} (hop : op.Admits c) :
    ∃ c', c.step op = some ((op.apply c.values).1, c') ∧ c'.values = (op.apply c.values).2 := by
  obtain ⟨c', hstep, -, hvalues⟩ := (held_invariant.holds hc).step hop
  exact ⟨c', hstep, hvalues⟩

theorem exists_cellStep_oneCell : ∃ c', oneCell.step (.take 3) =
      some (((CellOp.take 3).apply oneCell.values).1, c') ∧
    c'.values = ((CellOp.take 3).apply oneCell.values).2 :=
  exists_cellStep oneCell_reachable trivial

/-- At the end of a table, all the cells that it still has are freed, each of them once, and these
are all there are. -/
theorem exists_deleteHashTable (hc : (cellSystem β).Reachable c) :
    ∃ heap, c.deleteHashTable = some heap ∧ heap.blocks = ∅ ∧ heap.rest = c.heap.rest := by
  have h := held_invariant.holds hc
  have hentry : ∀ entry ∈ c.table.entries, hashLookup c.table entry.1 = some entry.2 :=
    fun ⟨key, p⟩ hentry => h.placed.mem_entries_iff.mp hentry
  have hnodup : (c.table.entries.map Sigma.snd).Nodup := by
    refine List.Nodup.map_on ?_ (List.Nodup.of_map _ h.placed.nodup_keys)
    rintro ⟨key, p⟩ hp ⟨key', p'⟩ hp' heq
    obtain rfl : p = p' := heq
    rw [h.apart key key' p (hentry _ hp) (hentry _ hp')]
  have hblocks : c.heap.blocks = (c.table.entries.map Sigma.snd).toFinset := by
    ext p
    rw [h.blocks, List.mem_toFinset, List.mem_map]
    constructor
    · rintro ⟨key, hkey⟩
      exact ⟨⟨key, p⟩, h.placed.mem_entries_iff.mpr hkey, rfl⟩
    · rintro ⟨entry, hmem, rfl⟩
      exact ⟨entry.1, hentry entry hmem⟩
  obtain ⟨heap, hfree, hblocks', -, hrest⟩ := OwnedHeap.freeAll_spec hnodup fun p hp => by
    rwa [hblocks, List.mem_toFinset]
  refine ⟨heap, hfree, ?_, hrest⟩
  rw [hblocks', hblocks, Finset.sdiff_self]

theorem exists_deleteHashTable_oneCell : ∃ heap, oneCell.deleteHashTable = some heap ∧
    heap.blocks = ∅ ∧ heap.rest = oneCell.heap.rest :=
  exists_deleteHashTable oneCell_reachable

end Cells

end GpuProxy.Names
