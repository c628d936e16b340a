import Mathlib.Data.Fin.Basic
import Mathlib.Data.List.AList

/-!
# The hash table

`HashTable` of `util/hash.c`: 1023 chains of entries, with the entries of a key in the chain
of its remainder. A chain is an association list whose keys are distinct. The key 0 is
never found and may not be inserted.

Seen through `hash_lookup`, a table is a partial map, and the operations are updates of
it.

## Main definitions

* `HashTable` — the chains
* `hashLookup`, `hashInsert`, `hashTake`, `hashModify`, `hashHasElement` — the operations

## Main results

* `hashLookup_hashInsert`, `hashLookup_hashTake`, `hashLookup_hashModify` — the operations as
  updates of a partial map
-/

namespace GpuProxy.Names

/-- `TABLE_SIZE`. -/
def tableSize : ℕ := 1023

/-- The chain of a table at one position, from its first entry on. -/
abbrev Chain (α : Type*) := AList fun _ : ℕ => α

/-- `HashTable`. -/
structure HashTable (α : Type*) where
  table : Fin tableSize → Chain α

variable {α : Type*} {table table' : HashTable α} {chain : Chain α} {key k : ℕ} {data : α}

/-- `new_hash_table`. -/
def newHashTable : HashTable α := ⟨fun _ => ∅⟩

/-- `HASH_FUNC`. -/
def hashFunc (key : ℕ) : Fin tableSize := ⟨key % tableSize, Nat.mod_lt key (by decide)⟩

/-- `hash_lookup`. -/
def hashLookup (table : HashTable α) (key : ℕ) : Option α :=
  if key = 0 then none else (table.table (hashFunc key)).lookup key

/-- The chain with an entry's data replaced, or with a new entry in front. -/
def Chain.put (chain : Chain α) (key : ℕ) (data : α) : Chain α :=
  if (chain.lookup key).isSome then chain.replace key data else chain.insert key data

/-- `hash_insert`. There is no result when its assertion fails. -/
def hashInsert (table : HashTable α) (key : ℕ) (data : α) : Option (HashTable α) :=
  if key = 0 then none
  else
    let pos := hashFunc key
    some ⟨Function.update table.table pos ((table.table pos).put key data)⟩

/-- `hash_remove_with_deletion`. -/
def hashRemoveWithDeletion (table : HashTable α) (key : ℕ) : HashTable α :=
  let pos := hashFunc key
  ⟨Function.update table.table pos ((table.table pos).erase key)⟩

/-- A write to the record that `hash_lookup` returns a pointer to. -/
def hashModify (table : HashTable α) (key : ℕ) (f : α → α) : HashTable α :=
  match hashLookup table key with
  | none => table
  | some data =>
    let pos := hashFunc key
    ⟨Function.update table.table pos ((table.table pos).replace key (f data))⟩

/-- `hash_has_element`. -/
def hashHasElement (table : HashTable α) (callback : α → Bool) : Bool :=
  (List.finRange tableSize).any fun pos =>
    (table.table pos).entries.any fun entry => callback entry.2

/-- `hash_take`. -/
def hashTake (table : HashTable α) (key : ℕ) : Option α × HashTable α :=
  (hashLookup table key, hashRemoveWithDeletion table key)

/-! ### One chain -/

theorem dlookup_kreplace {l : List (Sigma fun _ : ℕ => α)} :
    (l.kreplace key data).dlookup k =
      if k = key then (l.dlookup key).map fun _ => data else l.dlookup k := by
  induction l with
  | nil => simp [List.kreplace]
  | cons entry rest ih =>
    by_cases hkey : key = entry.1
    · have hreplace : List.kreplace key data (entry :: rest) = ⟨key, data⟩ :: rest :=
        List.lookmap_cons_some _ _ (if_pos hkey)
      rw [hreplace]
      by_cases hk : k = key
      · subst hk
        obtain ⟨_, _⟩ := entry
        subst hkey
        simp
      · have hne : k ≠ entry.1 := fun heq => hk (heq.trans hkey.symm)
        rw [List.dlookup_cons_ne _ (⟨key, data⟩ : Sigma fun _ : ℕ => α) hk, if_neg hk,
          List.dlookup_cons_ne _ entry hne]
    · have hreplace : List.kreplace key data (entry :: rest) = entry :: rest.kreplace key data :=
        List.lookmap_cons_none _ _ (if_neg hkey)
      rw [hreplace]
      by_cases hk : k = entry.1
      · have hne : k ≠ key := fun heq => hkey (heq.symm.trans hk)
        obtain ⟨_, _⟩ := entry
        subst hk
        simp [hne]
      · rw [List.dlookup_cons_ne _ entry hk, List.dlookup_cons_ne _ entry hk,
          List.dlookup_cons_ne _ entry hkey, ih]

theorem Chain.lookup_put :
    (chain.put key data).lookup k = if k = key then some data else chain.lookup k := by
  unfold Chain.put
  split
  next hfound =>
    obtain ⟨data', hdata⟩ := Option.isSome_iff_exists.mp hfound
    have hlookup : chain.entries.dlookup key = some data' := hdata
    change (chain.entries.kreplace key data).dlookup k = _
    rw [dlookup_kreplace, hlookup]
    rfl
  next =>
    by_cases hk : k = key
    · subst hk
      simp
    · rw [AList.lookup_insert_ne hk, if_neg hk]

theorem Chain.lookup_erase :
    (chain.erase key).lookup k = if k = key then none else chain.lookup k := by
  by_cases hk : k = key
  · subst hk
    simp
  · rw [AList.lookup_erase_ne hk, if_neg hk]

/-! ### The table as a partial map -/

@[simp] theorem hashLookup_newHashTable : hashLookup (newHashTable : HashTable α) k = none := by
  simp [hashLookup, newHashTable]

/-- An operation that updates the value of a key in its chain updates it in the table. -/
theorem hashLookup_update {value : Option α} {chain : Chain α} (hzero : key = 0 → value = none)
    (h : ∀ k, chain.lookup k =
      if k = key then value else (table.table (hashFunc key)).lookup k) :
    hashLookup ⟨Function.update table.table (hashFunc key) chain⟩ =
      Function.update (hashLookup table) key value := by
  funext k
  by_cases hk : k = key
  · subst hk
    by_cases hk0 : k = 0
    · simp [hashLookup, hk0, hzero hk0]
    · simp [hashLookup, hk0, h]
  · rw [Function.update_of_ne hk]
    unfold hashLookup
    by_cases hpos : hashFunc k = hashFunc key
    · simp only [hpos, Function.update_self, h, if_neg hk]
    · simp only [Function.update_of_ne hpos]

theorem hashLookup_hashInsert (h : hashInsert table key data = some table') :
    hashLookup table' = Function.update (hashLookup table) key (some data) := by
  unfold hashInsert at h
  split at h
  next => cases h
  next hkey =>
    cases h
    exact hashLookup_update (fun hzero => absurd hzero hkey) fun _ => Chain.lookup_put

theorem hashLookup_hashRemoveWithDeletion :
    hashLookup (hashRemoveWithDeletion table key) = Function.update (hashLookup table) key none :=
  hashLookup_update (fun _ => rfl) fun _ => Chain.lookup_erase

theorem hashLookup_hashTake :
    hashLookup (hashTake table key).2 = Function.update (hashLookup table) key none :=
  hashLookup_hashRemoveWithDeletion

@[simp] theorem hashLookup_zero : hashLookup table 0 = none := rfl

theorem hashLookup_hashModify {f : α → α} : hashLookup (hashModify table key f) =
    Function.update (hashLookup table) key ((hashLookup table key).map f) := by
  unfold hashModify
  split
  next hnone =>
    rw [hnone, Option.map_none, ← hnone, Function.update_eq_self]
  next data hdata =>
    rw [hdata, Option.map_some]
    have hkey : key ≠ 0 := by
      rintro rfl
      cases hdata
    refine hashLookup_update (fun hzero => absurd hzero hkey) fun k => ?_
    have hchain : (table.table (hashFunc key)).entries.dlookup key = some data := by
      rw [hashLookup, if_neg hkey] at hdata
      exact hdata
    change ((table.table (hashFunc key)).entries.kreplace key (f data)).dlookup k = _
    rw [dlookup_kreplace, hchain]
    rfl

@[simp] theorem hashHasElement_newHashTable {callback : α → Bool} :
    hashHasElement newHashTable callback = false := by
  rw [hashHasElement, List.any_eq_false]
  intro pos _
  change ¬ (([] : List (Sigma fun _ : ℕ => α)).any _ = true)
  rw [List.any_nil]
  exact Bool.false_ne_true

/-- A new entry is one more element. -/
theorem hashHasElement_hashInsert {callback : α → Bool} (hnone : hashLookup table key = none)
    (h : hashInsert table key data = some table') :
    hashHasElement table' callback = (callback data || hashHasElement table callback) := by
  unfold hashInsert at h
  split at h
  next => cases h
  next hkey =>
    cases h
    have hchain : (table.table (hashFunc key)).lookup key = none := by
      rwa [hashLookup, if_neg hkey] at hnone
    have hput : ((table.table (hashFunc key)).put key data).entries =
        ⟨key, data⟩ :: (table.table (hashFunc key)).entries := by
      have hmem : key ∉ table.table (hashFunc key) := AList.lookup_eq_none.mp hchain
      rw [Chain.put, hchain, if_neg (by simp), AList.insert_of_notMem hmem]
    rw [Bool.eq_iff_iff]
    simp only [hashHasElement, List.any_eq_true, List.mem_finRange, true_and, Bool.or_eq_true]
    constructor
    · rintro ⟨pos, entry, hentry, hcallback⟩
      by_cases hpos : pos = hashFunc key
      · subst hpos
        rw [Function.update_self, hput] at hentry
        rcases List.mem_cons.mp hentry with rfl | hentry
        · exact .inl hcallback
        · exact .inr ⟨_, entry, hentry, hcallback⟩
      · rw [Function.update_of_ne hpos] at hentry
        exact .inr ⟨pos, entry, hentry, hcallback⟩
    · rintro (hcallback | ⟨pos, entry, hentry, hcallback⟩)
      · refine ⟨hashFunc key, ⟨key, data⟩, ?_, hcallback⟩
        rw [Function.update_self, hput]
        exact List.mem_cons_self
      · refine ⟨pos, entry, ?_, hcallback⟩
        by_cases hpos : pos = hashFunc key
        · subst hpos
          rw [Function.update_self, hput]
          exact List.mem_cons_of_mem _ hentry
        · rwa [Function.update_of_ne hpos]

/-- What is looked up is an element. -/
theorem hashHasElement_of_hashLookup {callback : α → Bool} (h : hashLookup table key = some data)
    (hcallback : callback data = true) : hashHasElement table callback = true := by
  unfold hashLookup at h
  split_ifs at h
  simp only [hashHasElement, List.any_eq_true, List.mem_finRange, true_and]
  exact ⟨hashFunc key, ⟨key, data⟩, List.of_mem_dlookup h, hcallback⟩

/-- A loop that inserts a new record for each of some keys. -/
theorem hashLookup_foldlM_hashInsert {create : ℕ → α} {keys : List ℕ}
    (h : keys.foldlM (fun table key => hashInsert table key (create key)) table = some table') :
    hashLookup table' k = if k ∈ keys then some (create k) else hashLookup table k := by
  induction keys generalizing table with
  | nil =>
    cases h
    simp
  | cons key keys ih =>
    rw [List.foldlM_cons] at h
    obtain ⟨table₁, hinsert, hrest⟩ := Option.bind_eq_some_iff.mp h
    rw [ih hrest, hashLookup_hashInsert hinsert]
    by_cases hk : k = key
    · subst hk
      simp
    · simp [hk]

end GpuProxy.Names
