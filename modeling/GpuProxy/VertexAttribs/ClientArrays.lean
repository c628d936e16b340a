import GpuProxy.VertexAttribs.Arrays

/-!
# Which arrays are listed

The draw calls send the arrays of the enabled list, so it should hold exactly the enabled
arrays in the memory of the client. Enabling and disabling an array look at the buffer that
is bound, not at the one the array was specified with; specifying an enabled array lists it
whatever is bound. Here are the calls that keep the list right, and that along them it
stays right.

## Main definitions

* `ListsClient` — the indices listed are those of the enabled arrays in client memory
* `KeepsListed` — the calls that keep it so
* `Tracks` — the invariant

## Main results

* `Tracks.step`, `Tracks.keepsListed` — one call keeps it right if and only if it is such
* `listsClientArrays_iff_keepsListed` — the runs of such calls
* `exists_unlisted_array` — an array that is specified and enabled, and not sent
-/

namespace GpuProxy.VertexAttribs

open Math

/-- Of the arrays that were specified, those with the indices are the ones that are enabled
and were specified without a buffer. -/
def ListsClient (g : Arrays) (indices : List ℕ) : Prop :=
  ∀ i binding args, g.pointer i = some (binding, args) →
    (i ∈ indices ↔ g.enabled i = true ∧ binding = 0)

/-- The list of enabled attributes is finite, in allocated memory, and holds the enabled
arrays in client memory. -/
def ListsClientArrays (c : Tracked) : Prop :=
  ∃ ls, Listed c.state.vertexAttribs ls ∧ (∀ x ∈ ls, x.block ∉ c.state.vertexAttribs.freed) ∧
    ListsClient c.arrays (indices c.state.vertexAttribs.heap ls)

/-! ### The calls that keep the list right -/

/-- An attribute that is added drops no specified array, and is not in the list. -/
structure Joins (g : Arrays) (heap : Loc → VertexAttrib) (a : Loc) (ls : List Loc) : Prop where
  front : InsertsInFront heap a ls →
    ∀ j ∈ indices heap ls, j ≠ (heap a).index → g.pointer j = none
  apart : ¬InsertsInFront heap a ls → a ∉ ls

/-- The condition on enabling or disabling an attribute the client knows: with a buffer bound
the array was specified with a buffer too, since the list is left alone. Without one, the
array enabled was specified without one and can be added, and the array disabled is not
listed beyond the attribute that is removed. -/
def KeepsSetListed (c : Tracked) (a : Loc) (index : ℕ) (enable : Bool) (ls : List Loc) : Prop :=
  let heap := c.state.vertexAttribs.heap
  if c.state.arrayBufferBinding ≠ 0 then
    ∀ binding args, c.arrays.pointer index = some (binding, args) → binding ≠ 0
  else if enable then
    (∀ binding args, c.arrays.pointer index = some (binding, args) → binding = 0) ∧
      Joins c.arrays heap a ls
  else c.arrays.pointer index ≠ none → index ∉ indices heap (ls.erase a)

/-- Enabling or disabling. A new attribute must not free those listed. -/
def KeepsSetArrayListed (driverMax : ℤ) (c : Tracked) (index : ℕ) (enable : Bool)
    (ls : List Loc) : Prop :=
  Accepted driverMax c.state index →
    match findIndex c.state.vertexAttribs index with
    | none => GrowthSafe c.state.vertexAttribs ls
    | some a => (c.state.vertexAttribs.heap a).arrayEnabled ≠ enable →
      KeepsSetListed c a index enable ls

/-- Specifying an array with other arguments than before. An enabled one is listed
afterwards, so there must be no buffer; one that is not enabled stays as it is in the list. -/
def KeepsPointerListed (driverMax : ℤ) (c : Tracked) (index : ℕ) (args : PointerArgs)
    (ls : List Loc) : Prop :=
  args.Valid → Accepted driverMax c.state index →
    match findIndex c.state.vertexAttribs index with
    | none => GrowthSafe c.state.vertexAttribs ls
    | some a =>
      let heap := c.state.vertexAttribs.heap
      let attrib := args.store c.state.arrayBufferBinding (heap a)
      attrib ≠ heap a →
        if (heap a).arrayEnabled then
          c.state.arrayBufferBinding = 0 ∧
            Joins c.arrays (Function.update heap a attrib) a (ls.erase a)
        else index ∉ indices heap ls

/-- The calls that keep the list right, given its nodes. -/
def KeepsListed (driverMax : ℤ) (c : Tracked) (op : Op) : Prop :=
  ∀ ls, Listed c.state.vertexAttribs ls →
    match op with
    | .bindBuffer _ _ => True
    | .enableVertexAttribArray index => KeepsSetArrayListed driverMax c index true ls
    | .disableVertexAttribArray index => KeepsSetArrayListed driverMax c index false ls
    | .vertexAttribPointer index args => KeepsPointerListed driverMax c index args ls

variable {driverMax : ℤ} {c d : Tracked} {op : Op} {g : Arrays} {list list' : AttribList}
  {ls : List Loc} {a : Loc} {index fuel binding : ℕ} {args : PointerArgs} {enable : Bool}
  {known listed : List ℕ}

/-! ### Which indices are listed, and what the calls say -/

/-- Changing the flag of one array, and listing it or not, as is right for it. -/
theorem ListsClient.setEnabled (h : ListsClient g known)
    (hself : ∀ binding args, g.pointer index = some (binding, args) →
      (index ∈ listed ↔ enable = true ∧ binding = 0))
    (hother : ∀ j, j ≠ index → g.pointer j ≠ none → (j ∈ listed ↔ j ∈ known)) :
    ListsClient { g with enabled := Function.update g.enabled index enable } listed := by
  intro i binding args hpointer
  by_cases heq : i = index
  · subst heq
    simpa using hself binding args hpointer
  · have hspecified : g.pointer i ≠ none := fun hnone => by simp [hnone] at hpointer
    simp only [Function.update_of_ne heq, hother i heq hspecified]
    exact h i binding args hpointer

/-- Specifying one array, and listing it or not, as is right for it. -/
theorem ListsClient.setPointer (h : ListsClient g known)
    (hself : index ∈ listed ↔ g.enabled index = true ∧ binding = 0)
    (hother : ∀ j, j ≠ index → g.pointer j ≠ none → (j ∈ listed ↔ j ∈ known)) :
    ListsClient { g with pointer := Function.update g.pointer index (some (binding, args)) }
      listed := by
  intro i binding' args' hpointer
  by_cases heq : i = index
  · subst heq
    simp only [Function.update_self, Option.some.injEq, Prod.mk.injEq] at hpointer
    rw [← hpointer.1]
    exact hself
  · simp only [Function.update_of_ne heq] at hpointer
    have hspecified : g.pointer i ≠ none := fun hnone => by simp [hnone] at hpointer
    rw [hother i heq hspecified]
    exact h i binding' args' hpointer

/-! ### The nodes and the helpers -/

theorem mem_indices_erase {heap : Loc → VertexAttrib} {j : ℕ} (hj : j ≠ (heap a).index) :
    j ∈ indices heap (ls.erase a) ↔ j ∈ indices heap ls := by
  simp only [indices, List.mem_map]
  constructor
  · rintro ⟨x, hx, hindex⟩
    exact ⟨x, List.mem_of_mem_erase hx, hindex⟩
  · rintro ⟨x, hx, rfl⟩
    have hne : x ≠ a := by
      rintro rfl
      exact hj rfl
    exact ⟨x, (List.mem_erase_of_ne hne).mpr hx, rfl⟩

theorem insertsInFront_of_sameButLinks {heap heap' : Loc → VertexAttrib}
    (h : SameButLinks heap heap') : InsertsInFront heap' a ls ↔ InsertsInFront heap a ls := by
  refine insertsInFront_congr fun x => ?_
  obtain ⟨_, _, hx⟩ := h x
  rw [hx]
  exact ⟨rfl, rfl⟩

theorem Joins.of_sameButLinks {heap heap' : Loc → VertexAttrib} (h : Joins g heap a ls)
    (hsame : SameButLinks heap heap') : Joins g heap' a ls := by
  constructor
  · intro hfront
    rw [hsame.indices_eq, hsame.index]
    exact h.front ((insertsInFront_of_sameButLinks hsame).mp hfront)
  · intro hfront
    exact h.apart fun hin => hfront ((insertsInFront_of_sameButLinks hsame).mpr hin)

/-- Marking an attribute does not move it. -/
theorem Joins.mark {heap : Loc → VertexAttrib} (enable : Bool) (h : Joins g heap a ls) :
    Joins g (Function.update heap a { heap a with arrayEnabled := enable }) a ls := by
  have hposition : ∀ x, (Function.update heap a { heap a with arrayEnabled := enable } x).pointer =
      (heap x).pointer ∧ (Function.update heap a { heap a with arrayEnabled := enable } x).stride =
        (heap x).stride := by
    intro x
    rcases eq_or_ne x a with rfl | hne <;> simp [*]
  have hlinks : SameLinks heap (Function.update heap a { heap a with arrayEnabled := enable }) :=
    SameLinks.update rfl rfl
  constructor
  · intro hfront
    rw [hlinks.indices_eq, hlinks.index]
    exact h.front ((insertsInFront_congr hposition).mp hfront)
  · intro hfront
    exact h.apart fun hin => hfront ((insertsInFront_congr hposition).mpr hin)

/-- An attribute that is added is listed afterwards, and the other specified arrays are as
they were. -/
theorem Linked.add_indices (h : Linked list ls) (hnew : Placed list a)
    (hjoins : Joins g list.heap a ls) (hrun : addToEnabledAttribList list a fuel = some list') :
    ∃ ls', Linked list' ls' ∧ (list.heap a).index ∈ indices list'.heap ls' ∧
      (∀ j ∈ indices list'.heap ls', j = (list.heap a).index ∨ j ∈ indices list.heap ls) ∧
      ∀ j, j ≠ (list.heap a).index → g.pointer j ≠ none →
        (j ∈ indices list'.heap ls' ↔ j ∈ indices list.heap ls) := by
  obtain ⟨ls', hlinked, hcases⟩ := h.add hnew hjoins.apart hrun
  have hsame := (relinked_add hrun).heap
  refine ⟨ls', hlinked, ?_⟩
  rw [hsame.indices_eq]
  rcases hcases with ⟨hempty | hfront, rfl⟩ | ⟨-, hperm⟩
  · subst hempty
    simp +contextual [indices]
  -- The list is dropped, and with it nothing that was specified.
  · refine ⟨by simp [indices], by simp [indices], fun j hj hspecified => ?_⟩
    refine iff_of_false (by simpa [indices] using hj) fun hmem => ?_
    exact hspecified (hjoins.front hfront j hmem hj)
  · have hmem : ∀ j, j ∈ indices list.heap ls' ↔
        j = (list.heap a).index ∨ j ∈ indices list.heap ls := by
      intro j
      rw [indices, (hperm.map _).mem_iff, List.map_cons, List.mem_cons]
      rfl
    refine ⟨(hmem _).mpr (.inl rfl), fun j hj => (hmem j).mp hj, fun j hj _ => ?_⟩
    rw [hmem, or_iff_right hj]

/-- If the list is finite after an attribute was added, the attribute is in it, and it could
be added unless a specified array was dropped. -/
theorem Linked.joins_of_listed {ls' : List Loc} (h : Linked list ls)
    (hself : attribsMemoryOverlap (list.heap a) (list.heap a) = true)
    (hrun : addToEnabledAttribList list a fuel = some list') (hlisted : Listed list' ls')
    (hkept : ∀ j ∈ indices list.heap ls, j ≠ (list.heap a).index → g.pointer j ≠ none →
      j ∈ indices list'.heap ls') :
    Joins g list.heap a ls ∧ (list.heap a).index ∈ indices list'.heap ls' := by
  have hsame := (relinked_add hrun).heap
  rw [hsame.indices_eq] at hkept ⊢
  obtain ⟨_, _, rfl, -, hcases⟩ := addToEnabledAttribList_spec h.listed hrun
  rcases hcases with ⟨hempty, hlisted'⟩ | ⟨hfront, hsplit, hcyclic⟩
  · obtain rfl : ls' = [a] := hlisted.eq_of_none hlisted'
    refine ⟨⟨fun _ j hj hne => ?_, fun hfront => ?_⟩, by simp [indices]⟩
    · by_contra hspecified
      have hmem := hkept j hj hne hspecified
      rw [indices, List.map_singleton, List.mem_singleton] at hmem
      exact hne hmem
    · rw [hempty.resolve_right hfront]
      exact List.not_mem_nil
  -- An attribute that is added a second time makes the list cyclic.
  · have hnot : a ∉ ls := fun hmem => hcyclic hmem hself ls' hlisted
    obtain ⟨xs, x, ys, rfl, hlisted'⟩ := hsplit hnot
    obtain rfl := hlisted.eq_of_none hlisted'
    refine ⟨⟨fun hin => absurd hin hfront, fun _ => hnot⟩, ?_⟩
    exact List.mem_map_of_mem (by simp)

/-! ### The invariant -/

/-- The nodes of the list are `ls`. The attributes listed are in the table, which agrees with
the calls and has accepted indices only; and the right ones are listed. -/
structure Tracks (driverMax : ℤ) (c : Tracked) (ls : List Loc) : Prop where
  linked : Linked c.state.vertexAttribs ls
  binding : c.state.vertexArrayBinding = 0
  known : ∀ i ∈ indices c.state.vertexAttribs.heap ls, arrayAt c.state.vertexAttribs i ≠ none
  accepted : ∀ i, arrayAt c.state.vertexAttribs i ≠ none → Accepted driverMax c.state i
  represents : Represents c.state.vertexAttribs c.arrays
  lists : ListsClient c.arrays (indices c.state.vertexAttribs.heap ls)

/-- The attribute `a` was specified and removed from the list, whose other nodes stay. -/
structure Unlisted (c : Tracked) (ls : List Loc) (a : Loc) (index : ℕ) (args : PointerArgs)
    (removed : AttribList) : Prop where
  linked : Linked removed (ls.erase a)
  placed : Placed removed a
  index_eq : (removed.heap a).index = index
  indices_eq : indices removed.heap (ls.erase a) =
    indices c.state.vertexAttribs.heap (ls.erase a)
  erase_iff : ∀ j, j ≠ index → (j ∈ indices c.state.vertexAttribs.heap (ls.erase a) ↔
    j ∈ indices c.state.vertexAttribs.heap ls)
  heap : SameButLinks (Function.update c.state.vertexAttribs.heap a
    (args.store c.state.arrayBufferBinding (c.state.vertexAttribs.heap a))) removed.heap
  table : arrayAt removed = Function.update (arrayAt c.state.vertexAttribs) index
    (some ⟨c.arrays.enabled index, c.state.arrayBufferBinding, args⟩)

namespace Tracks

theorem listsClientArrays (h : Tracks driverMax c ls) : ListsClientArrays c :=
  ⟨ls, h.linked.listed, fun x hx => (h.linked.placed x hx).live, h.lists⟩

/-- A call that changes neither the attributes nor what is said of the arrays. -/
theorem of_unchanged (h : Tracks driverMax c ls)
    (hcontext : SameContext driverMax c.state d.state)
    (hlist : d.state.vertexAttribs = c.state.vertexAttribs) (harrays : d.arrays = c.arrays) :
    Tracks driverMax d ls := by
  constructor
  · rw [hlist]
    exact h.linked
  · exact hcontext.vertexArrayBinding.trans h.binding
  · rw [hlist]
    exact h.known
  · intro i hi
    rw [hlist] at hi
    exact (hcontext.accepted_iff i).mpr (h.accepted i hi)
  · rw [hlist, harrays]
    exact h.represents
  · rw [hlist, harrays]
    exact h.lists

/-- A call that changes the state of one array, whose index is accepted. -/
theorem of_accepted {ls' : List Loc} {e : ArrayState} (h : Tracks driverMax c ls)
    (hok : Accepted driverMax c.state index) (hcontext : SameContext driverMax c.state d.state)
    (htable : arrayAt d.state.vertexAttribs =
      Function.update (arrayAt c.state.vertexAttribs) index (some e))
    (hlinked : Linked d.state.vertexAttribs ls')
    (hknown : ∀ i ∈ indices d.state.vertexAttribs.heap ls', i = index ∨
      i ∈ indices c.state.vertexAttribs.heap ls)
    (hrepresents : Represents d.state.vertexAttribs d.arrays)
    (hlists : ListsClient d.arrays (indices d.state.vertexAttribs.heap ls')) :
    Tracks driverMax d ls' := by
  refine ⟨hlinked, hcontext.vertexArrayBinding.trans h.binding, ?_, ?_, hrepresents, hlists⟩
  · intro i hi
    rw [htable]
    by_cases heq : i = index
    · simp [heq]
    · rw [Function.update_of_ne heq]
      exact h.known i ((hknown i hi).resolve_left heq)
  · intro i hi
    refine (hcontext.accepted_iff i).mpr ?_
    by_cases heq : i = index
    · rw [heq]
      exact hok
    · rw [htable, Function.update_of_ne heq] at hi
      exact h.accepted i hi

/-- The attribute the client has for an index. -/
theorem placed (h : Tracks driverMax c ls)
    (hfind : findIndex c.state.vertexAttribs index = some a) :
    Placed c.state.vertexAttribs a ∧ (c.state.vertexAttribs.heap a).index = index ∧
      Accepted driverMax c.state index := by
  obtain ⟨hblock, hidx, hindex⟩ := findIndex_spec hfind
  refine ⟨h.linked.toAllocated.placed hblock hidx, hindex, h.accepted index ?_⟩
  rw [arrayAt_of_findIndex hfind]
  simp

/-- A new attribute is not listed, and no node has its index. -/
theorem notMem_of_findIndex_eq_none (h : Tracks driverMax c ls)
    (hfind : findIndex c.state.vertexAttribs index = none) :
    index ∉ indices c.state.vertexAttribs.heap ls :=
  fun hmem => h.known index hmem (arrayAt_eq_none_iff.mpr hfind)

theorem indices_appendAttrib {attrib : VertexAttrib} (h : Tracks driverMax c ls) :
    indices (appendAttrib c.state.vertexAttribs attrib).heap ls =
      indices c.state.vertexAttribs.heap ls :=
  List.map_congr_left fun x hx =>
    congrArg VertexAttrib.index (heap_appendAttrib (h.linked.placed x hx))

/-- The flag of one array changes, and the array is listed or not, as is right for it. -/
theorem of_setEnabled {ls' : List Loc} (h : Tracks driverMax c ls) (e : ArrayState)
    (hok : Accepted driverMax c.state index) (hcontext : SameContext driverMax c.state d.state)
    (harrays : d.arrays =
      { c.arrays with enabled := Function.update c.arrays.enabled index enable })
    (hlist : d.state.vertexAttribs = list)
    (he : arrayAt c.state.vertexAttribs index = some e ∨
      arrayAt c.state.vertexAttribs index = none ∧ e.args.size = 0 ∧ e.args.stride = 0)
    (htable : arrayAt list = Function.update (arrayAt c.state.vertexAttribs) index
      (some { e with enabled := enable }))
    (hlinked : Linked list ls')
    (hself : ∀ binding args, c.arrays.pointer index = some (binding, args) →
      (index ∈ indices list.heap ls' ↔ enable = true ∧ binding = 0))
    (hknown : ∀ i ∈ indices list.heap ls', i = index ∨
      i ∈ indices c.state.vertexAttribs.heap ls)
    (hother : ∀ j, j ≠ index → c.arrays.pointer j ≠ none →
      (j ∈ indices list.heap ls' ↔ j ∈ indices c.state.vertexAttribs.heap ls)) :
    Tracks driverMax d ls' := by
  subst hlist
  refine h.of_accepted hok hcontext htable hlinked hknown ?_ ?_
  · rw [harrays]
    exact h.represents.setEnabled he htable
  · rw [harrays]
    exact h.lists.setEnabled hself hother

/-- The flag changes, and the list stays: the array was specified with a buffer. -/
theorem setArray_marked (h : Tracks driverMax c ls)
    (hfind : findIndex c.state.vertexAttribs index = some a)
    (hok : Accepted driverMax c.state index) (hcontext : SameContext driverMax c.state d.state)
    (harrays : d.arrays =
      { c.arrays with enabled := Function.update c.arrays.enabled index enable })
    (hlist : d.state.vertexAttribs = setArrayEnabled c.state.vertexAttribs a enable)
    (hbuffer : ∀ binding args, c.arrays.pointer index = some (binding, args) → binding ≠ 0) :
    Tracks driverMax d ls := by
  have hlinks := sameLinks_setArrayEnabled c.state.vertexAttribs a enable
  refine h.of_setEnabled _ hok hcontext harrays hlist (.inl (arrayAt_of_findIndex hfind))
    (arrayAt_setArrayEnabled enable hfind) (h.linked.of_sameLinks hlinks) ?_ ?_ ?_
  · intro binding args hpointer
    have hne := hbuffer binding args hpointer
    rw [hlinks.indices_eq]
    exact iff_of_false (fun hmem => hne ((h.lists index binding args hpointer).mp hmem).2)
      fun hclient => hne hclient.2
  · rw [hlinks.indices_eq]
    exact fun i hi => .inr hi
  · rw [hlinks.indices_eq]
    exact fun _ _ _ => .rfl

/-- The array is enabled, and added to the list: it was specified without a buffer. -/
theorem setArray_added (h : Tracks driverMax c ls)
    (hfind : findIndex c.state.vertexAttribs index = some a)
    (hok : Accepted driverMax c.state index) (hcontext : SameContext driverMax c.state d.state)
    (harrays : d.arrays =
      { c.arrays with enabled := Function.update c.arrays.enabled index true })
    (hadd : addToEnabledAttribList (setArrayEnabled c.state.vertexAttribs a true) a fuel =
      some d.state.vertexAttribs)
    (hunbound : ∀ binding args, c.arrays.pointer index = some (binding, args) → binding = 0)
    (hjoins : Joins c.arrays c.state.vertexAttribs.heap a ls) :
    ∃ ls', Tracks driverMax d ls' := by
  obtain ⟨hplaced, hindex, -⟩ := h.placed hfind
  have hlinks := sameLinks_setArrayEnabled c.state.vertexAttribs a true
  have hmarked := h.linked.of_sameLinks hlinks
  have hsame := (relinked_add hadd).sameTable
  obtain ⟨ls', hlinked, hself, hknown, hother⟩ := hmarked.add_indices
    ⟨hplaced.live, hplaced.block_lt, hplaced.idx_lt⟩ (hjoins.mark true) hadd
  rw [(hlinks.index a).trans hindex] at hself hknown hother
  rw [hlinks.indices_eq] at hknown hother
  refine ⟨ls', h.of_setEnabled _ hok hcontext harrays rfl (.inl (arrayAt_of_findIndex hfind))
    (hsame.arrayAt_eq.trans (arrayAt_setArrayEnabled true hfind)) hlinked ?_ hknown hother⟩
  exact fun binding args hpointer => iff_of_true hself ⟨rfl, hunbound binding args hpointer⟩

/-- The array is disabled, and not listed beyond the attribute that is removed. -/
theorem setArray_removed (h : Tracks driverMax c ls)
    (hfind : findIndex c.state.vertexAttribs index = some a)
    (hok : Accepted driverMax c.state index) (hcontext : SameContext driverMax c.state d.state)
    (harrays : d.arrays =
      { c.arrays with enabled := Function.update c.arrays.enabled index false })
    (hremove : removeFromEnabledAttribList (setArrayEnabled c.state.vertexAttribs a false) a fuel =
      some d.state.vertexAttribs)
    (honce : c.arrays.pointer index ≠ none →
      index ∉ indices c.state.vertexAttribs.heap (ls.erase a)) :
    Tracks driverMax d (ls.erase a) := by
  obtain ⟨-, hindex, -⟩ := h.placed hfind
  have hlinks := sameLinks_setArrayEnabled c.state.vertexAttribs a false
  have hmarked := h.linked.of_sameLinks hlinks
  have hsame := (relinked_remove hremove).sameTable
  have hindices : indices d.state.vertexAttribs.heap (ls.erase a) =
      indices c.state.vertexAttribs.heap (ls.erase a) :=
    hsame.heap.indices_eq.trans hlinks.indices_eq
  have herase : ∀ j, j ≠ index → (j ∈ indices c.state.vertexAttribs.heap (ls.erase a) ↔
      j ∈ indices c.state.vertexAttribs.heap ls) :=
    fun j hj => mem_indices_erase (by rwa [hindex])
  refine h.of_setEnabled _ hok hcontext harrays rfl (.inl (arrayAt_of_findIndex hfind))
    (hsame.arrayAt_eq.trans (arrayAt_setArrayEnabled false hfind)) (hmarked.remove hremove) ?_ ?_ ?_
  · intro binding args hpointer
    rw [hindices]
    exact iff_of_false (honce (by simp [hpointer])) (by simp)
  · rw [hindices]
    intro i hi
    by_cases heq : i = index
    · exact .inl heq
    · exact .inr ((herase i heq).mp hi)
  · rw [hindices]
    exact fun j hj _ => herase j hj

/-- The attribute is a new one, which does not free those listed. -/
theorem setArray_appended (h : Tracks driverMax c ls)
    (hfind : findIndex c.state.vertexAttribs index = none)
    (hok : Accepted driverMax c.state index) (hcontext : SameContext driverMax c.state d.state)
    (harrays : d.arrays =
      { c.arrays with enabled := Function.update c.arrays.enabled index enable })
    (hlist : d.state.vertexAttribs = appendAttrib c.state.vertexAttribs
      (freshAttrib index c.state.arrayBufferBinding enable))
    (hgrowth : GrowthSafe c.state.vertexAttribs ls) : Tracks driverMax d ls := by
  have hnone := arrayAt_eq_none_iff.mpr hfind
  refine h.of_setEnabled (freshAttrib index c.state.arrayBufferBinding enable).arrayState hok
    hcontext harrays hlist (.inr ⟨hnone, rfl, rfl⟩) (arrayAt_appendAttrib _ hfind)
    (h.linked.appendAttrib hgrowth) ?_ ?_ ?_
  · intro binding args hpointer
    rw [h.represents.specified index binding args hpointer] at hnone
    cases hnone
  · rw [h.indices_appendAttrib]
    exact fun i hi => .inr hi
  · rw [h.indices_appendAttrib]
    exact fun _ _ _ => .rfl

/-- Enabling or disabling an array, with what is then said of it. -/
theorem setArray (h : Tracks driverMax c ls)
    (hkeeps : KeepsSetArrayListed driverMax c index enable ls)
    (hset : SetArray driverMax c.state fuel index enable d.state.vertexAttribs)
    (hcontext : SameContext driverMax c.state d.state)
    (harrays : d.arrays = if Accepted driverMax c.state index then
      { c.arrays with enabled := Function.update c.arrays.enabled index enable }
      else c.arrays) : ∃ ls', Tracks driverMax d ls' := by
  generalize hlist : d.state.vertexAttribs = list at hset
  cases hset with
  | unchanged a hfind hflag =>
    refine ⟨ls, h.of_unchanged hcontext hlist ?_⟩
    have henabled : enable = c.arrays.enabled index :=
      hflag.symm.trans (h.represents.enabled_eq (arrayAt_of_findIndex hfind))
    rw [harrays, if_pos (h.placed hfind).2.2, henabled, Function.update_eq_self]
  | rejected _ hrejected =>
    exact ⟨ls, h.of_unchanged hcontext hlist (by rw [harrays, if_neg hrejected])⟩
  -- The client has no attribute for an index that is not accepted.
  | overflow a hfind hrejected => exact absurd (h.placed hfind).2.2 hrejected
  | marked a hfind hflag hok hbound =>
    simp only [KeepsSetArrayListed, hfind] at hkeeps
    have hbuffer := hkeeps hok hflag
    rw [KeepsSetListed, if_pos hbound] at hbuffer
    rw [if_pos hok] at harrays
    exact ⟨ls, h.setArray_marked hfind hok hcontext harrays hlist hbuffer⟩
  | relisted a list hfind hflag hok hbound hhelper =>
    simp only [KeepsSetArrayListed, hfind] at hkeeps
    have hkeeps := hkeeps hok hflag
    rw [KeepsSetListed, if_neg (not_not.mpr hbound)] at hkeeps
    rw [if_pos hok] at harrays
    subst hlist
    cases enable with
    | true =>
      obtain ⟨hunbound, hjoins⟩ := hkeeps
      exact h.setArray_added hfind hok hcontext harrays hhelper hunbound hjoins
    | false => exact ⟨_, h.setArray_removed hfind hok hcontext harrays hhelper hkeeps⟩
  | appended hfind hok =>
    simp only [KeepsSetArrayListed, hfind] at hkeeps
    rw [if_pos hok] at harrays
    exact ⟨ls, h.setArray_appended hfind hok hcontext harrays hlist (hkeeps hok)⟩

theorem arrayAt_store (h : Tracks driverMax c ls) (args : PointerArgs) (binding : ℕ)
    (hfind : findIndex c.state.vertexAttribs index = some a) :
    arrayAt { c.state.vertexAttribs with
      heap := Function.update c.state.vertexAttribs.heap a
        (args.store binding (c.state.vertexAttribs.heap a)) } =
      Function.update (arrayAt c.state.vertexAttribs) index
        (some ⟨c.arrays.enabled index, binding, args⟩) := by
  rw [← h.represents.enabled_eq (arrayAt_of_findIndex hfind)]
  exact arrayAt_update (args.store binding (c.state.vertexAttribs.heap a)) hfind
    (findIndex_spec hfind).2.2

/-- An array specified with the arguments it has was specified with them before. -/
theorem pointer_of_store_eq (h : Tracks driverMax c ls) (hvalid : args.Valid)
    (hfind : findIndex c.state.vertexAttribs index = some a)
    (hequal : args.store binding (c.state.vertexAttribs.heap a) = c.state.vertexAttribs.heap a) :
    c.arrays.pointer index = some (binding, args) := by
  have hstate : (c.state.vertexAttribs.heap a).arrayState =
      ⟨(c.state.vertexAttribs.heap a).arrayEnabled, binding, args⟩ := by
    rw [← hequal]
    rfl
  have hat := arrayAt_of_findIndex hfind
  rw [hstate] at hat
  cases hpointer : c.arrays.pointer index with
  | none =>
    -- The size would be 0.
    have hsize := (h.represents.unspecified index _ hpointer hat).2
    have hpositive := hvalid.2
    simp only at hsize
    omega
  | some p =>
    rw [h.represents.specified index p.1 p.2 hpointer, Option.some.injEq,
      ArrayState.mk.injEq] at hat
    rw [← hat.2.1, ← hat.2.2]

/-- One array is specified, and listed or not, as is right for it. -/
theorem of_setPointer {ls' : List Loc} (h : Tracks driverMax c ls) (hvalid : args.Valid)
    (hok : Accepted driverMax c.state index) (hcontext : SameContext driverMax c.state d.state)
    (harrays : d.arrays = { c.arrays with
      pointer := Function.update c.arrays.pointer index (some (c.state.arrayBufferBinding, args)) })
    (hlist : d.state.vertexAttribs = list)
    (htable : arrayAt list = Function.update (arrayAt c.state.vertexAttribs) index
      (some ⟨c.arrays.enabled index, c.state.arrayBufferBinding, args⟩))
    (hlinked : Linked list ls')
    (hself : index ∈ indices list.heap ls' ↔
      c.arrays.enabled index = true ∧ c.state.arrayBufferBinding = 0)
    (hknown : ∀ i ∈ indices list.heap ls', i = index ∨
      i ∈ indices c.state.vertexAttribs.heap ls)
    (hother : ∀ j, j ≠ index → c.arrays.pointer j ≠ none →
      (j ∈ indices list.heap ls' ↔ j ∈ indices c.state.vertexAttribs.heap ls)) :
    Tracks driverMax d ls' := by
  subst hlist
  refine h.of_accepted hok hcontext htable hlinked hknown ?_ ?_
  · rw [harrays]
    exact h.represents.setPointer hvalid htable
  · rw [harrays]
    exact h.lists.setPointer hself hother

/-- An array that is not enabled is specified, and is not listed. -/
theorem setPointer_stored (h : Tracks driverMax c ls) (hvalid : args.Valid)
    (hok : Accepted driverMax c.state index) (hcontext : SameContext driverMax c.state d.state)
    (harrays : d.arrays = { c.arrays with
      pointer := Function.update c.arrays.pointer index (some (c.state.arrayBufferBinding, args)) })
    (hfind : findIndex c.state.vertexAttribs index = some a)
    (hdisabled : c.arrays.enabled index = false)
    (hlist : d.state.vertexAttribs = { c.state.vertexAttribs with
      heap := Function.update c.state.vertexAttribs.heap a
        (args.store c.state.arrayBufferBinding (c.state.vertexAttribs.heap a)) })
    (hnot : index ∉ indices c.state.vertexAttribs.heap ls) : Tracks driverMax d ls := by
  have hlinks := sameLinks_store c.state.vertexAttribs.heap a args c.state.arrayBufferBinding
  refine h.of_setPointer hvalid hok hcontext harrays hlist (h.arrayAt_store args _ hfind)
    (h.linked.of_sameLinks hlinks) ?_ ?_ ?_
  · rw [hlinks.indices_eq, hdisabled]
    exact iff_of_false hnot (by simp)
  · rw [hlinks.indices_eq]
    exact fun i hi => .inr hi
  · rw [hlinks.indices_eq]
    exact fun _ _ _ => .rfl

theorem unlisted (h : Tracks driverMax c ls)
    (hfind : findIndex c.state.vertexAttribs index = some a)
    (hremove : removeFromEnabledAttribList { c.state.vertexAttribs with
      heap := Function.update c.state.vertexAttribs.heap a
        (args.store c.state.arrayBufferBinding (c.state.vertexAttribs.heap a)) } a fuel =
      some list) : Unlisted c ls a index args list := by
  obtain ⟨hplaced, hindex, -⟩ := h.placed hfind
  have hlinks := sameLinks_store c.state.vertexAttribs.heap a args c.state.arrayBufferBinding
  have hstored := h.linked.of_sameLinks hlinks
  have hsame := (relinked_remove hremove).sameTable
  constructor
  case linked => exact hstored.remove hremove
  case placed =>
    obtain ⟨_, _, rfl, -⟩ := removeFromEnabledAttribList_spec hstored.listed hremove
    exact ⟨hplaced.live, hplaced.block_lt, hplaced.idx_lt⟩
  case index_eq => exact (hsame.heap.index a).trans ((hlinks.index a).trans hindex)
  case indices_eq => exact hsame.heap.indices_eq.trans hlinks.indices_eq
  case erase_iff => exact fun j hj => mem_indices_erase (by rwa [hindex])
  case heap => exact hsame.heap
  case table => exact hsame.arrayAt_eq.trans (h.arrayAt_store args _ hfind)

/-- An enabled array is specified, without a buffer, and listed anew. -/
theorem setPointer_relisted (h : Tracks driverMax c ls) (hvalid : args.Valid)
    (hok : Accepted driverMax c.state index) (hcontext : SameContext driverMax c.state d.state)
    (harrays : d.arrays = { c.arrays with
      pointer := Function.update c.arrays.pointer index (some (c.state.arrayBufferBinding, args)) })
    (henabled : c.arrays.enabled index = true) (hremoved : Unlisted c ls a index args list)
    (hadd : addToEnabledAttribList list a fuel = some d.state.vertexAttribs)
    (hunbound : c.state.arrayBufferBinding = 0)
    (hjoins : Joins c.arrays list.heap a (ls.erase a)) : ∃ ls', Tracks driverMax d ls' := by
  obtain ⟨ls', hlinked, hself, hknown, hother⟩ :=
    hremoved.linked.add_indices hremoved.placed hjoins hadd
  rw [hremoved.index_eq] at hself hknown hother
  rw [hremoved.indices_eq] at hknown hother
  have htable := (relinked_add hadd).sameTable.arrayAt_eq.trans hremoved.table
  refine ⟨ls', h.of_setPointer hvalid hok hcontext harrays rfl htable hlinked
    (iff_of_true hself ⟨henabled, hunbound⟩) ?_ ?_⟩
  · intro i hi
    by_cases heq : i = index
    · exact .inl heq
    · exact .inr ((hremoved.erase_iff i heq).mp ((hknown i hi).resolve_left heq))
  · exact fun j hj hspecified => (hother j hj hspecified).trans (hremoved.erase_iff j hj)

/-- A new attribute is specified, which does not free those listed. -/
theorem setPointer_appended (h : Tracks driverMax c ls) (hvalid : args.Valid)
    (hok : Accepted driverMax c.state index) (hcontext : SameContext driverMax c.state d.state)
    (harrays : d.arrays = { c.arrays with
      pointer := Function.update c.arrays.pointer index (some (c.state.arrayBufferBinding, args)) })
    (hfind : findIndex c.state.vertexAttribs index = none)
    (hlist : d.state.vertexAttribs = appendAttrib c.state.vertexAttribs
      (args.store c.state.arrayBufferBinding
        (freshAttrib index c.state.arrayBufferBinding false)))
    (hgrowth : GrowthSafe c.state.vertexAttribs ls) : Tracks driverMax d ls := by
  have hdisabled := h.represents.unknown index (arrayAt_eq_none_iff.mpr hfind)
  refine h.of_setPointer hvalid hok hcontext harrays hlist ?_ (h.linked.appendAttrib hgrowth)
    ?_ ?_ ?_
  · rw [hdisabled]
    exact arrayAt_appendAttrib (args.store c.state.arrayBufferBinding
      (freshAttrib index c.state.arrayBufferBinding false)) hfind
  · rw [h.indices_appendAttrib]
    exact iff_of_false (h.notMem_of_findIndex_eq_none hfind) (by simp [hdisabled])
  · rw [h.indices_appendAttrib]
    exact fun i hi => .inr hi
  · rw [h.indices_appendAttrib]
    exact fun _ _ _ => .rfl

/-- Specifying an array, with what is then said of it. -/
theorem setPointer (h : Tracks driverMax c ls)
    (hkeeps : KeepsPointerListed driverMax c index args ls)
    (hset : SetPointer driverMax c.state fuel index args d.state.vertexAttribs)
    (hcontext : SameContext driverMax c.state d.state)
    (harrays : d.arrays = if args.Valid ∧ Accepted driverMax c.state index then
      { c.arrays with
        pointer :=
          Function.update c.arrays.pointer index (some (c.state.arrayBufferBinding, args)) }
      else c.arrays) : ∃ ls', Tracks driverMax d ls' := by
  generalize hlist : d.state.vertexAttribs = list at hset
  cases hset with
  | rejected hrejected =>
    exact ⟨ls, h.of_unchanged hcontext hlist (by rw [harrays, if_neg hrejected])⟩
  | unchanged a hvalid hok hfind hequal =>
    refine ⟨ls, h.of_unchanged hcontext hlist ?_⟩
    rw [harrays, if_pos ⟨hvalid, hok⟩, ← h.pointer_of_store_eq hvalid hfind hequal,
      Function.update_eq_self]
  | stored a hvalid hok hfind hchanged hdisabled =>
    simp only [KeepsPointerListed, hfind, hdisabled] at hkeeps
    have hnot : index ∉ indices c.state.vertexAttribs.heap ls := by
      simpa using hkeeps hvalid hok hchanged
    have hflag := h.represents.enabled_eq (arrayAt_of_findIndex hfind)
    rw [if_pos ⟨hvalid, hok⟩] at harrays
    exact ⟨ls, h.setPointer_stored hvalid hok hcontext harrays hfind (hflag.symm.trans hdisabled)
      hlist hnot⟩
  | relisted a removed list hvalid hok hfind hchanged henabled hremove hadd =>
    simp only [KeepsPointerListed, hfind, henabled, if_true] at hkeeps
    obtain ⟨hunbound, hjoins⟩ := hkeeps hvalid hok hchanged
    have hflag := h.represents.enabled_eq (arrayAt_of_findIndex hfind)
    have hremoved := h.unlisted hfind hremove
    rw [if_pos ⟨hvalid, hok⟩] at harrays
    subst hlist
    exact h.setPointer_relisted hvalid hok hcontext harrays (hflag.symm.trans henabled) hremoved
      hadd hunbound (hjoins.of_sameButLinks hremoved.heap)
  | appended hvalid hok hfind =>
    simp only [KeepsPointerListed, hfind] at hkeeps
    rw [if_pos ⟨hvalid, hok⟩] at harrays
    exact ⟨ls, h.setPointer_appended hvalid hok hcontext harrays hfind hlist (hkeeps hvalid hok)⟩

/-- One call of those that keep the list right. -/
theorem step (h : Tracks driverMax c ls) (hkeeps : KeepsListed driverMax c op)
    (hstep : (trackedSystem driverMax).Step c op d) : ∃ ls', Tracks driverMax d ls' := by
  have hkeeps := hkeeps ls h.linked.listed
  obtain ⟨⟨fuel, hrun⟩, harrays⟩ := hstep
  cases op with
  | bindBuffer target buffer =>
    obtain ⟨hlist, hbinding, haccepted⟩ := bindBuffer_spec driverMax c.state target buffer
    have hd : d.state = bindBuffer c.state target buffer := (Option.some.inj hrun).symm
    rw [← hd] at hlist hbinding haccepted
    refine ⟨ls, ?_, hbinding.trans h.binding, ?_, fun i hi => (haccepted i).mpr ?_, ?_, ?_⟩
    · rw [hlist]
      exact h.linked
    · rw [hlist]
      exact h.known
    · rw [hlist] at hi
      exact h.accepted i hi
    · rw [hlist, harrays]
      exact h.represents
    · rw [hlist, harrays]
      exact h.lists
  | enableVertexAttribArray index =>
    obtain ⟨hset, hcontext⟩ := setArray_of_run h.binding hrun
    exact h.setArray hkeeps hset hcontext harrays
  | disableVertexAttribArray index =>
    obtain ⟨hset, hcontext⟩ := setArray_of_run h.binding hrun
    exact h.setArray hkeeps hset hcontext harrays
  | vertexAttribPointer index args =>
    obtain ⟨hset, hcontext⟩ := setPointer_of_run h.binding hrun
    exact h.setPointer hkeeps hset hcontext harrays

/-! ### Other calls -/

/-- A specified array that is listed before a call is listed after it, if the list is right
after it and nothing new is said of the array. -/
theorem mem_of_lists {j : ℕ} (h : Tracks driverMax c ls) (hlists : ListsClient d.arrays listed)
    (henabled : d.arrays.enabled j = c.arrays.enabled j)
    (hpointer : d.arrays.pointer j = c.arrays.pointer j) (hspecified : c.arrays.pointer j ≠ none)
    (hj : j ∈ indices c.state.vertexAttribs.heap ls) : j ∈ listed := by
  obtain ⟨⟨binding, args⟩, hp⟩ := Option.ne_none_iff_exists'.mp hspecified
  rw [hlists j binding args (hpointer.trans hp), henabled]
  exact (h.lists j binding args hp).mp hj

/-- If the nodes are in allocated memory with a new attribute, its block was not theirs. -/
theorem growthSafe_of_live {attrib : VertexAttrib} {ls' : List Loc} (h : Tracks driverMax c ls)
    (hlisted : Listed (appendAttrib c.state.vertexAttribs attrib) ls')
    (hlive : ∀ x ∈ ls', x.block ∉ (appendAttrib c.state.vertexAttribs attrib).freed) :
    GrowthSafe c.state.vertexAttribs ls := by
  have hsame : Listed (appendAttrib c.state.vertexAttribs attrib) ls := by
    have hpath : Math.Path (nextOf (appendAttrib c.state.vertexAttribs attrib).heap)
        c.state.vertexAttribs.enabledAttribs ls none :=
      h.linked.listed.congr fun x hx =>
        congrArg VertexAttrib.nextEnabled (heap_appendAttrib (h.linked.placed x hx))
    have hhead : (appendAttrib c.state.vertexAttribs attrib).enabledAttribs =
        c.state.vertexAttribs.enabledAttribs := by
      unfold appendAttrib
      split <;> rfl
    rw [Listed, hhead]
    exact hpath
  obtain rfl : ls' = ls := hlisted.eq_of_none hsame
  by_cases hshort : c.state.vertexAttribs.count < numEmbedded
  · exact .inl hshort
  · by_cases hembedded : c.state.vertexAttribs.attribs = 0
    · exact .inr (.inl hembedded)
    · refine .inr (.inr fun x hx heq => hlive x hx ?_)
      simp [appendAttrib, hshort, hembedded, heq]

/-- A list that stays is right for one value of the flag only, unless there is a buffer. -/
theorem keepsSetListed_of_marked {ls' : List Loc} (h : Tracks driverMax c ls)
    (hfind : findIndex c.state.vertexAttribs index = some a)
    (hflag : (c.state.vertexAttribs.heap a).arrayEnabled ≠ enable)
    (hbound : c.state.arrayBufferBinding ≠ 0)
    (hlisted : Listed (setArrayEnabled c.state.vertexAttribs a enable) ls')
    (hself : ∀ binding args, c.arrays.pointer index = some (binding, args) →
      (index ∈ indices (setArrayEnabled c.state.vertexAttribs a enable).heap ls' ↔
        enable = true ∧ binding = 0)) : KeepsSetListed c a index enable ls := by
  rw [KeepsSetListed, if_pos hbound]
  -- An array without a buffer is listed for one value of the flag only.
  rintro binding args hpointer rfl
  have hlinks := sameLinks_setArrayEnabled c.state.vertexAttribs a enable
  obtain rfl : ls' = ls := hlisted.eq_of_none (h.linked.of_sameLinks hlinks).listed
  have hafter := hself 0 args hpointer
  rw [hlinks.indices_eq, h.lists index 0 args hpointer,
    ← h.represents.enabled_eq (arrayAt_of_findIndex hfind)] at hafter
  refine hflag ?_
  change (c.state.vertexAttribs.heap a).arrayEnabled = true ∧ _ ↔ _ at hafter
  cases enable <;> simpa using hafter

/-- An array that is listed when it is enabled has no buffer, and could be added. -/
theorem keepsSetListed_of_added {ls' : List Loc} (h : Tracks driverMax c ls)
    (hfind : findIndex c.state.vertexAttribs index = some a)
    (hunbound : c.state.arrayBufferBinding = 0)
    (hadd : addToEnabledAttribList (setArrayEnabled c.state.vertexAttribs a true) a fuel =
      some list) (hlisted : Listed list ls')
    (hmem : ∀ j, j ≠ index → c.arrays.pointer j ≠ none →
      j ∈ indices c.state.vertexAttribs.heap ls → j ∈ indices list.heap ls')
    (hself : ∀ binding args, c.arrays.pointer index = some (binding, args) →
      (index ∈ indices list.heap ls' ↔ true = true ∧ binding = 0)) :
    KeepsSetListed c a index true ls := by
  obtain ⟨-, hindex, -⟩ := h.placed hfind
  have hlinks := sameLinks_setArrayEnabled c.state.vertexAttribs a true
  have hmarked := h.linked.of_sameLinks hlinks
  have hmarkedIndex := (hlinks.index a).trans hindex
  have hoverlap : attribsMemoryOverlap ((setArrayEnabled c.state.vertexAttribs a true).heap a)
      ((setArrayEnabled c.state.vertexAttribs a true).heap a) = true := by
    rw [← h.represents.overlaps_self hfind]
    exact attribsMemoryOverlap_congr (by simp [setArrayEnabled]) (by simp [setArrayEnabled])
  have hkept : ∀ j ∈ indices (setArrayEnabled c.state.vertexAttribs a true).heap ls,
      j ≠ ((setArrayEnabled c.state.vertexAttribs a true).heap a).index →
        c.arrays.pointer j ≠ none → j ∈ indices list.heap ls' := by
    rw [hmarkedIndex, hlinks.indices_eq]
    exact fun j hj hne hspecified => hmem j hne hspecified hj
  obtain ⟨hjoins, hin⟩ := hmarked.joins_of_listed hoverlap hadd hlisted hkept
  rw [hmarkedIndex] at hin
  rw [KeepsSetListed, if_neg (not_not.mpr hunbound)]
  refine ⟨fun binding args hpointer => ((hself binding args hpointer).mp hin).2, ?_⟩
  have hback := hjoins.mark (c.state.vertexAttribs.heap a).arrayEnabled
  simpa [setArrayEnabled] using hback

/-- An array that is not listed when it is disabled is not listed beyond the attribute. -/
theorem keepsSetListed_of_removed {ls' : List Loc} (h : Tracks driverMax c ls)
    (hunbound : c.state.arrayBufferBinding = 0)
    (hremove : removeFromEnabledAttribList (setArrayEnabled c.state.vertexAttribs a false) a fuel =
      some list) (hlisted : Listed list ls')
    (hself : ∀ binding args, c.arrays.pointer index = some (binding, args) →
      (index ∈ indices list.heap ls' ↔ false = true ∧ binding = 0)) :
    KeepsSetListed c a index false ls := by
  have hlinks := sameLinks_setArrayEnabled c.state.vertexAttribs a false
  have hmarked := h.linked.of_sameLinks hlinks
  have hsame := (relinked_remove hremove).sameTable
  obtain rfl : ls' = ls.erase a := hlisted.eq_of_none (hmarked.remove hremove).listed
  rw [KeepsSetListed, if_neg (not_not.mpr hunbound)]
  intro hspecified hin
  obtain ⟨⟨binding, args⟩, hpointer⟩ := Option.ne_none_iff_exists'.mp hspecified
  have hafter := (hself binding args hpointer).mp
    (by rw [hsame.heap.indices_eq, hlinks.indices_eq]; exact hin)
  cases hafter.1

/-- Enabling or disabling leaves the list right only under the condition. -/
theorem keepsSetArray (h : Tracks driverMax c ls)
    (hset : SetArray driverMax c.state fuel index enable d.state.vertexAttribs)
    (harrays : d.arrays = if Accepted driverMax c.state index then
      { c.arrays with enabled := Function.update c.arrays.enabled index enable }
      else c.arrays) (hlists : ListsClientArrays d) :
    KeepsSetArrayListed driverMax c index enable ls := by
  intro hok
  obtain ⟨ls', hlisted, hlive, hright⟩ := hlists
  rw [if_pos hok] at harrays
  have hmem : ∀ j, j ≠ index → c.arrays.pointer j ≠ none →
      j ∈ indices c.state.vertexAttribs.heap ls → j ∈ indices d.state.vertexAttribs.heap ls' :=
    fun j hj hspecified hmem =>
      h.mem_of_lists hright (by simp [harrays, hj]) (by rw [harrays]) hspecified hmem
  have hself : ∀ binding args, c.arrays.pointer index = some (binding, args) →
      (index ∈ indices d.state.vertexAttribs.heap ls' ↔ enable = true ∧ binding = 0) := by
    intro binding args hpointer
    have hindex := hright index binding args (by rw [harrays]; exact hpointer)
    simpa [harrays] using hindex
  generalize hlist : d.state.vertexAttribs = list at hset hlisted hlive hmem hself
  cases hset with
  | unchanged a hfind hflag =>
    simp only [hfind]
    exact fun hne => absurd hflag hne
  | rejected _ hrejected => exact absurd hok hrejected
  | overflow a _ hrejected => exact absurd hok hrejected
  | marked a hfind hflag _ hbound =>
    simp only [hfind]
    exact fun _ => h.keepsSetListed_of_marked hfind hflag hbound hlisted hself
  | relisted a list hfind hflag _ hbound hhelper =>
    simp only [hfind]
    intro _
    cases enable with
    | true => exact h.keepsSetListed_of_added hfind hbound hhelper hlisted hmem hself
    | false => exact h.keepsSetListed_of_removed hbound hhelper hlisted hself
  | appended hfind _ =>
    simp only [hfind]
    exact h.growthSafe_of_live hlisted hlive

/-- Specifying an array leaves the list right only under the condition. -/
theorem keepsPointer (h : Tracks driverMax c ls)
    (hset : SetPointer driverMax c.state fuel index args d.state.vertexAttribs)
    (harrays : d.arrays = if args.Valid ∧ Accepted driverMax c.state index then
      { c.arrays with
        pointer :=
          Function.update c.arrays.pointer index (some (c.state.arrayBufferBinding, args)) }
      else c.arrays) (hlists : ListsClientArrays d) :
    KeepsPointerListed driverMax c index args ls := by
  intro hvalid hok
  obtain ⟨ls', hlisted, hlive, hright⟩ := hlists
  rw [if_pos ⟨hvalid, hok⟩] at harrays
  have hmem : ∀ j, j ≠ index → c.arrays.pointer j ≠ none →
      j ∈ indices c.state.vertexAttribs.heap ls → j ∈ indices d.state.vertexAttribs.heap ls' :=
    fun j hj hspecified hmem =>
      h.mem_of_lists hright (by rw [harrays]) (by simp [harrays, hj]) hspecified hmem
  have hself : index ∈ indices d.state.vertexAttribs.heap ls' ↔
      c.arrays.enabled index = true ∧ c.state.arrayBufferBinding = 0 := by
    have hindex := hright index c.state.arrayBufferBinding args (by simp [harrays])
    rw [hindex, harrays]
  generalize hlist : d.state.vertexAttribs = list at hset hlisted hlive hmem hself
  cases hset with
  | rejected hrejected => exact absurd ⟨hvalid, hok⟩ hrejected
  | unchanged a _ _ hfind hequal =>
    simp only [hfind]
    exact fun hne => absurd hequal hne
  | stored a _ _ hfind hchanged hdisabled =>
    simp only [hfind, hdisabled, Bool.false_eq_true, if_false]
    intro _ hin
    have hlinks := sameLinks_store c.state.vertexAttribs.heap a args c.state.arrayBufferBinding
    obtain rfl : ls' = ls := hlisted.eq_of_none (h.linked.of_sameLinks hlinks).listed
    rw [hlinks.indices_eq] at hself
    have henabled := (hself.mp hin).1
    rw [← h.represents.enabled_eq (arrayAt_of_findIndex hfind)] at henabled
    rw [VertexAttrib.arrayState, hdisabled] at henabled
    cases henabled
  | relisted a removed list _ _ hfind hchanged henabled hremove hadd =>
    simp only [hfind, henabled, if_true]
    intro _
    have hremoved := h.unlisted hfind hremove
    have hoverlap : attribsMemoryOverlap (removed.heap a) (removed.heap a) = true := by
      have hstride := hvalid.2
      obtain ⟨_, _, ha⟩ := hremoved.heap a
      simp only [ha, attribsMemoryOverlap, Function.update_self, PointerArgs.store,
        Nat.lt_irrefl, if_false, decide_eq_true_eq]
      omega
    obtain ⟨hjoins, hin⟩ := hremoved.linked.joins_of_listed (g := c.arrays) hoverlap hadd hlisted
      (by
        rw [hremoved.index_eq, hremoved.indices_eq]
        exact fun j hj hne hspecified =>
          hmem j hne hspecified ((hremoved.erase_iff j hne).mp hj))
    rw [hremoved.index_eq] at hin
    exact ⟨(hself.mp hin).2, hjoins.of_sameButLinks hremoved.heap.symm⟩
  | appended _ _ hfind =>
    simp only [hfind]
    exact h.growthSafe_of_live hlisted hlive

/-- A call that leaves the list right is one of those that keep it right. -/
theorem keepsListed (h : Tracks driverMax c ls) (hstep : (trackedSystem driverMax).Step c op d)
    (hlists : ListsClientArrays d) : KeepsListed driverMax c op := by
  intro ls' hlisted
  obtain rfl : ls' = ls := hlisted.eq_of_none h.linked.listed
  obtain ⟨⟨fuel, hrun⟩, harrays⟩ := hstep
  cases op with
  | bindBuffer target buffer => trivial
  | enableVertexAttribArray index =>
    exact h.keepsSetArray (setArray_of_run h.binding hrun).1 harrays hlists
  | disableVertexAttribArray index =>
    exact h.keepsSetArray (setArray_of_run h.binding hrun).1 harrays hlists
  | vertexAttribPointer index args =>
    exact h.keepsPointer (setPointer_of_run h.binding hrun).1 harrays hlists

end Tracks

theorem tracks_invariant : ((trackedSystem driverMax).guarded (KeepsListed driverMax)).Invariant
    fun c => ∃ ls, Tracks driverMax c ls where
  init := by
    rintro ⟨s, g⟩ ⟨⟨heap, rfl⟩, rfl⟩
    have hnone : ∀ i, arrayAt (initial heap).vertexAttribs i = none := by
      intro i
      simp [arrayAt, findIndex, initial]
    refine ⟨[], ⟨⟨?_, ?_, ?_⟩, rfl, ?_⟩, rfl, ?_, ?_, ⟨?_, ?_, ?_, ?_⟩, ?_⟩
    · simp [initial]
    · simp [initial]
    · simp [initial]
    · simp
    · simp [indices]
    · exact fun i hi => absurd (hnone i) hi
    · simp
    · intro i e _ he
      rw [hnone] at he
      cases he
    · exact fun _ _ => rfl
    · intro i e he
      rw [hnone] at he
      cases he
    · simp [ListsClient]
  step c op d _ h := by
    obtain ⟨ls, htracks⟩ := h
    rintro ⟨hkeeps, hstep⟩
    exact htracks.step hkeeps hstep

/-- Along the calls that keep it right, the list of enabled attributes holds exactly the
enabled arrays in client memory. Any other call makes it wrong. -/
theorem listsClientArrays_iff_keepsListed
    (hc : ((trackedSystem driverMax).guarded (KeepsListed driverMax)).Reachable c) :
    ListsClientArrays c ∧ ∀ op d, (trackedSystem driverMax).Step c op d →
      (ListsClientArrays d ↔ KeepsListed driverMax c op) := by
  obtain ⟨ls, htracks⟩ := tracks_invariant.holds hc
  refine ⟨htracks.listsClientArrays, fun op d hstep => ⟨htracks.keepsListed hstep, ?_⟩⟩
  intro hkeeps
  obtain ⟨ls', htracks'⟩ := htracks.step hkeeps hstep
  exact htracks'.listsClientArrays

/-- As long as nothing is listed, the embedded attributes suffice, and no buffer is or was
bound, every call keeps the list right. -/
theorem keepsListed_of_enabledAttribs_eq_none
    (hnone : c.state.vertexAttribs.enabledAttribs = none)
    (hcount : c.state.vertexAttribs.count < numEmbedded) (hbound : c.state.arrayBufferBinding = 0)
    (hpointer : ∀ i binding args, c.arrays.pointer i = some (binding, args) → binding = 0) :
    KeepsListed driverMax c op := by
  intro ls hlisted
  obtain rfl : ls = [] := hlisted.eq_of_none hnone
  have hjoins : ∀ heap a, Joins c.arrays heap a [] :=
    fun heap a => ⟨by simp [indices], fun _ => List.not_mem_nil⟩
  have hset : ∀ index enable, KeepsSetArrayListed driverMax c index enable [] := by
    intro index enable _
    split
    · exact .inl hcount
    · intro _
      rw [KeepsSetListed, if_neg (not_not.mpr hbound)]
      cases enable
      · simp [indices]
      · exact ⟨hpointer index, hjoins _ _⟩
  cases op with
  | bindBuffer target buffer => trivial
  | enableVertexAttribArray index => exact hset index true
  | disableVertexAttribArray index => exact hset index false
  | vertexAttribPointer index args =>
    intro _ _
    split
    · exact .inl hcount
    · intro heap attrib _
      split
      · exact ⟨hbound, hjoins _ _⟩
      · simp [indices]

/-- Without a buffer, no array is specified with one. -/
theorem binding_of_step (hstep : (trackedSystem driverMax).Step c op d)
    (hbound : c.state.arrayBufferBinding = 0)
    (hpointer : ∀ i binding args, c.arrays.pointer i = some (binding, args) → binding = 0) :
    ∀ i binding args, d.arrays.pointer i = some (binding, args) → binding = 0 := by
  intro i binding args h
  rw [hstep.2] at h
  cases op with
  | bindBuffer target buffer => exact hpointer i binding args h
  | enableVertexAttribArray index | disableVertexAttribArray index =>
    simp only [Arrays.record] at h
    split at h <;> exact hpointer i binding args h
  | vertexAttribPointer index args' =>
    simp only [Arrays.record] at h
    split at h
    · by_cases hi : i = index
      · simp only [hi, Function.update_self, Option.some.injEq, Prod.mk.injEq] at h
        exact h.1.symm.trans hbound
      · simp only [Function.update_of_ne hi] at h
        exact hpointer i binding args h
    · exact hpointer i binding args h

/-- A call of a run, with a bound on the steps of the loops. -/
def trackOp (driverMax : ℤ) (fuel : ℕ) (c : Tracked) (op : Op) : Option Tracked :=
  (runOp driverMax fuel c.state op).map fun s => ⟨s, c.arrays.record driverMax c.state op⟩

theorem step_of_trackOp (h : trackOp driverMax fuel c op = some d) :
    (trackedSystem driverMax).Step c op d := by
  obtain ⟨s, hrun, rfl⟩ := Option.map_eq_some_iff.mp h
  exact ⟨⟨fuel, hrun⟩, rfl⟩

def trackedInitial : Tracked where
  state := initial fun _ => freshAttrib 0 0 false
  arrays := ⟨fun _ => false, fun _ => none⟩

theorem init_trackedInitial (driverMax : ℤ) : (trackedSystem driverMax).Init trackedInitial :=
  ⟨⟨_, rfl⟩, rfl⟩

/-- Three floats for each vertex, in the memory of the client. -/
def clientFloats : PointerArgs := ⟨3, glFloat, false, 0, 0x1000⟩

/-- An array is specified, and enabled. It is listed. -/
theorem listsClientArrays_iff_keepsListed_enabled : ∃ b c,
    trackOp 16 1 trackedInitial (.vertexAttribPointer 0 clientFloats) = some b ∧
      trackOp 16 1 b (.enableVertexAttribArray 0) = some c ∧
      c.state.vertexAttribs.enabledAttribs = some ⟨0, 0⟩ ∧ ListsClientArrays c := by
  have hrun : ((trackOp 16 1 trackedInitial (.vertexAttribPointer 0 clientFloats)).bind fun b =>
      (trackOp 16 1 b (.enableVertexAttribArray 0)).map fun c => (b, c)).map
        (fun p => (p.1.state.vertexAttribs.enabledAttribs, p.1.state.vertexAttribs.count,
          p.1.state.arrayBufferBinding, p.2.state.vertexAttribs.enabledAttribs)) =
      some (none, 1, 0, some ⟨0, 0⟩) := by
    decide +kernel
  obtain ⟨⟨b, c⟩, hsteps, hobserved⟩ := Option.map_eq_some_iff.mp hrun
  obtain ⟨_, hb, hsteps⟩ := Option.bind_eq_some_iff.mp hsteps
  obtain ⟨_, hc, heq⟩ := Option.map_eq_some_iff.mp hsteps
  cases heq
  simp only [Prod.mk.injEq] at hobserved
  obtain ⟨hnone, hcount, hbound, hlisted⟩ := hobserved
  refine ⟨b, c, hb, hc, hlisted, ?_⟩
  have hfirst : KeepsListed 16 trackedInitial (.vertexAttribPointer 0 clientFloats) :=
    keepsListed_of_enabledAttribs_eq_none rfl (by decide) rfl (by simp [trackedInitial])
  have hpointer := binding_of_step (step_of_trackOp hb) rfl (by simp [trackedInitial])
  have hsecond : KeepsListed 16 b (.enableVertexAttribArray 0) :=
    keepsListed_of_enabledAttribs_eq_none hnone (by rw [hcount]; decide) hbound hpointer
  have hreachable : ((trackedSystem 16).guarded (KeepsListed 16)).Reachable b :=
    .step (.init (init_trackedInitial 16)) ⟨hfirst, step_of_trackOp hb⟩
  exact ((listsClientArrays_iff_keepsListed hreachable).2 _ c (step_of_trackOp hc)).mpr hsecond

/-- An array is specified, and enabled while a buffer is bound. It is not listed. -/
theorem exists_unlisted_array : ∃ c, (trackedSystem 16).Reachable c ∧ ¬ListsClientArrays c := by
  have hrun : ([Op.vertexAttribPointer 0 clientFloats, .bindBuffer glArrayBuffer 1,
      .enableVertexAttribArray 0].foldlM (trackOp 16 1) trackedInitial).map
        (fun c => (c.state.vertexAttribs.enabledAttribs, c.arrays.enabled 0,
          c.arrays.pointer 0)) = some (none, true, some (0, clientFloats)) := by
    decide +kernel
  obtain ⟨c, hc, hobserved⟩ := Option.map_eq_some_iff.mp hrun
  simp only [Prod.mk.injEq] at hobserved
  obtain ⟨hnone, henabled, hpointer⟩ := hobserved
  refine ⟨c, System.Reachable.foldlM (fun _ _ _ h => step_of_trackOp h)
    (.init (init_trackedInitial 16)) hc, ?_⟩
  rintro ⟨ls, hlisted, -, hlists⟩
  obtain rfl : ls = [] := hlisted.eq_of_none hnone
  have hin := (hlists 0 0 clientFloats hpointer).mpr ⟨henabled, rfl⟩
  simp [indices] at hin

end GpuProxy.VertexAttribs
