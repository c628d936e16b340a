import GpuProxy.VertexAttribs.Readback

/-!
# Current values

The entry points `glVertexAttrib1f` to `glVertexAttrib4f` set the value an attribute has where no
array is enabled. It is kept in the attribute of the table, if there is one. If there is none,
the next place of the table gets the value and no index: it is an attribute of whatever index
the memory has there. Past the embedded block the value is written behind the old block.

## Main definitions

* `CurrentState`, `AttribOp`, `AttribOp.run` — the current values and the entry points
* `CurrentHistory`, `currentSystem` — runs, with the values that were set
* `ReadsCurrent` — the query tells a value
* `SetsOnly` — a call changes one index and adds one attribute, of that index, at most
* `KeepsCurrent` — the calls that are made on attributes of the table

## Main results

* `readsCurrent_iff_set` — which values are read back
* `exists_lost_current` — a value that is set and not read back
-/

namespace GpuProxy.VertexAttribs

open Math Textures

/-- The state of the client, with the fields `current_attrib` of its attributes. -/
structure CurrentState (F : Type) where
  client : ClientState
  current : Loc → F × F × F × F

/-- The current values after the attributes were moved to another block, if they were. As the
rest of the attributes, they are copied with `memcpy`. -/
def moveCurrent {V : Type} (before after : AttribList) (current : Loc → V) : Loc → V :=
  if after.attribs = before.attribs then current
  else fun l =>
    if l.block = after.attribs ∧ l.idx ≤ before.count then current ⟨before.attribs, l.idx⟩
    else current l

/-- The loop of `caching_client_set_current_vertex_attrib`, which goes on to the last attribute
with the index. -/
def lastIndex (list : AttribList) (index : ℕ) : Option Loc :=
  ((List.range list.count).filter fun i =>
    (list.heap ⟨list.attribs, i⟩).index == index).getLast?.map fun i => ⟨list.attribs, i⟩

/-- The calls that set a current value. -/
inductive CurrentCall (F : Type)
  | glVertexAttrib1f (index : ℕ) (v0 : F)
  | glVertexAttrib2f (index : ℕ) (v0 v1 : F)
  | glVertexAttrib3f (index : ℕ) (v0 v1 v2 : F)
  | glVertexAttrib4f (index : ℕ) (v0 v1 v2 v3 : F)

/-- The calls of an application. -/
inductive AttribOp (F : Type)
  | array (op : Op)
  | current (call : CurrentCall F)

def CurrentCall.index {F : Type} : CurrentCall F → ℕ
  | .glVertexAttrib1f index _ | .glVertexAttrib2f index _ _ | .glVertexAttrib3f index _ _ _
  | .glVertexAttrib4f index _ _ _ _ => index

section EntryPoints

variable {F : Type} (format : FloatFormat F) (driverMax : ℤ) (s : CurrentState F)

/-- `caching_client_set_current_vertex_attrib`. -/
def setCurrentVertexAttrib (index : ℕ) (v : F × F × F × F) : CurrentState F :=
  let (client, overflow) := doesIndexOverflow driverMax s.client index
  if overflow then { s with client := client }
  else
    match lastIndex client.vertexAttribs index with
    | some a => ⟨client, Function.update s.current a v⟩
    | none =>
      let list := client.vertexAttribs
      -- Of the new attribute nothing but the current value is written, and that to the old block.
      let grown := appendAttrib list (list.heap ⟨list.attribs, list.count⟩)
      ⟨{ client with vertexAttribs := grown },
        Function.update (moveCurrent list grown s.current) ⟨list.attribs, list.count⟩ v⟩

/-- The value that a call hands on, completed with zeros. -/
def CurrentCall.value : CurrentCall F → F × F × F × F
  | .glVertexAttrib1f _ v0 => (v0, format.ofInt 0, format.ofInt 0, format.ofInt 0)
  | .glVertexAttrib2f _ v0 v1 => (v0, v1, format.ofInt 0, format.ofInt 0)
  | .glVertexAttrib3f _ v0 v1 v2 => (v0, v1, v2, format.ofInt 0)
  | .glVertexAttrib4f _ v0 v1 v2 v3 => (v0, v1, v2, v3)

/-- A call. -/
def AttribOp.run (fuel : ℕ) : AttribOp F → Option (CurrentState F)
  | .array op => (runOp driverMax fuel s.client op).map fun client =>
      ⟨client, moveCurrent s.client.vertexAttribs client.vertexAttribs s.current⟩
  | .current call => some (setCurrentVertexAttrib driverMax s call.index (call.value format))

/-- The initial value that `egl_state.h` documents. -/
def initialCurrent : F × F × F × F :=
  (format.ofInt 0, format.ofInt 0, format.ofInt 0, format.ofInt 1)

/-- The query tells that an attribute has a value. -/
def ReadsCurrent (index : ℕ) (v : F × F × F × F) : Prop :=
  (glGetVertexAttribfv format driverMax s.client s.current index glCurrentVertexAttrib).2 =
    .stored [v.1, v.2.1, v.2.2.1, v.2.2.2]

/-- A call on an index changes no other one, and adds at most one attribute, which has that
index. -/
structure SetsOnly (index : ℕ) (t : CurrentState F) : Prop where
  array : ∀ i, i ≠ index → arrayAt t.client.vertexAttribs i = arrayAt s.client.vertexAttribs i
  current : ∀ i v, i ≠ index →
    (ReadsCurrent format driverMax t i v ↔ ReadsCurrent format driverMax s i v)
  count : t.client.vertexAttribs.count = s.client.vertexAttribs.count ∨
    t.client.vertexAttribs.count = s.client.vertexAttribs.count + 1 ∧
      (t.client.vertexAttribs.heap
        ⟨t.client.vertexAttribs.attribs, s.client.vertexAttribs.count⟩).index = index

end EntryPoints

/-- The state of the client, with the values that were set. -/
structure CurrentHistory (F : Type) where
  state : CurrentState F
  values : ℕ → Option (F × F × F × F)

variable {F : Type} (format : FloatFormat F) (driverMax : ℤ)

/-- A value that is set is noted, if its index is accepted. -/
def CurrentHistory.note (h : CurrentHistory F) : AttribOp F → ℕ → Option (F × F × F × F)
  | .array _ => h.values
  | .current call =>
    if Accepted driverMax h.state.client call.index then
      Function.update h.values call.index (some (call.value format))
    else h.values

/-- All sequences of calls that return, from `egl_state_init` on, over memory of any content. -/
def currentSystem : System (CurrentHistory F) (AttribOp F) where
  Init h := (∃ heap, h.state.client = initial heap) ∧ h.values = fun _ => none
  Step h op h' := (∃ fuel, op.run format driverMax h.state fuel = some h'.state) ∧
    h'.values = h.note format driverMax op

/-- A value is set on an index that the table has, or on the one that the memory of the next
embedded place has; and no call frees an attribute that the enabled list leads to. -/
def KeepsCurrent (h : CurrentHistory F) : AttribOp F → Prop
  | .array op => ∀ index, touches driverMax h.state.client op = some index →
      findIndex h.state.client.vertexAttribs index = none →
        GrowthApart h.state.client.vertexAttribs
  | .current call => Accepted driverMax h.state.client call.index →
      findIndex h.state.client.vertexAttribs call.index = none →
        h.state.client.vertexAttribs.count < numEmbedded ∧
          (h.state.client.vertexAttribs.heap ⟨h.state.client.vertexAttribs.attribs,
            h.state.client.vertexAttribs.count⟩).index = call.index

variable {format : FloatFormat F} {driverMax : ℤ} {s t : CurrentState F} {list list' : AttribList}
  {current : Loc → F × F × F × F} {v : F × F × F × F} {index i fuel : ℕ} {a : Loc}
  {attrib : VertexAttrib} {op : Op} {client : ClientState} {h h' : CurrentHistory F}

/-! ### Places of the table -/

/-- The attributes of the table have different indices. -/
def Distinct (list : AttribList) : Prop :=
  ∀ i j, i < list.count → j < list.count →
    (list.heap ⟨list.attribs, i⟩).index = (list.heap ⟨list.attribs, j⟩).index → i = j

theorem findIndex_eq_none_iff : findIndex list index = none ↔
    ∀ i < list.count, (list.heap ⟨list.attribs, i⟩).index ≠ index := by
  simp [findIndex]

theorem lastIndex_eq_none_iff : lastIndex list index = none ↔
    ∀ i < list.count, (list.heap ⟨list.attribs, i⟩).index ≠ index := by
  simp [lastIndex]

theorem lastIndex_spec (h : lastIndex list index = some a) :
    a.block = list.attribs ∧ a.idx < list.count ∧ (list.heap a).index = index := by
  obtain ⟨i, hlast, rfl⟩ := Option.map_eq_some_iff.mp h
  have hmem := List.mem_of_getLast? hlast
  simpa using hmem

/-- If the indices are different, the last attribute with an index is the first one. -/
theorem Distinct.lastIndex_eq (h : Distinct list) :
    lastIndex list index = findIndex list index := by
  cases hfind : findIndex list index with
  | none => rwa [lastIndex_eq_none_iff, ← findIndex_eq_none_iff]
  | some a =>
    obtain ⟨hblock, hidx, hindex⟩ := findIndex_spec hfind
    cases hlast : lastIndex list index with
    | none => exact absurd hindex (by
        have := lastIndex_eq_none_iff.mp hlast a.idx hidx
        rwa [← hblock] at this)
    | some b =>
      obtain ⟨hblock', hidx', hindex'⟩ := lastIndex_spec hlast
      have heq : b.idx = a.idx := by
        refine h b.idx a.idx hidx' hidx ?_
        rw [← hblock, hindex, hblock, ← hblock', hindex']
      cases a
      cases b
      simp only at hblock hblock' heq
      rw [hblock, hblock', heq]

/-- Two lists with the same attributes in the same places, as far as the indices tell. -/
structure SameIndices (list list' : AttribList) : Prop where
  count : list'.count = list.count
  attribs : list'.attribs = list.attribs
  index : ∀ x, (list'.heap x).index = (list.heap x).index

theorem SameIndices.refl : SameIndices list list := ⟨rfl, rfl, fun _ => rfl⟩

theorem SameIndices.findIndex_eq (h : SameIndices list list') (index : ℕ) :
    findIndex list' index = findIndex list index :=
  findIndex_congr h.count h.attribs h.index

theorem SameIndices.distinct (h : SameIndices list list') (hdistinct : Distinct list) :
    Distinct list' := by
  intro i j hi hj hij
  rw [h.count] at hi hj
  rw [h.attribs, h.index, h.index] at hij
  exact hdistinct i j hi hj hij

theorem Distinct.appendAttrib (h : Distinct list) (hfind : findIndex list attrib.index = none) :
    Distinct (appendAttrib list attrib) := by
  have hnew : ∀ i < list.count, (list.heap ⟨list.attribs, i⟩).index ≠ attrib.index :=
    findIndex_eq_none_iff.mp hfind
  intro i j hi hj hij
  rw [count_appendAttrib] at hi hj
  rcases Nat.lt_succ_iff_lt_or_eq.mp hi with hi | rfl <;>
    rcases Nat.lt_succ_iff_lt_or_eq.mp hj with hj | rfl
  · rw [heap_appendAttrib_of_lt _ hi, heap_appendAttrib_of_lt _ hj] at hij
    exact h i j hi hj hij
  · rw [heap_appendAttrib_of_lt _ hi, heap_appendAttrib_count] at hij
    exact absurd hij (hnew i hi)
  · rw [heap_appendAttrib_of_lt _ hj, heap_appendAttrib_count] at hij
    exact absurd hij.symm (hnew j hj)
  · rfl

/-- An attribute of the table keeps its current value in the block it is moved to. -/
theorem moveCurrent_appendAttrib (attrib : VertexAttrib) (hi : i < list.count) :
    moveCurrent list (appendAttrib list attrib) current
      ⟨(appendAttrib list attrib).attribs, i⟩ = current ⟨list.attribs, i⟩ := by
  unfold moveCurrent
  split
  next hsame => rw [hsame]
  next => exact if_pos ⟨rfl, Nat.le_of_lt hi⟩

/-- What a call does to the places of the table. -/
inductive Extends (accepted : Prop) (list : AttribList) (index : ℕ) : AttribList → Prop
  | same (list' : AttribList) : SameIndices list list' → Extends accepted list index list'
  | appended (attrib : VertexAttrib) : accepted → findIndex list index = none →
      attrib.index = index → Extends accepted list index (appendAttrib list attrib)

theorem SetArray.extends {enable : Bool} {s : ClientState}
    (h : SetArray driverMax s fuel index enable list) :
    Extends (Accepted driverMax s index) s.vertexAttribs index list := by
  have hmarked : ∀ a, SameIndices s.vertexAttribs (setArrayEnabled s.vertexAttribs a enable) :=
    fun a => ⟨rfl, rfl, (sameLinks_setArrayEnabled _ a enable).index⟩
  cases h with
  | unchanged | rejected => exact .same _ .refl
  | overflow a | marked a => exact .same _ (hmarked a)
  | relisted a list hfind hflag hok hbound hhelper =>
    have hrelinked : Relinked (setArrayEnabled s.vertexAttribs a enable) a list := by
      split at hhelper
      · exact relinked_add hhelper
      · exact relinked_remove hhelper
    exact .same _ ⟨hrelinked.count, hrelinked.attribs,
      fun x => (hrelinked.heap.index x).trans ((hmarked a).index x)⟩
  | appended hfind hok => exact .appended _ hok hfind rfl

theorem SetPointer.extends {args : PointerArgs} {s : ClientState}
    (h : SetPointer driverMax s fuel index args list) :
    Extends (args.Valid ∧ Accepted driverMax s index) s.vertexAttribs index list := by
  have hstored : ∀ a x, (Function.update s.vertexAttribs.heap a
      (args.store s.arrayBufferBinding (s.vertexAttribs.heap a)) x).index =
        (s.vertexAttribs.heap x).index :=
    fun a => (sameLinks_store _ a args s.arrayBufferBinding).index
  cases h with
  | rejected | unchanged => exact .same _ .refl
  | stored a => exact .same _ ⟨rfl, rfl, hstored a⟩
  | relisted a removed list hvalid hok hfind hchanged hflag hremove hadd =>
    have hremoved := relinked_remove hremove
    have hadded := relinked_add hadd
    exact .same _ ⟨hadded.count.trans hremoved.count, hadded.attribs.trans hremoved.attribs,
      fun x => ((hadded.heap.index x).trans (hremoved.heap.index x)).trans (hstored a x)⟩
  | appended hvalid hok hfind => exact .appended _ ⟨hvalid, hok⟩ hfind rfl

/-! ### One call -/

/-- What setting a current value does to the table and the values. -/
inductive SetCurrent (driverMax : ℤ) (s : CurrentState F) (index : ℕ) (v : F × F × F × F) :
    AttribList → (Loc → F × F × F × F) → Prop
  | rejected : ¬Accepted driverMax s.client index →
      SetCurrent driverMax s index v s.client.vertexAttribs s.current
  | found (a : Loc) : Accepted driverMax s.client index →
      lastIndex s.client.vertexAttribs index = some a →
      SetCurrent driverMax s index v s.client.vertexAttribs (Function.update s.current a v)
  | appended (grown : AttribList) : Accepted driverMax s.client index →
      lastIndex s.client.vertexAttribs index = none →
      grown = appendAttrib s.client.vertexAttribs (s.client.vertexAttribs.heap
        ⟨s.client.vertexAttribs.attribs, s.client.vertexAttribs.count⟩) →
      SetCurrent driverMax s index v grown
        (Function.update (moveCurrent s.client.vertexAttribs grown s.current)
          ⟨s.client.vertexAttribs.attribs, s.client.vertexAttribs.count⟩ v)

theorem setCurrent_of_run (driverMax : ℤ) (s : CurrentState F) (index : ℕ)
    (v : F × F × F × F) :
    SetCurrent driverMax s index v
        (setCurrentVertexAttrib driverMax s index v).client.vertexAttribs
        (setCurrentVertexAttrib driverMax s index v).current ∧
      SameContext driverMax s.client (setCurrentVertexAttrib driverMax s index v).client := by
  rcases hcheck : doesIndexOverflow driverMax s.client index with ⟨client, overflow⟩
  obtain ⟨hlist, hcontext, ⟨rfl, hrejected⟩ | ⟨rfl, hok⟩⟩ := doesIndexOverflow_cases hcheck
  · simp only [setCurrentVertexAttrib, hcheck, if_true, hlist]
    exact ⟨.rejected hrejected, hcontext⟩
  · simp only [setCurrentVertexAttrib, hcheck, Bool.false_eq_true, if_false, hlist]
    cases hlast : lastIndex s.client.vertexAttribs index with
    | some a =>
      simp only [hlist]
      exact ⟨.found a hok hlast, hcontext⟩
    | none =>
      exact ⟨.appended _ hok hlast rfl, hcontext.trans (sameContext_vertexAttribs _)⟩

theorem array_of_run (hrun : (AttribOp.array op).run format driverMax s fuel = some t) :
    runOp driverMax fuel s.client op = some t.client ∧
      t.current = moveCurrent s.client.vertexAttribs t.client.vertexAttribs s.current := by
  obtain ⟨client, hclient, rfl⟩ := Option.map_eq_some_iff.mp hrun
  exact ⟨hclient, rfl⟩

theorem current_of_run {call : CurrentCall F}
    (hrun : (AttribOp.current call).run format driverMax s fuel = some t) :
    SetCurrent driverMax s call.index (call.value format) t.client.vertexAttribs t.current ∧
      SameContext driverMax s.client t.client := by
  obtain rfl : setCurrentVertexAttrib driverMax s call.index (call.value format) = t :=
    Option.some.inj hrun
  exact setCurrent_of_run driverMax s call.index (call.value format)

/-- The value that the query tells of an accepted index. -/
def toldCurrent (format : FloatFormat F) (s : CurrentState F) (index : ℕ) : F × F × F × F :=
  match findIndex s.client.vertexAttribs index with
  | some a => s.current a
  | none => missingCurrent format

theorem readsCurrent_iff (hunbound : s.client.vertexArrayBinding = 0) :
    ReadsCurrent format driverMax s index v ↔
      Accepted driverMax s.client index ∧ toldCurrent format s index = v := by
  have hvalid : isValidVertexAttribute glCurrentVertexAttrib = true := by decide
  have hitem : ∀ e : ArrayState, e.item glCurrentVertexAttrib = none := fun e => rfl
  rcases hcheck : doesIndexOverflow driverMax s.client index with ⟨client, overflow⟩
  obtain ⟨hsame, haccepted⟩ := doesIndexOverflow_spec hcheck
  simp only [ReadsCurrent, glGetVertexAttribfv, hvalid, hcheck, not_true_eq_false, if_false]
  rw [← haccepted]
  cases overflow with
  | true => simp
  | false =>
    simp only [hsame.vertexArrayBinding, hunbound, hsame.vertexAttribs, toldCurrent,
      Bool.false_eq_true, if_false, ne_eq, not_true_eq_false, true_and]
    cases findIndex s.client.vertexAttribs index <;>
      simp [ArrayState.values, hitem, Prod.ext_iff]

/-! ### Runs -/

/-- The values that were set are in the attributes of their indices, of which there is one for
each. -/
structure Kept (driverMax : ℤ) (h : CurrentHistory F) : Prop where
  unbound : h.state.client.vertexArrayBinding = 0
  walks : WalksAllocated h.state.client.vertexAttribs
  distinct : Distinct h.state.client.vertexAttribs
  values : ∀ i v, h.values i = some v →
    ∃ a, findIndex h.state.client.vertexAttribs i = some a ∧ h.state.current a = v

namespace Kept

/-- The attributes stay where they are, and so do the values. -/
theorem values_of_same (hk : Kept driverMax h)
    (hsame : SameIndices h.state.client.vertexAttribs list)
    (hv : h.values i = some v) : ∃ a, findIndex list i = some a ∧ h.state.current a = v := by
  rw [hsame.findIndex_eq]
  exact hk.values i v hv

/-- The attributes are copied with their values. -/
theorem values_of_appended (hk : Kept driverMax h) (attrib : VertexAttrib)
    (hv : h.values i = some v) :
    ∃ a, findIndex (appendAttrib h.state.client.vertexAttribs attrib) i = some a ∧
      a.idx < h.state.client.vertexAttribs.count ∧
      moveCurrent h.state.client.vertexAttribs (appendAttrib h.state.client.vertexAttribs attrib)
        h.state.current a = v := by
  obtain ⟨a, hfind, rfl⟩ := hk.values i v hv
  obtain ⟨hblock, hidx, -⟩ := findIndex_spec hfind
  refine ⟨⟨(appendAttrib h.state.client.vertexAttribs attrib).attribs, a.idx⟩, ?_, hidx, ?_⟩
  · rw [findIndex_appendAttrib, hfind]
    rfl
  · rw [moveCurrent_appendAttrib attrib hidx, ← hblock]

/-- A call that changes no value. -/
theorem of_extends {p : Prop} (hk : Kept driverMax h)
    (hextends : Extends p h.state.client.vertexAttribs index h'.state.client.vertexAttribs)
    (hunbound : h'.state.client.vertexArrayBinding = 0)
    (hwalks : WalksAllocated h'.state.client.vertexAttribs)
    (hcurrent : h'.state.current = moveCurrent h.state.client.vertexAttribs
      h'.state.client.vertexAttribs h.state.current)
    (hvalues : h'.values = h.values) : Kept driverMax h' := by
  refine ⟨hunbound, hwalks, ?_, fun i v hv => ?_⟩
  · generalize h'.state.client.vertexAttribs = list at hextends
    cases hextends with
    | same list hsame => exact hsame.distinct hk.distinct
    | appended attrib hp hfind hindex => exact hk.distinct.appendAttrib (hindex ▸ hfind)
  · rw [hvalues] at hv
    rw [hcurrent]
    generalize h'.state.client.vertexAttribs = list at hextends
    cases hextends with
    | same list hsame =>
      rw [moveCurrent, if_pos hsame.attribs]
      exact hk.values_of_same hsame hv
    | appended attrib hp hfind hindex =>
      obtain ⟨a, hfound, -, hmoved⟩ := hk.values_of_appended attrib hv
      exact ⟨a, hfound, hmoved⟩

theorem array (hk : Kept driverMax h) (hkeeps : KeepsCurrent driverMax h (.array op))
    (hrun : runOp driverMax fuel h.state.client op = some h'.state.client)
    (hcurrent : h'.state.current = moveCurrent h.state.client.vertexAttribs
      h'.state.client.vertexAttribs h.state.current)
    (hvalues : h'.values = h.values) : Kept driverMax h' := by
  cases op with
  | bindBuffer target buffer =>
    have hstate : bindBuffer h.state.client target buffer = h'.state.client :=
      Option.some.inj hrun
    obtain ⟨hlist, hunbound, -⟩ := bindBuffer_spec driverMax h.state.client target buffer
    rw [hstate] at hlist hunbound
    have hextends : Extends False h.state.client.vertexAttribs 0 h'.state.client.vertexAttribs := by
      rw [hlist]
      exact .same _ .refl
    exact hk.of_extends hextends (hunbound.trans hk.unbound) (hlist ▸ hk.walks) hcurrent hvalues
  | enableVertexAttribArray index =>
    obtain ⟨hset, hcontext⟩ := setArray_of_run hk.unbound hrun
    exact hk.of_extends hset.extends (hcontext.vertexArrayBinding.trans hk.unbound)
      (hset.walksAllocated hk.walks (growthApart_of_touches hkeeps rfl)) hcurrent hvalues
  | disableVertexAttribArray index =>
    obtain ⟨hset, hcontext⟩ := setArray_of_run hk.unbound hrun
    exact hk.of_extends hset.extends (hcontext.vertexArrayBinding.trans hk.unbound)
      (hset.walksAllocated hk.walks (growthApart_of_touches hkeeps rfl)) hcurrent hvalues
  | vertexAttribPointer index args =>
    obtain ⟨hset, hcontext⟩ := setPointer_of_run hk.unbound hrun
    exact hk.of_extends hset.extends (hcontext.vertexArrayBinding.trans hk.unbound)
      (hset.walksAllocated hk.walks (growthApart_of_touches hkeeps rfl)) hcurrent hvalues

/-- A value is set in the attribute of its index, or in a new one that has the index. -/
theorem setCurrent (hk : Kept driverMax h)
    (hset : SetCurrent driverMax h.state index v h'.state.client.vertexAttribs h'.state.current)
    (hunbound : h'.state.client.vertexArrayBinding = 0)
    (hvalues : h'.values = if Accepted driverMax h.state.client index then
      Function.update h.values index (some v) else h.values)
    (hkeeps : Accepted driverMax h.state.client index →
      findIndex h.state.client.vertexAttribs index = none →
        h.state.client.vertexAttribs.count < numEmbedded ∧
          (h.state.client.vertexAttribs.heap ⟨h.state.client.vertexAttribs.attribs,
            h.state.client.vertexAttribs.count⟩).index = index) : Kept driverMax h' := by
  generalize hlist : h'.state.client.vertexAttribs = list' at hset
  generalize hcurrent : h'.state.current = current' at hset
  cases hset with
  | rejected hrejected =>
    rw [if_neg hrejected] at hvalues
    refine ⟨hunbound, hlist ▸ hk.walks, hlist ▸ hk.distinct, fun i v hv => ?_⟩
    rw [hvalues] at hv
    rw [hlist, hcurrent]
    exact hk.values i v hv
  | found a hok hlast =>
    rw [if_pos hok] at hvalues
    rw [hk.distinct.lastIndex_eq] at hlast
    refine ⟨hunbound, hlist ▸ hk.walks, hlist ▸ hk.distinct, fun i w hw => ?_⟩
    rw [hvalues] at hw
    rw [hlist, hcurrent]
    rcases eq_or_ne i index with rfl | hne
    · rw [Function.update_self] at hw
      exact ⟨a, hlast, by rw [Function.update_self]; exact Option.some.inj hw⟩
    · rw [Function.update_of_ne hne] at hw
      obtain ⟨b, hfind, rfl⟩ := hk.values i w hw
      have hba : b ≠ a := by
        rintro rfl
        exact hne ((findIndex_spec hfind).2.2.symm.trans (findIndex_spec hlast).2.2)
      exact ⟨b, hfind, by rw [Function.update_of_ne hba]⟩
  | appended grown hok hlast hgrown =>
    rw [if_pos hok] at hvalues
    rw [hk.distinct.lastIndex_eq] at hlast
    obtain ⟨hshort, hindex⟩ := hkeeps hok hlast
    subst hgrown
    -- The new attribute is in the embedded block, and has the index.
    have hattribs : (appendAttrib h.state.client.vertexAttribs (h.state.client.vertexAttribs.heap
        ⟨h.state.client.vertexAttribs.attribs, h.state.client.vertexAttribs.count⟩)).attribs =
          h.state.client.vertexAttribs.attribs := by
      rw [appendAttrib, if_pos hshort]
    refine ⟨hunbound, ?_, ?_, fun i w hw => ?_⟩
    · rw [hlist]
      exact hk.walks.appendAttrib (.inl hshort) (.inr rfl)
    · rw [hlist]
      exact hk.distinct.appendAttrib (by rwa [hindex])
    rw [hvalues] at hw
    rw [hlist, hcurrent]
    rcases eq_or_ne i index with rfl | hne
    · rw [Function.update_self] at hw
      refine ⟨⟨h.state.client.vertexAttribs.attribs, h.state.client.vertexAttribs.count⟩, ?_, ?_⟩
      · rw [findIndex_appendAttrib, hlast, hindex, hattribs]
        simp
      · rw [Function.update_self]
        exact Option.some.inj hw
    · rw [Function.update_of_ne hne] at hw
      obtain ⟨a, hfind, hidx, hmoved⟩ := hk.values_of_appended _ hw
      refine ⟨a, hfind, ?_⟩
      have hplace : a ≠ ⟨h.state.client.vertexAttribs.attribs,
          h.state.client.vertexAttribs.count⟩ := by
        rintro rfl
        exact Nat.lt_irrefl _ hidx
      rw [Function.update_of_ne hplace]
      exact hmoved

theorem step {op : AttribOp F} (hk : Kept driverMax h) (hkeeps : KeepsCurrent driverMax h op)
    (hstep : (currentSystem format driverMax).Step h op h') : Kept driverMax h' := by
  obtain ⟨⟨fuel, hrun⟩, hvalues⟩ := hstep
  cases op with
  | array op =>
    obtain ⟨hclient, hcurrent⟩ := array_of_run hrun
    exact hk.array hkeeps hclient hcurrent hvalues
  | current call =>
    obtain ⟨hset, hcontext⟩ := current_of_run hrun
    exact hk.setCurrent hset (hcontext.vertexArrayBinding.trans hk.unbound) hvalues hkeeps

/-- A current value that is set on an index leaves the others. -/
theorem setsOnly (hk : Kept driverMax h) (hunbound : t.client.vertexArrayBinding = 0)
    (hcontext : SameContext driverMax h.state.client t.client)
    (hset : SetCurrent driverMax h.state index v t.client.vertexAttribs t.current)
    (hkeeps : Accepted driverMax h.state.client index →
      findIndex h.state.client.vertexAttribs index = none →
        h.state.client.vertexAttribs.count < numEmbedded ∧
          (h.state.client.vertexAttribs.heap ⟨h.state.client.vertexAttribs.attribs,
            h.state.client.vertexAttribs.count⟩).index = index) :
    SetsOnly format driverMax h.state index t := by
  suffices hothers : (∀ i, i ≠ index →
      arrayAt t.client.vertexAttribs i = arrayAt h.state.client.vertexAttribs i ∧
        toldCurrent format t i = toldCurrent format h.state i) ∧
      (t.client.vertexAttribs.count = h.state.client.vertexAttribs.count ∨
        t.client.vertexAttribs.count = h.state.client.vertexAttribs.count + 1 ∧
          (t.client.vertexAttribs.heap ⟨t.client.vertexAttribs.attribs,
            h.state.client.vertexAttribs.count⟩).index = index) by
    refine ⟨fun i hi => (hothers.1 i hi).1, fun i w hi => ?_, hothers.2⟩
    rw [readsCurrent_iff hunbound, readsCurrent_iff hk.unbound, hcontext.accepted_iff,
      (hothers.1 i hi).2]
  unfold toldCurrent
  generalize t.client.vertexAttribs = list' at hset ⊢
  generalize t.current = current' at hset ⊢
  cases hset with
  | rejected => exact ⟨fun i _ => ⟨rfl, rfl⟩, .inl rfl⟩
  | found a hok hlast =>
    rw [hk.distinct.lastIndex_eq] at hlast
    refine ⟨fun i hi => ⟨rfl, ?_⟩, .inl rfl⟩
    cases hfind : findIndex h.state.client.vertexAttribs i with
    | none => rfl
    | some b =>
      have hba : b ≠ a := by
        rintro rfl
        exact hi ((findIndex_spec hfind).2.2.symm.trans (findIndex_spec hlast).2.2)
      exact Function.update_of_ne hba _ _
  | appended grown hok hlast hgrown =>
    rw [hk.distinct.lastIndex_eq] at hlast
    obtain ⟨hshort, hindex⟩ := hkeeps hok hlast
    subst hgrown
    generalize hattrib : h.state.client.vertexAttribs.heap ⟨h.state.client.vertexAttribs.attribs,
      h.state.client.vertexAttribs.count⟩ = attrib at hindex ⊢
    have hnew : findIndex h.state.client.vertexAttribs attrib.index = none := by rwa [hindex]
    refine ⟨fun i hi => ⟨?_, ?_⟩, .inr ⟨count_appendAttrib, ?_⟩⟩
    · rw [arrayAt_appendAttrib attrib hnew, hindex, Function.update_of_ne hi]
    · have hne : attrib.index ≠ i := by
        rw [hindex]
        exact hi.symm
      rw [findIndex_appendAttrib, if_neg hne, Option.or_none]
      cases hfind : findIndex h.state.client.vertexAttribs i with
      | none => rfl
      | some b =>
        obtain ⟨hblock, hidx, -⟩ := findIndex_spec hfind
        have hplace : (⟨(appendAttrib h.state.client.vertexAttribs attrib).attribs, b.idx⟩ : Loc) ≠
            ⟨h.state.client.vertexAttribs.attribs, h.state.client.vertexAttribs.count⟩ := by
          intro heq
          exact Nat.ne_of_lt hidx (congrArg Loc.idx heq)
        simp only [Option.map_some, Function.update_of_ne hplace]
        rw [moveCurrent_appendAttrib attrib hidx, ← hblock]
    · rw [heap_appendAttrib_count, hindex]

end Kept

theorem kept_invariant :
    ((currentSystem format driverMax).guarded (KeepsCurrent driverMax)).Invariant
      (Kept driverMax) where
  init := by
    rintro h ⟨⟨heap, hclient⟩, hvalues⟩
    refine ⟨by rw [hclient]; rfl, ?_, ?_, fun i v hv => ?_⟩
    · rw [hclient]
      exact walksAllocated_initial heap
    · rw [hclient]
      exact fun i j hi => absurd hi (Nat.not_lt_zero i)
    · rw [hvalues] at hv
      cases hv
  step := fun _ _ _ _ hk hstep => hk.step hstep.1 hstep.2

/-- In every run whose calls set values on known indices only, and free nothing that the enabled
list leads to: the value of an accepted index is read back if and only if it was set, or the
memory of its attribute happens to have the initial value; and setting it changes no other
index. -/
theorem readsCurrent_iff_set
    (hreach : ((currentSystem format driverMax).guarded (KeepsCurrent driverMax)).Reachable h) :
    (∀ i, Accepted driverMax h.state.client i →
      (ReadsCurrent format driverMax h.state i ((h.values i).getD (initialCurrent format)) ↔
        h.values i ≠ none ∨ ∃ a, findIndex h.state.client.vertexAttribs i = some a ∧
          h.state.current a = initialCurrent format)) ∧
      ∀ call h', KeepsCurrent driverMax h (.current call) →
        (currentSystem format driverMax).Step h (.current call) h' →
          SetsOnly format driverMax h.state call.index h'.state := by
  have hk := kept_invariant.holds hreach
  constructor
  · intro i hok
    rw [readsCurrent_iff hk.unbound, and_iff_right hok, toldCurrent]
    cases hv : h.values i with
    | some v =>
      obtain ⟨a, hfind, hcurrent⟩ := hk.values i v hv
      simp [hfind, hcurrent]
    | none =>
      cases hfind : findIndex h.state.client.vertexAttribs i with
      | some a => simp
      | none =>
        -- Zeros are told, and the last component is 1 initially.
        have hlast : format.ofInt 1 ≠ format.ofInt 0 := by
          intro heq
          have := lt_one_of_ofInt_eq heq
          omega
        simp [missingCurrent, initialCurrent, hlast.symm]
  · rintro call h' hkeeps ⟨⟨fuel, hrun⟩, -⟩
    obtain ⟨hset, hcontext⟩ := current_of_run hrun
    exact hk.setsOnly (hcontext.vertexArrayBinding.trans hk.unbound) hcontext hset hkeeps

/-! ### Two runs -/

/-- A new context, over memory that has zeros. -/
def currentInitial : CurrentHistory ℚ where
  state := ⟨initial fun _ => freshAttrib 0 0 false, fun _ => (0, 0, 0, 0)⟩
  values _ := none

/-- A call of a run, with a bound on the steps of the loops. -/
def currentOp (driverMax : ℤ) (fuel : ℕ) (h : CurrentHistory ℚ) (op : AttribOp ℚ) :
    Option (CurrentHistory ℚ) :=
  (op.run rationalFormat driverMax h.state fuel).map fun s =>
    ⟨s, h.note rationalFormat driverMax op⟩

theorem step_of_currentOp {h h' : CurrentHistory ℚ} {op : AttribOp ℚ}
    (hop : currentOp driverMax fuel h op = some h') :
    (currentSystem rationalFormat driverMax).Step h op h' := by
  obtain ⟨s, hrun, rfl⟩ := Option.map_eq_some_iff.mp hop
  exact ⟨⟨fuel, hrun⟩, rfl⟩

theorem init_currentInitial (driverMax : ℤ) :
    (currentSystem rationalFormat driverMax).Init currentInitial :=
  ⟨⟨_, rfl⟩, rfl⟩

/-- An array is specified, and its value set and read back. -/
theorem readsCurrent_iff_set_two : ∃ h,
    ((currentSystem rationalFormat 16).guarded (KeepsCurrent 16)).Reachable h ∧
      ReadsCurrent rationalFormat 16 h.state 2 (5, 6, 0, 0) := by
  have hrun : ((currentOp 16 1 currentInitial (.array (.vertexAttribPointer 2 threeFloats))).bind
      fun b => (currentOp 16 1 b (.current (.glVertexAttrib2f 2 5 6))).map fun c => (b, c)).map
        (fun p => (decide (findIndex p.1.state.client.vertexAttribs 2 = none),
          decide (Accepted 16 p.2.state.client 2),
          decide (p.2.values 2 = some (5, 6, 0, 0)))) = some (false, true, true) := by
    decide +kernel
  obtain ⟨⟨b, c⟩, hsteps, hfacts⟩ := Option.map_eq_some_iff.mp hrun
  obtain ⟨_, hb, hsteps⟩ := Option.bind_eq_some_iff.mp hsteps
  obtain ⟨_, hc, heq⟩ := Option.map_eq_some_iff.mp hsteps
  cases heq
  obtain ⟨hknown, hok, hvalue⟩ := by simpa only [Prod.mk.injEq, decide_eq_true_eq] using hfacts
  have hfirst : KeepsCurrent 16 currentInitial (.array (.vertexAttribPointer 2 threeFloats)) :=
    fun _ _ _ => .inl (by decide)
  have hsecond : KeepsCurrent 16 b (.current (.glVertexAttrib2f 2 5 6)) :=
    fun _ hnone => absurd hnone (of_decide_eq_false hknown)
  have hreach : ((currentSystem rationalFormat 16).guarded (KeepsCurrent 16)).Reachable c :=
    .step (.step (.init (init_currentInitial 16)) ⟨hfirst, step_of_currentOp hb⟩)
      ⟨hsecond, step_of_currentOp hc⟩
  have hread := ((readsCurrent_iff_set hreach).1 2 hok).mpr
    (.inl (by simp [hvalue]))
  rw [hvalue] at hread
  exact ⟨c, hreach, hread⟩

/-- The value of a new index is set, and goes to an attribute of the index 0. -/
theorem exists_lost_current : ∃ h, (currentSystem rationalFormat 16).Reachable h ∧
    Accepted 16 h.state.client 3 ∧ h.values 3 = some (1, 2, 3, 4) ∧
      ¬ReadsCurrent rationalFormat 16 h.state 3 (1, 2, 3, 4) := by
  have hrun : (currentOp 16 1 currentInitial (.current (.glVertexAttrib4f 3 1 2 3 4))).map
      (fun h => (decide (Accepted 16 h.state.client 3), decide (h.values 3 = some (1, 2, 3, 4)),
        (glGetVertexAttribfv rationalFormat 16 h.state.client h.state.current 3
          glCurrentVertexAttrib).2)) =
      some (true, true, .stored [0, 0, 0, 0]) := by
    decide +kernel
  obtain ⟨h, hrun, hfacts⟩ := Option.map_eq_some_iff.mp hrun
  obtain ⟨hok, hvalue, htold⟩ := by simpa only [Prod.mk.injEq, decide_eq_true_eq] using hfacts
  refine ⟨h, .step (.init (init_currentInitial 16)) (step_of_currentOp hrun), hok, hvalue,
    fun hread => ?_⟩
  have hzero := htold.symm.trans hread
  simp at hzero

end GpuProxy.VertexAttribs
