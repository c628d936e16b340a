import GpuProxy.VertexAttribs.Reached
import Mathlib.Data.List.Find

/-!
# The table of attributes

The attributes of a context are a table from indices to the states of arrays. The entry
points change the state of one index, and the list helpers none. What an entry point may do
is said once, by `SetArray` and `SetPointer`; the results on the list of enabled attributes
are derived from that.

## Main definitions

* `ArrayState`, `arrayAt` — the table
* `SameTable` — lists of attributes with the same table
* `SetArray`, `SetPointer` — what the entry points do to the attributes

## Main results

* `arrayAt_update`, `arrayAt_appendAttrib` — the table after a write, and with a new attribute
* `SetArray.arrayAt_eq`, `SetPointer.arrayAt_eq` — the table afterwards
* `setArray_of_run`, `setPointer_of_run` — the entry points do one of these things
-/

namespace GpuProxy.VertexAttribs

variable {list list' : AttribList} {heap : Loc → VertexAttrib} {a : Loc}
  {attrib : VertexAttrib} {index i : ℕ} {fuel : ℕ}

/-- What `glGetVertexAttrib` tells of an array. -/
structure ArrayState where
  enabled : Bool
  binding : ℕ
  args : PointerArgs
  deriving DecidableEq, Repr

def VertexAttrib.arrayState (attrib : VertexAttrib) : ArrayState where
  enabled := attrib.arrayEnabled
  binding := attrib.arrayBufferBinding
  args := ⟨attrib.size, attrib.type, attrib.arrayNormalized, attrib.stride, attrib.pointer⟩

/-- The state of the array with an index, if the client has an attribute for it. -/
def arrayAt (list : AttribList) (index : ℕ) : Option ArrayState :=
  (findIndex list index).map fun a => (list.heap a).arrayState

theorem arrayAt_of_findIndex (h : findIndex list index = some a) :
    arrayAt list index = some (list.heap a).arrayState := by
  rw [arrayAt, h]
  rfl

theorem arrayAt_eq_none_iff : arrayAt list index = none ↔ findIndex list index = none :=
  Option.map_eq_none_iff

/-! ### The table after a write -/

theorem findIndex_congr (hcount : list'.count = list.count)
    (hattribs : list'.attribs = list.attribs)
    (hindex : ∀ x, (list'.heap x).index = (list.heap x).index) :
    findIndex list' index = findIndex list index := by
  simp only [findIndex, hcount, hattribs, hindex]

/-- Two lists of attributes that differ in the list of enabled ones at most. -/
structure SameTable (list list' : AttribList) : Prop where
  count : list'.count = list.count
  attribs : list'.attribs = list.attribs
  heap : SameButLinks list.heap list'.heap

theorem Relinked.sameTable (h : Relinked list a list') : SameTable list list' :=
  ⟨h.count, h.attribs, h.heap⟩

/-- The links of the list are not seen in the table. -/
theorem SameTable.arrayAt_eq (h : SameTable list list') : arrayAt list' = arrayAt list := by
  funext i
  rw [arrayAt, findIndex_congr h.count h.attribs h.heap.index, arrayAt]
  congr 1
  funext x
  obtain ⟨_, _, hx⟩ := h.heap x
  rw [hx]
  rfl

theorem index_update (hindex : attrib.index = (list.heap a).index) (x : Loc) :
    (Function.update list.heap a attrib x).index = (list.heap x).index := by
  rcases eq_or_ne x a with rfl | hne
  · rw [Function.update_self, hindex]
  · rw [Function.update_of_ne hne]

/-- Writing an attribute changes the state of its index. -/
theorem arrayAt_update (attrib : VertexAttrib) (h : findIndex list index = some a)
    (hindex : attrib.index = index) :
    arrayAt { list with heap := Function.update list.heap a attrib } =
      Function.update (arrayAt list) index (some attrib.arrayState) := by
  obtain ⟨-, -, ha⟩ := findIndex_spec h
  have hfind : ∀ i, findIndex { list with heap := Function.update list.heap a attrib } i =
      findIndex list i :=
    fun i => findIndex_congr rfl rfl (index_update (hindex.trans ha.symm))
  funext i
  rw [arrayAt, hfind]
  by_cases hi : i = index
  · subst hi
    rw [h, Function.update_self]
    simp
  · rw [Function.update_of_ne hi, arrayAt]
    cases hb : findIndex list i with
    | none => rfl
    | some b =>
      have hne : b ≠ a := by
        rintro rfl
        exact hi ((findIndex_spec hb).2.2.symm.trans ha)
      simp [hne]

theorem sameLinks_setArrayEnabled (list : AttribList) (a : Loc) (enable : Bool) :
    SameLinks list.heap (setArrayEnabled list a enable).heap :=
  SameLinks.update rfl rfl

theorem arrayAt_setArrayEnabled (enable : Bool) (h : findIndex list index = some a) :
    arrayAt (setArrayEnabled list a enable) = Function.update (arrayAt list) index
      (some { (list.heap a).arrayState with enabled := enable }) :=
  arrayAt_update _ h (findIndex_spec h).2.2

theorem sameLinks_store (heap : Loc → VertexAttrib) (a : Loc) (args : PointerArgs) (binding : ℕ) :
    SameLinks heap (Function.update heap a (args.store binding (heap a))) :=
  SameLinks.update rfl rfl

/-! ### The table with a new attribute -/

theorem count_appendAttrib : (appendAttrib list attrib).count = list.count + 1 := by
  unfold appendAttrib
  split <;> rfl

theorem heap_appendAttrib_of_lt (attrib : VertexAttrib) (h : i < list.count) :
    (appendAttrib list attrib).heap ⟨(appendAttrib list attrib).attribs, i⟩ =
      list.heap ⟨list.attribs, i⟩ := by
  have hne : i ≠ list.count := Nat.ne_of_lt h
  unfold appendAttrib
  split
  · simp [hne]
  · simp [hne, Nat.le_of_lt h]

theorem heap_appendAttrib_count :
    (appendAttrib list attrib).heap ⟨(appendAttrib list attrib).attribs, list.count⟩ = attrib := by
  unfold appendAttrib
  split <;> simp

theorem findIndex_appendAttrib : findIndex (appendAttrib list attrib) index =
    ((findIndex list index).map fun a => ⟨(appendAttrib list attrib).attribs, a.idx⟩).or
      (if attrib.index = index then some ⟨(appendAttrib list attrib).attribs, list.count⟩
        else none) := by
  have hold : ((List.range list.count).find? fun i =>
      ((appendAttrib list attrib).heap ⟨(appendAttrib list attrib).attribs, i⟩).index == index) =
        (List.range list.count).find? fun i => (list.heap ⟨list.attribs, i⟩).index == index := by
    refine List.find?_congr fun i hi => ?_
    rw [heap_appendAttrib_of_lt _ (List.mem_range.mp hi)]
  simp only [findIndex, count_appendAttrib, List.range_succ, List.find?_append, hold,
    List.find?_singleton, heap_appendAttrib_count, beq_iff_eq]
  cases (List.range list.count).find? fun i => (list.heap ⟨list.attribs, i⟩).index == index
  · by_cases hindex : attrib.index = index <;> simp [hindex]
  · simp

/-- A new attribute adds the state of its index. -/
theorem arrayAt_appendAttrib (attrib : VertexAttrib)
    (h : findIndex list attrib.index = none) :
    arrayAt (appendAttrib list attrib) =
      Function.update (arrayAt list) attrib.index (some attrib.arrayState) := by
  funext i
  rw [arrayAt, findIndex_appendAttrib]
  by_cases hi : i = attrib.index
  · subst hi
    rw [h, Function.update_self]
    simp [heap_appendAttrib_count]
  · rw [Function.update_of_ne hi, arrayAt, if_neg (Ne.symm hi), Option.or_none]
    cases hb : findIndex list i with
    | none => rfl
    | some b =>
      obtain ⟨hblock, hidx, -⟩ := findIndex_spec hb
      have hcopy := heap_appendAttrib_of_lt attrib hidx
      simp only [Option.map_some, hcopy]
      rw [← hblock]

/-! ### What the entry points do to the attributes -/

variable {driverMax : ℤ} {s t : ClientState} {args : PointerArgs} {enable : Bool}

/-- The arguments pass the checks of `caching_client_glVertexAttribPointer`. -/
def PointerArgs.Valid (args : PointerArgs) : Prop :=
  (args.type = glByte ∨ args.type = glUnsignedByte ∨ args.type = glShort ∨
    args.type = glUnsignedShort ∨ args.type = glFloat ∨ args.type = glFixed) ∧
  ¬(args.size > 4 ∨ args.size < 1 ∨ args.stride < 0)

/-- Two states with the same bindings, in which the same indices are accepted. -/
structure SameContext (driverMax : ℤ) (s t : ClientState) : Prop where
  vertexArrayBinding : t.vertexArrayBinding = s.vertexArrayBinding
  arrayBufferBinding : t.arrayBufferBinding = s.arrayBufferBinding
  accepted_iff : ∀ index, Accepted driverMax t index ↔ Accepted driverMax s index

/-- What enabling or disabling an array may do to the attributes. -/
inductive SetArray (driverMax : ℤ) (s : ClientState) (fuel index : ℕ) (enable : Bool) :
    AttribList → Prop
  | unchanged (a : Loc) : findIndex s.vertexAttribs index = some a →
      (s.vertexAttribs.heap a).arrayEnabled = enable →
      SetArray driverMax s fuel index enable s.vertexAttribs
  | rejected : findIndex s.vertexAttribs index = none → ¬Accepted driverMax s index →
      SetArray driverMax s fuel index enable s.vertexAttribs
  /-- The attribute found is marked before the index is checked. -/
  | overflow (a : Loc) : findIndex s.vertexAttribs index = some a →
      ¬Accepted driverMax s index →
      SetArray driverMax s fuel index enable (setArrayEnabled s.vertexAttribs a enable)
  | marked (a : Loc) : findIndex s.vertexAttribs index = some a →
      (s.vertexAttribs.heap a).arrayEnabled ≠ enable → Accepted driverMax s index →
      s.arrayBufferBinding ≠ 0 →
      SetArray driverMax s fuel index enable (setArrayEnabled s.vertexAttribs a enable)
  | relisted (a : Loc) (list : AttribList) : findIndex s.vertexAttribs index = some a →
      (s.vertexAttribs.heap a).arrayEnabled ≠ enable → Accepted driverMax s index →
      s.arrayBufferBinding = 0 →
      (if enable then
        addToEnabledAttribList (setArrayEnabled s.vertexAttribs a enable) a fuel
      else removeFromEnabledAttribList (setArrayEnabled s.vertexAttribs a enable) a fuel) =
        some list →
      SetArray driverMax s fuel index enable list
  | appended : findIndex s.vertexAttribs index = none → Accepted driverMax s index →
      SetArray driverMax s fuel index enable
        (appendAttrib s.vertexAttribs (freshAttrib index s.arrayBufferBinding enable))

/-- What specifying an array may do to the attributes. -/
inductive SetPointer (driverMax : ℤ) (s : ClientState) (fuel index : ℕ) (args : PointerArgs) :
    AttribList → Prop
  | rejected : ¬(args.Valid ∧ Accepted driverMax s index) →
      SetPointer driverMax s fuel index args s.vertexAttribs
  | unchanged (a : Loc) : args.Valid → Accepted driverMax s index →
      findIndex s.vertexAttribs index = some a →
      args.store s.arrayBufferBinding (s.vertexAttribs.heap a) = s.vertexAttribs.heap a →
      SetPointer driverMax s fuel index args s.vertexAttribs
  | stored (a : Loc) : args.Valid → Accepted driverMax s index →
      findIndex s.vertexAttribs index = some a →
      args.store s.arrayBufferBinding (s.vertexAttribs.heap a) ≠ s.vertexAttribs.heap a →
      (s.vertexAttribs.heap a).arrayEnabled = false →
      SetPointer driverMax s fuel index args { s.vertexAttribs with
        heap := Function.update s.vertexAttribs.heap a
          (args.store s.arrayBufferBinding (s.vertexAttribs.heap a)) }
  | relisted (a : Loc) (removed list : AttribList) : args.Valid → Accepted driverMax s index →
      findIndex s.vertexAttribs index = some a →
      args.store s.arrayBufferBinding (s.vertexAttribs.heap a) ≠ s.vertexAttribs.heap a →
      (s.vertexAttribs.heap a).arrayEnabled = true →
      removeFromEnabledAttribList { s.vertexAttribs with
        heap := Function.update s.vertexAttribs.heap a
          (args.store s.arrayBufferBinding (s.vertexAttribs.heap a)) } a fuel = some removed →
      addToEnabledAttribList removed a fuel = some list →
      SetPointer driverMax s fuel index args list
  | appended : args.Valid → Accepted driverMax s index →
      findIndex s.vertexAttribs index = none →
      SetPointer driverMax s fuel index args (appendAttrib s.vertexAttribs
        (args.store s.arrayBufferBinding (freshAttrib index s.arrayBufferBinding false)))

/-- What enabling or disabling an array does to the table, if all indices in it are accepted. -/
theorem SetArray.arrayAt_eq (h : SetArray driverMax s fuel index enable list)
    (hknown : ∀ i, arrayAt s.vertexAttribs i ≠ none → Accepted driverMax s i) :
    (Accepted driverMax s index ∧ arrayAt list =
      Function.update (arrayAt s.vertexAttribs) index (some { (arrayAt s.vertexAttribs index).getD
        (freshAttrib index s.arrayBufferBinding enable).arrayState with enabled := enable })) ∨
    (¬Accepted driverMax s index ∧ arrayAt list = arrayAt s.vertexAttribs) := by
  have hfound : ∀ a, findIndex s.vertexAttribs index = some a → Accepted driverMax s index :=
    fun a hfind => hknown index (by simp [arrayAt_of_findIndex hfind])
  cases h with
  | unchanged a hfind hflag =>
    refine .inl ⟨hfound a hfind, (Function.update_eq_self_iff.mpr ?_).symm⟩
    rw [arrayAt_of_findIndex hfind, Option.getD_some, ← hflag]
    rfl
  | rejected hfind hrejected => exact .inr ⟨hrejected, rfl⟩
  | overflow a hfind hrejected => exact absurd (hfound a hfind) hrejected
  | marked a hfind hflag hok hbound =>
    refine .inl ⟨hok, ?_⟩
    rw [arrayAt_setArrayEnabled enable hfind, arrayAt_of_findIndex hfind, Option.getD_some]
  | relisted a list hfind hflag hok hbound hhelper =>
    have hsame : arrayAt list = arrayAt (setArrayEnabled s.vertexAttribs a enable) := by
      split at hhelper
      · exact (relinked_add hhelper).sameTable.arrayAt_eq
      · exact (relinked_remove hhelper).sameTable.arrayAt_eq
    refine .inl ⟨hok, ?_⟩
    rw [hsame, arrayAt_setArrayEnabled enable hfind, arrayAt_of_findIndex hfind, Option.getD_some]
  | appended hfind hok =>
    refine .inl ⟨hok, ?_⟩
    rw [arrayAt_appendAttrib _ hfind, arrayAt_eq_none_iff.mpr hfind]
    rfl

/-- What specifying an array does to the table. -/
theorem SetPointer.arrayAt_eq (h : SetPointer driverMax s fuel index args list) :
    (args.Valid ∧ Accepted driverMax s index ∧ arrayAt list =
      Function.update (arrayAt s.vertexAttribs) index (some
        ⟨(arrayAt s.vertexAttribs index).elim false ArrayState.enabled, s.arrayBufferBinding,
          args⟩)) ∨
    (¬(args.Valid ∧ Accepted driverMax s index) ∧ arrayAt list = arrayAt s.vertexAttribs) := by
  have hstored : ∀ a, findIndex s.vertexAttribs index = some a →
      arrayAt { s.vertexAttribs with
        heap := Function.update s.vertexAttribs.heap a
          (args.store s.arrayBufferBinding (s.vertexAttribs.heap a)) } =
      Function.update (arrayAt s.vertexAttribs) index (some
        ⟨(arrayAt s.vertexAttribs index).elim false ArrayState.enabled, s.arrayBufferBinding,
          args⟩) := by
    intro a hfind
    rw [arrayAt_of_findIndex hfind]
    exact arrayAt_update (args.store s.arrayBufferBinding (s.vertexAttribs.heap a)) hfind
      (findIndex_spec hfind).2.2
  cases h with
  | rejected hrejected => exact .inr ⟨hrejected, rfl⟩
  | unchanged a hvalid hok hfind hequal =>
    have hsame := hstored a hfind
    rw [hequal, Function.update_eq_self] at hsame
    exact .inl ⟨hvalid, hok, hsame⟩
  | stored a hvalid hok hfind hchanged hflag => exact .inl ⟨hvalid, hok, hstored a hfind⟩
  | relisted a removed list hvalid hok hfind hchanged hflag hremove hadd =>
    have hsame := (relinked_add hadd).sameTable.arrayAt_eq.trans
      (relinked_remove hremove).sameTable.arrayAt_eq
    exact .inl ⟨hvalid, hok, hsame.trans (hstored a hfind)⟩
  | appended hvalid hok hfind =>
    refine .inl ⟨hvalid, hok, ?_⟩
    rw [arrayAt_appendAttrib _ hfind, arrayAt_eq_none_iff.mpr hfind]
    rfl

namespace SameContext

theorem refl : SameContext driverMax s s := ⟨rfl, rfl, fun _ => .rfl⟩

theorem trans {u : ClientState} (h : SameContext driverMax s t)
    (h' : SameContext driverMax t u) : SameContext driverMax s u :=
  ⟨h'.vertexArrayBinding.trans h.vertexArrayBinding,
    h'.arrayBufferBinding.trans h.arrayBufferBinding,
    fun index => (h'.accepted_iff index).trans (h.accepted_iff index)⟩

end SameContext

theorem sameContext_vertexAttribs (list : AttribList) :
    SameContext driverMax s { s with vertexAttribs := list } :=
  ⟨rfl, rfl, fun _ => accepted_congr rfl rfl⟩

theorem sameContext_forward (call : DriverCall) : SameContext driverMax s (forward s call) :=
  ⟨rfl, rfl, fun _ => accepted_congr rfl rfl⟩

theorem sameContext_setError (error : ℕ) : SameContext driverMax s (setError s error) := by
  unfold setError
  split <;> exact ⟨rfl, rfl, fun _ => accepted_congr rfl rfl⟩

theorem sameContext_queryMaxVertexAttribs :
    SameContext driverMax s (queryMaxVertexAttribs driverMax s) := by
  refine ⟨sameBindings_queryMaxVertexAttribs.vertexArrayBinding,
    sameBindings_queryMaxVertexAttribs.arrayBufferBinding, fun index => ?_⟩
  -- The driver is asked once, so that a second query changes nothing.
  have htwice : queryMaxVertexAttribs driverMax (queryMaxVertexAttribs driverMax s) =
      queryMaxVertexAttribs driverMax s := by
    by_cases hqueried : s.maxVertexAttribsQueried = true
    · simp [queryMaxVertexAttribs, hqueried]
    · simp [queryMaxVertexAttribs, hqueried]
  rw [Accepted, htwice, Accepted]

theorem sameContext_doesIndexOverflow {overflow : Bool}
    (h : doesIndexOverflow driverMax s index = (t, overflow)) : SameContext driverMax s t := by
  rw [doesIndexOverflow] at h
  split at h <;> cases h
  · exact sameContext_queryMaxVertexAttribs
  · exact sameContext_queryMaxVertexAttribs.trans (sameContext_setError _)

/-- The index check rejects the index or accepts it, and leaves the attributes. -/
theorem doesIndexOverflow_cases {overflow : Bool}
    (h : doesIndexOverflow driverMax s index = (t, overflow)) :
    t.vertexAttribs = s.vertexAttribs ∧ SameContext driverMax s t ∧
      (overflow = true ∧ ¬Accepted driverMax s index ∨
        overflow = false ∧ Accepted driverMax s index) := by
  obtain ⟨hsame, haccepted⟩ := doesIndexOverflow_spec h
  refine ⟨hsame.vertexAttribs, sameContext_doesIndexOverflow h, ?_⟩
  cases overflow with
  | true => exact .inl ⟨rfl, fun hok => by cases haccepted.mpr hok⟩
  | false => exact .inr ⟨rfl, haccepted.mp rfl⟩

/-- Binding a buffer leaves the attributes. -/
theorem bindBuffer_spec (driverMax : ℤ) (s : ClientState) (target buffer : ℕ) :
    (bindBuffer s target buffer).vertexAttribs = s.vertexAttribs ∧
      (bindBuffer s target buffer).vertexArrayBinding = s.vertexArrayBinding ∧
      ∀ i, Accepted driverMax (bindBuffer s target buffer) i ↔ Accepted driverMax s i := by
  unfold bindBuffer
  split
  · split <;> exact ⟨rfl, rfl, fun _ => accepted_congr rfl rfl⟩
  · split
    · split <;> exact ⟨rfl, rfl, fun _ => accepted_congr rfl rfl⟩
    · have hsame : SameContext driverMax s (setError s glInvalidEnum) := sameContext_setError _
      exact ⟨(sameBindings_setError _).vertexAttribs, hsame.vertexArrayBinding, hsame.accepted_iff⟩

/-- Enabling or disabling an array does one of these things, and leaves the context. -/
theorem setArray_of_run (hbinding : s.vertexArrayBinding = 0)
    (h : setVertexAttribArray driverMax s fuel index enable = some t) :
    SetArray driverMax s fuel index enable t.vertexAttribs ∧ SameContext driverMax s t := by
  rw [setVertexAttribArray, if_neg (by simpa using hbinding)] at h
  split at h
  next a hfind =>
    split at h
    next hflag =>
      cases h
      exact ⟨.unchanged a hfind hflag, .refl⟩
    -- The flag is set before the index is checked.
    next hflag =>
      simp only at h
      rcases hcheck : doesIndexOverflow driverMax
        { s with vertexAttribs := setArrayEnabled s.vertexAttribs a enable } index
        with ⟨u, overflow⟩
      obtain ⟨hlist, hchecked, hcases⟩ := doesIndexOverflow_cases hcheck
      have hcontext : SameContext driverMax s u := (sameContext_vertexAttribs _).trans hchecked
      rw [(sameContext_vertexAttribs _).accepted_iff index] at hcases
      rw [hcheck] at h
      obtain ⟨rfl, hrejected⟩ | ⟨rfl, hok⟩ := hcases
      · cases h
        rw [hlist]
        exact ⟨.overflow a hfind hrejected, hcontext⟩
      · simp only [Bool.false_eq_true, if_false] at h
        have hforward : SameContext driverMax s (forward u (enableCall index enable)) :=
          hcontext.trans (sameContext_forward _)
        replace hlist : (forward u (enableCall index enable)).vertexAttribs =
          setArrayEnabled s.vertexAttribs a enable := hlist
        split at h
        next hbound =>
          cases h
          refine ⟨?_, hforward⟩
          rw [hlist]
          exact .marked a hfind hflag hok (hforward.arrayBufferBinding ▸ hbound)
        next hbound =>
          obtain ⟨list, hhelper, rfl⟩ := Option.map_eq_some_iff.mp h
          rw [hlist] at hhelper
          refine ⟨.relisted a list hfind hflag hok ?_ hhelper,
            hforward.trans (sameContext_vertexAttribs _)⟩
          rw [← hforward.arrayBufferBinding]
          exact not_not.mp hbound
  next hfind =>
    rcases hcheck : doesIndexOverflow driverMax s index with ⟨u, overflow⟩
    obtain ⟨hlist, hcontext, hcases⟩ := doesIndexOverflow_cases hcheck
    rw [hcheck] at h
    obtain ⟨rfl, hrejected⟩ | ⟨rfl, hok⟩ := hcases
    · cases h
      rw [hlist]
      exact ⟨.rejected hfind hrejected, hcontext⟩
    · cases h
      refine ⟨?_, hcontext.trans ((sameContext_forward _).trans (sameContext_vertexAttribs _))⟩
      simp only [forward, hlist, hcontext.arrayBufferBinding]
      exact .appended hfind hok

/-- Specifying an array does one of these things, and leaves the context. -/
theorem setPointer_of_run (hbinding : s.vertexArrayBinding = 0)
    (h : vertexAttribPointer driverMax s fuel index args = some t) :
    SetPointer driverMax s fuel index args t.vertexAttribs ∧ SameContext driverMax s t := by
  have herror : ∀ error, ¬args.Valid →
      SetPointer driverMax s fuel index args (setError s error).vertexAttribs ∧
        SameContext driverMax s (setError s error) := by
    intro error hinvalid
    rw [(sameBindings_setError error).vertexAttribs]
    exact ⟨.rejected fun hok => hinvalid hok.1, sameContext_setError error⟩
  rw [vertexAttribPointer] at h
  split at h
  next htype =>
    cases h
    exact herror _ fun hvalid => htype hvalid.1
  next htype =>
  split at h
  next hrange =>
    cases h
    exact herror _ fun hvalid => hvalid.2 hrange
  next hrange =>
  have hvalid : args.Valid := ⟨not_not.mp htype, hrange⟩
  rcases hcheck : doesIndexOverflow driverMax s index with ⟨u, overflow⟩
  obtain ⟨hlist, hcontext, hcases⟩ := doesIndexOverflow_cases hcheck
  have hu : u.vertexArrayBinding = 0 := hcontext.vertexArrayBinding.trans hbinding
  rw [hcheck] at h
  simp only [hu, ne_eq, not_true_eq_false, if_false, hlist, hcontext.arrayBufferBinding] at h
  obtain ⟨rfl, hrejected⟩ | ⟨rfl, hok⟩ := hcases
  · cases h
    rw [hlist]
    exact ⟨.rejected fun hok => hrejected hok.2, hcontext⟩
  · simp only [Bool.false_eq_true, if_false] at h
    have hsend : ∀ (bound : Prop) [Decidable bound] call list,
        SameContext driverMax s { (if bound then u else forward u call) with
          vertexAttribs := list } := by
      intro bound _ call list
      refine hcontext.trans ?_
      split <;> exact ⟨rfl, rfl, fun _ => accepted_congr rfl rfl⟩
    split at h
    next a hfind =>
      split at h
      next hequal =>
        cases h
        rw [hlist]
        exact ⟨.unchanged a hvalid hok hfind hequal, hcontext⟩
      next hchanged =>
        simp only [Function.update_self] at h
        split at h
        next henabled =>
          simp only [Option.bind_eq_bind, Option.bind_eq_some_iff] at h
          obtain ⟨removed, hremove, added, hadd, h⟩ := h
          cases h
          exact ⟨.relisted a removed added hvalid hok hfind hchanged henabled hremove hadd,
            by simpa using hsend _ _ _⟩
        next henabled =>
          cases h
          exact ⟨.stored a hvalid hok hfind hchanged (by simpa [PointerArgs.store] using henabled),
            by simpa using hsend _ _ _⟩
    next hfind =>
      cases h
      exact ⟨.appended hvalid hok hfind, by simpa using hsend _ _ _⟩

end GpuProxy.VertexAttribs
