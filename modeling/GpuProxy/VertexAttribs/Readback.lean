import GpuProxy.Textures.Parameters
import GpuProxy.VertexAttribs.Arrays

/-!
# Reading the arrays back

`glGetVertexAttribfv` and `glGetVertexAttribPointerv` answer from the table of attributes, and
make up the state of an index that is not in it. They should tell what the calls said of an
array, or the state that `egl_state.h` documents as initial. They do for the arrays that were
specified; an array that was only enabled or disabled has the size 0, and one that no call
touched has the buffer that is bound.

## Main definitions

* `glGetVertexAttribfv`, `glGetVertexAttribPointerv` — the queries
* `Arrays.stateOf` — the state of an array according to the calls
* `Reads` — the queries tell that an array is in a state
* `ArrayHistory`, `historySystem` — runs, with what the calls said and touched
* `GrowsApart` — no call frees an attribute that the enabled list leads to

## Main results

* `reads_iff_specified` — which arrays are read back as the calls said
* `exists_unread_size` — an array that is enabled before it is specified
-/

namespace GpuProxy.VertexAttribs

open Math Textures

def glVertexAttribArrayNormalized : ℕ := 0x886A
def glVertexAttribArrayBufferBinding : ℕ := 0x889F
def glVertexAttribArrayEnabled : ℕ := 0x8622
def glVertexAttribArraySize : ℕ := 0x8623
def glVertexAttribArrayStride : ℕ := 0x8624
def glVertexAttribArrayType : ℕ := 0x8625
def glCurrentVertexAttrib : ℕ := 0x8626
def glVertexAttribArrayPointer : ℕ := 0x8645

/-- `is_valid_VertexAttribute`. -/
def isValidVertexAttribute (value : ℕ) : Bool :=
  value ∈ [glVertexAttribArrayNormalized, glVertexAttribArrayBufferBinding,
    glVertexAttribArrayEnabled, glVertexAttribArraySize, glVertexAttribArrayStride,
    glVertexAttribArrayType, glCurrentVertexAttrib]

/-! ### The queries -/

/-- What a query stores for its caller, unless it is left to the driver. -/
inductive Answer (α : Type)
  | stored (values : List α)
  | driver
  deriving DecidableEq

/-- The cases of the `switch` over `pname`, apart from the current value. -/
def ArrayState.item (e : ArrayState) (pname : ℕ) : Option ℤ :=
  if pname = glVertexAttribArrayBufferBinding then some e.binding
  else if pname = glVertexAttribArrayEnabled then some e.enabled.toInt
  else if pname = glVertexAttribArraySize then some e.args.size
  else if pname = glVertexAttribArrayStride then some e.args.stride
  else if pname = glVertexAttribArrayType then some e.args.type
  else if pname = glVertexAttribArrayNormalized then some e.args.normalized.toInt
  else none

section Queries

variable {F : Type} (format : FloatFormat F) (driverMax : ℤ) (s : ClientState)

/-- The values stored for `pname`, converted to `GLfloat`. -/
def ArrayState.values (e : ArrayState) (current : F × F × F × F) (pname : ℕ) : List F :=
  match e.item pname with
  | some value => [format.ofInt value]
  | none => [current.1, current.2.1, current.2.2.1, current.2.2.2]

/-- What is told of an index without an attribute. -/
def missingArray : ArrayState := ⟨false, s.arrayBufferBinding, ⟨4, glFloat, false, 0, 0⟩⟩

/-- `memset (params, 0, sizeof (GLfloat) * 4)`. -/
def missingCurrent : F × F × F × F :=
  (format.ofInt 0, format.ofInt 0, format.ofInt 0, format.ofInt 0)

/-- `caching_client_glGetVertexAttribfv`. The fields `current_attrib` are beside the others. -/
def glGetVertexAttribfv (current : Loc → F × F × F × F) (index pname : ℕ) :
    ClientState × Answer F :=
  if ¬ isValidVertexAttribute pname then (setError s glInvalidEnum, .stored [])
  else
    let (s, overflow) := doesIndexOverflow driverMax s index
    if overflow then (s, .stored [])
    else if s.vertexArrayBinding ≠ 0 then (s, .driver)
    else
      match findIndex s.vertexAttribs index with
      | some a =>
        (s, .stored ((s.vertexAttribs.heap a).arrayState.values format (current a) pname))
      | none => (s, .stored ((missingArray s).values format (missingCurrent format) pname))

/-- `caching_client_glGetVertexAttribPointerv`, which stores 0 first. -/
def glGetVertexAttribPointerv (index pname : ℕ) : ClientState × Answer ℕ :=
  if pname ≠ glVertexAttribArrayPointer then (setError s glInvalidEnum, .stored [0])
  else
    let (s, overflow) := doesIndexOverflow driverMax s index
    if overflow then (s, .stored [0])
    else if s.vertexArrayBinding ≠ 0 then (s, .driver)
    else
      match findIndex s.vertexAttribs index with
      | some a => (s, .stored [(s.vertexAttribs.heap a).pointer])
      | none => (s, .stored [0])

end Queries

/-! ### What the calls say -/

/-- The state of an array after the calls. Those never specified are as `egl_state.h`
documents the initial state. -/
def Arrays.stateOf (g : Arrays) (index : ℕ) : ArrayState :=
  match g.pointer index with
  | some (binding, args) => ⟨g.enabled index, binding, args⟩
  | none => ⟨g.enabled index, 0, ⟨4, glFloat, false, 0, 0⟩⟩

/-- The queries tell that an array is in a state. -/
structure Reads {F : Type} (format : FloatFormat F) (driverMax : ℤ) (s : ClientState)
    (current : Loc → F × F × F × F) (index : ℕ) (e : ArrayState) : Prop where
  item : ∀ pname value, e.item pname = some value →
    (glGetVertexAttribfv format driverMax s current index pname).2 = .stored [format.ofInt value]
  pointer : (glGetVertexAttribPointerv driverMax s index glVertexAttribArrayPointer).2 =
    .stored [e.args.pointer]

/-- The index whose array a call enables, disables or specifies, if it is accepted. -/
def touches (driverMax : ℤ) (s : ClientState) : Op → Option ℕ
  | .bindBuffer _ _ => none
  | .enableVertexAttribArray index | .disableVertexAttribArray index =>
    if Accepted driverMax s index then some index else none
  | .vertexAttribPointer index args =>
    if args.Valid ∧ Accepted driverMax s index then some index else none

/-- The state of the client, with what the calls said and which arrays they touched. -/
structure ArrayHistory extends Tracked where
  touched : ℕ → Bool

/-- A touched index is noted. -/
def ArrayHistory.note (h : ArrayHistory) : Option ℕ → ℕ → Bool
  | some index => Function.update h.touched index true
  | none => h.touched

/-- All sequences of calls that return, from `egl_state_init` on. -/
def historySystem (driverMax : ℤ) : System ArrayHistory Op where
  Init h := (trackedSystem driverMax).Init h.toTracked ∧ h.touched = fun _ => false
  Step h op h' := (trackedSystem driverMax).Step h.toTracked op h'.toTracked ∧
    h'.touched = h.note (touches driverMax h.state op)

/-- A call that makes an attribute does not free one that the enabled list leads to. -/
def GrowsApart (driverMax : ℤ) (h : ArrayHistory) (op : Op) : Prop :=
  ∀ index, touches driverMax h.state op = some index →
    findIndex h.state.vertexAttribs index = none → GrowthApart h.state.vertexAttribs

variable {driverMax : ℤ} {s t : ClientState} {list : AttribList} {index fuel : ℕ}
  {args : PointerArgs} {enable : Bool} {g : Arrays} {h h' : ArrayHistory} {op : Op}

/-! ### The table and the record -/

theorem Represents.setArray (h : Represents s.vertexAttribs g)
    (hknown : ∀ i, arrayAt s.vertexAttribs i ≠ none → Accepted driverMax s i)
    (hset : SetArray driverMax s fuel index enable list) :
    Represents list (if Accepted driverMax s index then
      { g with enabled := Function.update g.enabled index enable } else g) := by
  rcases hset.arrayAt_eq hknown with ⟨hok, htable⟩ | ⟨hrejected, htable⟩
  · rw [if_pos hok]
    refine h.setEnabled ?_ htable
    cases hat : arrayAt s.vertexAttribs index with
    | none => exact .inr ⟨rfl, rfl, rfl⟩
    | some e => exact .inl rfl
  · rw [if_neg hrejected]
    exact h.of_arrayAt_eq htable

theorem Represents.setPointer_of_spec (h : Represents s.vertexAttribs g)
    (hset : SetPointer driverMax s fuel index args list) :
    Represents list (if args.Valid ∧ Accepted driverMax s index then
      { g with pointer := Function.update g.pointer index (some (s.arrayBufferBinding, args)) }
        else g) := by
  rcases hset.arrayAt_eq with ⟨hvalid, hok, htable⟩ | ⟨hrejected, htable⟩
  · rw [if_pos ⟨hvalid, hok⟩]
    refine h.setPointer hvalid (htable.trans ?_)
    congr 3
    cases hat : arrayAt s.vertexAttribs index with
    | none => exact (h.unknown index hat).symm
    | some e => exact h.enabled_eq hat
  · rw [if_neg hrejected]
    exact h.of_arrayAt_eq htable

/-! ### The enabled list -/

theorem growthApart_of_touches {p : Prop} [Decidable p]
    (hapart : ∀ i, touches driverMax s op = some i → findIndex s.vertexAttribs i = none →
      GrowthApart s.vertexAttribs)
    (htouches : touches driverMax s op = if p then some index else none)
    (hfind : findIndex s.vertexAttribs index = none) (hp : p) : GrowthApart s.vertexAttribs :=
  hapart index (by rw [htouches, if_pos hp]) hfind

theorem SetArray.walksAllocated (h : SetArray driverMax s fuel index enable list)
    (hwalks : WalksAllocated s.vertexAttribs)
    (hgrowth : findIndex s.vertexAttribs index = none → Accepted driverMax s index →
      GrowthApart s.vertexAttribs) : WalksAllocated list := by
  have hmarked : ∀ a, WalksAllocated (setArrayEnabled s.vertexAttribs a enable) :=
    fun a => hwalks.of_sameLinks (sameLinks_setArrayEnabled _ a enable)
  cases h with
  | unchanged | rejected => exact hwalks
  | overflow a | marked a => exact hmarked a
  | relisted a list hfind hflag hok hbound hhelper =>
    have hblock : a.block = s.vertexAttribs.attribs := (findIndex_spec hfind).1
    split at hhelper
    · exact (hmarked a).relinked hblock (relinked_add hhelper)
    · exact (hmarked a).relinked hblock (relinked_remove hhelper)
  | appended hfind hok => exact hwalks.appendAttrib (hgrowth hfind hok) (.inl rfl)

theorem SetPointer.walksAllocated (h : SetPointer driverMax s fuel index args list)
    (hwalks : WalksAllocated s.vertexAttribs)
    (hgrowth : findIndex s.vertexAttribs index = none → args.Valid ∧ Accepted driverMax s index →
      GrowthApart s.vertexAttribs) : WalksAllocated list := by
  have hstored : ∀ a, WalksAllocated { s.vertexAttribs with
      heap := Function.update s.vertexAttribs.heap a
        (args.store s.arrayBufferBinding (s.vertexAttribs.heap a)) } :=
    fun a => hwalks.of_sameLinks (sameLinks_store _ a args s.arrayBufferBinding)
  cases h with
  | rejected | unchanged => exact hwalks
  | stored a => exact hstored a
  | relisted a removed list hvalid hok hfind hchanged hflag hremove hadd =>
    have hblock : a.block = s.vertexAttribs.attribs := (findIndex_spec hfind).1
    have hremoved := relinked_remove hremove
    exact ((hstored a).relinked hblock hremoved).relinked (hblock.trans hremoved.attribs.symm)
      (relinked_add hadd)
  | appended hvalid hok hfind =>
    exact hwalks.appendAttrib (hgrowth hfind ⟨hvalid, hok⟩) (.inl rfl)

/-! ### Runs -/

/-- The table agrees with the record and has the arrays that were touched, and walks along the
enabled list stay in allocated memory. -/
structure Recorded (driverMax : ℤ) (h : ArrayHistory) : Prop where
  unbound : h.state.vertexArrayBinding = 0
  represents : Represents h.state.vertexAttribs h.arrays
  known : ∀ i, arrayAt h.state.vertexAttribs i ≠ none ↔ h.touched i = true
  accepted : ∀ i, h.touched i = true → Accepted driverMax h.state i
  walks : WalksAllocated h.state.vertexAttribs

namespace Recorded

/-- A call that is not accepted, or binds a buffer, leaves the table. -/
theorem of_untouched (hr : Recorded driverMax h) (htouched : h'.touched = h.touched)
    (hunbound : h'.state.vertexArrayBinding = 0)
    (hrepresents : Represents h'.state.vertexAttribs h'.arrays)
    (htable : arrayAt h'.state.vertexAttribs = arrayAt h.state.vertexAttribs)
    (haccepted : ∀ i, Accepted driverMax h'.state i ↔ Accepted driverMax h.state i)
    (hwalks : WalksAllocated h'.state.vertexAttribs) : Recorded driverMax h' := by
  refine ⟨hunbound, hrepresents, fun i => ?_, fun i hi => ?_, hwalks⟩
  · rw [htable, htouched]
    exact hr.known i
  · rw [htouched] at hi
    exact (haccepted i).mpr (hr.accepted i hi)

/-- An accepted call adds its index to the table, or finds it there. -/
theorem of_touched {e : ArrayState} (hr : Recorded driverMax h)
    (htouched : h'.touched = Function.update h.touched index true)
    (hok : Accepted driverMax h.state index) (hunbound : h'.state.vertexArrayBinding = 0)
    (hrepresents : Represents h'.state.vertexAttribs h'.arrays)
    (htable : arrayAt h'.state.vertexAttribs =
      Function.update (arrayAt h.state.vertexAttribs) index (some e))
    (haccepted : ∀ i, Accepted driverMax h'.state i ↔ Accepted driverMax h.state i)
    (hwalks : WalksAllocated h'.state.vertexAttribs) : Recorded driverMax h' := by
  refine ⟨hunbound, hrepresents, fun i => ?_, fun i hi => ?_, hwalks⟩
  · rw [htable, htouched]
    rcases eq_or_ne i index with rfl | hne
    · simp
    · rw [Function.update_of_ne hne, Function.update_of_ne hne]
      exact hr.known i
  · rw [haccepted]
    rw [htouched] at hi
    rcases eq_or_ne i index with rfl | hne
    · exact hok
    · rw [Function.update_of_ne hne] at hi
      exact hr.accepted i hi

theorem accepted_of_known (hr : Recorded driverMax h) (i : ℕ)
    (hi : arrayAt h.state.vertexAttribs i ≠ none) : Accepted driverMax h.state i :=
  hr.accepted i ((hr.known i).mp hi)

theorem setArray (hr : Recorded driverMax h)
    (hset : SetArray driverMax h.state fuel index enable h'.state.vertexAttribs)
    (hcontext : SameContext driverMax h.state h'.state)
    (harrays : h'.arrays = if Accepted driverMax h.state index then
      { h.arrays with enabled := Function.update h.arrays.enabled index enable } else h.arrays)
    (htouched : h'.touched =
      h.note (if Accepted driverMax h.state index then some index else none))
    (hgrowth : findIndex h.state.vertexAttribs index = none → Accepted driverMax h.state index →
      GrowthApart h.state.vertexAttribs) : Recorded driverMax h' := by
  have hunbound := hcontext.vertexArrayBinding.trans hr.unbound
  have hwalks := hset.walksAllocated hr.walks hgrowth
  have hrepresents : Represents h'.state.vertexAttribs h'.arrays := by
    rw [harrays]
    exact hr.represents.setArray hr.accepted_of_known hset
  rcases hset.arrayAt_eq hr.accepted_of_known with ⟨hok, htable⟩ | ⟨hrejected, htable⟩
  · rw [if_pos hok] at htouched
    exact hr.of_touched htouched hok hunbound hrepresents htable hcontext.accepted_iff hwalks
  · rw [if_neg hrejected] at htouched
    exact hr.of_untouched htouched hunbound hrepresents htable hcontext.accepted_iff hwalks

theorem setPointer (hr : Recorded driverMax h)
    (hset : SetPointer driverMax h.state fuel index args h'.state.vertexAttribs)
    (hcontext : SameContext driverMax h.state h'.state)
    (harrays : h'.arrays = if args.Valid ∧ Accepted driverMax h.state index then
      { h.arrays with
        pointer := Function.update h.arrays.pointer index
          (some (h.state.arrayBufferBinding, args)) }
      else h.arrays)
    (htouched : h'.touched =
      h.note (if args.Valid ∧ Accepted driverMax h.state index then some index else none))
    (hgrowth : findIndex h.state.vertexAttribs index = none →
      args.Valid ∧ Accepted driverMax h.state index → GrowthApart h.state.vertexAttribs) :
    Recorded driverMax h' := by
  have hunbound := hcontext.vertexArrayBinding.trans hr.unbound
  have hwalks := hset.walksAllocated hr.walks hgrowth
  have hrepresents : Represents h'.state.vertexAttribs h'.arrays := by
    rw [harrays]
    exact hr.represents.setPointer_of_spec hset
  rcases hset.arrayAt_eq with ⟨hvalid, hok, htable⟩ | ⟨hrejected, htable⟩
  · rw [if_pos ⟨hvalid, hok⟩] at htouched
    exact hr.of_touched htouched hok hunbound hrepresents htable hcontext.accepted_iff hwalks
  · rw [if_neg hrejected] at htouched
    exact hr.of_untouched htouched hunbound hrepresents htable hcontext.accepted_iff hwalks

/-- One call. -/
theorem step (hr : Recorded driverMax h) (hapart : GrowsApart driverMax h op)
    (hstep : (historySystem driverMax).Step h op h') : Recorded driverMax h' := by
  obtain ⟨⟨⟨fuel, hrun⟩, harrays⟩, htouched⟩ := hstep
  cases op with
  | bindBuffer target buffer =>
    have hstate : bindBuffer h.state target buffer = h'.state := Option.some.inj hrun
    obtain ⟨hlist, hunbound, haccepted⟩ := bindBuffer_spec driverMax h.state target buffer
    rw [hstate] at hlist hunbound haccepted
    have harrays : h'.arrays = h.arrays := harrays
    refine hr.of_untouched htouched (hunbound.trans hr.unbound) ?_ ?_ haccepted ?_
    · rw [hlist, harrays]
      exact hr.represents
    · rw [hlist]
    · rw [hlist]
      exact hr.walks
  | enableVertexAttribArray index =>
    obtain ⟨hset, hcontext⟩ := setArray_of_run hr.unbound hrun
    exact hr.setArray hset hcontext harrays htouched (growthApart_of_touches hapart rfl)
  | disableVertexAttribArray index =>
    obtain ⟨hset, hcontext⟩ := setArray_of_run hr.unbound hrun
    exact hr.setArray hset hcontext harrays htouched (growthApart_of_touches hapart rfl)
  | vertexAttribPointer index args =>
    obtain ⟨hset, hcontext⟩ := setPointer_of_run hr.unbound hrun
    exact hr.setPointer hset hcontext harrays htouched (growthApart_of_touches hapart rfl)

end Recorded

theorem recorded_invariant :
    ((historySystem driverMax).guarded (GrowsApart driverMax)).Invariant (Recorded driverMax) where
  init := by
    rintro h ⟨⟨⟨heap, hstate⟩, harrays⟩, htouched⟩
    have hnone : ∀ i, arrayAt h.state.vertexAttribs i = none := by
      intro i
      rw [hstate]
      rfl
    refine ⟨by rw [hstate]; rfl, ?_, fun i => by simp [hnone, htouched], ?_, ?_⟩
    · rw [harrays]
      constructor <;> simp [hnone]
    · simp [htouched]
    · rw [hstate]
      exact walksAllocated_initial heap
  step := fun _ _ _ _ hr hstep => hr.step hstep.1 hstep.2

/-! ### What the queries tell -/

variable {F : Type} {format : FloatFormat F} {current : Loc → F × F × F × F} {e e' : ArrayState}
  {pname : ℕ} {value value' : ℤ}

/-- What the queries tell of an array. -/
def toldArray (s : ClientState) (index : ℕ) : ArrayState :=
  (arrayAt s.vertexAttribs index).getD (missingArray s)

theorem isValid_of_item (h : e.item pname = some value) : isValidVertexAttribute pname = true := by
  by_contra hinvalid
  simp only [isValidVertexAttribute, List.mem_cons, List.not_mem_nil, or_false, decide_eq_true_eq,
    not_or] at hinvalid
  simp [ArrayState.item, hinvalid] at h

theorem reads_toldArray (hunbound : s.vertexArrayBinding = 0) (hok : Accepted driverMax s index) :
    Reads format driverMax s current index (toldArray s index) := by
  rcases hcheck : doesIndexOverflow driverMax s index with ⟨u, overflow⟩
  obtain ⟨hsame, haccepted⟩ := doesIndexOverflow_spec hcheck
  obtain rfl : overflow = false := haccepted.mpr hok
  have hmissing : missingArray u = missingArray s := by
    rw [missingArray, hsame.arrayBufferBinding, missingArray]
  constructor
  · intro pname value hitem
    simp only [glGetVertexAttribfv, isValid_of_item hitem, hcheck, hsame.vertexArrayBinding,
      hunbound, hsame.vertexAttribs, hmissing, not_true_eq_false, Bool.false_eq_true, if_false,
      ne_eq]
    unfold toldArray arrayAt at hitem
    cases hfind : findIndex s.vertexAttribs index with
    | none =>
      simp only [hfind, Option.map_none, Option.getD_none] at hitem
      simp [ArrayState.values, hitem]
    | some a =>
      simp only [hfind, Option.map_some, Option.getD_some] at hitem
      simp [ArrayState.values, hitem]
  · simp only [glGetVertexAttribPointerv, hcheck, hsame.vertexArrayBinding, hunbound,
      hsame.vertexAttribs, Bool.false_eq_true, if_false, ne_eq, not_true_eq_false]
    unfold toldArray arrayAt
    cases findIndex s.vertexAttribs index <;> rfl

/-- Two states told of an array have the same items, as far as a `GLfloat` shows. -/
theorem Reads.ofInt_eq (pname : ℕ) (h : Reads format driverMax s current index e)
    (h' : Reads format driverMax s current index e') (hitem : e.item pname = some value)
    (hitem' : e'.item pname = some value') : format.ofInt value = format.ofInt value' := by
  have hsame := (h.item pname value hitem).symm.trans (h'.item pname value' hitem')
  simpa using hsame

/-- A number that shows as 0 is not positive. -/
theorem lt_one_of_ofInt_eq (h : format.ofInt value = format.ofInt 0) : value < 1 := by
  have hless := format.ltOne_ofInt value
  rw [h, format.ltOne_ofInt] at hless
  simpa using hless.symm

/-- In every run in which no call frees what the enabled list leads to, the walks along the list
stay in allocated memory, and an array is read back as the calls said if and only if it was
specified, or no call touched it and no buffer is bound. -/
theorem reads_iff_specified
    (hreach : ((historySystem driverMax).guarded (GrowsApart driverMax)).Reachable h)
    (hok : Accepted driverMax h.state index) :
    WalksAllocated h.state.vertexAttribs ∧
      (Reads format driverMax h.state current index (h.arrays.stateOf index) ↔
        h.arrays.pointer index ≠ none ∨
          h.touched index = false ∧ h.state.arrayBufferBinding = 0) := by
  have hr := recorded_invariant.holds hreach
  have htold : Reads format driverMax h.state current index (toldArray h.state index) :=
    reads_toldArray hr.unbound hok
  refine ⟨hr.walks, ?_⟩
  cases hpointer : h.arrays.pointer index with
  | some p =>
    -- The table has what the calls said.
    have hsame : toldArray h.state index = h.arrays.stateOf index := by
      rw [toldArray, hr.represents.specified index p.1 p.2 hpointer, Arrays.stateOf, hpointer]
      rfl
    rw [← hsame]
    simpa using htold
  | none =>
    have hstate : h.arrays.stateOf index =
        ⟨h.arrays.enabled index, 0, ⟨4, glFloat, false, 0, 0⟩⟩ := by
      rw [Arrays.stateOf, hpointer]
    have hspecified : ¬((none : Option (ℕ × PointerArgs)) ≠ none) := fun hne => hne rfl
    rw [hstate, or_iff_right hspecified]
    cases hat : arrayAt h.state.vertexAttribs index with
    | some e =>
      -- The size is 0.
      have htouched : h.touched index = true := (hr.known index).mp (by simp [hat])
      have hsize := (hr.represents.unspecified index e hpointer hat).2
      have htold_eq : toldArray h.state index = e := by
        rw [toldArray, hat]
        rfl
      rw [htold_eq] at htold
      refine iff_of_false (fun hreads => ?_) (by simp [htouched])
      have hshown : format.ofInt 4 = format.ofInt e.args.size :=
        hreads.ofInt_eq glVertexAttribArraySize htold rfl rfl
      rw [hsize] at hshown
      have := lt_one_of_ofInt_eq hshown
      omega
    | none =>
      have htouched : h.touched index = false := by
        rw [← Bool.not_eq_true, ← hr.known index]
        simp [hat]
      have htold_eq : toldArray h.state index = missingArray h.state := by
        rw [toldArray, hat]
        rfl
      rw [htold_eq] at htold
      rw [hr.represents.unknown index hat]
      constructor
      · intro hreads
        have hshown : format.ofInt (h.state.arrayBufferBinding : ℤ) = format.ofInt 0 :=
          htold.ofInt_eq glVertexAttribArrayBufferBinding hreads rfl rfl
        have := lt_one_of_ofInt_eq hshown
        exact ⟨htouched, by omega⟩
      · rintro ⟨-, hbound⟩
        rw [missingArray, hbound] at htold
        exact htold

/-! ### Two runs -/

/-- A call of a run, with a bound on the steps of the loops. -/
def historyOp (driverMax : ℤ) (fuel : ℕ) (h : ArrayHistory) (op : Op) : Option ArrayHistory :=
  (runOp driverMax fuel h.state op).map fun s =>
    ⟨⟨s, h.arrays.record driverMax h.state op⟩, h.note (touches driverMax h.state op)⟩

theorem step_of_historyOp (hop : historyOp driverMax fuel h op = some h') :
    (historySystem driverMax).Step h op h' := by
  obtain ⟨s, hrun, rfl⟩ := Option.map_eq_some_iff.mp hop
  exact ⟨⟨⟨fuel, hrun⟩, rfl⟩, rfl⟩

/-- In the embedded block there is room. -/
theorem growsApart_of_count_lt (hcount : h.state.vertexAttribs.count < numEmbedded) :
    GrowsApart driverMax h op :=
  fun _ _ _ => .inl hcount

def historyInitial : ArrayHistory where
  state := initial fun _ => freshAttrib 0 0 false
  arrays := ⟨fun _ => false, fun _ => none⟩
  touched _ := false

theorem init_historyInitial (driverMax : ℤ) : (historySystem driverMax).Init historyInitial :=
  ⟨⟨⟨_, rfl⟩, rfl⟩, rfl⟩

/-- Three floats for each vertex. -/
def threeFloats : PointerArgs := ⟨3, glFloat, false, 16, 0x1000⟩

/-- An array is specified while a buffer is bound, and enabled. -/
theorem reads_iff_specified_enabled : ∃ h,
    ((historySystem 16).guarded (GrowsApart 16)).Reachable h ∧
      Reads rationalFormat 16 h.state (fun _ => (0, 0, 0, 0)) 2 ⟨true, 7, threeFloats⟩ := by
  have hrun : ([Op.bindBuffer glArrayBuffer 7, .vertexAttribPointer 2 threeFloats,
      .enableVertexAttribArray 2].foldlM
        (fun h op => if decide (h.state.vertexAttribs.count < numEmbedded) then historyOp 16 1 h op
          else none) historyInitial).map
        (fun h => (h.arrays.pointer 2, h.arrays.enabled 2, decide (Accepted 16 h.state 2))) =
      some (some (7, threeFloats), true, true) := by
    decide +kernel
  obtain ⟨h, hrun, hfacts⟩ := Option.map_eq_some_iff.mp hrun
  obtain ⟨hpointer, henabled, hok⟩ := by simpa only [Prod.mk.injEq] using hfacts
  have hreach : ((historySystem 16).guarded (GrowsApart 16)).Reachable h :=
    System.guarded_of_foldlM (fun _ _ _ => step_of_historyOp)
      (fun _ _ hcount => growsApart_of_count_lt (of_decide_eq_true hcount))
      (.init (init_historyInitial 16)) hrun
  refine ⟨h, hreach, ?_⟩
  have hstate : h.arrays.stateOf 2 = ⟨true, 7, threeFloats⟩ := by
    rw [Arrays.stateOf, hpointer, henabled]
  rw [← hstate]
  exact (reads_iff_specified hreach (of_decide_eq_true hok)).2.mpr (.inl (by simp [hpointer]))

/-- An array is enabled, and its size read back as 0. -/
theorem exists_unread_size : ∃ h, (historySystem 16).Reachable h ∧ Accepted 16 h.state 0 ∧
    ¬Reads rationalFormat 16 h.state (fun _ => (0, 0, 0, 0)) 0 (h.arrays.stateOf 0) := by
  have hrun : (historyOp 16 1 historyInitial (.enableVertexAttribArray 0)).map (fun h =>
      (decide (Accepted 16 h.state 0), h.arrays.stateOf 0,
        (glGetVertexAttribfv rationalFormat 16 h.state (fun _ => (0, 0, 0, 0)) 0
          glVertexAttribArraySize).2)) =
      some (true, ⟨true, 0, ⟨4, glFloat, false, 0, 0⟩⟩, .stored [0]) := by
    decide +kernel
  obtain ⟨h, hrun, hfacts⟩ := Option.map_eq_some_iff.mp hrun
  obtain ⟨hok, hstate, hsize⟩ := by simpa only [Prod.mk.injEq] using hfacts
  refine ⟨h, .step (.init (init_historyInitial 16)) (step_of_historyOp hrun),
    of_decide_eq_true hok, fun hreads => ?_⟩
  rw [hstate] at hreads
  have hfour := hsize.symm.trans (hreads.item glVertexAttribArraySize 4 rfl)
  simp [rationalFormat] at hfour

end GpuProxy.VertexAttribs
