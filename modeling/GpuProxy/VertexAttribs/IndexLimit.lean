import GpuProxy.VertexAttribs.CurrentValues
import Mathlib.Data.Finset.Card

/-!
# The limit of the indices

The driver says how many attributes there are, and a call on an index from that number on
should be an error and do nothing. The check lets the number itself pass. Here are the calls
that are refused as they should be, and what holds of the table along the runs of such calls.

## Main definitions

* `Refused` — a call is an error and does nothing
* `Bounded` — the indices of the table, and their number, are within the limit
* `KeepsLimit` — the calls that are checked rightly

## Main results

* `bounded_of_keepsLimit` — runs of such calls
* `exists_index_at_limit` — an attribute whose index is the limit
-/

namespace GpuProxy.VertexAttribs

open Math Textures

/-- The index of a call, if it has one. -/
def AttribOp.index {F : Type} : AttribOp F → Option ℕ
  | .array (.bindBuffer _ _) => none
  | .array (.enableVertexAttribArray index) | .array (.disableVertexAttribArray index)
  | .array (.vertexAttribPointer index _) => some index
  | .current call => some call.index

/-- The calls that were passed on, apart from the query of the limit itself. -/
def passedOn (s : ClientState) : List DriverCall := s.calls.filter (· ≠ .getMaxVertexAttribs)

/-- A call is an error, unless one is pending, and does nothing else. -/
structure Refused {F : Type} (s t : CurrentState F) : Prop where
  error : t.client.error =
    if s.client.error = glNoError then glInvalidValue else s.client.error
  calls : passedOn t.client = passedOn s.client
  vertexAttribs : t.client.vertexAttribs = s.client.vertexAttribs
  current : t.current = s.current

/-- The indices of the table are below the limit, and there are no more of them. -/
structure Bounded (driverMax : ℤ) (list : AttribList) : Prop where
  index : ∀ i < list.count, ((list.heap ⟨list.attribs, i⟩).index : ℤ) < driverMax
  count : (list.count : ℤ) ≤ driverMax

/-- The type is one that `glVertexAttribPointer` admits. -/
def PointerArgs.ValidType (args : PointerArgs) : Prop :=
  args.type = glByte ∨ args.type = glUnsignedByte ∨ args.type = glShort ∨
    args.type = glUnsignedShort ∨ args.type = glFloat ∨ args.type = glFixed

/-- A call that keeps the values is not on the limit itself; and one that specifies an array
beyond it has a type that is admitted, which is checked first. -/
structure KeepsLimit {F : Type} (driverMax : ℤ) (h : CurrentHistory F) (op : AttribOp F) :
    Prop where
  keeps : KeepsCurrent driverMax h op
  ne_limit : ∀ index, op.index = some index → (index : ℤ) ≠ driverMax
  type : ∀ index args, op = .array (.vertexAttribPointer index args) →
    driverMax ≤ (index : ℤ) → args.ValidType

variable {F : Type} {format : FloatFormat F} {driverMax : ℤ} {s t : ClientState}
  {h h' : CurrentHistory F} {op : AttribOp F} {list : AttribList} {index fuel : ℕ}
  {args : PointerArgs} {enable : Bool}

/-! ### The context stays current -/

@[simp] theorem active_setError (s : ClientState) (error : ℕ) :
    (setError s error).active = s.active := by
  unfold setError
  split <;> rfl

@[simp] theorem active_queryMaxVertexAttribs (driverMax : ℤ) (s : ClientState) :
    (queryMaxVertexAttribs driverMax s).active = s.active := by
  unfold queryMaxVertexAttribs
  split <;> rfl

@[simp] theorem active_doesIndexOverflow (driverMax : ℤ) (s : ClientState) (index : ℕ) :
    (doesIndexOverflow driverMax s index).1.active = s.active := by
  simp only [doesIndexOverflow]
  split <;> simp

@[simp] theorem active_bindBuffer (s : ClientState) (target buffer : ℕ) :
    (bindBuffer s target buffer).active = s.active := by
  unfold bindBuffer
  split_ifs <;> simp [forward]

theorem active_setVertexAttribArray
    (hrun : setVertexAttribArray driverMax s fuel index enable = some t) :
    t.active = s.active := by
  unfold setVertexAttribArray at hrun
  grind [forward, active_doesIndexOverflow, Option.map_eq_some_iff]

theorem active_vertexAttribPointer
    (hrun : vertexAttribPointer driverMax s fuel index args = some t) : t.active = s.active := by
  unfold vertexAttribPointer at hrun
  grind [forward, active_doesIndexOverflow, active_setError, Option.bind_eq_some_iff]

theorem active_runOp {op : Op} (hrun : runOp driverMax fuel s op = some t) :
    t.active = s.active := by
  cases op with
  | bindBuffer target buffer =>
    cases hrun
    exact active_bindBuffer s target buffer
  | enableVertexAttribArray index => exact active_setVertexAttribArray hrun
  | disableVertexAttribArray index => exact active_setVertexAttribArray hrun
  | vertexAttribPointer index args => exact active_vertexAttribPointer hrun

theorem active_setCurrentVertexAttrib (driverMax : ℤ) (s : CurrentState F) (index : ℕ)
    (v : F × F × F × F) :
    (setCurrentVertexAttrib driverMax s index v).client.active = s.client.active := by
  have hactive := active_doesIndexOverflow driverMax s.client index
  simp only [setCurrentVertexAttrib]
  split
  · exact hactive
  · split <;> exact hactive

theorem active_run {s t : CurrentState F} (hrun : op.run format driverMax s fuel = some t) :
    t.client.active = s.client.active := by
  cases op with
  | array op => exact active_runOp (array_of_run hrun).1
  | current call =>
    cases hrun
    exact active_setCurrentVertexAttrib driverMax s call.index (call.value format)

/-! ### Calls beyond the limit -/

theorem doesIndexOverflow_of_rejected (hrejected : ¬Accepted driverMax s index) :
    doesIndexOverflow driverMax s index =
      (setError (queryMaxVertexAttribs driverMax s) glInvalidValue, true) :=
  if_neg hrejected

/-- What the check of a large index leaves is an error and nothing else. -/
theorem refused_of_overflow {s t : CurrentState F} (hactive : s.client.active = true)
    (hrejected : ¬Accepted driverMax s.client index)
    (hclient : t.client = (doesIndexOverflow driverMax s.client index).1)
    (hcurrent : t.current = s.current) : Refused s t := by
  have hquery : (queryMaxVertexAttribs driverMax s.client).error = s.client.error ∧
      passedOn (queryMaxVertexAttribs driverMax s.client) = passedOn s.client := by
    unfold queryMaxVertexAttribs
    split
    · exact ⟨rfl, rfl⟩
    · exact ⟨rfl, by simp [passedOn, forward]⟩
  rw [doesIndexOverflow_of_rejected hrejected] at hclient
  refine ⟨?_, ?_, ?_, hcurrent⟩ <;> rw [hclient]
  · simp only [setError, active_queryMaxVertexAttribs, hactive, hquery.1, true_and]
    split
    · rfl
    · exact hquery.1
  · rw [← hquery.2]
    unfold setError
    split <;> rfl
  · rw [(sameBindings_setError _).vertexAttribs, sameBindings_queryMaxVertexAttribs.vertexAttribs]

/-- An error without the check. -/
theorem refused_of_setError {s t : CurrentState F} (hactive : s.client.active = true)
    (hclient : t.client = setError s.client glInvalidValue) (hcurrent : t.current = s.current) :
    Refused s t := by
  refine ⟨?_, ?_, ?_, hcurrent⟩ <;> rw [hclient]
  · simp only [setError, hactive, true_and]
    split <;> rfl
  · unfold setError
    split <;> rfl
  · exact (sameBindings_setError _).vertexAttribs

theorem setVertexAttribArray_of_rejected (fuel : ℕ) (enable : Bool)
    (hunbound : s.vertexArrayBinding = 0) (hfind : findIndex s.vertexAttribs index = none)
    (hrejected : ¬Accepted driverMax s index) :
    setVertexAttribArray driverMax s fuel index enable =
      some (doesIndexOverflow driverMax s index).1 := by
  simp [setVertexAttribArray, hunbound, hfind, doesIndexOverflow_of_rejected hrejected]

theorem vertexAttribPointer_of_rejected (fuel : ℕ) (htype : args.ValidType)
    (hrejected : ¬Accepted driverMax s index) :
    vertexAttribPointer driverMax s fuel index args = some (setError s glInvalidValue) ∨
      vertexAttribPointer driverMax s fuel index args =
        some (doesIndexOverflow driverMax s index).1 := by
  unfold PointerArgs.ValidType at htype
  rw [vertexAttribPointer, if_neg (not_not.mpr htype)]
  split
  · exact .inl rfl
  · exact .inr (by simp [doesIndexOverflow_of_rejected hrejected])

/-! ### Runs -/

/-- The values are kept, the context is current, exactly the indices up to the limit are
accepted, and those of the table are below it. -/
structure WithinLimit (driverMax : ℤ) (h : CurrentHistory F) : Prop extends Kept driverMax h where
  active : h.state.client.active = true
  accepted_iff : ∀ i : ℕ, Accepted driverMax h.state.client i ↔ (i : ℤ) ≤ driverMax
  index_lt : ∀ i < h.state.client.vertexAttribs.count,
    ((h.state.client.vertexAttribs.heap ⟨h.state.client.vertexAttribs.attribs, i⟩).index : ℤ) <
      driverMax

namespace WithinLimit

/-- Different indices below the limit are no more than the limit. -/
theorem bounded (hw : WithinLimit driverMax h) (hmax : 1 ≤ driverMax) :
    Bounded driverMax h.state.client.vertexAttribs := by
  refine ⟨hw.index_lt, ?_⟩
  have hcard : (Finset.range h.state.client.vertexAttribs.count).card ≤
      (Finset.range driverMax.toNat).card := by
    refine Finset.card_le_card_of_injOn (fun i =>
      (h.state.client.vertexAttribs.heap ⟨h.state.client.vertexAttribs.attribs, i⟩).index) ?_ ?_
    · intro i hi
      have hlt := hw.index_lt i (Finset.mem_range.mp hi)
      simp only [Finset.coe_range, Set.mem_Iio]
      omega
    · intro i hi j hj hij
      exact hw.distinct i j (by simpa using hi) (by simpa using hj) hij
  simp only [Finset.card_range] at hcard
  omega

theorem findIndex_eq_none (hw : WithinLimit driverMax h) (hindex : driverMax ≤ (index : ℤ)) :
    findIndex h.state.client.vertexAttribs index = none := by
  refine findIndex_eq_none_iff.mpr fun i hi heq => ?_
  have hlt := hw.index_lt i hi
  rw [heq] at hlt
  omega

/-- The new attribute of a call has an index that is accepted, and is not the limit. -/
theorem index_lt_of_extends {p : Prop} (hw : WithinLimit driverMax h)
    (hextends : Extends p h.state.client.vertexAttribs index list)
    (haccepted : p → Accepted driverMax h.state.client index) (hne : (index : ℤ) ≠ driverMax) :
    ∀ i < list.count, ((list.heap ⟨list.attribs, i⟩).index : ℤ) < driverMax := by
  cases hextends with
  | same list hsame =>
    intro i hi
    rw [hsame.attribs, hsame.index]
    exact hw.index_lt i (hsame.count ▸ hi)
  | appended attrib hp hfind hindex =>
    intro i hi
    rw [count_appendAttrib] at hi
    rcases Nat.lt_succ_iff_lt_or_eq.mp hi with hi | rfl
    · rw [heap_appendAttrib_of_lt _ hi]
      exact hw.index_lt i hi
    · have hle := (hw.accepted_iff index).mp (haccepted hp)
      rw [heap_appendAttrib_count, hindex]
      omega

theorem step (hw : WithinLimit driverMax h) (hkeeps : KeepsLimit driverMax h op)
    (hstep : (currentSystem format driverMax).Step h op h') : WithinLimit driverMax h' := by
  have hk := hw.toKept.step hkeeps.keeps hstep
  obtain ⟨⟨fuel, hrun⟩, -⟩ := hstep
  have hactive : h'.state.client.active = true := (active_run hrun).trans hw.active
  have hwithin : ∀ {index : ℕ} {p : Prop}, op.index = some index →
      Extends p h.state.client.vertexAttribs index h'.state.client.vertexAttribs →
      (p → Accepted driverMax h.state.client index) →
      SameContext driverMax h.state.client h'.state.client → WithinLimit driverMax h' := by
    intro index p hindex hextends haccepted hcontext
    refine ⟨hk, hactive, fun i => ?_,
      hw.index_lt_of_extends hextends haccepted (hkeeps.ne_limit index hindex)⟩
    rw [hcontext.accepted_iff, hw.accepted_iff]
  cases op with
  | array op =>
    obtain ⟨hclient, -⟩ := array_of_run hrun
    cases op with
    | bindBuffer target buffer =>
      have hbind : bindBuffer h.state.client target buffer = h'.state.client :=
        Option.some.inj hclient
      obtain ⟨hlist, -, haccepted⟩ := bindBuffer_spec driverMax h.state.client target buffer
      rw [hbind] at hlist haccepted
      refine ⟨hk, hactive, fun i => (haccepted i).trans (hw.accepted_iff i), ?_⟩
      rw [hlist]
      exact hw.index_lt
    | enableVertexAttribArray index =>
      obtain ⟨hset, hcontext⟩ := setArray_of_run hw.unbound hclient
      exact hwithin rfl hset.extends id hcontext
    | disableVertexAttribArray index =>
      obtain ⟨hset, hcontext⟩ := setArray_of_run hw.unbound hclient
      exact hwithin rfl hset.extends id hcontext
    | vertexAttribPointer index args =>
      obtain ⟨hset, hcontext⟩ := setPointer_of_run hw.unbound hclient
      exact hwithin rfl hset.extends And.right hcontext
  | current call =>
    obtain ⟨hset, hcontext⟩ := current_of_run hrun
    have hextends : Extends (Accepted driverMax h.state.client call.index)
        h.state.client.vertexAttribs call.index h'.state.client.vertexAttribs := by
      generalize h'.state.client.vertexAttribs = list at hset ⊢
      generalize h'.state.current = current at hset
      cases hset with
      | rejected | found => exact .same _ .refl
      | appended grown hok hlast hgrown =>
        rw [hw.distinct.lastIndex_eq] at hlast
        rw [hgrown]
        exact .appended _ hok hlast (hkeeps.keeps hok hlast).2
    exact hwithin rfl hextends id hcontext

/-- A call beyond the limit. -/
theorem refused (hw : WithinLimit driverMax h) (hkeeps : KeepsLimit driverMax h op)
    (hstep : (currentSystem format driverMax).Step h op h') (hindex : op.index = some index)
    (hlimit : driverMax ≤ (index : ℤ)) : Refused h.state h'.state := by
  obtain ⟨⟨fuel, hrun⟩, -⟩ := hstep
  have hne := hkeeps.ne_limit index hindex
  have hrejected : ¬Accepted driverMax h.state.client index := by
    rw [hw.accepted_iff]
    omega
  have hfind := hw.findIndex_eq_none hlimit
  cases op with
  | array op =>
    obtain ⟨hclient, hmoved⟩ := array_of_run hrun
    -- The table stays, so the values do.
    have hcurrent : h'.state.client.vertexAttribs = h.state.client.vertexAttribs →
        h'.state.current = h.state.current := by
      intro hlist
      rw [hmoved, moveCurrent, hlist, if_pos rfl]
    have hoverflow : h'.state.client = (doesIndexOverflow driverMax h.state.client index).1 →
        Refused h.state h'.state := by
      intro hclient
      refine refused_of_overflow hw.active hrejected hclient (hcurrent ?_)
      rw [hclient]
      exact (doesIndexOverflow_spec rfl).1.vertexAttribs
    cases op with
    | bindBuffer target buffer => cases hindex
    | enableVertexAttribArray i =>
      cases hindex
      have hset := setVertexAttribArray_of_rejected fuel true hw.unbound hfind hrejected
      exact hoverflow (Option.some.inj (hclient.symm.trans hset))
    | disableVertexAttribArray i =>
      cases hindex
      have hset := setVertexAttribArray_of_rejected fuel false hw.unbound hfind hrejected
      exact hoverflow (Option.some.inj (hclient.symm.trans hset))
    | vertexAttribPointer i args =>
      cases hindex
      rcases vertexAttribPointer_of_rejected fuel (hkeeps.type index args rfl hlimit) hrejected with
        herror | hcheck
      · have hclient := Option.some.inj (hclient.symm.trans herror)
        refine refused_of_setError hw.active hclient (hcurrent ?_)
        rw [hclient, (sameBindings_setError _).vertexAttribs]
      · exact hoverflow (Option.some.inj (hclient.symm.trans hcheck))
  | current call =>
    cases hindex
    have hstate : setCurrentVertexAttrib driverMax h.state call.index (call.value format) =
        h'.state := Option.some.inj hrun
    have hset : setCurrentVertexAttrib driverMax h.state call.index (call.value format) =
        { h.state with client := (doesIndexOverflow driverMax h.state.client call.index).1 } := by
      simp [setCurrentVertexAttrib, doesIndexOverflow_of_rejected hrejected]
    rw [hset] at hstate
    exact refused_of_overflow hw.active hrejected (by rw [← hstate]) (by rw [← hstate])

end WithinLimit

theorem withinLimit_invariant (hmax : 1 ≤ driverMax) (hint : driverMax < 2 ^ 31) :
    ((currentSystem format driverMax).guarded (KeepsLimit driverMax)).Invariant
      (WithinLimit driverMax) where
  init := by
    rintro h hinit
    have hkept : ((currentSystem format driverMax).guarded (KeepsCurrent driverMax)).Invariant
        (Kept driverMax) := kept_invariant
    have hk := hkept.init h hinit
    obtain ⟨⟨heap, hclient⟩, -⟩ := hinit
    refine ⟨hk, by rw [hclient]; rfl, fun i => ?_, fun i hi => ?_⟩
    · rw [hclient]
      change i ≤ uint driverMax ↔ _
      unfold uint
      omega
    · rw [hclient] at hi
      exact absurd hi (Nat.not_lt_zero i)
  step := fun _ _ _ _ hw hstep => hw.step hstep.1 hstep.2

/-- In every run of such calls, the indices of the table and their number are within the limit,
and a call on an index from the limit on is refused. -/
theorem bounded_of_keepsLimit (hmax : 1 ≤ driverMax) (hint : driverMax < 2 ^ 31)
    (hreach : ((currentSystem format driverMax).guarded (KeepsLimit driverMax)).Reachable h) :
    Bounded driverMax h.state.client.vertexAttribs ∧
      ∀ op h' index, KeepsLimit driverMax h op → (currentSystem format driverMax).Step h op h' →
        op.index = some index → driverMax ≤ (index : ℤ) → Refused h.state h'.state := by
  have hw := (withinLimit_invariant hmax hint).holds hreach
  exact ⟨hw.bounded hmax, fun op h' index hkeeps hstep => hw.refused hkeeps hstep⟩

/-- The last index is specified, and an index beyond it refused. -/
theorem bounded_of_keepsLimit_last : ∃ h h',
    ((currentSystem rationalFormat 16).guarded (KeepsLimit 16)).Reachable h ∧
      (currentSystem rationalFormat 16).Step h (.current (.glVertexAttrib1f 17 5)) h' ∧
      Bounded 16 h.state.client.vertexAttribs ∧ Refused h.state h'.state := by
  have hrun : ((currentOp 16 1 currentInitial (.array (.vertexAttribPointer 15 threeFloats))).bind
      fun b => (currentOp 16 1 b (.current (.glVertexAttrib1f 17 5))).map fun c => (b, c)).map
        (fun p => decide (Accepted 16 p.1.state.client 17)) = some false := by
    decide +kernel
  obtain ⟨⟨b, c⟩, hsteps, hrejected⟩ := Option.map_eq_some_iff.mp hrun
  obtain ⟨_, hb, hsteps⟩ := Option.bind_eq_some_iff.mp hsteps
  obtain ⟨_, hc, heq⟩ := Option.map_eq_some_iff.mp hsteps
  cases heq
  have hgrows : KeepsCurrent 16 currentInitial (.array (.vertexAttribPointer 15 threeFloats)) :=
    fun _ _ _ => Or.inl (by decide)
  have hfirst : KeepsLimit 16 currentInitial (.array (.vertexAttribPointer 15 threeFloats)) := by
    refine ⟨hgrows, fun index hindex => ?_, fun index args hop _ => ?_⟩
    · cases hindex
      decide
    · cases hop
      exact Or.inr (Or.inr (Or.inr (Or.inr (Or.inl rfl))))
  have hkept : KeepsCurrent 16 b (.current (.glVertexAttrib1f 17 5)) :=
    fun hok => absurd hok (of_decide_eq_false hrejected)
  have hsecond : KeepsLimit 16 b (.current (.glVertexAttrib1f 17 5)) := by
    refine ⟨hkept, fun index hindex => ?_, fun index args hop => ?_⟩
    · cases hindex
      decide
    · cases hop
  have hreach : ((currentSystem rationalFormat 16).guarded (KeepsLimit 16)).Reachable b :=
    .step (.init (init_currentInitial 16)) ⟨hfirst, step_of_currentOp hb⟩
  obtain ⟨hbounded, hrefused⟩ := bounded_of_keepsLimit (by decide) (by decide) hreach
  exact ⟨b, c, hreach, step_of_currentOp hc, hbounded,
    hrefused _ c 17 hsecond (step_of_currentOp hc) rfl (by decide)⟩

/-- The array of the index 16 is enabled where there are 16 attributes. -/
theorem exists_index_at_limit : ∃ h, (currentSystem rationalFormat 16).Reachable h ∧
    ¬Bounded 16 h.state.client.vertexAttribs := by
  have hrun : (currentOp 16 1 currentInitial (.array (.enableVertexAttribArray 16))).map (fun h =>
      (h.state.client.vertexAttribs.count, (h.state.client.vertexAttribs.heap
        ⟨h.state.client.vertexAttribs.attribs, 0⟩).index)) = some (1, 16) := by
    decide +kernel
  obtain ⟨h, hrun, hfacts⟩ := Option.map_eq_some_iff.mp hrun
  obtain ⟨hcount, hindex⟩ := by simpa only [Prod.mk.injEq] using hfacts
  refine ⟨h, .step (.init (init_currentInitial 16)) (step_of_currentOp hrun), fun hbounded => ?_⟩
  have hlt := hbounded.index 0 (by omega)
  rw [hindex] at hlt
  exact absurd hlt (by decide)

end GpuProxy.VertexAttribs
