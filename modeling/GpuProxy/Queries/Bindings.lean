import GpuProxy.GlState.Rejected
import GpuProxy.Queries.Getters
import GpuProxy.VertexAttribs.IndexLimit

/-!
# Queries and bindings

A query should have no effect. Three rows of the table store the answer of the server in a
binding, one of them in that of another target, and a query of the array buffer stores it in all
attributes. Here is which queries leave the bindings, and that such queries can be left out of a
program: the same calls are passed on, and a draw treats the attributes the same.

## Main definitions

* `BindingsKept` — the bindings are as before
* `KeepsBindings`, `KeepsClient` — the queries whose answers are the bindings
* `BindingOp`, `runBindings` — programs of calls and queries
* `drawArraysAttribs`, `drawElementsAttribs` — what draws make of the attributes

## Main results

* `queries_keep_bindings` — the queries that leave the bindings, and programs with them
* `exists_rebound_buffer` — a query after which a buffer is not bound
-/

namespace GpuProxy.Queries

open GlState Math Objects Textures VertexAttribs

variable {F : Type} (format : FloatFormat F)

/-! ### One query -/

/-- The bindings, and those of the attributes, are as before. -/
structure BindingsKept (s t : ClientState) : Prop where
  arrayBuffer : t.arrayBufferBinding = s.arrayBufferBinding
  elementArrayBuffer : t.elementArrayBufferBinding = s.elementArrayBufferBinding
  vertexArray : t.vertexArrayBinding = s.vertexArrayBinding
  attribs : ∀ i < s.vertexAttribs.count,
    (t.vertexAttribs.heap ⟨s.vertexAttribs.attribs, i⟩).arrayBufferBinding =
      (s.vertexAttribs.heap ⟨s.vertexAttribs.attribs, i⟩).arrayBufferBinding

/-- The answer of the server is what the query stores it in has already. -/
def KeepsBindings (s : ClientState) (pname : Pname) (answer : Value F) : Prop :=
  match pname with
  | .glArrayBufferBinding =>
    uint (answer.toInt format) = s.arrayBufferBinding ∧
      ∀ i < s.vertexAttribs.count,
        (s.vertexAttribs.heap ⟨s.vertexAttribs.attribs, i⟩).arrayBufferBinding =
          uint (answer.toInt format)
  | .glElementArrayBufferBinding => uint (answer.toInt format) = s.arrayBufferBinding
  | .glVertexArrayBindingOes => uint (answer.toInt format) = s.vertexArrayBinding
  | _ => True

/-! ### Programs -/

/-- The calls that read or change bindings and attributes, and the queries with the driver's
answers. -/
inductive BindingOp (F : Type)
  | attrib (op : Op)
  | glBindVertexArrayOES (array : ℕ)
  | glDeleteVertexArraysOES (arrays : List ℕ)
  | glIsVertexArrayOES (array : ℕ) (answer : Bool)
  | glDeleteBuffers (buffers : List ℕ)
  | query (func : GetFunc) (pname : Pname) (answer : Value F)

/-- The generated queries. -/
def BindingOp.isQuery : BindingOp F → Bool
  | .query _ _ _ => true
  | _ => false

/-- The calls that are passed on besides those of `DriverCall`. -/
inductive SentCall
  | glBindVertexArrayOES (array : ℕ)
  | glDeleteVertexArraysOES (arrays : List ℕ)
  | glIsVertexArrayOES (array : ℕ)
  | glDeleteBuffers (buffers : List ℕ)
  deriving DecidableEq

/-- The state, and the calls that were sent. -/
structure BindingState (F : Type) where
  state : GetState F
  sent : List SentCall

namespace BindingState

/-- A call is sent, and the client changed. -/
def send (s : BindingState F) (call : SentCall) (client : ClientState) : BindingState F :=
  ⟨{ s.state with client := client }, s.sent ++ [call]⟩

/-- `caching_client_glBindVertexArrayOES`. -/
def glBindVertexArrayOES (s : BindingState F) (array : ℕ) : BindingState F :=
  if s.state.client.vertexArrayBinding = array then s
  else s.send (.glBindVertexArrayOES array) { s.state.client with vertexArrayBinding := array }

/-- `caching_client_glDeleteVertexArraysOES`, for an array of names. -/
def glDeleteVertexArraysOES (s : BindingState F) (arrays : List ℕ) : BindingState F :=
  if arrays = [] then
    { s with
      state := { s.state with
        client := setError s.state.client VertexAttribs.glInvalidValue } }
  else
    s.send (.glDeleteVertexArraysOES arrays)
      (if s.state.client.vertexArrayBinding ∈ arrays then
        { s.state.client with vertexArrayBinding := 0 }
      else s.state.client)

/-- `caching_client_glIsVertexArrayOES`. -/
def glIsVertexArrayOES (s : BindingState F) (array : ℕ) (answer : Bool) : BindingState F :=
  s.send (.glIsVertexArrayOES array)
    (if answer = false ∧ s.state.client.vertexArrayBinding = array then
      { s.state.client with vertexArrayBinding := 0 }
    else s.state.client)

/-- What `caching_client_glDeleteBuffers` does to the bindings, for an array of names. -/
def glDeleteBuffers (s : BindingState F) (buffers : List ℕ) : BindingState F :=
  let client := buffers.foldl Client.unbindBuffer s.state.client
  s.send (.glDeleteBuffers buffers)
    { client with vertexAttribs := Client.unbindAttribs client.vertexAttribs buffers }

end BindingState

section Programs

variable (driverMax : ℤ)

/-- One call or query. -/
def BindingOp.run (fuel : ℕ) (s : BindingState F) : BindingOp F → Option (BindingState F)
  | .attrib op => (runOp driverMax fuel s.state.client op).map fun client =>
      { s with state := { s.state with client := client } }
  | .glBindVertexArrayOES array => some (s.glBindVertexArrayOES array)
  | .glDeleteVertexArraysOES arrays => some (s.glDeleteVertexArraysOES arrays)
  | .glIsVertexArrayOES array answer => some (s.glIsVertexArrayOES array answer)
  | .glDeleteBuffers buffers => some (s.glDeleteBuffers buffers)
  | .query func pname answer =>
    some { s with state := (s.state.glGet format func pname answer).1 }

/-- A program. -/
def runBindings (fuel : ℕ) (s : BindingState F) (ops : List (BindingOp F)) :
    Option (BindingState F) :=
  ops.foldlM (BindingOp.run format driverMax fuel) s

/-- A query leaves the bindings; and one of the number of attributes, which is memoised for the
check of indices, has it for an answer. -/
def KeepsClient (s : GetState F) (pname : Pname) (answer : Value F) : Prop :=
  KeepsBindings format s.client pname answer ∧
    (pname = .limit .maxVertexAttribs → s.client.maxVertexAttribsQueried = false →
      answer.toInt format = driverMax)

/-- The queries of a program leave the client. -/
def KeepsClients (fuel : ℕ) : BindingState F → List (BindingOp F) → Prop :=
  System.MeetsAlong (BindingOp.run format driverMax fuel) fun s op =>
    ∀ func pname answer, op = .query func pname answer →
      KeepsClient format driverMax s.state pname answer

end Programs

/-! ### Draws -/

/-- `client_has_vertex_attrib_array_set`. -/
def hasVertexAttribArraySet (list : AttribList) : Bool :=
  (List.range list.count).any fun i =>
    (list.heap ⟨list.attribs, i⟩).arrayEnabled ||
      (list.heap ⟨list.attribs, i⟩).arrayBufferBinding != 0

/-- What a draw makes of the attributes: nothing is drawn, they are left to the server, or the
enabled ones of a list are sent. -/
inductive DrawAttribs
  | skipped
  | server
  | sent (list : AttribList)

/-- `caching_client_glDrawArrays`, as far as the attributes are concerned. -/
def drawArraysAttribs (s : ClientState) : DrawAttribs :=
  if s.vertexArrayBinding = 0 ∧ hasVertexAttribArraySet s.vertexAttribs = false then .skipped
  else if s.vertexArrayBinding = 0 then .sent s.vertexAttribs
  else .server

/-- `caching_client_glDrawElements`, as far as the attributes are concerned. -/
def drawElementsAttribs (s : ClientState) : DrawAttribs :=
  if s.vertexArrayBinding = 0 ∧ hasVertexAttribArraySet s.vertexAttribs = false then .skipped
  else if s.vertexArrayBinding = 0 ∧ s.elementArrayBufferBinding = 0 then .sent s.vertexAttribs
  else .server

/-- The same calls were passed on and sent, the bindings are the same, and draws make the same of
the attributes. -/
structure SameClient (s t : BindingState F) : Prop where
  calls : passedOn t.state.client = passedOn s.state.client
  sent : t.sent = s.sent
  bindings : BindingsKept s.state.client t.state.client
  drawArrays : drawArraysAttribs t.state.client = drawArraysAttribs s.state.client
  drawElements : drawElementsAttribs t.state.client = drawElementsAttribs s.state.client

variable {format : FloatFormat F} {driverMax : ℤ} {s t : ClientState} {list : AttribList}
  {index fuel : ℕ} {enable : Bool} {args : PointerArgs} {func : GetFunc} {pname : Pname}
  {answer : Value F} {g : GetState F} {b b' : BindingState F} {op : BindingOp F}

/-! ### What a query changes -/

@[simp] theorem client_memoise_of_ne {limit : Limit} (h : limit ≠ .maxVertexAttribs) :
    (g.memoise format answer limit).client = g.client := by
  cases limit <;> first | rfl | exact absurd rfl h

/-- A limit that is memoised is not a binding. -/
theorem bindingsKept_memoise (limit : Limit) :
    BindingsKept g.client (g.memoise format answer limit).client := by
  cases limit <;> exact ⟨rfl, rfl, rfl, fun _ _ => rfl⟩

theorem bindingsKept_refl : BindingsKept s s := ⟨rfl, rfl, rfl, fun _ _ => rfl⟩

/-- A query leaves the bindings if and only if the answer is what it stores it in already. -/
theorem bindingsKept_glGet_iff (g : GetState F) (func : GetFunc) (pname : Pname)
    (answer : Value F) : BindingsKept g.client (g.glGet format func pname answer).1.client ↔
      KeepsBindings format g.client pname answer := by
  cases pname with
  | glArrayBufferBinding =>
    constructor
    · intro h
      refine ⟨h.arrayBuffer, fun i hi => ?_⟩
      have hattrib := h.attribs i hi
      simp only [GetState.glGet, getTypeInfo, GetState.answerRow, GetState.storeBinding,
        GetState.storeAttribBindings, if_true, hi, and_self] at hattrib
      exact hattrib.symm
    · rintro ⟨hbinding, hattribs⟩
      refine ⟨hbinding, rfl, rfl, fun i hi => ?_⟩
      simp only [GetState.glGet, getTypeInfo, GetState.answerRow, GetState.storeBinding,
        GetState.storeAttribBindings, if_true, hi, and_self]
      exact (hattribs i hi).symm
  | glElementArrayBufferBinding =>
    exact ⟨fun h => h.arrayBuffer, fun h => ⟨h, rfl, rfl, fun _ _ => rfl⟩⟩
  | glVertexArrayBindingOes =>
    exact ⟨fun h => h.vertexArray, fun h => ⟨rfl, rfl, h, fun _ _ => rfl⟩⟩
  | limit limit =>
    refine iff_of_true ?_ trivial
    simp only [GetState.glGet, getTypeInfo, GetState.answerRow, reduceCtorEq, if_false]
    split
    · exact bindingsKept_refl
    · exact bindingsKept_memoise limit
  | _ => exact iff_of_true bindingsKept_refl trivial

/-! ### Programs without the queries -/

/-- The number of attributes that indices are compared with. -/
def indexLimit (driverMax : ℤ) (s : ClientState) : ℤ :=
  if s.maxVertexAttribsQueried then s.maxVertexAttribs else driverMax

theorem maxVertexAttribs_query (driverMax : ℤ) (s : ClientState) :
    (queryMaxVertexAttribs driverMax s).maxVertexAttribs = indexLimit driverMax s := by
  unfold queryMaxVertexAttribs indexLimit
  split <;> rfl

/-- Two clients that differ at most in whether the number of attributes was asked for. -/
structure Alike (driverMax : ℤ) (s t : ClientState) : Prop where
  vertexAttribs : t.vertexAttribs = s.vertexAttribs
  vertexArrayBinding : t.vertexArrayBinding = s.vertexArrayBinding
  arrayBufferBinding : t.arrayBufferBinding = s.arrayBufferBinding
  elementArrayBufferBinding : t.elementArrayBufferBinding = s.elementArrayBufferBinding
  limit : indexLimit driverMax t = indexLimit driverMax s
  active : t.active = s.active
  error : t.error = s.error
  calls : passedOn t = passedOn s

namespace Alike

variable {call : DriverCall}

theorem refl (driverMax : ℤ) (s : ClientState) : Alike driverMax s s :=
  ⟨rfl, rfl, rfl, rfl, rfl, rfl, rfl, rfl⟩

theorem symm (h : Alike driverMax s t) : Alike driverMax t s :=
  ⟨h.vertexAttribs.symm, h.vertexArrayBinding.symm, h.arrayBufferBinding.symm,
    h.elementArrayBufferBinding.symm, h.limit.symm, h.active.symm, h.error.symm, h.calls.symm⟩

theorem trans {u : ClientState} (h : Alike driverMax s t) (h' : Alike driverMax t u) :
    Alike driverMax s u :=
  ⟨h'.vertexAttribs.trans h.vertexAttribs, h'.vertexArrayBinding.trans h.vertexArrayBinding,
    h'.arrayBufferBinding.trans h.arrayBufferBinding,
    h'.elementArrayBufferBinding.trans h.elementArrayBufferBinding, h'.limit.trans h.limit,
    h'.active.trans h.active, h'.error.trans h.error, h'.calls.trans h.calls⟩

theorem withList (h : Alike driverMax s t) {l l' : AttribList} (hlist : l' = l) :
    Alike driverMax { s with vertexAttribs := l } { t with vertexAttribs := l' } :=
  ⟨hlist, h.vertexArrayBinding, h.arrayBufferBinding, h.elementArrayBufferBinding, h.limit,
    h.active, h.error, h.calls⟩

theorem withVertexArrayBinding (h : Alike driverMax s t) (array : ℕ) :
    Alike driverMax { s with vertexArrayBinding := array } { t with vertexArrayBinding := array } :=
  ⟨h.vertexAttribs, rfl, h.arrayBufferBinding, h.elementArrayBufferBinding, h.limit,
    h.active, h.error, h.calls⟩

theorem withArrayBufferBinding (h : Alike driverMax s t) (buffer : ℕ) :
    Alike driverMax { s with arrayBufferBinding := buffer }
      { t with arrayBufferBinding := buffer } :=
  ⟨h.vertexAttribs, h.vertexArrayBinding, rfl, h.elementArrayBufferBinding, h.limit,
    h.active, h.error, h.calls⟩

theorem withElementArrayBufferBinding (h : Alike driverMax s t) (buffer : ℕ) :
    Alike driverMax { s with elementArrayBufferBinding := buffer }
      { t with elementArrayBufferBinding := buffer } :=
  ⟨h.vertexAttribs, h.vertexArrayBinding, h.arrayBufferBinding, rfl, h.limit,
    h.active, h.error, h.calls⟩

theorem forward (h : Alike driverMax s t) (call : DriverCall) :
    Alike driverMax (forward s call) (VertexAttribs.forward t call) := by
  refine ⟨h.vertexAttribs, h.vertexArrayBinding, h.arrayBufferBinding,
    h.elementArrayBufferBinding, h.limit, h.active, h.error, ?_⟩
  have hcalls := h.calls
  unfold passedOn at hcalls ⊢
  rw [VertexAttribs.forward, VertexAttribs.forward, List.filter_append, List.filter_append, hcalls]

theorem setError (h : Alike driverMax s t) (error : ℕ) :
    Alike driverMax (setError s error) (VertexAttribs.setError t error) := by
  unfold VertexAttribs.setError
  rw [h.active, h.error]
  split
  · exact ⟨h.vertexAttribs, h.vertexArrayBinding, h.arrayBufferBinding,
      h.elementArrayBufferBinding, h.limit, rfl, rfl, h.calls⟩
  · exact h

/-- Whether the number was asked for before. -/
theorem query (driverMax : ℤ) (s : ClientState) :
    Alike driverMax s (queryMaxVertexAttribs driverMax s) := by
  unfold queryMaxVertexAttribs
  split
  · exact refl driverMax s
  · rename_i hqueried
    refine ⟨rfl, rfl, rfl, rfl, ?_, rfl, rfl, ?_⟩
    · rw [indexLimit, indexLimit, if_pos rfl, if_neg hqueried]
    · simp [passedOn, VertexAttribs.forward]

/-- The check answers the same, and leaves them alike. -/
theorem doesIndexOverflow (h : Alike driverMax s t) (index : ℕ) :
    (doesIndexOverflow driverMax t index).2 =
        (VertexAttribs.doesIndexOverflow driverMax s index).2 ∧
      Alike driverMax (VertexAttribs.doesIndexOverflow driverMax s index).1
        (VertexAttribs.doesIndexOverflow driverMax t index).1 := by
  have hquery := ((query driverMax s).symm.trans h).trans (query driverMax t)
  simp only [VertexAttribs.doesIndexOverflow, maxVertexAttribs_query, h.limit]
  split
  · exact ⟨rfl, hquery⟩
  · exact ⟨rfl, hquery.setError _⟩

theorem bindBuffer (h : Alike driverMax s t) (target buffer : ℕ) :
    Alike driverMax (bindBuffer s target buffer) (VertexAttribs.bindBuffer t target buffer) := by
  unfold VertexAttribs.bindBuffer
  rw [h.arrayBufferBinding, h.elementArrayBufferBinding]
  split_ifs
  · exact h
  · exact (h.forward _).withArrayBufferBinding buffer
  · exact h
  · exact (h.forward _).withElementArrayBufferBinding buffer
  · exact h.setError _

/-- A walk in the table does the same in both. -/
theorem map_list (h : Alike driverMax s t) (list : Option AttribList) :
    Option.Rel (Alike driverMax) (list.map fun list => { s with vertexAttribs := list })
      (list.map fun list => { t with vertexAttribs := list }) := by
  cases list with
  | none => exact .none
  | some list => exact .some (h.withList rfl)

theorem setVertexAttribArray (h : Alike driverMax s t) (fuel index : ℕ) (enable : Bool) :
    Option.Rel (Alike driverMax) (setVertexAttribArray driverMax s fuel index enable)
      (VertexAttribs.setVertexAttribArray driverMax t fuel index enable) := by
  unfold VertexAttribs.setVertexAttribArray
  by_cases hbound : s.vertexArrayBinding ≠ 0
  · rw [if_pos hbound, if_pos (by rwa [h.vertexArrayBinding])]
    exact .some (h.forward _)
  rw [if_neg hbound, if_neg (by rwa [h.vertexArrayBinding]), h.vertexAttribs]
  split
  · rename_i a _
    split
    · exact .some h
    · obtain ⟨heq, hcheck⟩ := (h.withList
        (l := setArrayEnabled s.vertexAttribs a enable) rfl).doesIndexOverflow index
      simp only [heq]
      split
      · exact .some hcheck
      · have hsent := hcheck.forward (enableCall index enable)
        generalize VertexAttribs.forward _ _ = s at hsent ⊢
        generalize VertexAttribs.forward _ _ = t at hsent ⊢
        by_cases hbuffer : s.arrayBufferBinding ≠ 0
        · have hbuffer' : t.arrayBufferBinding ≠ 0 := by rwa [hsent.arrayBufferBinding]
          rw [if_pos hbuffer, if_pos hbuffer']
          exact .some hsent
        · have hbuffer' : ¬t.arrayBufferBinding ≠ 0 := by rwa [hsent.arrayBufferBinding]
          rw [if_neg hbuffer, if_neg hbuffer', hsent.vertexAttribs]
          exact hsent.map_list _
  · obtain ⟨heq, hcheck⟩ := h.doesIndexOverflow index
    simp only [heq]
    split
    · exact .some hcheck
    · have hsent := hcheck.forward (enableCall index enable)
      refine .some (hsent.withList ?_)
      rw [hsent.vertexAttribs, hsent.arrayBufferBinding]

theorem vertexAttribPointer (h : Alike driverMax s t) (fuel index : ℕ) (args : PointerArgs) :
    Option.Rel (Alike driverMax) (vertexAttribPointer driverMax s fuel index args)
      (VertexAttribs.vertexAttribPointer driverMax t fuel index args) := by
  unfold VertexAttribs.vertexAttribPointer
  split
  · exact .some (h.setError _)
  split
  · exact .some (h.setError _)
  obtain ⟨heq, hcheck⟩ := h.doesIndexOverflow index
  simp only [heq]
  split
  · exact .some hcheck
  generalize (VertexAttribs.doesIndexOverflow driverMax s index).1 = s at hcheck
  generalize (VertexAttribs.doesIndexOverflow driverMax t index).1 = t at hcheck
  by_cases hbound : s.vertexArrayBinding ≠ 0
  · have hbound' : t.vertexArrayBinding ≠ 0 := by rwa [hcheck.vertexArrayBinding]
    rw [if_pos hbound, if_pos hbound']
    exact .some (hcheck.forward _)
  have hbound' : ¬t.vertexArrayBinding ≠ 0 := by rwa [hcheck.vertexArrayBinding]
  have hsent : ∀ call : DriverCall, Alike driverMax
      (if s.arrayBufferBinding ≠ 0 then VertexAttribs.forward s call else s)
      (if s.arrayBufferBinding ≠ 0 then VertexAttribs.forward t call else t) := by
    intro call
    split
    · exact hcheck.forward call
    · exact hcheck
  rw [if_neg hbound, if_neg hbound', hcheck.vertexAttribs, hcheck.arrayBufferBinding]
  cases findIndex s.vertexAttribs index with
  | some a =>
    simp only
    split
    · exact .some hcheck
    · split
      · cases removeFromEnabledAttribList _ a fuel with
        | none => exact .none
        | some list =>
          simp only [Option.bind_eq_bind, Option.bind_some]
          cases addToEnabledAttribList list a fuel with
          | none => exact .none
          | some list => exact .some ((hsent _).withList rfl)
      · exact .some ((hsent _).withList rfl)
  | none => exact .some ((hsent _).withList rfl)

theorem runOp (h : Alike driverMax s t) (fuel : ℕ) (op : Op) :
    Option.Rel (Alike driverMax) (runOp driverMax fuel s op)
      (VertexAttribs.runOp driverMax fuel t op) := by
  cases op with
  | bindBuffer target buffer => exact .some (h.bindBuffer target buffer)
  | enableVertexAttribArray index => exact h.setVertexAttribArray fuel index true
  | disableVertexAttribArray index => exact h.setVertexAttribArray fuel index false
  | vertexAttribPointer index args => exact h.vertexAttribPointer fuel index args

theorem unbindBuffer (h : Alike driverMax s t) (buffer : ℕ) :
    Alike driverMax (Client.unbindBuffer s buffer) (Client.unbindBuffer t buffer) := by
  have harray := h.arrayBufferBinding
  have helement := h.elementArrayBufferBinding
  unfold Client.unbindBuffer
  split_ifs <;> first
    | exact h.withArrayBufferBinding 0
    | exact h.withElementArrayBufferBinding 0
    | exact h
    | omega

theorem unbindBuffers (h : Alike driverMax s t) (buffers : List ℕ) :
    Alike driverMax (buffers.foldl Client.unbindBuffer s)
      (buffers.foldl Client.unbindBuffer t) := by
  induction buffers generalizing s t with
  | nil => exact h
  | cons buffer buffers ih => exact ih (h.unbindBuffer buffer)

/-- A query that leaves the client. -/
theorem glGet (h : KeepsClient format driverMax g pname answer) (func : GetFunc) :
    Alike driverMax g.client (g.glGet format func pname answer).1.client := by
  obtain ⟨hbindings, hlimit⟩ := h
  cases pname with
  | glArrayBufferBinding =>
    obtain ⟨hbinding, hattribs⟩ := hbindings
    refine ⟨?_, rfl, hbinding, rfl, rfl, rfl, rfl, rfl⟩
    have hheap : ∀ l : Loc,
        (if l.block = g.client.vertexAttribs.attribs ∧ l.idx < g.client.vertexAttribs.count then
          { g.client.vertexAttribs.heap l with
            arrayBufferBinding := uint (answer.toInt format) }
        else g.client.vertexAttribs.heap l) = g.client.vertexAttribs.heap l := by
      rintro ⟨block, idx⟩
      split
      · rename_i hmem
        obtain ⟨rfl, hidx⟩ := hmem
        rw [← hattribs idx hidx]
      · rfl
    exact congrArg (fun heap => { g.client.vertexAttribs with heap := heap }) (funext hheap)
  | glElementArrayBufferBinding => exact ⟨rfl, rfl, hbindings, rfl, rfl, rfl, rfl, rfl⟩
  | glVertexArrayBindingOes => exact ⟨rfl, hbindings, rfl, rfl, rfl, rfl, rfl, rfl⟩
  | limit limit =>
    simp only [GetState.glGet, getTypeInfo, GetState.answerRow, reduceCtorEq, if_false]
    by_cases hqueried : (g.cell limit).queried = true
    · rw [if_pos hqueried]
      exact refl driverMax g.client
    rw [if_neg hqueried]
    by_cases hmax : limit = .maxVertexAttribs
    · subst hmax
      have hqueried : g.client.maxVertexAttribsQueried = false := by
        simpa [GetState.cell] using hqueried
      refine ⟨rfl, rfl, rfl, rfl, ?_, rfl, rfl, rfl⟩
      simp only [indexLimit, GetState.memoise, if_true, hlimit rfl hqueried, hqueried,
        Bool.false_eq_true, if_false]
    · simp only [client_memoise_of_ne hmax]
      exact refl driverMax g.client
  | _ => exact refl driverMax g.client

end Alike

/-- The clients are alike, and the same calls were sent. -/
structure AlikeStates (driverMax : ℤ) (b b' : BindingState F) : Prop where
  client : Alike driverMax b.state.client b'.state.client
  sent : b'.sent = b.sent

namespace AlikeStates

theorem sameClient (h : AlikeStates driverMax b b') : SameClient b b' := by
  refine ⟨h.client.calls, h.sent, ⟨h.client.arrayBufferBinding,
    h.client.elementArrayBufferBinding, h.client.vertexArrayBinding, fun i hi => ?_⟩, ?_, ?_⟩
  · rw [h.client.vertexAttribs]
  · rw [drawArraysAttribs, drawArraysAttribs, h.client.vertexArrayBinding, h.client.vertexAttribs]
  · rw [drawElementsAttribs, drawElementsAttribs, h.client.vertexArrayBinding,
      h.client.vertexAttribs, h.client.elementArrayBufferBinding]

theorem send {c c' : ClientState} (h : AlikeStates driverMax b b') (call : SentCall)
    (hclient : Alike driverMax c c') : AlikeStates driverMax (b.send call c) (b'.send call c') :=
  ⟨hclient, by rw [BindingState.send, BindingState.send, h.sent]⟩

/-- A call that is not a query does the same to both. -/
theorem run (h : AlikeStates driverMax b b') (fuel : ℕ) (hop : op.isQuery = false) :
    Option.Rel (AlikeStates driverMax) (op.run format driverMax fuel b)
      (op.run format driverMax fuel b') := by
  cases op with
  | attrib op =>
    have hrun := h.client.runOp fuel op
    simp only [BindingOp.run]
    generalize runOp driverMax fuel b.state.client op = c at hrun ⊢
    generalize runOp driverMax fuel b'.state.client op = c' at hrun ⊢
    cases hrun with
    | none => exact .none
    | some hclient => exact .some ⟨hclient, h.sent⟩
  | glBindVertexArrayOES array =>
    simp only [BindingOp.run, BindingState.glBindVertexArrayOES, h.client.vertexArrayBinding]
    split
    · exact .some h
    · exact .some (h.send _ (h.client.withVertexArrayBinding array))
  | glDeleteVertexArraysOES arrays =>
    simp only [BindingOp.run, BindingState.glDeleteVertexArraysOES, h.client.vertexArrayBinding]
    split
    · exact .some ⟨h.client.setError _, h.sent⟩
    · split
      · exact .some (h.send _ (h.client.withVertexArrayBinding 0))
      · exact .some (h.send _ h.client)
  | glIsVertexArrayOES array answer =>
    simp only [BindingOp.run, BindingState.glIsVertexArrayOES, h.client.vertexArrayBinding]
    split
    · exact .some (h.send _ (h.client.withVertexArrayBinding 0))
    · exact .some (h.send _ h.client)
  | glDeleteBuffers buffers =>
    have hclient := h.client.unbindBuffers buffers
    exact .some (h.send _ (hclient.withList (by rw [hclient.vertexAttribs])))
  | query func pname answer => cases hop

/-- A query that leaves the client is as if it was not made. -/
theorem query (h : AlikeStates driverMax b b')
    (hkeeps : KeepsClient format driverMax b.state pname answer) (func : GetFunc) :
    AlikeStates driverMax
      { b with state := (b.state.glGet format func pname answer).1 } b' :=
  ⟨(Alike.glGet hkeeps func).symm.trans h.client, h.sent⟩

/-- A program and the one without the queries. -/
theorem runBindings (h : AlikeStates driverMax b b') (ops : List (BindingOp F))
    (hkeeps : KeepsClients format driverMax fuel b ops) :
    Option.Rel (AlikeStates driverMax) (runBindings format driverMax fuel b ops)
      (runBindings format driverMax fuel b' (ops.filter fun op => !op.isQuery)) := by
  induction ops generalizing b b' with
  | nil => exact .some h
  | cons op ops ih =>
    cases hop : op.isQuery with
    | true =>
      rw [List.filter_cons_of_neg (by simp [hop])]
      cases op with
      | query func pname answer =>
        obtain ⟨hquery, hrest⟩ := hkeeps _ rfl
        exact ih (h.query (hquery func pname answer rfl) func) hrest
      | _ => cases hop
    | false =>
      rw [List.filter_cons_of_pos (by simp [hop])]
      have hrun : Option.Rel (AlikeStates driverMax) (op.run format driverMax fuel b)
          (op.run format driverMax fuel b') := h.run fuel hop
      simp only [Queries.runBindings, List.foldlM_cons]
      generalize hb : op.run format driverMax fuel b = c at hrun
      generalize op.run format driverMax fuel b' = c' at hrun
      cases hrun with
      | none => exact .none
      | some hc => exact ih hc (hkeeps _ hb).2

end AlikeStates

/-- A query leaves the bindings if and only if its answer is what it stores it in already. A
program of which all queries do so passes the same calls on without them, and draws make the
same of the attributes. -/
theorem queries_keep_bindings (format : FloatFormat F) (driverMax : ℤ) :
    (∀ (g : GetState F) (func : GetFunc) (pname : Pname) (answer : Value F),
      BindingsKept g.client (g.glGet format func pname answer).1.client ↔
        KeepsBindings format g.client pname answer) ∧
    ∀ (fuel : ℕ) (b : BindingState F) (ops : List (BindingOp F)),
      KeepsClients format driverMax fuel b ops →
        Option.Rel SameClient (runBindings format driverMax fuel b ops)
          (runBindings format driverMax fuel b (ops.filter fun op => !op.isQuery)) := by
  refine ⟨bindingsKept_glGet_iff, fun fuel b ops hkeeps => ?_⟩
  have halike : AlikeStates driverMax b b := ⟨.refl driverMax b.state.client, rfl⟩
  have hrun := halike.runBindings ops hkeeps
  generalize runBindings format driverMax fuel b ops = c at hrun
  generalize runBindings format driverMax fuel b _ = c' at hrun
  cases hrun with
  | none => exact .none
  | some hsame => exact .some hsame.sameClient

/-- A new context, in memory that is zero. -/
def bindingInitial : BindingState ℚ :=
  ⟨.init rationalFormat (fun _ => freshAttrib 0 0 false) (fun _ => false) fun _ => 0, []⟩

/-- The buffer that is bound is asked for between two calls that bind it. -/
theorem queries_keep_bindings_bound : Option.Rel SameClient
    (runBindings rationalFormat 16 1 bindingInitial
      [.attrib (.bindBuffer glArrayBuffer 1), .query .glGetIntegerv .glArrayBufferBinding (.int 1),
        .attrib (.bindBuffer glArrayBuffer 1)])
    (runBindings rationalFormat 16 1 bindingInitial
      [.attrib (.bindBuffer glArrayBuffer 1), .attrib (.bindBuffer glArrayBuffer 1)]) := by
  refine (queries_keep_bindings rationalFormat 16).2 1 bindingInitial
    [.attrib (.bindBuffer glArrayBuffer 1), .query .glGetIntegerv .glArrayBufferBinding (.int 1),
      .attrib (.bindBuffer glArrayBuffer 1)] fun b hb =>
    ⟨?_, fun c _ => ⟨?_, fun d _ => ⟨?_, trivial⟩⟩⟩
  · rintro func pname answer ⟨⟩
  · rintro func pname answer ⟨⟩
    cases hb
    exact ⟨⟨by decide, fun i hi => absurd hi (Nat.not_lt_zero i)⟩, by rintro ⟨⟩⟩
  · rintro func pname answer ⟨⟩

/-- The element array buffer is asked for while a buffer is bound to the other target. That is
then not unbound. -/
theorem exists_rebound_buffer : ∃ b : BindingState ℚ,
    runBindings rationalFormat 16 1 bindingInitial [.attrib (.bindBuffer glArrayBuffer 1)] =
      some b ∧
    ¬BindingsKept b.state.client
      (b.state.glGet rationalFormat .glGetIntegerv .glElementArrayBufferBinding (.int 0)).1.client ∧
    ¬Option.Rel SameClient
      (runBindings rationalFormat 16 1 b
        [.query .glGetIntegerv .glElementArrayBufferBinding (.int 0),
          .attrib (.bindBuffer glArrayBuffer 0)])
      (runBindings rationalFormat 16 1 b [.attrib (.bindBuffer glArrayBuffer 0)]) := by
  refine ⟨_, rfl, fun h => ?_, fun h => ?_⟩
  · exact absurd h.arrayBuffer (by decide)
  · cases h with
    | some hsame => exact absurd hsame.calls (by decide)

end GpuProxy.Queries
