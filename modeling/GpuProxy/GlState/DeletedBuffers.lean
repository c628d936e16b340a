import GpuProxy.GlState.Rejected

/-!
# Bindings of deleted buffers

`glDeleteBuffers` should take the names it is given out of the bindings of the context and of the
attributes, and leave all other bindings. The first loop looks at the element array buffer only
when the array buffer is another one, and the second decides by the first attribute for all.

## Main definitions

* `Unbound` — what becomes of a binding
* `UnbindsDeleted` — the same for all bindings of a context
* `DeletesSeparately` — the bindings for which the two loops do that

## Main results

* `unbindsDeleted_iff` — they do it for these bindings only
* `exists_stale_binding` — a buffer that is bound twice
-/

namespace GpuProxy.GlState

open Math Objects Textures

/-- No deleted name is left, and a name that is not deleted stays. -/
def Unbound (buffers : List ℕ) (before after : ℕ) : Prop :=
  (after ≠ 0 → after ∉ buffers) ∧ (before ∉ buffers → after = before)

/-- The buffer an attribute of the table is bound to. -/
def attribBinding (s : VertexAttribs.ClientState) (i : ℕ) : ℕ :=
  (s.vertexAttribs.heap ⟨s.vertexAttribs.attribs, i⟩).arrayBufferBinding

/-- The deleted buffers, and no others, are taken out of all bindings. -/
structure UnbindsDeleted (s t : VertexAttribs.ClientState) (buffers : List ℕ) : Prop where
  arrayBuffer : Unbound buffers s.arrayBufferBinding t.arrayBufferBinding
  elementArrayBuffer : Unbound buffers s.elementArrayBufferBinding t.elementArrayBufferBinding
  attribs : ∀ i < s.vertexAttribs.count, Unbound buffers (attribBinding s i) (attribBinding t i)

/-- A buffer that is bound as both array buffers is not deleted just once; and the buffers the
attributes are bound to are all deleted, or none is, as the one of the first attribute. -/
structure DeletesSeparately (s : VertexAttribs.ClientState) (buffers : List ℕ) : Prop where
  context : s.elementArrayBufferBinding = 0 ∨
    s.elementArrayBufferBinding ≠ s.arrayBufferBinding ∨
    buffers.count s.elementArrayBufferBinding ≠ 1
  attribs : ∀ i < s.vertexAttribs.count, attribBinding s i = 0 ∨
    (attribBinding s i ∈ buffers ↔ attribBinding s 0 ∈ buffers)

variable {s t : VertexAttribs.ClientState} {buffers : List ℕ} {F : Type} {c : Client F}
  {before : ℕ}

/-! ### One binding -/

theorem unbound_zero_iff : Unbound buffers before 0 ↔ before = 0 ∨ before ∈ buffers := by
  unfold Unbound
  constructor
  · rintro ⟨-, hkeeps⟩
    by_cases hmem : before ∈ buffers
    · exact .inr hmem
    · exact .inl (hkeeps hmem).symm
  · rintro (rfl | hmem)
    · exact ⟨fun h => absurd rfl h, fun _ => rfl⟩
    · exact ⟨fun h => absurd rfl h, fun h => absurd hmem h⟩

theorem unbound_self_iff : Unbound buffers before before ↔ before = 0 ∨ before ∉ buffers := by
  unfold Unbound
  constructor
  · rintro ⟨hgone, -⟩
    by_cases hzero : before = 0
    · exact .inl hzero
    · exact .inr (hgone hzero)
  · rintro (rfl | hmem)
    · exact ⟨fun h => absurd rfl h, fun _ => rfl⟩
    · exact ⟨fun _ => hmem, fun _ => rfl⟩

/-! ### The two loops -/

theorem arrayBufferBinding_unbindBuffers :
    (buffers.foldl Client.unbindBuffer s).arrayBufferBinding =
      if s.arrayBufferBinding ∈ buffers then 0 else s.arrayBufferBinding := by
  induction buffers generalizing s with
  | nil => simp
  | cons buffer buffers ih =>
    rw [List.foldl_cons, ih]
    unfold Client.unbindBuffer
    split_ifs <;> simp_all

theorem elementArrayBufferBinding_unbindBuffers_of_zero (hzero : s.elementArrayBufferBinding = 0) :
    (buffers.foldl Client.unbindBuffer s).elementArrayBufferBinding = 0 := by
  induction buffers generalizing s with
  | nil => exact hzero
  | cons buffer buffers ih =>
    apply ih
    unfold Client.unbindBuffer
    split_ifs
    · exact hzero
    · rfl
    · exact hzero

/-- A buffer that is also the array buffer is taken out of that binding first. -/
theorem elementArrayBufferBinding_unbindBuffers (hne : s.elementArrayBufferBinding ≠ 0) :
    (buffers.foldl Client.unbindBuffer s).elementArrayBufferBinding =
      if s.elementArrayBufferBinding ∉ buffers ∨
          s.elementArrayBufferBinding = s.arrayBufferBinding ∧
            buffers.count s.elementArrayBufferBinding = 1 then s.elementArrayBufferBinding
      else 0 := by
  induction buffers generalizing s with
  | nil => simp
  | cons buffer buffers ih =>
    rw [List.foldl_cons]
    by_cases harray : buffer = s.arrayBufferBinding
    · have hround : Client.unbindBuffer s buffer = { s with arrayBufferBinding := 0 } := by
        simp [Client.unbindBuffer, harray]
      rw [hround]
      refine (ih (s := { s with arrayBufferBinding := 0 }) hne).trans ?_
      by_cases heq : s.elementArrayBufferBinding = s.arrayBufferBinding
      · have hself : buffer = s.elementArrayBufferBinding := harray.trans heq.symm
        simp [hself, heq.symm, hne, List.count_eq_zero]
      · have hother : s.elementArrayBufferBinding ≠ buffer := fun h => heq (h.trans harray)
        simp [heq, hne, hother]
    · by_cases helement : buffer = s.elementArrayBufferBinding
      · have hround : Client.unbindBuffer s buffer = { s with elementArrayBufferBinding := 0 } := by
          unfold Client.unbindBuffer
          rw [if_neg harray, if_pos helement]
        rw [hround, if_neg]
        · exact elementArrayBufferBinding_unbindBuffers_of_zero rfl
        rintro (hmem | ⟨heq, -⟩)
        · exact hmem (helement ▸ List.mem_cons_self)
        · exact harray (helement.trans heq)
      · have hround : Client.unbindBuffer s buffer = s := by
          simp [Client.unbindBuffer, harray, helement]
        rw [hround, ih hne]
        simp [Ne.symm helement, List.count_cons_of_ne helement]

theorem vertexAttribs_unbindBuffers :
    (buffers.foldl Client.unbindBuffer s).vertexAttribs = s.vertexAttribs := by
  induction buffers generalizing s with
  | nil => rfl
  | cons buffer buffers ih =>
    rw [List.foldl_cons, ih]
    unfold Client.unbindBuffer
    split_ifs <;> rfl

/-- The first attribute decides for all. -/
theorem arrayBufferBinding_unbindAttribs {list : VertexAttribs.AttribList} {i : ℕ}
    (hi : i < list.count) :
    ((Client.unbindAttribs list buffers).heap
        ⟨(Client.unbindAttribs list buffers).attribs, i⟩).arrayBufferBinding =
      if (list.heap ⟨list.attribs, 0⟩).arrayBufferBinding ∈ buffers then 0
      else (list.heap ⟨list.attribs, i⟩).arrayBufferBinding := by
  have hcount : list.count ≠ 0 := by omega
  unfold Client.unbindAttribs
  by_cases hmem : (list.heap ⟨list.attribs, 0⟩).arrayBufferBinding ∈ buffers
  · simp [hmem, hcount, hi]
  · simp [hmem]

/-! ### Main result -/

variable (c buffers) in
theorem attribBinding_glDeleteBuffers {i : ℕ} (hi : i < c.attribs.vertexAttribs.count) :
    attribBinding (c.glDeleteBuffers buffers).attribs i =
      if attribBinding c.attribs 0 ∈ buffers then 0 else attribBinding c.attribs i := by
  have hlist : (c.glDeleteBuffers buffers).attribs.vertexAttribs =
      Client.unbindAttribs c.attribs.vertexAttribs buffers := by
    simp only [Client.glDeleteBuffers, vertexAttribs_unbindBuffers]
  unfold attribBinding
  rw [hlist]
  exact arrayBufferBinding_unbindAttribs hi

theorem unbound_elementArrayBuffer_iff :
    Unbound buffers s.elementArrayBufferBinding
        (buffers.foldl Client.unbindBuffer s).elementArrayBufferBinding ↔
      s.elementArrayBufferBinding = 0 ∨ s.elementArrayBufferBinding ≠ s.arrayBufferBinding ∨
        buffers.count s.elementArrayBufferBinding ≠ 1 := by
  by_cases hzero : s.elementArrayBufferBinding = 0
  · rw [elementArrayBufferBinding_unbindBuffers_of_zero hzero, unbound_zero_iff]
    simp [hzero]
  rw [elementArrayBufferBinding_unbindBuffers hzero]
  by_cases hmem : s.elementArrayBufferBinding ∈ buffers
  · by_cases hkept : s.elementArrayBufferBinding = s.arrayBufferBinding ∧
        buffers.count s.elementArrayBufferBinding = 1
    · rw [if_pos (.inr hkept), unbound_self_iff]
      tauto
    · rw [if_neg (by tauto), unbound_zero_iff]
      tauto
  · rw [if_pos (.inl hmem), unbound_self_iff]
    simp [hmem, List.count_eq_zero_of_not_mem hmem]

theorem unbound_attrib_iff {i : ℕ} (hi : i < c.attribs.vertexAttribs.count) :
    Unbound buffers (attribBinding c.attribs i)
        (attribBinding (c.glDeleteBuffers buffers).attribs i) ↔
      attribBinding c.attribs i = 0 ∨
        (attribBinding c.attribs i ∈ buffers ↔ attribBinding c.attribs 0 ∈ buffers) := by
  rw [attribBinding_glDeleteBuffers buffers c hi]
  by_cases hfirst : attribBinding c.attribs 0 ∈ buffers
  · rw [if_pos hfirst, unbound_zero_iff]
    simp [hfirst]
  · rw [if_neg hfirst, unbound_self_iff]
    simp [hfirst]

theorem deletesSeparately_of_unbindsDeleted
    (h : UnbindsDeleted c.attribs (c.glDeleteBuffers buffers).attribs buffers) :
    DeletesSeparately c.attribs buffers :=
  ⟨unbound_elementArrayBuffer_iff.1 h.elementArrayBuffer,
    fun i hi => (unbound_attrib_iff hi).1 (h.attribs i hi)⟩

/-- Exactly the deleted buffers are unbound, if and only if no deleted buffer is bound twice in
the context, and the buffers of all attributes share the fate of that of the first. -/
theorem unbindsDeleted_iff :
    UnbindsDeleted c.attribs (c.glDeleteBuffers buffers).attribs buffers ↔
      DeletesSeparately c.attribs buffers := by
  have harray : Unbound buffers c.attribs.arrayBufferBinding
      (c.glDeleteBuffers buffers).attribs.arrayBufferBinding := by
    change Unbound buffers c.attribs.arrayBufferBinding
      (buffers.foldl Client.unbindBuffer c.attribs).arrayBufferBinding
    rw [arrayBufferBinding_unbindBuffers]
    by_cases hmem : c.attribs.arrayBufferBinding ∈ buffers
    · rw [if_pos hmem, unbound_zero_iff]
      exact .inr hmem
    · rw [if_neg hmem, unbound_self_iff]
      exact .inr hmem
  constructor
  · exact deletesSeparately_of_unbindsDeleted
  · rintro ⟨hcontext, hattribs⟩
    exact ⟨harray, unbound_elementArrayBuffer_iff.2 hcontext,
      fun i hi => (unbound_attrib_iff hi).2 (hattribs i hi)⟩

/-- A buffer that is bound to both targets and deleted once is still the element array
buffer. -/
theorem exists_stale_binding :
    ∃ c : Client ℚ, (VertexAttribs.system 16).Reachable c.attribs ∧
      ¬UnbindsDeleted c.attribs (c.glDeleteBuffers [1]).attribs [1] := by
  let heap : VertexAttribs.Loc → VertexAttribs.VertexAttrib :=
    fun _ => VertexAttribs.freshAttrib 0 0 false
  have hinit : (VertexAttribs.system 16).Reachable (VertexAttribs.initial heap) :=
    .init ⟨_, rfl⟩
  have harray := hinit.step (a := .bindBuffer VertexAttribs.glArrayBuffer 1) ⟨0, rfl⟩
  have helement := harray.step (a := .bindBuffer VertexAttribs.glElementArrayBuffer 1) ⟨0, rfl⟩
  let client : Client ℚ := .init rationalFormat heap fun _ => 0
  refine ⟨{ client with attribs := _ }, helement, fun hunbinds => ?_⟩
  obtain ⟨hzero | hne | hcount, -⟩ := deletesSeparately_of_unbindsDeleted hunbinds
  · exact absurd hzero (by decide)
  · exact hne rfl
  · exact hcount rfl

end GpuProxy.GlState
