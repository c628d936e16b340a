import GpuProxy.Queries.Getters

/-!
# Queries for what was set

Beside the fields are kept the values that an application has given to the items of the state
with the calls that were accepted, each item by itself. Here is which of the queries that are
answered from the fields answer with them.

## Main definitions

* `Items`, `Items.ints`, `Items.floats` — what was set, and which `pname` asks for what
* `SetCall`, `SetHistory` — the calls, and the fields beside the items
* `RightAnswers` — which answers are right, given what was set of the stencil state
* `KeepsFactors` — the calls of `glBlendFuncSeparate` after which the factors are right

## Main results

* `rightAnswers_along_iff` — when the answers are right all along
* `exists_wrong_answer` — a reference value of the back faces
-/

namespace GpuProxy.Queries

open GlState Math Objects Textures VertexAttribs

/-! ### What was set -/

/-- The items of the state, apart from those that no call sets. -/
structure Items (F : Type) where
  blend : BlendMachine
  stencil : StencilMachine
  scalars : ScalarServer F
  pixelStore : PixelParameter → ℤ
  currentProgram : ℕ

namespace Items

variable {F : Type}

/-- The initial values that `egl_state.h` documents. -/
def init (F : Type) [Zero F] [One F] : Items F where
  blend := .init
  stencil := .init
  scalars := ⟨.init F, fun _ => false, fun _ => glDontCare⟩
  pixelStore := PixelStore.initial.value
  currentProgram := 0

variable (m : Items F)

/-- The items that are integers, or enumerations and booleans. -/
def ints : Pname → Option (List ℤ)
  | .glBlend => some [(m.scalars.scalars.capabilities .blend).toNat]
  | .glColorWritemask =>
    let (red, green, blue, alpha) := m.scalars.scalars.colorWritemask
    some [red, green, blue, alpha]
  | .glCullFace => some [(m.scalars.scalars.capabilities .cullFace).toNat]
  | .glDepthTest => some [(m.scalars.scalars.capabilities .depthTest).toNat]
  | .glDepthWritemask => some [m.scalars.scalars.depthWritemask]
  | .glDither => some [(m.scalars.scalars.capabilities .dither).toNat]
  | .glPolygonOffsetFill => some [(m.scalars.scalars.capabilities .polygonOffsetFill).toNat]
  | .glSampleAlphaToCoverage =>
    some [(m.scalars.scalars.capabilities .sampleAlphaToCoverage).toNat]
  | .glSampleCoverage => some [(m.scalars.scalars.capabilities .sampleCoverage).toNat]
  | .glScissorTest => some [(m.scalars.scalars.capabilities .scissorTest).toNat]
  | .glShaderCompiler => some [1]
  | .glStencilTest => some [(m.scalars.scalars.capabilities .stencilTest).toNat]
  | .glBlendDstAlpha => some [m.blend.dstAlpha]
  | .glBlendDstRGB => some [m.blend.dstRGB]
  | .glBlendEquationAlpha => some [m.blend.equationAlpha]
  | .glBlendEquationRGB => some [m.blend.equationRGB]
  | .glBlendSrcAlpha => some [m.blend.srcAlpha]
  | .glBlendSrcRGB => some [m.blend.srcRGB]
  | .glActiveTexture => some [GlState.glTexture0]
  | .glCurrentProgram => some [m.currentProgram]
  | .glDepthFunc => some [m.scalars.scalars.depthFunc]
  | .glGenerateMipmapHint => some [m.scalars.scalars.generateMipmapHint]
  | .glScissorBox =>
    let (x, y, width, height) := m.scalars.scalars.scissorBox
    some [x, y, width, height]
  | .glStencilBackFail => some [(m.stencil (.op .back)).1]
  | .glStencilBackFunc => some [(m.stencil (.func .back)).1]
  | .glStencilBackPassDepthFail => some [(m.stencil (.op .back)).2.1]
  | .glStencilBackPassDepthPass => some [(m.stencil (.op .back)).2.2]
  | .glStencilBackRef => some [(m.stencil (.func .back)).2.1]
  | .glStencilBackValueMask => some [(m.stencil (.func .back)).2.2.toInt]
  | .glStencilClearValue => some [m.scalars.scalars.stencilClearValue]
  | .glStencilFail => some [(m.stencil (.op .front)).1]
  | .glStencilFunc => some [(m.stencil (.func .front)).1]
  | .glStencilPassDepthFail => some [(m.stencil (.op .front)).2.1]
  | .glStencilPassDepthPass => some [(m.stencil (.op .front)).2.2]
  | .glStencilRef => some [(m.stencil (.func .front)).2.1]
  | .glStencilValueMask => some [(m.stencil (.func .front)).2.2.toInt]
  | .glStencilWritemask => some [(m.stencil (.writemask .front)).toInt]
  | .glStencilBackWritemask => some [(m.stencil (.writemask .back)).toInt]
  | .glViewport =>
    let (x, y, width, height) := m.scalars.scalars.viewport
    some [x, y, width, height]
  | .glUnpackRowLength => some [m.pixelStore .unpackRowLength]
  | .glUnpackSkipRows => some [m.pixelStore .unpackSkipRows]
  | .glUnpackSkipPixels => some [m.pixelStore .unpackSkipPixels]
  | _ => none

/-- The items that are floats. -/
def floats : Pname → Option (List F)
  | .glBlendColor =>
    let (red, green, blue, alpha) := m.scalars.scalars.blendColor
    some [red, green, blue, alpha]
  | .glColorClearValue =>
    let (red, green, blue, alpha) := m.scalars.scalars.colorClearValue
    some [red, green, blue, alpha]
  | .glDepthClearValue => some [m.scalars.scalars.depthClearValue]
  | .glDepthRange => some [m.scalars.scalars.depthRange.1, m.scalars.scalars.depthRange.2]
  | .glLineWidth => some [m.scalars.scalars.lineWidth]
  | .glPolygonOffsetFactor => some [m.scalars.scalars.polygonOffset.1]
  | .glPolygonOffsetUnits => some [m.scalars.scalars.polygonOffset.2]
  | _ => none

end Items

/-! ### The calls -/

/-- The calls that set items; creating and deleting programs is for `glUseProgram`. -/
inductive SetCall (F : Type)
  | blend (call : BlendCall)
  | stencil (call : StencilCall)
  | scalar (call : ScalarCall F)
  | glPixelStorei (pname : Option PixelParameter) (param : GLint)
  | program (op : ProgramOp)

/-- The fields, the items, and the parts of the stencil state that were set. -/
structure SetHistory (F : Type) where
  state : GetState F
  items : Items F
  covered : StencilCell → Bool

/-- A call is accepted if it records no error. -/
def accepted {α : Type} (effects : List (Effect α)) : Bool :=
  effects.all fun
    | .forward _ => true
    | .setError _ => false

namespace SetHistory

variable {F : Type} [Zero F]

/-- A new context. -/
def init [One F] (format : FloatFormat F) (heap : Loc → VertexAttrib) (memory : Limit → Bool)
    (textures : ℕ → ℕ) : SetHistory F :=
  ⟨.init format heap memory textures, .init F, fun _ => false⟩

variable [DecidableEq F] [LT F] [DecidableLT F] (h : SetHistory F)

/-- A call, which changes the items only if it is accepted. -/
def step : SetCall F → Option (SetHistory F)
  | .blend call =>
    let result := blendEntry h.state.blend call
    some
      { h with
        state := { h.state with blend := result.1 }
        items := { h.items with
          blend := if accepted result.2 then h.items.blend.exec call else h.items.blend } }
  | .stencil call =>
    let result := stencilEntry h.state.stencil call
    some
      { state := { h.state with stencil := result.1 }
        items := { h.items with
          stencil := if accepted result.2 then h.items.stencil.exec call else h.items.stencil }
        covered := fun cell => h.covered cell ||
          accepted result.2 && decide (cell ∈ (stencilWrites call).map Sigma.fst) }
  | .scalar call =>
    let result := scalarEntry h.state.scalars call
    some
      { h with
        state := { h.state with scalars := result.1 }
        items := { h.items with
          scalars := if accepted result.2 then h.items.scalars.exec call else h.items.scalars } }
  | .glPixelStorei pname param =>
    let result := glPixelStorei h.state.pixelStore pname param
    some
      { h with
        state := { h.state with pixelStore := result.store }
        items := { h.items with
          pixelStore := match pname with
            | some p =>
              if result.invalidValue then h.items.pixelStore
              else Function.update h.items.pixelStore p param
            | none => h.items.pixelStore } }
  | .program .glCreateProgram =>
    (h.state.group.glCreateProgram 0).map fun result =>
      { h with state := { h.state with group := result.1 } }
  | .program (.glUseProgram program) =>
    let result := h.state.group.glUseProgram 0 program
    some
      { h with
        state := { h.state with group := result.1 }
        items := { h.items with
          currentProgram := if accepted result.2 then program else h.items.currentProgram } }
  | .program (.glDeleteProgram program) =>
    some
      { h with state := { h.state with group := h.state.group.glDeleteProgram 0 program } }

end SetHistory

variable {F : Type}

/-- What was set of the stencil state is what is answered. Two queries for the back faces are
answered from the front faces, and the masks do not start with the value documented. -/
def ReadsStencil (h : SetHistory F) : Pname → Prop
  | .glStencilBackRef =>
    (h.items.stencil (.func .front)).2.1 = (h.items.stencil (.func .back)).2.1
  | .glStencilValueMask => h.covered (.func .front) = true
  | .glStencilBackValueMask =>
    (if h.covered (.func .front) then (h.items.stencil (.func .front)).2.2 else memsetMask 1) =
      (h.items.stencil (.func .back)).2.2
  | .glStencilWritemask => h.covered (.writemask .front) = true
  | .glStencilBackWritemask => h.covered (.writemask .back) = true
  | _ => True

/-- The queries that are answered from the fields answer with the items, exactly if they do so
for the stencil state. -/
structure RightAnswers (format : FloatFormat F) (h : SetHistory F) : Prop where
  ints : ∀ pname values answer, h.items.ints pname = some values →
    ((h.state.glGet format .glGetIntegerv pname answer).2 = .stored (values.map .int) ↔
      ReadsStencil h pname)
  floats : ∀ pname values answer, h.items.floats pname = some values →
    (h.state.glGet format .glGetFloatv pname answer).2 = .stored (values.map .float)

/-- A call leaves the blend factors right. -/
def KeepsFactors (h : SetHistory F) : SetCall F → Prop
  | .blend call => KeepsBlend h.state.blend call
  | _ => True

/-! ### Blend state -/

section Blend

variable {b : BlendState} {m : BlendMachine} {call : BlendCall}

/-- Everything but the destination factors is as in the machine. -/
structure SourceAgrees (b : BlendState) (m : BlendMachine) : Prop where
  equation : b.blendEquation = (m.equationRGB, m.equationAlpha)
  src : b.blendSrc = (m.srcRGB, m.srcAlpha)

/-- The factors are small enough for a `GLfloat`. -/
structure SmallFactors (b : BlendState) : Prop where
  src : b.blendSrc.1 ≤ 0x8004 ∧ b.blendSrc.2 ≤ 0x8004
  dst : b.blendDst.1 ≤ 0x8004 ∧ b.blendDst.2 ≤ 0x8004

/-- A call that is an error is one that the machine ignores. -/
theorem exec_of_rejected (m : BlendMachine) (h : accepted (blendEntry b call).2 = false) :
    m.exec call = m := by
  cases call with
  | glBlendEquation mode =>
    simp only [blendEntry, glBlendEquation] at h
    split_ifs at h with hsame hvalid <;> cases h
    exact if_neg hvalid
  | glBlendEquationSeparate modeRGB modeAlpha =>
    simp only [blendEntry, glBlendEquationSeparate] at h
    split_ifs at h with hsame hinvalid <;> cases h
    exact if_neg (by grind)
  | glBlendFunc sfactor dfactor =>
    simp only [blendEntry, glBlendFunc] at h
    split_ifs at h with hsame hinvalid <;> cases h
    exact if_neg (by grind)
  | glBlendFuncSeparate srcRGB dstRGB srcAlpha dstAlpha =>
    simp only [blendEntry, glBlendFuncSeparate] at h
    split_ifs at h with hsame hvalid <;> cases h
    exact if_neg hvalid

/-- A call leaves the cells as the machine has them exactly if it leaves the factors right. -/
theorem view_blendEntry_iff :
    (blendEntry b call).1.view = b.view.exec call ↔ KeepsBlend b call := by
  refine ⟨fun h => executesBlend_iff.mp ⟨h, ?_⟩, fun h => (executesBlend_iff.mpr h).1⟩
  cases call with
  | glBlendFuncSeparate srcRGB dstRGB srcAlpha dstAlpha =>
    simp only [blendEntry, glBlendFuncSeparate] at h ⊢
    split_ifs at h ⊢ with hsame hvalid
    · exact h
    · rfl
    · exact h
  | glBlendEquation mode => exact executes_glBlendEquation.2
  | glBlendEquationSeparate modeRGB modeAlpha => exact executes_glBlendEquationSeparate.2
  | glBlendFunc sfactor dfactor => exact executes_glBlendFunc.2

theorem SourceAgrees.blendEntry (h : SourceAgrees b m) :
    SourceAgrees (blendEntry b call).1 (m.exec call) := by
  obtain ⟨hequation, hsrc⟩ := h
  cases call <;>
    simp only [GlState.blendEntry, glBlendEquation, glBlendEquationSeparate, glBlendFunc,
      glBlendFuncSeparate, BlendState.hasFactors, BlendMachine.exec, hequation, hsrc] <;>
    split_ifs <;> constructor <;> simp_all [areValidFactors]

theorem le_of_isValidSrcBlendFactor {value : ℕ} (h : isValidSrcBlendFactor value = true) :
    value ≤ 0x8004 := by
  have hall : ∀ v ∈ [glZero, glOne, glSrcColor, glOneMinusSrcColor, glDstColor,
      glOneMinusDstColor, glSrcAlpha, glOneMinusSrcAlpha, glDstAlpha, glOneMinusDstAlpha,
      glConstantColor, glOneMinusConstantColor, glConstantAlpha, glOneMinusConstantAlpha,
      glSrcAlphaSaturate], v ≤ 0x8004 := by
    decide
  exact hall value (of_decide_eq_true h)

/-- The factors for the destination are among those for the source. -/
theorem le_of_isValidDstBlendFactor {value : ℕ} (h : isValidDstBlendFactor value = true) :
    value ≤ 0x8004 := by
  refine le_of_isValidSrcBlendFactor ?_
  simp only [isValidDstBlendFactor, isValidSrcBlendFactor, List.mem_cons, decide_eq_true_eq] at h ⊢
  grind

theorem SmallFactors.blendEntry (h : SmallFactors b) :
    SmallFactors (blendEntry b call).1 := by
  cases call with
  | glBlendEquation mode =>
    simp only [GlState.blendEntry, glBlendEquation]
    split_ifs <;> exact ⟨h.src, h.dst⟩
  | glBlendEquationSeparate modeRGB modeAlpha =>
    simp only [GlState.blendEntry, glBlendEquationSeparate]
    split_ifs <;> exact ⟨h.src, h.dst⟩
  | glBlendFunc sfactor dfactor =>
    simp only [GlState.blendEntry, glBlendFunc]
    split_ifs with hsame hinvalid
    · exact h
    · exact h
    · rw [not_or, not_not, not_not] at hinvalid
      have hsrc := le_of_isValidSrcBlendFactor hinvalid.1
      have hdst := le_of_isValidDstBlendFactor hinvalid.2
      exact ⟨⟨hsrc, hsrc⟩, ⟨hdst, hdst⟩⟩
  | glBlendFuncSeparate srcRGB dstRGB srcAlpha dstAlpha =>
    simp only [GlState.blendEntry, glBlendFuncSeparate]
    split_ifs with hsame hvalid
    · exact h
    · simp only [areValidFactors, Bool.and_eq_true] at hvalid
      obtain ⟨⟨⟨hsrcRGB, hsrcAlpha⟩, -⟩, hdstAlpha⟩ := hvalid
      exact ⟨⟨le_of_isValidSrcBlendFactor hsrcRGB, le_of_isValidSrcBlendFactor hsrcAlpha⟩,
        ⟨le_of_isValidDstBlendFactor hdstAlpha, h.dst.2⟩⟩
    · exact h

end Blend

/-! ### Stencil state -/

section Stencil

variable {s : StencilState} {m : StencilMachine} {call : StencilCall} {cell : StencilCell}
  {covered : StencilCell → Bool}

/-- The fields have what was set; and where nothing was set, both have their initial values. -/
def StencilAgrees (s : StencilState) (m : StencilMachine) (covered : StencilCell → Bool) : Prop :=
  ∀ cell, if covered cell then s.view cell = m cell
    else s.view cell = StencilState.init.view cell ∧ m cell = StencilMachine.init cell

theorem stencilWrites_funcSeparate_of_rejected {face func : ℕ} {ref : ℤ} {mask : BitVec 32}
    (h : accepted (glStencilFuncSeparate s face func ref mask).2 = false) :
    stencilWrites (.glStencilFuncSeparate face func ref mask) = [] := by
  rw [stencilWrites]
  by_cases hface : isValidFaceType face
  · have hfunc : ¬isValidCmpFunction func := by
      intro hfunc
      simp only [glStencilFuncSeparate, hface, hfunc, not_true_eq_false, if_false] at h
      split_ifs at h <;> cases h
    rw [if_neg hfunc]
  · simp [sides_of_invalid hface]

theorem stencilWrites_maskSeparate_of_rejected {face : ℕ} {mask : BitVec 32}
    (h : accepted (glStencilMaskSeparate s face mask).2 = false) :
    stencilWrites (.glStencilMaskSeparate face mask) = [] := by
  rw [stencilWrites]
  by_cases hface : isValidFaceType face
  · simp only [glStencilMaskSeparate, hface, not_true_eq_false, if_false] at h
    split_ifs at h <;> cases h
  · simp [sides_of_invalid hface]

theorem stencilWrites_opSeparate_of_rejected {face sfail dpfail dppass : ℕ}
    (h : accepted (glStencilOpSeparate s face sfail dpfail dppass).2 = false) :
    stencilWrites (.glStencilOpSeparate face sfail dpfail dppass) = [] := by
  rw [stencilWrites]
  by_cases hface : isValidFaceType face
  · have hops : ¬(isValidStencilOp sfail ∧ isValidStencilOp dpfail ∧ isValidStencilOp dppass) := by
      intro hops
      simp only [glStencilOpSeparate, hface, hops, not_true_eq_false, or_self, if_false] at h
      split_ifs at h <;> cases h
    rw [if_neg hops]
  · simp [sides_of_invalid hface]

/-- A call that is an error assigns nothing. -/
theorem stencilWrites_of_rejected (h : accepted (stencilEntry s call).2 = false) :
    stencilWrites call = [] := by
  cases call with
  | glStencilFunc func ref mask => exact stencilWrites_funcSeparate_of_rejected h
  | glStencilFuncSeparate face func ref mask => exact stencilWrites_funcSeparate_of_rejected h
  | glStencilMask mask => exact stencilWrites_maskSeparate_of_rejected h
  | glStencilMaskSeparate face mask => exact stencilWrites_maskSeparate_of_rejected h
  | glStencilOp sfail dpfail dppass => exact stencilWrites_opSeparate_of_rejected h
  | glStencilOpSeparate face sfail dpfail dppass => exact stencilWrites_opSeparate_of_rejected h

/-- The fields are those with the values of the call stored, whether it is passed on or not. -/
theorem view_stencilEntry :
    (stencilEntry s call).1.view = store s.view (stencilWrites call) := by
  have hcompares : ComparesStencil s (stencilWrites call) (stencilEntry s call) :=
    comparesStencil_entry
  by_cases hholds : Holds s.view (stencilWrites call)
  · rw [(hcompares.dropped hholds).1, store_of_holds hholds]
  · exact (hcompares.stored hholds).1

theorem StencilAgrees.stencilEntry (h : StencilAgrees s m covered) :
    StencilAgrees (stencilEntry s call).1
      (if accepted (stencilEntry s call).2 then m.exec call else m)
      fun cell => covered cell ||
        accepted (stencilEntry s call).2 && decide (cell ∈ (stencilWrites call).map Sigma.fst) := by
  intro cell
  have hcell := h cell
  rw [view_stencilEntry]
  cases haccepted : accepted (GlState.stencilEntry s call).2 with
  | false =>
    simp only [stencilWrites_of_rejected haccepted, store_nil, Bool.false_and, Bool.or_false,
      Bool.false_eq_true, if_false]
    exact hcell
  | true =>
    simp only [if_true, Bool.true_and, StencilMachine.exec]
    by_cases hmem : cell ∈ (stencilWrites call).map Sigma.fst
    · rw [if_pos (by simp only [hmem, decide_true, Bool.or_true])]
      exact store_of_mem hmem
    · simp only [hmem, decide_false, Bool.or_false, store_of_notMem hmem]
      exact hcell

end Stencil

/-! ### Scalar state -/

/-- The effects of an entry point: nothing, an error, or the call. -/
def Plain {α : Type} (call : α) (effects : List (Effect α)) : Prop :=
  effects = [] ∨ (∃ error, effects = [.setError error]) ∨ effects = [.forward call]

section Scalar

variable {s : ScalarState F} {m : ScalarServer F} {call : ScalarCall F} {same : Prop}
  [Decidable same] {error : Option ℕ} {store : Scalars F → Scalars F}

theorem plain_compareAndStore : Plain call (compareAndStore s same error store call).2 := by
  unfold compareAndStore
  split
  · exact .inl rfl
  · cases error with
    | none => exact .inr (.inr rfl)
    | some error => exact .inr (.inl ⟨error, rfl⟩)

theorem objects_compareAndStore :
    (compareAndStore s same error store call).1.objects = s.objects := by
  unfold compareAndStore
  split
  · rfl
  · cases error <;> rfl

variable [DecidableEq F] [Zero F] [LT F] [DecidableLT F]

theorem plain_scalarEntry (s : ScalarState F) (call : ScalarCall F) :
    Plain call (scalarEntry s call).2 := by
  have hcap : ∀ cap enable, Plain (if enable then .glEnable cap else .glDisable cap)
      (glSetCap s cap enable).2 := by
    intro cap enable
    unfold glSetCap
    cases capability cap with
    | none => exact .inr (.inr rfl)
    | some c => exact plain_compareAndStore
  cases call with
  | glEnable cap => exact hcap cap true
  | glDisable cap => exact hcap cap false
  | glCheckFramebufferStatus target result =>
    simp only [scalarEntry, glCheckFramebufferStatus]
    split
    · exact .inr (.inl ⟨_, rfl⟩)
    · exact .inr (.inr rfl)
  | _ => exact plain_compareAndStore

/-- The cells have what was set, if they did. -/
theorem scalars_scalarEntry (h : s.scalars = m.scalars) :
    (scalarEntry s call).1.scalars =
      (if accepted (scalarEntry s call).2 then m.exec call else m).scalars := by
  have hspec : Transparent m call (scalarEntry s call) := scalarEntry_spec h
  rw [hspec.agrees]
  rcases plain_scalarEntry s call with heffects | ⟨error, heffects⟩ | heffects
  · have hdropped := hspec.dropped
    rw [heffects] at hdropped ⊢
    have hexec : m.exec call = m := hdropped rfl fun _ => List.not_mem_nil
    simp [accepted, hexec]
  · rw [heffects]
    rfl
  · rw [heffects]
    rfl

/-- No call changes the active texture. -/
theorem activeTexture_scalarEntry :
    (scalarEntry s call).1.objects.activeTexture = s.objects.activeTexture := by
  have hcap : ∀ cap enable, (glSetCap s cap enable).1.objects = s.objects := by
    intro cap enable
    unfold glSetCap
    cases capability cap with
    | none => rfl
    | some c => exact objects_compareAndStore
  cases call with
  | glEnable cap => exact congrArg State.activeTexture (hcap cap true)
  | glDisable cap => exact congrArg State.activeTexture (hcap cap false)
  | glCheckFramebufferStatus target result =>
    simp only [scalarEntry, glCheckFramebufferStatus]
    split
    · rfl
    · simp only [State.glCheckFramebufferStatus]
      split
      · rfl
      · split
        · rfl
        · rfl
  | _ => exact congrArg State.activeTexture objects_compareAndStore

end Scalar

/-! ### Pixel storage and programs -/

/-- A call of `glPixelStorei` that is no error sets the value. -/
theorem value_glPixelStorei_of_valid {s : PixelStore} {p : PixelParameter} {param : GLint}
    (h : (glPixelStorei s (some p) param).invalidValue = false) :
    (glPixelStorei s (some p) param).store.value = Function.update s.value p param := by
  unfold glPixelStorei at h ⊢
  split_ifs at h ⊢ with hsame
  · have hvalue : s.value p = param := by simpa using hsame
    rw [← hvalue, Function.update_eq_self]
  · rfl

theorem store_glPixelStorei_none {s : PixelStore} {param : GLint} :
    (glPixelStorei s none param).store = s := by
  unfold glPixelStorei
  split_ifs <;> rfl

section Programs

variable {g g' : Group} {program : ℕ}

/-- What is current after `glUseProgram`. -/
theorem currentProgram_glUseProgram : ((g.glUseProgram 0 program).1 0).currentProgram =
    if accepted (g.glUseProgram 0 program).2 then program else (g 0).currentProgram := by
  unfold Group.glUseProgram
  split
  next hcurrent => exact hcurrent
  next =>
    split
    next => rfl
    next => simp [accepted, Group.modify_apply]

theorem currentProgram_glDeleteProgram :
    ((g.glDeleteProgram 0 program) 0).currentProgram = (g 0).currentProgram := by
  unfold Group.glDeleteProgram
  cases g.lookupCachedShaderObject 0 program with
  | none => rfl
  | some object =>
    dsimp only
    split_ifs <;> exact Group.setShaderObjectList_field Context.currentProgram fun _ _ => rfl

end Programs

/-! ### All fields -/

/-- The fields have what was set, apart from the destination factors and from what was never
set of the stencil state. -/
structure Recorded (h : SetHistory F) : Prop where
  source : SourceAgrees h.state.blend h.items.blend
  small : SmallFactors h.state.blend
  stencil : StencilAgrees h.state.stencil h.items.stencil h.covered
  scalars : h.state.scalars.scalars = h.items.scalars.scalars
  activeTexture : h.state.scalars.objects.activeTexture = GlState.glTexture0
  pixelStore : h.state.pixelStore.value = h.items.pixelStore
  currentProgram : (h.state.group 0).currentProgram = h.items.currentProgram
  shaderCompiler : h.state.shaderCompiler = 1

theorem recorded_init [Zero F] [One F] (format : FloatFormat F) (heap : Loc → VertexAttrib)
    (memory : Limit → Bool) (textures : ℕ → ℕ) :
    Recorded (.init format heap memory textures) where
  source := ⟨rfl, rfl⟩
  small :=
    have hinit : SmallFactors .init := ⟨by decide, by decide⟩
    hinit
  stencil _ := ⟨rfl, rfl⟩
  scalars := rfl
  activeTexture := rfl
  pixelStore := rfl
  currentProgram := rfl
  shaderCompiler := rfl

variable {h h' : SetHistory F} {call : SetCall F}

theorem Recorded.step [DecidableEq F] [Zero F] [LT F] [DecidableLT F] (hr : Recorded h)
    (hstep : h.step call = some h') : Recorded h' := by
  cases call with
  | blend call =>
    cases hstep
    refine { hr with source := ?_, small := hr.small.blendEntry }
    change SourceAgrees _ (if accepted _ then h.items.blend.exec call else h.items.blend)
    split
    next => exact hr.source.blendEntry
    next hrejected =>
      rw [← exec_of_rejected h.items.blend (Bool.eq_false_iff.mpr hrejected)]
      exact hr.source.blendEntry
  | stencil call =>
    cases hstep
    exact { hr with stencil := hr.stencil.stencilEntry }
  | scalar call =>
    cases hstep
    exact
      { hr with
        scalars := scalars_scalarEntry hr.scalars
        activeTexture := activeTexture_scalarEntry.trans hr.activeTexture }
  | glPixelStorei pname param =>
    cases hstep
    refine { hr with pixelStore := ?_ }
    cases pname with
    | none => exact (congrArg _ store_glPixelStorei_none).trans hr.pixelStore
    | some p =>
      change (glPixelStorei h.state.pixelStore (some p) param).store.value =
        if (glPixelStorei h.state.pixelStore (some p) param).invalidValue then
          h.items.pixelStore else Function.update h.items.pixelStore p param
      split
      next hinvalid =>
        exact (congrArg _ (store_glPixelStorei_of_invalidValue hinvalid)).trans hr.pixelStore
      next hvalid =>
        rw [← hr.pixelStore]
        exact value_glPixelStorei_of_valid (Bool.eq_false_iff.mpr hvalid)
  | program op =>
    cases op with
    | glCreateProgram =>
      obtain ⟨result, hcreate, rfl⟩ := Option.map_eq_some_iff.mp hstep
      exact
        { hr with
          currentProgram :=
            ((changes_glCreateProgram hcreate).2.current 0).trans hr.currentProgram }
    | glUseProgram program =>
      cases hstep
      refine { hr with currentProgram := ?_ }
      change _ = if _ then program else h.items.currentProgram
      rw [← hr.currentProgram]
      exact currentProgram_glUseProgram
    | glDeleteProgram program =>
      cases hstep
      exact { hr with currentProgram := currentProgram_glDeleteProgram.trans hr.currentProgram }

/-! ### Answers -/

variable {format : SingleFormat F} {pname : Pname} {answer : Value F}

/-- A factor comes back from its float. -/
theorem toInt_factor {factor : ℕ} (h : factor ≤ 0x8004) :
    format.toInt (format.ofInt factor) = factor := by
  refine format.toInt_ofInt factor ?_
  rw [abs_of_nonneg (Int.natCast_nonneg factor)]
  omega

theorem glGet_plain {g : GetState F} {func : GetFunc} {field : StateField} {value : Value F}
    (hrow : getTypeInfo pname = some (.plain field))
    (hfield : g.field format.toFloatFormat field = [value]) :
    (g.glGet format.toFloatFormat func pname answer).2 =
      .stored [func.convert format.toFloatFormat value] := by
  simp [GetState.glGet, GetState.answerRow, hrow, hfield]

theorem glGet_index {g : GetState F} {func : GetFunc} {field : StateField} {index : ℕ}
    {value : Value F} (hrow : getTypeInfo pname = some (.index field index))
    (hfield : (g.field format.toFloatFormat field)[index]? = some value) :
    (g.glGet format.toFloatFormat func pname answer).2 =
      .stored [func.convert format.toFloatFormat value] := by
  simp [GetState.glGet, GetState.answerRow, hrow, hfield]

/-- The items that are floats are answered from the fields that have them. -/
theorem Recorded.floats (hr : Recorded h) {values : List F}
    (hitem : h.items.floats pname = some values) :
    (h.state.glGet format.toFloatFormat .glGetFloatv pname answer).2 =
      .stored (values.map .float) := by
  cases pname <;> cases hitem <;>
    simp [GetState.glGet, getTypeInfo, GetState.answerRow, GetState.field, GetFunc.convert,
      Value.toFloat, hr.scalars]

namespace StencilAgrees

variable (hs : StencilAgrees h.state.stencil h.items.stencil h.covered) (side : Side)

include hs

theorem func : (h.state.stencil.view (.func side)).1 = (h.items.stencil (.func side)).1 ∧
    (h.state.stencil.view (.func side)).2.1 = (h.items.stencil (.func side)).2.1 := by
  have hcell := hs (.func side)
  split at hcell
  next => exact ⟨congrArg Prod.fst hcell, congrArg (fun cell => cell.2.1) hcell⟩
  next =>
    rw [hcell.1, hcell.2]
    cases side <;> exact ⟨rfl, rfl⟩

theorem op : h.state.stencil.view (.op side) = h.items.stencil (.op side) := by
  have hcell := hs (.op side)
  split at hcell
  next => exact hcell
  next =>
    rw [hcell.1, hcell.2]
    cases side <;> rfl

theorem mask : (h.state.stencil.view (.func side)).2.2 =
    if h.covered (.func side) then (h.items.stencil (.func side)).2.2 else memsetMask 1 := by
  have hcell := hs (.func side)
  split at hcell
  next hcovered => rw [if_pos hcovered, hcell]
  next hcovered =>
    rw [if_neg hcovered, hcell.1]
    cases side <;> rfl

theorem mask_eq_iff : (h.state.stencil.view (.func side)).2.2 =
    (h.items.stencil (.func side)).2.2 ↔ h.covered (.func side) = true := by
  have hcell := hs (.func side)
  split at hcell
  next hcovered => exact iff_of_true (by rw [hcell]) hcovered
  next hcovered =>
    rw [hcell.1, hcell.2]
    refine iff_of_false ?_ hcovered
    cases side <;> decide

theorem writemask_eq_iff : h.state.stencil.view (.writemask side) =
    h.items.stencil (.writemask side) ↔ h.covered (.writemask side) = true := by
  have hcell := hs (.writemask side)
  split at hcell
  next hcovered => exact iff_of_true hcell hcovered
  next hcovered =>
    rw [hcell.1, hcell.2]
    refine iff_of_false ?_ hcovered
    cases side <;> decide

end StencilAgrees

/-- A query for an integer answers with the item exactly if it does so for the stencil state and
the destination factors. -/
theorem Recorded.ints (hr : Recorded h) {values : List ℤ}
    (hitem : h.items.ints pname = some values) :
    (h.state.glGet format.toFloatFormat .glGetIntegerv pname answer).2 =
        .stored (values.map .int) ↔
      ReadsStencil h pname ∧
        (pname = .glBlendDstRGB → h.state.blend.blendDst.1 = h.items.blend.dstRGB) ∧
        (pname = .glBlendDstAlpha → h.state.blend.blendDst.2 = h.items.blend.dstAlpha) := by
  obtain ⟨hfront, hfrontRef⟩ := hr.stencil.func .front
  obtain ⟨hback, -⟩ := hr.stencil.func .back
  have hfrontOp := hr.stencil.op .front
  have hbackOp := hr.stencil.op .back
  simp only [StencilState.view] at hfront hfrontRef hback hfrontOp hbackOp
  cases pname with
  | glBlendDstRGB =>
    cases hitem
    rw [glGet_index rfl rfl]
    simp [GetFunc.convert, Value.toInt, ReadsStencil, toInt_factor hr.small.dst.1]
  | glBlendDstAlpha =>
    cases hitem
    rw [glGet_index rfl rfl]
    simp [GetFunc.convert, Value.toInt, ReadsStencil, toInt_factor hr.small.dst.2]
  | glBlendSrcRGB =>
    cases hitem
    have hsmall := hr.small.src.1
    rw [hr.source.src] at hsmall
    rw [glGet_index rfl rfl]
    simp [GetFunc.convert, Value.toInt, ReadsStencil, hr.source.src, toInt_factor hsmall]
  | glBlendSrcAlpha =>
    cases hitem
    have hsmall := hr.small.src.2
    rw [hr.source.src] at hsmall
    rw [glGet_index rfl rfl]
    simp [GetFunc.convert, Value.toInt, ReadsStencil, hr.source.src, toInt_factor hsmall]
  | glStencilValueMask =>
    cases hitem
    rw [ReadsStencil, ← hr.stencil.mask_eq_iff .front, glGet_plain rfl rfl]
    simp [GetFunc.convert, Value.toInt, BitVec.toInt_inj, StencilState.view]
  | glStencilBackValueMask =>
    cases hitem
    rw [ReadsStencil, ← hr.stencil.mask .front, glGet_plain rfl rfl]
    simp [GetFunc.convert, Value.toInt, BitVec.toInt_inj, StencilState.view]
  | glStencilWritemask =>
    cases hitem
    rw [ReadsStencil, ← hr.stencil.writemask_eq_iff .front, glGet_plain rfl rfl]
    simp [GetFunc.convert, Value.toInt, BitVec.toInt_inj, StencilState.view]
  | glStencilBackWritemask =>
    cases hitem
    rw [ReadsStencil, ← hr.stencil.writemask_eq_iff .back, glGet_plain rfl rfl]
    simp [GetFunc.convert, Value.toInt, BitVec.toInt_inj, StencilState.view]
  | _ =>
    cases hitem <;>
      simp [GetState.glGet, getTypeInfo, GetState.answerRow, GetState.field, GetFunc.convert,
        Value.toInt, ReadsStencil, hr.scalars, hr.activeTexture, hr.shaderCompiler, hr.pixelStore,
        hr.currentProgram, hr.source.equation, hfront, hfrontRef, hback, ← hfrontOp, ← hbackOp]

/-- Apart from what was never set of the stencil state, the answers are right exactly if the
destination factors are. -/
theorem Recorded.rightAnswers_iff (hr : Recorded h) :
    RightAnswers format.toFloatFormat h ↔ h.state.blend.view = h.items.blend := by
  obtain ⟨hequation, hsrc⟩ := hr.source
  constructor
  · intro hright
    have hcolour := (hright.ints .glBlendDstRGB _ (.int 0) rfl).mpr trivial
    have halpha := (hright.ints .glBlendDstAlpha _ (.int 0) rfl).mpr trivial
    have hdstRGB := ((hr.ints rfl).mp hcolour).2.1 rfl
    have hdstAlpha := ((hr.ints rfl).mp halpha).2.2 rfl
    simp only [BlendState.view, hequation, hsrc, hdstRGB, hdstAlpha]
  · intro hview
    refine ⟨fun pname values answer hitem => ?_, fun pname values answer => hr.floats⟩
    have hdstRGB : h.state.blend.blendDst.1 = h.items.blend.dstRGB :=
      congrArg BlendMachine.dstRGB hview
    have hdstAlpha : h.state.blend.blendDst.2 = h.items.blend.dstAlpha :=
      congrArg BlendMachine.dstAlpha hview
    rw [hr.ints hitem]
    exact and_iff_left ⟨fun _ => hdstRGB, fun _ => hdstAlpha⟩

/-- While the factors are right, a call leaves them right exactly if it is one that does. -/
theorem view_step_iff [DecidableEq F] [Zero F] [LT F] [DecidableLT F]
    (hview : h.state.blend.view = h.items.blend) (hstep : h.step call = some h') :
    h'.state.blend.view = h'.items.blend ↔ KeepsFactors h call := by
  cases call with
  | blend call =>
    cases hstep
    change (blendEntry h.state.blend call).1.view =
      (if accepted _ then h.items.blend.exec call else h.items.blend) ↔ _
    rw [KeepsFactors, ← view_blendEntry_iff, hview]
    split
    next => rfl
    next hrejected => rw [exec_of_rejected _ (Bool.eq_false_iff.mpr hrejected)]
  | program op =>
    refine iff_of_true ?_ trivial
    cases op with
    | glCreateProgram =>
      obtain ⟨result, -, rfl⟩ := Option.map_eq_some_iff.mp hstep
      exact hview
    | glUseProgram program =>
      cases hstep
      exact hview
    | glDeleteProgram program =>
      cases hstep
      exact hview
  | _ =>
    cases hstep
    exact iff_of_true hview trivial

/-- From a new context on, all queries that are answered from the fields answer with the items
all along a list of calls, those for the stencil state as far as it was set for the faces
together, exactly if all calls of `glBlendFuncSeparate` leave the factors right. -/
theorem rightAnswers_along_iff [DecidableEq F] [Zero F] [One F] [LT F] [DecidableLT F]
    (format : SingleFormat F) (heap : Loc → VertexAttrib) (memory : Limit → Bool)
    (textures : ℕ → ℕ) (calls : List (SetCall F)) :
    System.AlwaysAlong SetHistory.step (RightAnswers format.toFloatFormat)
        (.init format.toFloatFormat heap memory textures) calls ↔
      System.MeetsAlong SetHistory.step KeepsFactors
        (.init format.toFloatFormat heap memory textures) calls := by
  have hinit := recorded_init format.toFloatFormat heap memory textures
  have halong : System.AlwaysAlong SetHistory.step (RightAnswers format.toFloatFormat)
      (.init format.toFloatFormat heap memory textures) calls ↔
        RightAnswers format.toFloatFormat (.init format.toFloatFormat heap memory textures) ∧
          System.MeetsAlong SetHistory.step KeepsFactors
            (.init format.toFloatFormat heap memory textures) calls := by
    refine System.alwaysAlong_iff (J := Recorded) (fun _ _ _ hr hstep => hr.step hstep) ?_ hinit
    intro h call h' hr hright hstep
    rw [(hr.step hstep).rightAnswers_iff]
    exact view_step_iff (hr.rightAnswers_iff.mp hright) hstep
  rw [halong]
  exact and_iff_right (hinit.rightAnswers_iff.mpr rfl)

/-- The reference value of the back faces is set, and that of the front faces is the answer. -/
theorem exists_wrong_answer : ∃ h : SetHistory ℚ,
    (SetHistory.init rationalFormat (fun _ => freshAttrib 0 0 false) (fun _ => false)
      fun _ => 0).step (.stencil (.glStencilFuncSeparate glBack glAlways 5 0xff)) = some h ∧
    h.items.ints .glStencilBackRef = some [5] ∧
    (h.state.glGet rationalFormat .glGetIntegerv .glStencilBackRef (.int 5)).2 =
      .stored [.int 0] := by
  refine ⟨_, rfl, ?_, ?_⟩ <;> decide

end GpuProxy.Queries
