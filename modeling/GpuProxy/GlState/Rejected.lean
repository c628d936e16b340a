import GpuProxy.GlState.Blend
import GpuProxy.GlState.Scalars
import GpuProxy.GlState.Stencil
import GpuProxy.Objects.ShareGroup
import GpuProxy.Textures.Parameters
import GpuProxy.Textures.PixelStore
import GpuProxy.VertexAttribs.Arrays

/-!
# Rejected calls

An entry point that records an error should have no other effect: nothing is passed on, and
the state keeps all its fields but for answers of the driver that are queried once. Here are
the entry points that bind, delete, generate, attach and set, on the state of one client, and
which of their calls do more.

The draws are left out, and with them the copies of the bindings that only they read.

## Main definitions

* `Outcome`, `Outcome.Clean` — what is to be seen of a call, and the calls that an error ends
* `Client`, `ClientCall`, `Client.run` — the state, and the entry points
* `GoesOn` — the calls that go on after an error, or that changed something before it

## Main results

* `clean_iff_not_goesOn` — which calls are clean
* `exists_goesOn` — a framebuffer that is bound to no target
-/

namespace GpuProxy.GlState

open Math Objects Textures

def glAlpha : ℕ := 0x1906
def glLuminance : ℕ := 0x1909
def glLuminanceAlpha : ℕ := 0x190A

/-- `is_valid_TextureFormat`. -/
def isValidTextureFormat (value : ℕ) : Bool :=
  value ∈ [glAlpha, glLuminance, glLuminanceAlpha, glRgb, glRgba, glBgraExt]

/-- `is_valid_TextureBindTarget`. -/
def isValidTextureBindTarget (value : ℕ) : Bool :=
  value ∈ [glTexture2D, glTextureCubeMap, glTexture3DOES]

/-! ### Outcomes -/

/-- What is to be seen of a call. -/
structure Outcome (σ : Type*) where
  state : σ
  /-- The first error that is passed to `caching_client_glSetError`. -/
  error : Option ℕ
  /-- Whether a call is passed on. -/
  forwards : Bool

section Outcomes

variable {σ τ υ α : Type*}

namespace Outcome

/-- A call that has nothing to do. -/
def kept (s : σ) : Outcome σ := ⟨s, none, false⟩

/-- A call that is refused. -/
def refused (s : σ) (error : ℕ) : Outcome σ := ⟨s, some error, false⟩

/-- A call that is passed on. -/
def passedOn (s : σ) : Outcome σ := ⟨s, none, true⟩

/-- The effects of an entry point. -/
def ofEffects (result : σ × List (Effect α)) : Outcome σ where
  state := result.1
  error := result.2.findSome? fun
    | .setError error => some error
    | .forward _ => none
  forwards := !(forwarded result.2).isEmpty

/-- The outcome for a state that the state is a part of. -/
def map (f : σ → τ) (o : Outcome σ) : Outcome τ := ⟨f o.state, o.error, o.forwards⟩

/-- If there is an error, then nothing is passed on, and all that is looked at is as it was. -/
def Clean (view : σ → υ) (s : σ) (o : Outcome σ) : Prop :=
  o.error ≠ none → o.forwards = false ∧ view o.state = view s

end Outcome

end Outcomes

/-! ### The state of a client -/

/-- The objects that have names. -/
inductive NameKind
  | buffer
  | framebuffer
  | renderbuffer
  | texture
  | vertexArray
  | fence
  deriving DecidableEq, Repr

/-- Whether to generate or delete no names at all is an error. -/
def NameKind.refusesZero : NameKind → Bool
  | .vertexArray | .fence => true
  | .buffer | .framebuffer | .renderbuffer | .texture => false

/-- The fields of `egl_state_t`, and the textures. Those are in `Config`, of which this is the
current context. -/
structure Client (F : Type) where
  blend : BlendState
  stencil : StencilState
  scalars : Scalars F
  textures : Config F
  pixelStore : PixelStore
  attribs : VertexAttribs.ClientState
  bufferNameHandler : Names.NameHandler
  shaderObjects : List ShaderObject
  currentProgram : ℕ

/-- The calls, with the answers of the driver. -/
inductive ClientCall (F : Type)
  | blend (call : BlendCall)
  | stencil (call : StencilCall)
  | scalar (call : ScalarCall F)
  | parameter (call : ParameterCall F)
  | attrib (op : VertexAttribs.Op)
  | glPixelStorei (pname : Option PixelParameter) (param : GLint)
  | glActiveTexture (texture : ℕ)
  | glBindTexture (target texture : ℕ)
  | glBindFramebuffer (target framebuffer : ℕ)
  | glBindRenderbuffer (target renderbuffer : ℕ)
  | glFramebufferTexture2D (target attachment textarget texture : ℕ) (level : ℤ)
  | glFramebufferRenderbuffer (target attachment renderbuffertarget renderbuffer : ℕ)
  | glTexImage2D (target : ℕ) (level internalformat width height : ℤ) (format type : ℕ)
      (extensions : Extensions)
  | glTexSubImage2D (target : ℕ) (level xoffset yoffset width height : ℤ) (format type : ℕ)
  | glGenerateMipmap (target : ℕ)
  | glClear (mask : ℕ)
  | gen (kind : NameKind) (n : ℤ)
  | delete (kind : NameKind) (n : ℤ) (names : List ℕ)
  | glDeleteProgram (program : ℕ)
  | glUseProgram (program : ℕ)

namespace Client

variable {F : Type}

/-- The state of a new client. The memory of its contexts has `heap` in place of the attributes, and
`memory` in place of the 3D textures. -/
def init [Zero F] [One F] (format : FloatFormat F)
    (heap : VertexAttribs.Loc → VertexAttribs.VertexAttrib) (memory : ℕ → ℕ) : Client F where
  blend := .init
  stencil := .init
  scalars := .init F
  textures := .init format memory
  pixelStore := .initial
  attribs := VertexAttribs.initial heap
  bufferNameHandler := Names.nameHandlerCreate
  shaderObjects := []
  currentProgram := 0

/-- The objects of the current context. -/
def objects (c : Client F) : Objects.State := (c.textures.contexts c.textures.current).objects

/-- A write to the objects of the current context. -/
def setObjects (c : Client F) (objects : Objects.State) : Client F :=
  { c with
    textures := { c.textures with
      contexts := Function.update c.textures.contexts c.textures.current
        { c.textures.contexts c.textures.current with objects := objects } } }

/-! ### Textures and framebuffers -/

/-- `caching_client_glActiveTexture`. -/
def glActiveTexture (objects : Objects.State) (texture : ℕ) : Outcome Objects.State :=
  if objects.activeTexture = texture then .kept objects
  else if texture > glTexture31 ∨ texture < glTexture0 then .refused objects glInvalidEnum
  else
    .passedOn
      { objects with
        activeTexture := texture, textureBinding2D := 0, textureBindingCube := 0
        textureBinding3D := 0 }

/-- `caching_client_glTexSubImage2D`. -/
def glTexSubImage2D (objects : Objects.State) (target : ℕ)
    (level xoffset yoffset width height : ℤ) (format type : ℕ) : Outcome Objects.State :=
  if level < 0 ∨ width < 0 ∨ height < 0 then .refused objects glInvalidValue
  else if ¬ isValidTextureTarget target then .refused objects glInvalidEnum
  else if type = glUnsignedShort565 ∧ format ≠ glRgb then .refused objects glInvalidOperation
  else if (type = glUnsignedShort4444 ∨ type = glUnsignedShort5551) ∧ format ≠ glRgba then
    .refused objects glInvalidOperation
  else if ¬ isValidTextureFormat format then .refused objects glInvalidOperation
  else
    match objects.lookupCachedTexture (objects.imageTexture target) with
    | none => .refused objects glInvalidOperation
    | some texture =>
      if sint (xoffset + width) > texture.width ∨ sint (yoffset + height) > texture.height then
        .refused objects glInvalidValue
      else .passedOn objects

/-- `caching_client_glGenerateMipmap`. -/
def glGenerateMipmap (objects : Objects.State) (target : ℕ) : Outcome Objects.State :=
  if ¬ isValidTextureBindTarget target then .refused objects glInvalidEnum else .passedOn objects

/-! ### Buffers -/

/-- One round of the first loop of `caching_client_glDeleteBuffers`. -/
def unbindBuffer (s : VertexAttribs.ClientState) (buffer : ℕ) : VertexAttribs.ClientState :=
  if buffer = s.arrayBufferBinding then { s with arrayBufferBinding := 0 }
  else if buffer = s.elementArrayBufferBinding then { s with elementArrayBufferBinding := 0 }
  else s

/-- The second loop of `caching_client_glDeleteBuffers`. Only the first attribute is compared
with the names, and then all are changed. -/
def unbindAttribs (list : VertexAttribs.AttribList) (buffers : List ℕ) :
    VertexAttribs.AttribList :=
  if list.count ≠ 0 ∧ (list.heap ⟨list.attribs, 0⟩).arrayBufferBinding ∈ buffers then
    { list with
      heap := fun a =>
        if a.block = list.attribs ∧ a.idx < list.count then
          { list.heap a with arrayBufferBinding := 0 }
        else list.heap a }
  else list

/-- `caching_client_glDeleteBuffers`, for an array of names. -/
def glDeleteBuffers (c : Client F) (buffers : List ℕ) : Client F :=
  let attribs := buffers.foldl unbindBuffer c.attribs
  { c with
    bufferNameHandler := Names.deleteNames c.bufferNameHandler buffers
    attribs := { attribs with vertexAttribs := unbindAttribs attribs.vertexAttribs buffers } }

/-- `caching_client_glDeleteVertexArraysOES`, for an array of names. -/
def glDeleteVertexArrays (c : Client F) (arrays : List ℕ) : Client F :=
  if c.attribs.vertexArrayBinding ∈ arrays then
    { c with attribs := { c.attribs with vertexArrayBinding := 0 } }
  else c

/-! ### Programs -/

/-- `egl_state_lookup_cached_shader_object`. -/
def lookupCachedShaderObject (c : Client F) (id : ℕ) : Option ShaderObject :=
  c.shaderObjects.find? (·.id = id)

/-- `egl_state_destroy_cached_shader_object`. -/
def destroyCachedShaderObject (c : Client F) (id : ℕ) : Client F :=
  { c with shaderObjects := c.shaderObjects.eraseP (·.id = id) }

/-- `caching_client_glDeleteProgram`. -/
def glDeleteProgram (c : Client F) (program : ℕ) : Outcome (Client F) :=
  match c.lookupCachedShaderObject program with
  | none => .refused c glInvalidValue
  | some object =>
    if object.id = c.currentProgram then
      -- A program in use is deleted later.
      .passedOn
        { c with
          shaderObjects := c.shaderObjects.modify (c.shaderObjects.findIdx (·.id = program))
            ({ · with markForDeletion := true }) }
    else .passedOn (c.destroyCachedShaderObject program)

/-- The error of `egl_state_lookup_cached_program_err`. -/
def programError (c : Client F) (id error : ℕ) : Option ℕ :=
  match c.lookupCachedShaderObject id with
  | none => some error
  | some object => if object.type ≠ .program then some glInvalidOperation else none

/-- `caching_client_glUseProgram`. -/
def glUseProgram (c : Client F) (program : ℕ) : Outcome (Client F) :=
  if c.currentProgram = program then .kept c
  else
    match if program ≠ 0 then c.programError program glInvalidValue else none with
    | some error => .refused c error
    | none =>
      let c :=
        -- The program in use before may have been marked.
        match c.lookupCachedShaderObject c.currentProgram with
        | none => c
        | some object =>
          if object.markForDeletion then c.destroyCachedShaderObject object.id else c
      .passedOn { c with currentProgram := program }

/-! ### The entry points -/

/-- An entry point on the objects. -/
def onObjects (c : Client F) (o : Outcome Objects.State) : Outcome (Client F) :=
  o.map c.setObjects

/-- A state that records every error, and the calls from now on. -/
def recording (s : VertexAttribs.ClientState) : VertexAttribs.ClientState :=
  { s with active := true, error := VertexAttribs.glNoError, calls := [] }

/-- What an entry point that was run on `recording` did. The query of `GL_MAX_VERTEX_ATTRIBS` is
made once, and is not counted. -/
def recorded (s t : VertexAttribs.ClientState) : Outcome VertexAttribs.ClientState where
  state := { t with active := s.active, error := s.error, calls := s.calls }
  error := if t.error = VertexAttribs.glNoError then none else some t.error
  forwards := t.calls.any (· ≠ .getMaxVertexAttribs)

/-- The entry points of `VertexAttribs.Op`. -/
def attribOutcome (driverMax : ℤ) (fuel : ℕ) (s : VertexAttribs.ClientState)
    (op : VertexAttribs.Op) : Option (Outcome VertexAttribs.ClientState) :=
  (VertexAttribs.runOp driverMax fuel (recording s) op).map (recorded s)

/-- `caching_client_glPixelStorei`. -/
def pixelStorei (s : PixelStore) (pname : Option PixelParameter) (param : GLint) :
    Outcome PixelStore :=
  let result := glPixelStorei s pname param
  { state := result.store
    error := if result.invalidValue then some glInvalidValue else none
    forwards := result.forwarded }

/-- The entry points `caching_client_glGen*`, after the check of `n`. -/
def genNames (c : Client F) (n : ℕ) : NameKind → Option (Outcome (Client F))
  | .texture => (c.objects.glGenTextures n).map fun result => c.onObjects (.ofEffects result)
  | .framebuffer =>
    (c.objects.glGenFramebuffers n).map fun result => c.onObjects (.ofEffects result)
  | .renderbuffer =>
    (c.objects.glGenRenderbuffers n).map fun result => c.onObjects (.ofEffects result)
  | .buffer =>
    (Names.allocNames c.bufferNameHandler n).map fun (_, handler) =>
      .passedOn { c with bufferNameHandler := handler }
  | .vertexArray | .fence => some (.passedOn c)

/-- The entry points `caching_client_glDelete*`, after the check of `n`. -/
def deleteNames (c : Client F) (names : List ℕ) : NameKind → Option (Outcome (Client F))
  | .texture =>
    (c.objects.glDeleteTextures names).map fun result => c.onObjects (.ofEffects result)
  | .framebuffer =>
    (c.objects.glDeleteFramebuffers names).map fun result => c.onObjects (.ofEffects result)
  | .renderbuffer =>
    (c.objects.glDeleteRenderbuffers names).map fun result => c.onObjects (.ofEffects result)
  | .buffer => some (.passedOn (c.glDeleteBuffers names))
  | .vertexArray => some (.passedOn (c.glDeleteVertexArrays names))
  | .fence => some (.passedOn c)

variable [DecidableEq F] [Zero F] [LT F] [DecidableLT F] (format : FloatFormat F)

/-- The entry points. There is no result when the list of enabled attributes takes more steps
than there is fuel, or for a call that does not return. -/
def run (driverMax : ℤ) (fuel : ℕ) (c : Client F) : ClientCall F → Option (Outcome (Client F))
  | .blend call =>
    some ((Outcome.ofEffects (blendEntry c.blend call)).map ({ c with blend := · }))
  | .stencil call =>
    some ((Outcome.ofEffects (stencilEntry c.stencil call)).map ({ c with stencil := · }))
  | .scalar call =>
    some ((Outcome.ofEffects (scalarEntry ⟨c.scalars, c.objects⟩ call)).map fun state =>
      { c with scalars := state.scalars }.setObjects state.objects)
  | .parameter call =>
    some ((Outcome.ofEffects (c.textures.entry format call)).map ({ c with textures := · }))
  | .attrib op => (attribOutcome driverMax fuel c.attribs op).map (·.map ({ c with attribs := · }))
  | .glPixelStorei pname param =>
    some ((pixelStorei c.pixelStore pname param).map ({ c with pixelStore := · }))
  | .glActiveTexture texture => some (c.onObjects (glActiveTexture c.objects texture))
  | .glBindTexture target texture =>
    (c.objects.glBindTexture target texture).map fun result => c.onObjects (.ofEffects result)
  | .glBindFramebuffer target framebuffer =>
    some (c.onObjects (.ofEffects (c.objects.glBindFramebuffer target framebuffer)))
  | .glBindRenderbuffer target renderbuffer =>
    some (c.onObjects (.ofEffects (c.objects.glBindRenderbuffer target renderbuffer)))
  | .glFramebufferTexture2D target attachment textarget texture level =>
    some (c.onObjects (.ofEffects
      (c.objects.glFramebufferTexture2D target attachment textarget texture level)))
  | .glFramebufferRenderbuffer target attachment renderbuffertarget renderbuffer =>
    some (c.onObjects (.ofEffects
      (c.objects.glFramebufferRenderbuffer target attachment renderbuffertarget renderbuffer)))
  | .glTexImage2D target level internalformat width height imageFormat type extensions =>
    some (c.onObjects (.ofEffects (c.objects.glTexImage2D target level internalformat width
      height imageFormat type extensions)))
  | .glTexSubImage2D target level xoffset yoffset width height imageFormat type =>
    some (c.onObjects (glTexSubImage2D c.objects target level xoffset yoffset width height
      imageFormat type))
  | .glGenerateMipmap target => some (c.onObjects (glGenerateMipmap c.objects target))
  | .glClear mask => some (c.onObjects (.ofEffects (c.objects.glClear mask)))
  | .gen kind n =>
    if n < 0 ∨ kind.refusesZero ∧ n = 0 then some (.refused c glInvalidValue)
    else c.genNames n.toNat kind
  | .delete kind n names =>
    if n < 0 ∨ kind.refusesZero ∧ n = 0 then some (.refused c glInvalidValue)
    else c.deleteNames (names.take n.toNat) kind
  | .glDeleteProgram program => some (c.glDeleteProgram program)
  | .glUseProgram program => some (c.glUseProgram program)

/-- The attributes without the answer of the driver. -/
def unqueriedAttribs (s : VertexAttribs.ClientState) : VertexAttribs.ClientState :=
  { s with maxVertexAttribsQueried := false, maxVertexAttribs := 0 }

/-- The objects without the answer of the driver. -/
def unqueriedObjects (s : Objects.State) : Objects.State :=
  { s with extensions := none, supportsElementIndexUint := false, supportsBgra := false }

/-- What an error should leave as it is: all but the answers of the driver. -/
def unqueried (c : Client F) : Client F :=
  { c with attribs := unqueriedAttribs c.attribs }.setObjects (unqueriedObjects c.objects)

end Client

/-- The calls that go on after an error, or that have changed or passed on something when the
last check fails. -/
def GoesOn {F : Type} (format : FloatFormat F) (driverMax : ℤ) (c : Client F) :
    ClientCall F → Prop
  | .glBindFramebuffer target _ => target ≠ glFramebuffer
  | .glBindRenderbuffer target _ => target ≠ glRenderbuffer
  | .attrib (.enableVertexAttribArray index) => Marks true index
  | .attrib (.disableVertexAttribArray index) => Marks false index
  | .parameter (.glTexParameterf target pname value) =>
    pname = glTextureMaxAnisotropyExt ∧ texParameterfError format target pname value = none ∧
      format.toInt value < 1 ∧ format.ne (c.textures.record target).maxAnisotropy value
  | _ => False
where
  /-- The attribute is there, has another value, and its index is too great. -/
  Marks (enable : Bool) (index : ℕ) : Prop :=
    c.attribs.vertexArrayBinding = 0 ∧ ¬ VertexAttribs.Accepted driverMax c.attribs index ∧
      ∃ a, VertexAttribs.findIndex c.attribs.vertexAttribs index = some a ∧
        (c.attribs.vertexAttribs.heap a).arrayEnabled ≠ enable

/-! ### Entry points that check first -/

section Outcomes

variable {σ τ υ α : Type*} {s t : σ} {error : ℕ} {view : σ → υ} {result : σ × List (Effect α)}

namespace Outcome

theorem clean_of_error {o : Outcome σ} (h : o.error = none) : o.Clean view s :=
  fun herror => absurd h herror

theorem clean_refused : (refused s error).Clean view s := fun _ => ⟨rfl, rfl⟩

/-- The state that the state is a part of is not changed either. -/
theorem Clean.map {o : Outcome σ} {f : σ → τ} {ω : Type*} {view' : τ → ω} {c : τ}
    (h : o.Clean view s) (hf : ∀ x, view x = view s → view' (f x) = view' c) :
    (o.map f).Clean view' c :=
  fun herror => ⟨(h herror).1, hf _ (h herror).2⟩

theorem clean_map_iff {o : Outcome σ} {f : σ → τ} {ω : Type*} {view' : τ → ω} {c : τ}
    (hf : ∀ x, view' (f x) = view' c ↔ view x = view s) :
    (o.map f).Clean view' c ↔ o.Clean view s :=
  forall_congr' fun _ => and_congr_right fun _ => hf _

end Outcome

/-- The result of an entry point that makes all checks before it does anything. -/
inductive ChecksFirst (s : σ) : σ × List (Effect α) → Prop
  | kept (t : σ) : ChecksFirst s (t, [])
  | refused (error : ℕ) : ChecksFirst s (s, [.setError error])
  | passedOn (t : σ) (call : α) : ChecksFirst s (t, [.forward call])

/-- An error leaves the state that the state is a part of. -/
theorem ChecksFirst.map_clean {f : σ → τ} {view : τ → υ} {c : τ} (h : ChecksFirst s result)
    (hf : f s = c) : ((Outcome.ofEffects result).map f).Clean view c := by
  cases h with
  | kept => exact Outcome.clean_of_error rfl
  | refused => exact fun _ => ⟨rfl, congrArg view hf⟩
  | passedOn => exact Outcome.clean_of_error rfl

theorem ChecksFirst.clean (h : ChecksFirst s result) : (Outcome.ofEffects result).Clean view s :=
  h.map_clean (f := id) rfl

end Outcomes

theorem blendEntry_checksFirst (s : BlendState) (call : BlendCall) :
    ChecksFirst s (blendEntry s call) := by
  cases call <;>
    simp only [blendEntry, glBlendEquation, glBlendEquationSeparate, glBlendFunc,
      glBlendFuncSeparate] <;>
    split_ifs <;> constructor

theorem glStencilFuncSeparate_checksFirst (s : StencilState) (face func : ℕ) (ref : ℤ)
    (mask : BitVec 32) : ChecksFirst s (glStencilFuncSeparate s face func ref mask) := by
  unfold glStencilFuncSeparate
  split_ifs <;> constructor

theorem glStencilMaskSeparate_checksFirst (s : StencilState) (face : ℕ) (mask : BitVec 32) :
    ChecksFirst s (glStencilMaskSeparate s face mask) := by
  unfold glStencilMaskSeparate
  split_ifs <;> constructor

theorem glStencilOpSeparate_checksFirst (s : StencilState) (face sfail dpfail dppass : ℕ) :
    ChecksFirst s (glStencilOpSeparate s face sfail dpfail dppass) := by
  unfold glStencilOpSeparate
  split_ifs <;> constructor

theorem stencilEntry_checksFirst (s : StencilState) (call : StencilCall) :
    ChecksFirst s (stencilEntry s call) := by
  cases call with
  | glStencilFunc func ref mask =>
    exact glStencilFuncSeparate_checksFirst s glFrontAndBack func ref mask
  | glStencilFuncSeparate face func ref mask =>
    exact glStencilFuncSeparate_checksFirst s face func ref mask
  | glStencilMask mask => exact glStencilMaskSeparate_checksFirst s glFrontAndBack mask
  | glStencilMaskSeparate face mask => exact glStencilMaskSeparate_checksFirst s face mask
  | glStencilOp sfail dpfail dppass =>
    exact glStencilOpSeparate_checksFirst s glFrontAndBack sfail dpfail dppass
  | glStencilOpSeparate face sfail dpfail dppass =>
    exact glStencilOpSeparate_checksFirst s face sfail dpfail dppass

section Scalars

variable {F : Type}

theorem compareAndStore_checksFirst (s : ScalarState F) (same : Prop) [Decidable same]
    (error : Option ℕ) (store : Scalars F → Scalars F) (call : ScalarCall F) :
    ChecksFirst s (compareAndStore s same error store call) := by
  unfold compareAndStore
  split_ifs
  · constructor
  · cases error <;> constructor

theorem glSetCap_checksFirst [DecidableEq F] (s : ScalarState F) (cap : ℕ) (enable : Bool) :
    ChecksFirst s (glSetCap s cap enable) := by
  unfold glSetCap
  cases capability cap with
  | some c => exact compareAndStore_checksFirst ..
  | none => constructor

theorem scalarEntry_checksFirst [DecidableEq F] [Zero F] [LT F] [DecidableLT F]
    (s : ScalarState F) (call : ScalarCall F) : ChecksFirst s (scalarEntry s call) := by
  cases call with
  | glEnable cap => exact glSetCap_checksFirst s cap true
  | glDisable cap => exact glSetCap_checksFirst s cap false
  | glCheckFramebufferStatus target result =>
    simp only [scalarEntry, glCheckFramebufferStatus]
    split_ifs <;> constructor
  | _ =>
    simp only [scalarEntry, glBlendColor, glClearColor, glClearDepthf, glClearStencil, glColorMask,
      glCullFace, glDepthFunc, glDepthMask, glDepthRangef, glFrontFace, glHint, glLineWidth,
      glPolygonOffset, glScissor, glViewport]
    apply compareAndStore_checksFirst

end Scalars

section Objects

variable {s t : Objects.State} {effects : Effects} {n : ℕ} {names : List ℕ}

theorem glBindTexture_checksFirst {target texture : ℕ}
    (h : s.glBindTexture target texture = some (t, effects)) : ChecksFirst s (t, effects) := by
  rcases Objects.State.glBindTexture_cases h with ⟨-, rfl, -⟩ | ⟨rfl, rfl, -⟩ | ⟨rfl, -, -⟩ <;>
    constructor

theorem glFramebufferTexture2D_checksFirst (s : Objects.State)
    (target attachment textarget texture : ℕ) (level : ℤ) :
    ChecksFirst s (s.glFramebufferTexture2D target attachment textarget texture level) := by
  unfold Objects.State.glFramebufferTexture2D
  split_ifs
  · constructor
  · dsimp only
    cases s.lookupCachedTexture texture with
    | none => constructor
    | some tex =>
      dsimp only
      split_ifs <;> constructor

theorem glFramebufferRenderbuffer_checksFirst (s : Objects.State)
    (target attachment renderbuffertarget renderbuffer : ℕ) :
    ChecksFirst s
      (s.glFramebufferRenderbuffer target attachment renderbuffertarget renderbuffer) := by
  unfold Objects.State.glFramebufferRenderbuffer
  split_ifs <;> constructor

theorem glClear_checksFirst (s : Objects.State) (mask : ℕ) : ChecksFirst s (s.glClear mask) := by
  unfold Objects.State.glClear
  split_ifs <;> constructor

theorem unqueriedObjects_queryExtensions (s : Objects.State) (answer : Extensions) :
    Client.unqueriedObjects (s.queryExtensions answer) = Client.unqueriedObjects s := by
  unfold Objects.State.queryExtensions
  split <;> rfl

/-- The extension string may be queried before the last checks. -/
theorem glTexImage2D_clean {target : ℕ} {level internalformat width height : ℤ}
    {format type : ℕ} {answer : Extensions} :
    (Outcome.ofEffects (s.glTexImage2D target level internalformat width height format type
      answer)).Clean Client.unqueriedObjects s := by
  have hrefused : ∀ error, (Outcome.ofEffects ((s.queryExtensions answer,
      [.setError error]) : Objects.State × Effects)).Clean Client.unqueriedObjects s :=
    fun _ _ => ⟨rfl, unqueriedObjects_queryExtensions s answer⟩
  unfold Objects.State.glTexImage2D
  split
  · exact Outcome.clean_refused
  split
  · exact Outcome.clean_refused
  split
  · exact Outcome.clean_refused
  split
  · exact Outcome.clean_refused
  dsimp only
  split
  -- The extensions have been queried from here on.
  · exact hrefused _
  split
  · exact hrefused _
  refine Outcome.clean_of_error ?_
  cases (s.queryExtensions answer).lookupCachedTexture
    ((s.queryExtensions answer).imageTexture target) with
  | none => rfl
  | some texture =>
    dsimp only
    split <;> rfl

end Objects

namespace Client

variable {F : Type} {c : Client F} {o : Outcome (Client F)} {n : ℕ} {names : List ℕ}
  {kind : NameKind}

theorem glActiveTexture_clean {objects : Objects.State} {texture : ℕ} :
    (glActiveTexture objects texture).Clean unqueriedObjects objects := by
  unfold glActiveTexture
  split_ifs
  · exact Outcome.clean_of_error rfl
  · exact Outcome.clean_refused
  · exact Outcome.clean_of_error rfl

theorem glTexSubImage2D_clean {objects : Objects.State} {target : ℕ}
    {level xoffset yoffset width height : ℤ} {format type : ℕ} :
    (glTexSubImage2D objects target level xoffset yoffset width height format type).Clean
      unqueriedObjects objects := by
  unfold glTexSubImage2D
  split
  · exact Outcome.clean_refused
  split
  · exact Outcome.clean_refused
  split
  · exact Outcome.clean_refused
  split
  · exact Outcome.clean_refused
  split
  · exact Outcome.clean_refused
  cases objects.lookupCachedTexture (objects.imageTexture target) with
  | none => exact Outcome.clean_refused
  | some texture =>
    dsimp only
    split
    · exact Outcome.clean_refused
    · exact Outcome.clean_of_error rfl

theorem glGenerateMipmap_clean {objects : Objects.State} {target : ℕ} :
    (glGenerateMipmap objects target).Clean unqueriedObjects objects := by
  unfold glGenerateMipmap
  split_ifs
  · exact Outcome.clean_of_error rfl
  · exact Outcome.clean_refused

theorem error_onObjects {result : Objects.State × Effects} {call : Objects.Call}
    (h : result.2 = [.forward call]) : (c.onObjects (.ofEffects result)).error = none := by
  simp only [onObjects, Outcome.map, Outcome.ofEffects, h]
  rfl

/-- Generating names is no error, once their number is checked. -/
theorem error_genNames (h : c.genNames n kind = some o) : o.error = none := by
  cases kind with
  | texture | framebuffer | renderbuffer =>
    obtain ⟨result, hgen, rfl⟩ := Option.map_eq_some_iff.mp h
    obtain ⟨_, -, hrest⟩ := Option.bind_eq_some_iff.mp hgen
    obtain ⟨_, -, heq⟩ := Option.bind_eq_some_iff.mp hrest
    cases heq
    exact error_onObjects rfl
  | buffer =>
    obtain ⟨_, -, rfl⟩ := Option.map_eq_some_iff.mp h
    rfl
  | vertexArray | fence =>
    cases h
    rfl

/-- Deleting names is no error, once their number is checked. -/
theorem error_deleteNames (h : c.deleteNames names kind = some o) : o.error = none := by
  cases kind with
  | texture | renderbuffer =>
    obtain ⟨result, hdelete, rfl⟩ := Option.map_eq_some_iff.mp h
    obtain ⟨_, -, heq⟩ := Option.bind_eq_some_iff.mp hdelete
    cases heq
    exact error_onObjects rfl
  | framebuffer =>
    cases h
    exact error_onObjects rfl
  | buffer | vertexArray | fence =>
    cases h
    rfl

theorem glDeleteProgram_clean {υ : Type*} {view : Client F → υ} (c : Client F) (program : ℕ) :
    (c.glDeleteProgram program).Clean view c := by
  unfold glDeleteProgram
  cases c.lookupCachedShaderObject program with
  | none => exact Outcome.clean_refused
  | some object =>
    dsimp only
    split_ifs <;> exact Outcome.clean_of_error rfl

theorem glUseProgram_clean {υ : Type*} {view : Client F → υ} (c : Client F) (program : ℕ) :
    (c.glUseProgram program).Clean view c := by
  unfold glUseProgram
  split_ifs
  · exact Outcome.clean_of_error rfl
  · cases c.programError program glInvalidValue with
    | some error => exact Outcome.clean_refused
    | none => exact Outcome.clean_of_error rfl
  · exact Outcome.clean_of_error rfl

theorem pixelStorei_clean (s : PixelStore) (pname : Option PixelParameter) (param : GLint) :
    (pixelStorei s pname param).Clean id s := by
  unfold pixelStorei glPixelStorei
  split_ifs
  · exact Outcome.clean_of_error rfl
  · exact Outcome.clean_refused
  · exact Outcome.clean_refused
  · cases pname with
    | none => exact Outcome.clean_refused
    | some p => exact Outcome.clean_of_error rfl

/-! ### Texture parameters -/

section Parameters

variable {format : FloatFormat F} {s : Config F} {target pname : ℕ} {param : ℤ} {value : F}

theorem glTexParameteri_checksFirst :
    ChecksFirst s (s.glTexParameteri format target pname param) := by
  unfold Config.glTexParameteri
  cases texParameteriError target pname param with
  | some error => constructor
  | none =>
    dsimp only
    cases texParameteriRecord format (s.record target) pname param <;> constructor

/-- An anisotropy that is no integer from 1 on is refused as one. -/
theorem texParameteriError_anisotropy_of_lt
    (h : isValidGetTexParamTarget target = true) (hparam : param < 1) :
    texParameteriError target glTextureMaxAnisotropyExt param = some glInvalidValue := by
  unfold texParameteriError
  rw [if_neg (not_not.mpr h), if_neg (by decide), if_neg, if_pos ⟨rfl, hparam⟩]
  rintro (⟨heq, -⟩ | ⟨heq, -⟩ | ⟨heq | heq | heq, -⟩) <;> exact absurd heq (by decide)

/-- The calls of `glTexParameterf` that are clean: the other ones set the float before the
integer is refused. -/
theorem glTexParameterf_clean_iff {τ υ : Type*} {f : Config F → τ} {view : τ → υ} {c : τ}
    (hf : f s = c) :
    ((Outcome.ofEffects (s.glTexParameterf format target pname value)).map f).Clean view c ↔
      ¬ (pname = glTextureMaxAnisotropyExt ∧
        texParameterfError format target pname value = none ∧ format.toInt value < 1 ∧
        format.ne (s.record target).maxAnisotropy value) := by
  by_cases hpname : pname = glTextureMaxAnisotropyExt
  swap
  · simp only [Config.glTexParameterf, if_neg hpname]
    exact iff_of_true (glTexParameteri_checksFirst.map_clean hf) fun hand => hpname hand.1
  subst hpname
  simp only [Config.glTexParameterf, if_true]
  cases herror : texParameterfError format target glTextureMaxAnisotropyExt value with
  | some error =>
    exact iff_of_true (fun _ => ⟨rfl, congrArg view hf⟩) fun hand => Option.some_ne_none _ hand.2.1
  | none =>
    dsimp only
    -- The float is valid. It is passed on if it is not the one in the record.
    by_cases hne : format.ne (s.record target).maxAnisotropy value = true
    swap
    · rw [if_neg hne]
      exact iff_of_true (glTexParameteri_checksFirst.map_clean hf) fun hand => hne hand.2.2.2
    rw [if_pos hne]
    have htarget := (texParameterfError_spec herror).1
    by_cases hparam : format.toInt value < 1
    -- The integer is refused after the float was passed on.
    · refine iff_of_false (fun hclean => ?_) (not_not.mpr ⟨trivial, rfl, hparam, hne⟩)
      simp only [Config.glTexParameteri, texParameteriError_anisotropy_of_lt htarget hparam]
        at hclean
      have hforwards := (hclean (Option.some_ne_none glInvalidValue)).1
      cases hforwards
    · refine iff_of_true (Outcome.clean_of_error ?_) fun hand => hparam hand.2.2.1
      have hvalid := texParameteriError_anisotropy htarget (not_lt.mp hparam)
      simp only [Config.glTexParameteri, hvalid]
      split <;> rfl

end Parameters

/-! ### Vertex attributes -/

section Attribs

open VertexAttribs

variable {driverMax : ℤ} {fuel index : ℕ} {s t : VertexAttribs.ClientState}
  {list : AttribList} {enable : Bool}

/-- The check of an index, on a state that records every error. -/
theorem doesIndexOverflow_recording : doesIndexOverflow driverMax (recording s) index =
    if Accepted driverMax s index then (queryMaxVertexAttribs driverMax (recording s), false)
    else (setError (queryMaxVertexAttribs driverMax (recording s)) VertexAttribs.glInvalidValue,
      true) := by
  have hsame : Accepted driverMax (recording s) index ↔ Accepted driverMax s index :=
    accepted_congr rfl rfl
  by_cases haccepted : Accepted driverMax s index
  · rw [if_pos haccepted]
    exact if_pos (hsame.mpr haccepted)
  · rw [if_neg haccepted]
    exact if_neg fun h => haccepted (hsame.mp h)

/-- An index that is refused leaves the attributes as they are at the check. -/
theorem recorded_overflow (driverMax : ℤ) (s : VertexAttribs.ClientState) (list : AttribList) :
    let o := recorded s (setError (queryMaxVertexAttribs driverMax
      (recording { s with vertexAttribs := list })) VertexAttribs.glInvalidValue)
    o.error ≠ none ∧ o.forwards = false ∧
      unqueriedAttribs o.state = unqueriedAttribs { s with vertexAttribs := list } := by
  unfold queryMaxVertexAttribs
  split <;>
    simp [recorded, setError, recording, forward, unqueriedAttribs, VertexAttribs.glInvalidValue,
      VertexAttribs.glNoError]

theorem error_queryMaxVertexAttribs :
    (queryMaxVertexAttribs driverMax (recording s)).error = VertexAttribs.glNoError := by
  unfold queryMaxVertexAttribs
  split <;> rfl

theorem recorded_clean_of_error (h : t.error = VertexAttribs.glNoError) :
    (recorded s t).Clean unqueriedAttribs s :=
  Outcome.clean_of_error (if_pos h)

/-- An array is enabled or disabled without an error only, or the error has no other effect. -/
theorem setVertexAttribArray_clean
    (h : setVertexAttribArray driverMax (recording s) fuel index enable = some t)
    (hmarks : ¬ (s.vertexArrayBinding = 0 ∧ ¬ Accepted driverMax s index ∧
      ∃ a, findIndex s.vertexAttribs index = some a ∧
        (s.vertexAttribs.heap a).arrayEnabled ≠ enable)) :
    (recorded s t).Clean unqueriedAttribs s := by
  unfold setVertexAttribArray at h
  split at h
  · cases h
    exact recorded_clean_of_error rfl
  next hbinding =>
  have hzero : s.vertexArrayBinding = 0 := not_not.mp hbinding
  cases hfind : findIndex (recording s).vertexAttribs index with
  | some a =>
    rw [hfind] at h
    dsimp only at h
    split at h
    · cases h
      -- An attribute that is found is changed before its index is checked.
      exact recorded_clean_of_error rfl
    next hflag =>
    have haccepted : Accepted driverMax s index := by
      by_contra haccepted
      exact hmarks ⟨hzero, haccepted, a, hfind, hflag⟩
    have hmarked : Accepted driverMax
        { s with vertexAttribs := setArrayEnabled s.vertexAttribs a enable } index :=
      ((sameContext_vertexAttribs _).accepted_iff index).mpr haccepted
    have hcheck : doesIndexOverflow driverMax { recording s with
        vertexAttribs := setArrayEnabled (recording s).vertexAttribs a enable } index = _ :=
      doesIndexOverflow_recording.trans (if_pos hmarked)
    rw [hcheck] at h
    dsimp only at h
    rw [if_neg Bool.false_ne_true] at h
    split at h
    · cases h
      exact recorded_clean_of_error error_queryMaxVertexAttribs
    · obtain ⟨list, -, rfl⟩ := Option.map_eq_some_iff.mp h
      exact recorded_clean_of_error error_queryMaxVertexAttribs
  | none =>
    rw [hfind] at h
    dsimp only at h
    rw [doesIndexOverflow_recording] at h
    by_cases haccepted : Accepted driverMax s index
    · rw [if_pos haccepted] at h
      dsimp only at h
      rw [if_neg Bool.false_ne_true] at h
      cases h
      exact recorded_clean_of_error error_queryMaxVertexAttribs
    · rw [if_neg haccepted] at h
      cases h
      exact fun _ => (recorded_overflow driverMax s s.vertexAttribs).2

/-- An attribute that is marked, though its index is refused. -/
theorem setVertexAttribArray_of_marks (fuel : ℕ) (hbinding : s.vertexArrayBinding = 0)
    (haccepted : ¬ Accepted driverMax s index) {a : Loc}
    (hfind : findIndex s.vertexAttribs index = some a)
    (hflag : (s.vertexAttribs.heap a).arrayEnabled ≠ enable) :
    ∃ t, setVertexAttribArray driverMax (recording s) fuel index enable = some t ∧
      ¬ (recorded s t).Clean unqueriedAttribs s := by
  have hrecording : ¬ (recording s).vertexArrayBinding ≠ 0 ∧
      findIndex (recording s).vertexAttribs index = some a ∧
      ((recording s).vertexAttribs.heap a).arrayEnabled ≠ enable :=
    ⟨not_not.mpr hbinding, hfind, hflag⟩
  have hmarked : ¬ Accepted driverMax
      { s with vertexAttribs := setArrayEnabled s.vertexAttribs a enable } index :=
    fun h => haccepted (((sameContext_vertexAttribs _).accepted_iff index).mp h)
  have hcheck : doesIndexOverflow driverMax { recording s with
      vertexAttribs := setArrayEnabled (recording s).vertexAttribs a enable } index = _ :=
    doesIndexOverflow_recording.trans (if_neg hmarked)
  refine ⟨setError (queryMaxVertexAttribs driverMax (recording { s with
    vertexAttribs := setArrayEnabled s.vertexAttribs a enable })) VertexAttribs.glInvalidValue, ?_,
    fun hclean => ?_⟩
  · unfold setVertexAttribArray
    rw [if_neg hrecording.1, hrecording.2.1]
    dsimp only
    rw [if_neg hrecording.2.2, hcheck]
    rfl
  · obtain ⟨herror, -, hstate⟩ :=
      -- The attribute has its new value, and a clean call would have left the old one.
      recorded_overflow driverMax s (setArrayEnabled s.vertexAttribs a enable)
    have hsame := hstate.symm.trans (hclean herror).2
    have hheap := congrArg (fun u => (u.vertexAttribs.heap a).arrayEnabled) hsame
    simp only [unqueriedAttribs, setArrayEnabled, Function.update_self] at hheap
    exact hflag hheap.symm

/-- An array is specified without an error only, or the error has no other effect. -/
theorem vertexAttribPointer_clean {args : PointerArgs}
    (h : vertexAttribPointer driverMax (recording s) fuel index args = some t) :
    (recorded s t).Clean unqueriedAttribs s := by
  unfold vertexAttribPointer at h
  split at h
  · cases h
    exact fun _ => ⟨rfl, rfl⟩
  split at h
  · cases h
    exact fun _ => ⟨rfl, rfl⟩
  rw [doesIndexOverflow_recording] at h
  by_cases haccepted : Accepted driverMax s index
  -- The index is the last thing that is checked.
  swap
  · rw [if_neg haccepted] at h
    cases h
    exact fun _ => (recorded_overflow driverMax s s.vertexAttribs).2
  rw [if_pos haccepted] at h
  dsimp only at h
  rw [if_neg Bool.false_ne_true] at h
  have herror : ∀ (bound : Prop) [Decidable bound] call,
      (if bound then forward (queryMaxVertexAttribs driverMax (recording s)) call
        else queryMaxVertexAttribs driverMax (recording s)).error = VertexAttribs.glNoError := by
    intro bound _ call
    split <;> exact error_queryMaxVertexAttribs
  split at h
  · cases h
    exact recorded_clean_of_error error_queryMaxVertexAttribs
  split at h
  · split at h
    · cases h
      exact recorded_clean_of_error error_queryMaxVertexAttribs
    split at h
    · obtain ⟨_, -, hrest⟩ := Option.bind_eq_some_iff.mp h
      obtain ⟨_, -, heq⟩ := Option.bind_eq_some_iff.mp hrest
      cases heq
      exact recorded_clean_of_error (herror _ _)
    · cases h
      exact recorded_clean_of_error (herror _ _)
  · cases h
    exact recorded_clean_of_error (herror _ _)

theorem bindBuffer_clean (target buffer : ℕ) :
    (recorded s (bindBuffer (recording s) target buffer)).Clean unqueriedAttribs s := by
  unfold bindBuffer
  split
  · split <;> exact recorded_clean_of_error rfl
  split
  · split <;> exact recorded_clean_of_error rfl
  · exact fun _ => ⟨rfl, rfl⟩

end Attribs

/-! ### All entry points -/

theorem setObjects_objects (c : Client F) : c.setObjects c.objects = c := by
  unfold setObjects objects
  rw [Function.update_eq_self]

/-- The objects, but for the answer of the driver, are all that is seen of what is written. -/
theorem unqueried_setObjects {objects : Objects.State}
    (h : unqueriedObjects objects = unqueriedObjects c.objects) :
    unqueried (c.setObjects objects) = unqueried c := by
  have hwritten : (c.setObjects objects).objects = objects := by
    simp only [Client.objects, setObjects, Function.update_self]
  unfold unqueried
  rw [hwritten, h]
  simp only [setObjects, Function.update_self, Function.update_idem]

theorem onObjects_clean {o : Outcome Objects.State} (h : o.Clean unqueriedObjects c.objects) :
    (c.onObjects o).Clean unqueried c :=
  h.map fun _ hsame => unqueried_setObjects hsame

/-- The attributes, but for the answer of the driver, are seen in the state. -/
theorem unqueried_attribs_iff (s : VertexAttribs.ClientState) :
    unqueried { c with attribs := s } = unqueried c ↔
      unqueriedAttribs s = unqueriedAttribs c.attribs := by
  constructor
  · intro h
    exact congrArg Client.attribs h
  · intro h
    unfold unqueried
    rw [h]
    rfl

theorem enable_clean_iff {driverMax : ℤ} {fuel index : ℕ} {enable : Bool} :
    (∀ o, ((VertexAttribs.setVertexAttribArray driverMax (recording c.attribs) fuel index
        enable).map (recorded c.attribs)).map (·.map ({ c with attribs := · })) = some o →
      o.Clean unqueried c) ↔ ¬ GoesOn.Marks driverMax c enable index := by
  constructor
  · rintro hclean ⟨hbinding, haccepted, a, hfind, hflag⟩
    obtain ⟨t, ht, hnot⟩ := setVertexAttribArray_of_marks fuel hbinding haccepted hfind hflag
    rw [ht] at hclean
    exact hnot ((Outcome.clean_map_iff unqueried_attribs_iff).mp (hclean _ rfl))
  · intro hmarks o ho
    obtain ⟨_, hrecorded, rfl⟩ := Option.map_eq_some_iff.mp ho
    obtain ⟨t, ht, rfl⟩ := Option.map_eq_some_iff.mp hrecorded
    exact (Outcome.clean_map_iff unqueried_attribs_iff).mpr (setVertexAttribArray_clean ht hmarks)

/-- A framebuffer is bound, and the call passed on, whatever the target. -/
theorem glBindFramebuffer_clean_iff {target framebuffer : ℕ} :
    (c.onObjects (.ofEffects (c.objects.glBindFramebuffer target framebuffer))).Clean unqueried c ↔
      ¬ target ≠ glFramebuffer := by
  unfold Objects.State.glBindFramebuffer
  by_cases htarget : target = glFramebuffer
  · refine iff_of_true (Outcome.clean_of_error ?_) (not_not.mpr htarget)
    rw [if_neg (not_not.mpr htarget)]
    split_ifs <;> rfl
  · refine iff_of_false (fun hclean => ?_) (not_not.mpr htarget)
    -- The error comes with the call, which should not have been passed on.
    rw [if_neg fun hand => htarget hand.1, if_pos htarget] at hclean
    cases (hclean (Option.some_ne_none glInvalidEnum)).1

theorem glBindRenderbuffer_clean_iff {target renderbuffer : ℕ} :
    (c.onObjects (.ofEffects (c.objects.glBindRenderbuffer target renderbuffer))).Clean unqueried
      c ↔ ¬ target ≠ glRenderbuffer := by
  unfold Objects.State.glBindRenderbuffer
  by_cases htarget : target = glRenderbuffer
  · refine iff_of_true (Outcome.clean_of_error ?_) (not_not.mpr htarget)
    rw [if_neg (not_not.mpr htarget)]
    rfl
  · refine iff_of_false (fun hclean => ?_) (not_not.mpr htarget)
    rw [if_pos htarget] at hclean
    cases (hclean (Option.some_ne_none glInvalidEnum)).1

variable [DecidableEq F] [Zero F] [LT F] [DecidableLT F] {format : FloatFormat F}

/-- A call has no effect beyond an error exactly if it does not go on. -/
theorem clean_iff_not_goesOn (driverMax : ℤ) (fuel : ℕ) (c : Client F) (call : ClientCall F) :
    (∀ o, c.run format driverMax fuel call = some o → o.Clean unqueried c) ↔
      ¬ GoesOn format driverMax c call := by
  -- Most entry points have one result, and go on after no error.
  have hone : ∀ {o : Outcome (Client F)}, c.run format driverMax fuel call = some o →
      ((∀ o, c.run format driverMax fuel call = some o → o.Clean unqueried c) ↔
        o.Clean unqueried c) := by
    intro o hrun
    rw [hrun]
    exact ⟨fun h => h o rfl, fun h o' ho' => Option.some.inj ho' ▸ h⟩
  -- Where names are generated or deleted, only their number is checked.
  have hchecked : ∀ {n : ℤ} {kind : NameKind} {o : Option (Outcome (Client F))},
      (∀ {o'}, o = some o' → o'.error = none) →
      ∀ o', (if n < 0 ∨ kind.refusesZero ∧ n = 0 then some (.refused c glInvalidValue) else o) =
        some o' → o'.Clean unqueried c := by
    intro n kind o herror o' ho'
    split_ifs at ho'
    · cases ho'
      exact Outcome.clean_refused
    · exact Outcome.clean_of_error (herror ho')
  cases call with
  | blend call =>
    exact iff_of_true ((hone rfl).mpr ((blendEntry_checksFirst ..).map_clean rfl)) not_false
  | stencil call =>
    exact iff_of_true ((hone rfl).mpr ((stencilEntry_checksFirst ..).map_clean rfl)) not_false
  | scalar call =>
    exact iff_of_true ((hone rfl).mpr
      ((scalarEntry_checksFirst ..).map_clean (setObjects_objects c))) not_false
  | parameter call =>
    cases call with
    | glTexParameteri target pname param =>
      exact iff_of_true ((hone rfl).mpr (glTexParameteri_checksFirst.map_clean rfl)) not_false
    | glTexParameterf target pname value =>
      exact (hone rfl).trans (glTexParameterf_clean_iff rfl)
  | attrib op =>
    cases op with
    | bindBuffer target buffer =>
      refine iff_of_true ((hone rfl).mpr ?_) not_false
      exact (Outcome.clean_map_iff unqueried_attribs_iff).mpr (bindBuffer_clean target buffer)
    | enableVertexAttribArray index => exact enable_clean_iff
    | disableVertexAttribArray index => exact enable_clean_iff
    | vertexAttribPointer index args =>
      refine iff_of_true (fun o ho => ?_) not_false
      obtain ⟨_, hrecorded, rfl⟩ := Option.map_eq_some_iff.mp ho
      obtain ⟨t, ht, rfl⟩ := Option.map_eq_some_iff.mp hrecorded
      exact (Outcome.clean_map_iff unqueried_attribs_iff).mpr (vertexAttribPointer_clean ht)
  | glPixelStorei pname param =>
    refine iff_of_true ((hone rfl).mpr ?_) not_false
    exact (pixelStorei_clean c.pixelStore pname param).map fun x hx =>
      congrArg (fun store => ({ c with pixelStore := store } : Client F).unqueried) hx
  | glActiveTexture texture =>
    exact iff_of_true ((hone rfl).mpr (onObjects_clean glActiveTexture_clean)) not_false
  | glBindTexture target texture =>
    refine iff_of_true (fun o ho => ?_) not_false
    obtain ⟨⟨t, effects⟩, hbind, rfl⟩ := Option.map_eq_some_iff.mp ho
    exact onObjects_clean (glBindTexture_checksFirst hbind).clean
  | glBindFramebuffer target framebuffer => exact (hone rfl).trans glBindFramebuffer_clean_iff
  | glBindRenderbuffer target renderbuffer => exact (hone rfl).trans glBindRenderbuffer_clean_iff
  | glFramebufferTexture2D target attachment textarget texture level =>
    exact iff_of_true ((hone rfl).mpr
      (onObjects_clean (glFramebufferTexture2D_checksFirst ..).clean)) not_false
  | glFramebufferRenderbuffer target attachment renderbuffertarget renderbuffer =>
    exact iff_of_true ((hone rfl).mpr
      (onObjects_clean (glFramebufferRenderbuffer_checksFirst ..).clean)) not_false
  | glTexImage2D =>
    exact iff_of_true ((hone rfl).mpr (onObjects_clean glTexImage2D_clean)) not_false
  | glTexSubImage2D =>
    exact iff_of_true ((hone rfl).mpr (onObjects_clean glTexSubImage2D_clean)) not_false
  | glGenerateMipmap target =>
    exact iff_of_true ((hone rfl).mpr (onObjects_clean glGenerateMipmap_clean)) not_false
  | glClear mask =>
    exact iff_of_true ((hone rfl).mpr (onObjects_clean (glClear_checksFirst ..).clean)) not_false
  | gen kind n => exact iff_of_true (hchecked error_genNames) not_false
  | delete kind n names => exact iff_of_true (hchecked error_deleteNames) not_false
  | glDeleteProgram program =>
    exact iff_of_true ((hone rfl).mpr (glDeleteProgram_clean c program)) not_false
  | glUseProgram program =>
    exact iff_of_true ((hone rfl).mpr (glUseProgram_clean c program)) not_false

/-- A framebuffer is bound to a target that there is none for. -/
theorem exists_goesOn : ∃ o : Outcome (Client ℚ),
    (init rationalFormat (fun _ => VertexAttribs.freshAttrib 0 0 false) fun _ => 0).run
      rationalFormat 8 0 (.glBindFramebuffer glRenderbuffer 5) = some o ∧
      o.error = some glInvalidEnum ∧ o.state.objects.framebufferBinding = 5 ∧
      ¬ o.Clean unqueried
        (init rationalFormat (fun _ => VertexAttribs.freshAttrib 0 0 false) fun _ => 0) := by
  refine ⟨_, rfl, rfl, rfl, fun hclean => ?_⟩
  cases (hclean (Option.some_ne_none glInvalidEnum)).1

end Client

end GpuProxy.GlState
