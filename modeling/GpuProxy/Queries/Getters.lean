import GpuProxy.GlState.Blend
import GpuProxy.GlState.Scalars
import GpuProxy.GlState.Stencil
import GpuProxy.Programs.InUse
import GpuProxy.Textures.PixelStore
import GpuProxy.VertexAttribs.Readback

/-!
# The generated queries

`caching_client_glGetBooleanv`, `caching_client_glGetFloatv` and `caching_client_glGetIntegerv`
are written by a generator, from a table that says for each `pname` in which field of
`egl_state_t` its answer is and how the code gets it from there. Here are the table, the fields
and the code for a row.

## Main definitions

* `GetFunc`, `Value` — the three functions, and values of the types they convert between
* `Pname`, `StateField`, `Row`, `getTypeInfo` — the table
* `GetState` — the fields
* `GetState.answerRow`, `GetState.glGet` — the code of a row, and the three functions
-/

namespace GpuProxy.Queries

open GlState Math Objects Textures VertexAttribs

/-! ### Values -/

/-- The operations on `GLfloat`, which has 24 bits for the digits of a number. -/
structure SingleFormat (F : Type) extends FloatFormat F where
  toInt_ofInt : ∀ i : ℤ, |i| ≤ 2 ^ 24 → toInt (ofInt i) = i

/-- A `GLboolean`, a `GLint` or a `GLfloat`. -/
inductive Value (F : Type)
  | boolean (value : ℕ)
  | int (value : ℤ)
  | float (value : F)
  deriving DecidableEq

/-- The functions of `_GL_GET_TYPE_INFO_FUNC`, each with its type of results. -/
inductive GetFunc
  | glGetBooleanv
  | glGetFloatv
  | glGetIntegerv
  deriving DecidableEq

section Conversions

variable {F : Type} (format : FloatFormat F)

/-- The value assigned to a `GLint`. -/
def Value.toInt : Value F → ℤ
  | .boolean value => value
  | .int value => value
  | .float value => format.toInt value

/-- The value assigned to a `GLfloat`. -/
def Value.toFloat : Value F → F
  | .boolean value => format.ofInt value
  | .int value => format.ofInt value
  | .float value => value

/-- `*params = value`. A `GLboolean` is an `unsigned char`. -/
def GetFunc.convert (func : GetFunc) (value : Value F) : Value F :=
  match func with
  | .glGetBooleanv => .boolean (value.toInt format % 2 ^ 8).toNat
  | .glGetFloatv => .float (value.toFloat format)
  | .glGetIntegerv => .int (value.toInt format)

end Conversions

/-! ### The table -/

/-- The limits that are memoised. -/
inductive Limit
  | maxCombinedTextureImageUnits
  | maxCubeMapTextureSize
  | maxFragmentUniformVectors
  | maxRenderbufferSize
  | maxTextureImageUnits
  | maxVaryingVectors
  | maxTextureSize
  | maxVertexAttribs
  | maxVertexTextureImageUnits
  | maxVertexUniformVectors
  | maxTextureMaxAnisotropy
  deriving DecidableEq

/-- The fields that are read from the cache. -/
inductive StateField
  | capability (c : Capability)
  | shaderCompiler
  | colorWritemask
  | depthWritemask
  | blendColor
  | blendDst
  | blendEquation
  | blendSrc
  | colorClearValue
  | depthClearValue
  | depthRange
  | lineWidth
  | polygonOffsetFactor
  | polygonOffsetUnits
  | activeTexture
  | currentProgram
  | depthFunc
  | generateMipmapHint
  | scissorBox
  | stencilBackFail
  | stencilBackFunc
  | stencilBackPassDepthFail
  | stencilBackPassDepthPass
  | stencilClearValue
  | stencilFail
  | stencilFunc
  | stencilPassDepthFail
  | stencilPassDepthPass
  | stencilRef
  | stencilValueMask
  | stencilWritemask
  | stencilBackWritemask
  | viewport
  | unpackRowLength
  | unpackSkipRows
  | unpackSkipPixels
  deriving DecidableEq

/-- The bindings that answers of the server are stored in. -/
inductive Binding
  | arrayBufferBinding
  | vertexArrayBinding
  deriving DecidableEq

/-- The values of `pname` that the table has, and any other one. -/
inductive Pname
  | glBlend
  | glColorWritemask
  | glCullFace
  | glDepthTest
  | glDepthWritemask
  | glDither
  | glPolygonOffsetFill
  | glSampleAlphaToCoverage
  | glSampleCoverage
  | glScissorTest
  | glShaderCompiler
  | glStencilTest
  | glBlendColor
  | glBlendDstAlpha
  | glBlendDstRGB
  | glBlendEquationAlpha
  | glBlendEquationRGB
  | glBlendSrcAlpha
  | glBlendSrcRGB
  | glColorClearValue
  | glDepthClearValue
  | glDepthRange
  | glLineWidth
  | glPolygonOffsetFactor
  | glActiveTexture
  | glCurrentProgram
  | glDepthFunc
  | glGenerateMipmapHint
  | limit (limit : Limit)
  | glPolygonOffsetUnits
  | glScissorBox
  | glStencilBackFail
  | glStencilBackFunc
  | glStencilBackPassDepthFail
  | glStencilBackPassDepthPass
  | glStencilBackRef
  | glStencilBackValueMask
  | glStencilClearValue
  | glStencilFail
  | glStencilFunc
  | glStencilPassDepthFail
  | glStencilPassDepthPass
  | glStencilRef
  | glStencilValueMask
  | glStencilWritemask
  | glStencilBackWritemask
  | glViewport
  | glArrayBufferBinding
  | glElementArrayBufferBinding
  | glVertexArrayBindingOes
  | glUnpackRowLength
  | glUnpackSkipRows
  | glUnpackSkipPixels
  | other (value : ℕ)
  deriving DecidableEq

/-- A row of the table: the field, and which of its entries are answered. -/
inductive Row
  | plain (field : StateField)
  | size (field : StateField) (size : ℕ)
  | index (field : StateField) (index : ℕ)
  | hasCache (limit : Limit)
  | fetchServerData (binding : Binding)

/-- `_GL_GET_TYPE_INFO`. -/
def getTypeInfo : Pname → Option Row
  | .glBlend => some (.plain (.capability .blend))
  | .glColorWritemask => some (.size .colorWritemask 4)
  | .glCullFace => some (.plain (.capability .cullFace))
  | .glDepthTest => some (.plain (.capability .depthTest))
  | .glDepthWritemask => some (.plain .depthWritemask)
  | .glDither => some (.plain (.capability .dither))
  | .glPolygonOffsetFill => some (.plain (.capability .polygonOffsetFill))
  | .glSampleAlphaToCoverage => some (.plain (.capability .sampleAlphaToCoverage))
  | .glSampleCoverage => some (.plain (.capability .sampleCoverage))
  | .glScissorTest => some (.plain (.capability .scissorTest))
  | .glShaderCompiler => some (.plain .shaderCompiler)
  | .glStencilTest => some (.plain (.capability .stencilTest))
  | .glBlendColor => some (.size .blendColor 4)
  | .glBlendDstAlpha => some (.index .blendDst 1)
  | .glBlendDstRGB => some (.index .blendDst 0)
  | .glBlendEquationAlpha => some (.index .blendEquation 1)
  | .glBlendEquationRGB => some (.index .blendEquation 0)
  | .glBlendSrcAlpha => some (.index .blendSrc 1)
  | .glBlendSrcRGB => some (.index .blendSrc 0)
  | .glColorClearValue => some (.size .colorClearValue 4)
  | .glDepthClearValue => some (.plain .depthClearValue)
  | .glDepthRange => some (.size .depthRange 2)
  | .glLineWidth => some (.plain .lineWidth)
  | .glPolygonOffsetFactor => some (.plain .polygonOffsetFactor)
  | .glActiveTexture => some (.plain .activeTexture)
  | .glCurrentProgram => some (.plain .currentProgram)
  | .glDepthFunc => some (.plain .depthFunc)
  | .glGenerateMipmapHint => some (.plain .generateMipmapHint)
  | .limit limit => some (.hasCache limit)
  | .glPolygonOffsetUnits => some (.plain .polygonOffsetUnits)
  | .glScissorBox => some (.size .scissorBox 4)
  | .glStencilBackFail => some (.plain .stencilBackFail)
  | .glStencilBackFunc => some (.plain .stencilBackFunc)
  | .glStencilBackPassDepthFail => some (.plain .stencilBackPassDepthFail)
  | .glStencilBackPassDepthPass => some (.plain .stencilBackPassDepthPass)
  -- The next two are the fields of the front faces.
  | .glStencilBackRef => some (.plain .stencilRef)
  | .glStencilBackValueMask => some (.plain .stencilValueMask)
  | .glStencilClearValue => some (.plain .stencilClearValue)
  | .glStencilFail => some (.plain .stencilFail)
  | .glStencilFunc => some (.plain .stencilFunc)
  | .glStencilPassDepthFail => some (.plain .stencilPassDepthFail)
  | .glStencilPassDepthPass => some (.plain .stencilPassDepthPass)
  | .glStencilRef => some (.plain .stencilRef)
  | .glStencilValueMask => some (.plain .stencilValueMask)
  | .glStencilWritemask => some (.plain .stencilWritemask)
  | .glStencilBackWritemask => some (.plain .stencilBackWritemask)
  | .glViewport => some (.size .viewport 4)
  | .glArrayBufferBinding => some (.fetchServerData .arrayBufferBinding)
  -- The field of the other buffer binding.
  | .glElementArrayBufferBinding => some (.fetchServerData .arrayBufferBinding)
  | .glVertexArrayBindingOes => some (.fetchServerData .vertexArrayBinding)
  | .glUnpackRowLength => some (.plain .unpackRowLength)
  | .glUnpackSkipRows => some (.plain .unpackSkipRows)
  | .glUnpackSkipPixels => some (.plain .unpackSkipPixels)
  | .other _ => none

/-! ### The fields -/

/-- A limit, and whether the driver was asked for it. -/
structure MemoCell (F : Type) where
  value : Value F
  queried : Bool

/-- The fields of `egl_state_t` that the queries read and write. Those of the bindings and of
`max_vertex_attribs` are in `client`, and `current_program` is that of context 0 of `group`. -/
structure GetState (F : Type) where
  client : ClientState
  limits : Limit → MemoCell F
  blend : BlendState
  stencil : StencilState
  scalars : ScalarState F
  pixelStore : PixelStore
  group : Group
  shaderCompiler : ℕ

/-- The limits as `egl_state_init` sets them. -/
def Limit.init {F : Type} (format : FloatFormat F) : Limit → Value F
  | .maxCombinedTextureImageUnits => .int 8
  | .maxCubeMapTextureSize => .int 16
  | .maxFragmentUniformVectors => .int 16
  | .maxRenderbufferSize => .int 1
  | .maxTextureImageUnits => .int 8
  | .maxVaryingVectors => .int 8
  | .maxTextureSize => .int 64
  | .maxVertexAttribs => .int 8
  | .maxVertexTextureImageUnits => .int 0
  | .maxVertexUniformVectors => .int 128
  | .maxTextureMaxAnisotropy => .float (format.ofInt 2)

/-- The flags as `egl_state_init` leaves them, in memory with any content. -/
def Limit.initQueried (memory : Limit → Bool) : Limit → Bool
  | .maxVertexAttribs | .maxFragmentUniformVectors | .maxRenderbufferSize
  | .maxTextureImageUnits | .maxTextureSize | .maxTextureMaxAnisotropy => false
  -- These five are not set.
  | .maxCombinedTextureImageUnits => memory .maxCombinedTextureImageUnits
  | .maxCubeMapTextureSize => memory .maxCubeMapTextureSize
  | .maxVaryingVectors => memory .maxVaryingVectors
  | .maxVertexTextureImageUnits => memory .maxVertexTextureImageUnits
  | .maxVertexUniformVectors => memory .maxVertexUniformVectors

namespace GetState

/-- `egl_state_init`. The memory has `heap` in place of the attributes, `memory` in place of the
flags, and `textures` in place of the 3D textures of the contexts. -/
def init {F : Type} [Zero F] [One F] (format : FloatFormat F) (heap : Loc → VertexAttrib)
    (memory : Limit → Bool) (textures : ℕ → ℕ) : GetState F where
  client := VertexAttribs.initial heap
  limits := fun limit => ⟨limit.init format, limit.initQueried memory⟩
  blend := .init
  stencil := .init
  scalars := ⟨.init F, .init (textures 0)⟩
  pixelStore := .initial
  group := .sharing (fun _ => none) textures
  shaderCompiler := 1

variable {F : Type} (format : FloatFormat F) (s : GetState F)

/-- The entries of a field, of which only the first two of `blend_src` and `blend_dst` are ever
read. -/
def field : StateField → List (Value F)
  | .capability capability => [.boolean (s.scalars.scalars.capabilities capability).toNat]
  | .shaderCompiler => [.boolean s.shaderCompiler]
  | .colorWritemask =>
    let (red, green, blue, alpha) := s.scalars.scalars.colorWritemask
    [.boolean red, .boolean green, .boolean blue, .boolean alpha]
  | .depthWritemask => [.boolean s.scalars.scalars.depthWritemask]
  | .blendColor =>
    let (red, green, blue, alpha) := s.scalars.scalars.blendColor
    [.float red, .float green, .float blue, .float alpha]
  | .blendDst =>
    [.float (format.ofInt s.blend.blendDst.1), .float (format.ofInt s.blend.blendDst.2)]
  | .blendEquation => [.int s.blend.blendEquation.1, .int s.blend.blendEquation.2]
  | .blendSrc =>
    [.float (format.ofInt s.blend.blendSrc.1), .float (format.ofInt s.blend.blendSrc.2)]
  | .colorClearValue =>
    let (red, green, blue, alpha) := s.scalars.scalars.colorClearValue
    [.float red, .float green, .float blue, .float alpha]
  | .depthClearValue => [.float s.scalars.scalars.depthClearValue]
  | .depthRange => [.float s.scalars.scalars.depthRange.1, .float s.scalars.scalars.depthRange.2]
  | .lineWidth => [.float s.scalars.scalars.lineWidth]
  | .polygonOffsetFactor => [.float s.scalars.scalars.polygonOffset.1]
  | .polygonOffsetUnits => [.float s.scalars.scalars.polygonOffset.2]
  | .activeTexture => [.int s.scalars.objects.activeTexture]
  | .currentProgram => [.int (s.group 0).currentProgram]
  | .depthFunc => [.int s.scalars.scalars.depthFunc]
  | .generateMipmapHint => [.int s.scalars.scalars.generateMipmapHint]
  | .scissorBox =>
    let (x, y, width, height) := s.scalars.scalars.scissorBox
    [.int x, .int y, .int width, .int height]
  | .stencilBackFail => [.int s.stencil.stencilBackFail]
  | .stencilBackFunc => [.int s.stencil.stencilBackFunc]
  | .stencilBackPassDepthFail => [.int s.stencil.stencilBackPassDepthFail]
  | .stencilBackPassDepthPass => [.int s.stencil.stencilBackPassDepthPass]
  | .stencilClearValue => [.int s.scalars.scalars.stencilClearValue]
  | .stencilFail => [.int s.stencil.stencilFail]
  | .stencilFunc => [.int s.stencil.stencilFunc]
  | .stencilPassDepthFail => [.int s.stencil.stencilPassDepthFail]
  | .stencilPassDepthPass => [.int s.stencil.stencilPassDepthPass]
  | .stencilRef => [.int s.stencil.stencilRef]
  | .stencilValueMask => [.int s.stencil.stencilValueMask.toInt]
  | .stencilWritemask => [.int s.stencil.stencilWritemask.toInt]
  | .stencilBackWritemask => [.int s.stencil.stencilBackWritemask.toInt]
  | .viewport =>
    let (x, y, width, height) := s.scalars.scalars.viewport
    [.int x, .int y, .int width, .int height]
  | .unpackRowLength => [.int (s.pixelStore.value .unpackRowLength)]
  | .unpackSkipRows => [.int (s.pixelStore.value .unpackSkipRows)]
  | .unpackSkipPixels => [.int (s.pixelStore.value .unpackSkipPixels)]

/-- The cell of a limit. -/
def cell : Limit → MemoCell F
  | .maxVertexAttribs => ⟨.int s.client.maxVertexAttribs, s.client.maxVertexAttribsQueried⟩
  | limit => s.limits limit

/-- `state->limit = *params`, and the flag set. One of the limits is a `GLfloat`. -/
def memoise (answer : Value F) : Limit → GetState F
  | .maxVertexAttribs =>
    { s with
      client := { s.client with
        maxVertexAttribs := answer.toInt format, maxVertexAttribsQueried := true } }
  | .maxTextureMaxAnisotropy =>
    { s with
      limits := Function.update s.limits .maxTextureMaxAnisotropy
        ⟨.float (answer.toFloat format), true⟩ }
  | limit =>
    { s with limits := Function.update s.limits limit ⟨.int (answer.toInt format), true⟩ }

/-- `state->binding = *params`. A binding is compared with names as an unsigned integer. -/
def storeBinding (answer : Value F) : Binding → GetState F
  | .arrayBufferBinding =>
    { s with client := { s.client with arrayBufferBinding := uint (answer.toInt format) } }
  | .vertexArrayBinding =>
    { s with client := { s.client with vertexArrayBinding := uint (answer.toInt format) } }

/-- The loop behind the `switch`, over the attributes. -/
def storeAttribBindings (answer : Value F) : GetState F :=
  let list := s.client.vertexAttribs
  { s with
    client := { s.client with
      vertexAttribs := { list with
        heap := fun l =>
          if l.block = list.attribs ∧ l.idx < list.count then
            { list.heap l with arrayBufferBinding := uint (answer.toInt format) }
          else list.heap l } } }

/-- The code of a row, or of the `default` case. `answer` is what the driver stores in `*params`
when it is asked. -/
def answerRow (func : GetFunc) (answer : Value F) : Option Row → GetState F × Answer (Value F)
  | some (.plain field) => (s, .stored (((s.field format field).take 1).map (func.convert format)))
  | some (.size field size) =>
    (s, .stored (((s.field format field).take size).map (func.convert format)))
  | some (.index field index) =>
    (s, .stored (((s.field format field)[index]?).toList.map (func.convert format)))
  | some (.hasCache limit) =>
    if (s.cell limit).queried then (s, .stored [func.convert format (s.cell limit).value])
    else (s.memoise format answer limit, .stored [answer])
  | some (.fetchServerData binding) => (s.storeBinding format answer binding, .stored [answer])
  | none => (s, .driver)

/-- `caching_client_glGetBooleanv`, `caching_client_glGetFloatv` and
`caching_client_glGetIntegerv`. -/
def glGet (func : GetFunc) (pname : Pname) (answer : Value F) :
    GetState F × Answer (Value F) :=
  let (s, params) := s.answerRow format func answer (getTypeInfo pname)
  (if pname = .glArrayBufferBinding then s.storeAttribBindings format answer else s, params)

end GetState

end GpuProxy.Queries
