import GpuProxy.GlState.TextureBinding
import GpuProxy.Names.Server

/-!
# Textures, renderbuffers and framebuffers

The caching client keeps a record of every texture, renderbuffer and framebuffer, in one
table for each kind. A texture or renderbuffer has the name of a framebuffer it is attached
to in its record, and a framebuffer the names of what is attached to it, with what is known
of whether it is complete. Here are the records, and the entry points of `caching_client.c`
that create, delete, bind, attach, specify and use the objects.

A call that dereferences `NULL`, or fails an assertion, has no result. The length of a list
of names is the `n` of a call, which is not negative; with a negative one the calls record
`GL_INVALID_VALUE` and do nothing else.

## Main definitions

* `Texture`, `Renderbuffer`, `Framebuffer` — the records
* `State` — the caches, name handlers and bindings of `egl_state_t`
* `Call`, `runCall` — the entry points
-/

namespace GpuProxy.Objects

open Math Names GlState

/-! ### Enumerations -/

def glInvalidOperation : ℕ := 0x0502
def glInvalidFramebufferOperation : ℕ := 0x0506

def glFramebuffer : ℕ := 0x8D40
def glRenderbuffer : ℕ := 0x8D41
def glColorAttachment0 : ℕ := 0x8CE0
def glDepthAttachment : ℕ := 0x8D00
def glStencilAttachment : ℕ := 0x8D20
def glFramebufferComplete : ℕ := 0x8CD5

def glDepthBufferBit : ℕ := 0x0100
def glStencilBufferBit : ℕ := 0x0400
def glColorBufferBit : ℕ := 0x4000

def glTextureCubeMapPositiveX : ℕ := 0x8515
def glTextureCubeMapNegativeX : ℕ := 0x8516
def glTextureCubeMapPositiveY : ℕ := 0x8517
def glTextureCubeMapNegativeY : ℕ := 0x8518
def glTextureCubeMapPositiveZ : ℕ := 0x8519
def glTextureCubeMapNegativeZ : ℕ := 0x851A

def glUnsignedByte : ℕ := 0x1401
def glUnsignedShort : ℕ := 0x1403
def glUnsignedInt : ℕ := 0x1405
def glUnsignedShort565 : ℕ := 0x8363
def glUnsignedShort4444 : ℕ := 0x8033
def glUnsignedShort5551 : ℕ := 0x8034
def glRgb : ℕ := 0x1907
def glRgba : ℕ := 0x1908
def glBgraExt : ℕ := 0x80E1

def glPoints : ℕ := 0
def glLines : ℕ := 1
def glLineLoop : ℕ := 2
def glLineStrip : ℕ := 3
def glTriangles : ℕ := 4
def glTriangleStrip : ℕ := 5
def glTriangleFan : ℕ := 6

/-- `is_valid_TextureTarget`. -/
def isValidTextureTarget (value : ℕ) : Bool :=
  value ∈ [glTexture2D, glTextureCubeMapPositiveX, glTextureCubeMapNegativeX,
    glTextureCubeMapPositiveY, glTextureCubeMapNegativeY, glTextureCubeMapPositiveZ,
    glTextureCubeMapNegativeZ]

/-- `is_valid_DrawMode`. -/
def isValidDrawMode (value : ℕ) : Bool :=
  value ∈ [glPoints, glLineStrip, glLineLoop, glLines, glTriangleStrip, glTriangleFan,
    glTriangles]

/-! ### Records -/

/-- `texture_t`, but for the parameters. -/
structure Texture where
  framebufferId : ℕ
  id : ℕ
  internalFormat : ℕ
  width : ℤ
  height : ℤ
  dataType : ℕ
  deriving DecidableEq, Repr

/-- `renderbuffer_t`. -/
structure Renderbuffer where
  id : ℕ
  framebufferId : ℕ
  deriving DecidableEq, Repr

/-- `framebuffer_status_t`. -/
inductive FramebufferStatus
  | complete
  | incomplete
  | completeUnknown
  deriving DecidableEq, Repr

/-- `framebuffer_t`. -/
structure Framebuffer where
  id : ℕ
  attachedImage : ℕ
  attachedColorBuffer : ℕ
  attachedDepthBuffer : ℕ
  attachedStencilBuffer : ℕ
  complete : FramebufferStatus
  deriving DecidableEq, Repr

/-- `_create_texture`. -/
def createTexture (id : ℕ) : Texture where
  framebufferId := 0
  id := id
  internalFormat := glRgba
  width := 0
  height := 0
  dataType := glUnsignedByte

/-- `_create_renderbuffer`. -/
def createRenderbuffer (id : ℕ) : Renderbuffer where
  id := id
  framebufferId := 0

/-- `_create_framebuffer`. -/
def createFramebuffer (id : ℕ) : Framebuffer where
  id := id
  attachedImage := 0
  attachedColorBuffer := 0
  attachedDepthBuffer := 0
  attachedStencilBuffer := 0
  complete := .complete

/-- Which of the extensions that are looked for the extension string names. -/
structure Extensions where
  elementIndexUint : Bool
  textureFormatBgra8888 : Bool
  deriving DecidableEq, Repr

/-- The fields of `egl_state_t` that concern these objects, with those that decide whether a
draw gets as far as the framebuffer. -/
structure State where
  textureCache : HashTable Texture
  framebufferCache : HashTable Framebuffer
  renderbufferCache : HashTable Renderbuffer
  textureNameHandler : NameHandler
  framebufferNameHandler : NameHandler
  renderbufferNameHandler : NameHandler
  framebufferBinding : ℕ
  renderbufferBinding : ℕ
  /-- `texture_binding[0]`. -/
  textureBinding2D : ℕ
  /-- `texture_binding[1]`. -/
  textureBindingCube : ℕ
  textureBinding3D : ℕ
  activeTexture : ℕ
  /-- `extensions_string`. -/
  extensions : Option Extensions
  supportsElementIndexUint : Bool
  supportsBgra : Bool
  vertexArrayBinding : ℕ
  elementArrayBufferBinding : ℕ
  /-- The answer of `client_has_vertex_attrib_array_set`. -/
  hasVertexAttribArraySet : Bool

/-- The calls, with the answers of the driver. -/
inductive Call
  | glGenTextures (n : ℕ)
  | glGenFramebuffers (n : ℕ)
  | glGenRenderbuffers (n : ℕ)
  | glDeleteTextures (textures : List ℕ)
  | glDeleteFramebuffers (framebuffers : List ℕ)
  | glDeleteRenderbuffers (renderbuffers : List ℕ)
  | glBindTexture (target texture : ℕ)
  | glBindFramebuffer (target framebuffer : ℕ)
  | glBindRenderbuffer (target renderbuffer : ℕ)
  | glFramebufferTexture2D (target attachment textarget texture : ℕ) (level : ℤ)
  | glFramebufferRenderbuffer (target attachment renderbuffertarget renderbuffer : ℕ)
  | glTexImage2D (target : ℕ) (level internalformat width height : ℤ) (format type : ℕ)
      (extensions : Extensions)
  | glRenderbufferStorage (target internalformat : ℕ) (width height : ℤ)
  | glCheckFramebufferStatus (target result : ℕ)
  | glClear (mask : ℕ)
  | glDrawArrays (mode : ℕ) (first count : ℤ)
  | glDrawElements (mode : ℕ) (count : ℤ) (type : ℕ) (indices : Bool)
  deriving DecidableEq, Repr

/-- The effects of a call, beyond the state. -/
abbrev Effects := List (Effect Call)

namespace State

/-- The context of `egl_state_new`. No line of it sets `texture_binding_3d`, which is what `malloc`
finds in the memory. -/
def init (memory : ℕ) : State where
  textureCache := newHashTable
  framebufferCache := newHashTable
  renderbufferCache := newHashTable
  textureNameHandler := nameHandlerCreate
  framebufferNameHandler := nameHandlerCreate
  renderbufferNameHandler := nameHandlerCreate
  framebufferBinding := 0
  renderbufferBinding := 0
  textureBinding2D := 0
  textureBindingCube := 0
  textureBinding3D := memory
  activeTexture := glTexture0
  extensions := none
  supportsElementIndexUint := false
  supportsBgra := false
  vertexArrayBinding := 0
  elementArrayBufferBinding := 0
  hasVertexAttribArraySet := false

variable (s : State)

/-! ### The caches -/

/-- `egl_state_lookup_cached_texture`. -/
def lookupCachedTexture (texture : ℕ) : Option Texture := hashLookup s.textureCache texture

/-- `egl_state_lookup_cached_framebuffer`. -/
def lookupCachedFramebuffer (framebuffer : ℕ) : Option Framebuffer :=
  hashLookup s.framebufferCache framebuffer

/-- `egl_state_lookup_cached_renderbuffer`. -/
def lookupCachedRenderbuffer (renderbuffer : ℕ) : Option Renderbuffer :=
  hashLookup s.renderbufferCache renderbuffer

/-- `egl_state_create_cached_texture`. -/
def createCachedTexture (texture : ℕ) : Option State := do
  let cache ← hashInsert s.textureCache texture (createTexture texture)
  return { s with textureCache := cache }

/-- `egl_state_create_cached_framebuffer`. -/
def createCachedFramebuffer (framebuffer : ℕ) : Option State := do
  let cache ← hashInsert s.framebufferCache framebuffer (createFramebuffer framebuffer)
  return { s with framebufferCache := cache }

/-- `egl_state_create_cached_renderbuffer`. -/
def createCachedRenderbuffer (renderbuffer : ℕ) : Option State := do
  let cache ← hashInsert s.renderbufferCache renderbuffer (createRenderbuffer renderbuffer)
  return { s with renderbufferCache := cache }

/-- `egl_state_delete_cached_texture`. -/
def deleteCachedTexture (texture : ℕ) : State :=
  if texture ≠ 0 then
    { s with textureCache := hashRemoveWithDeletion s.textureCache texture }
  else s

/-- `egl_state_delete_cached_framebuffer`. It is the texture cache that is changed. -/
def deleteCachedFramebuffer (framebuffer : ℕ) : State :=
  if framebuffer ≠ 0 then
    { s with textureCache := hashRemoveWithDeletion s.textureCache framebuffer }
  else s

/-- `egl_state_delete_cached_renderbuffer`. It is the texture cache that is changed. -/
def deleteCachedRenderbuffer (renderbuffer : ℕ) : State :=
  if renderbuffer ≠ 0 then
    { s with textureCache := hashRemoveWithDeletion s.textureCache renderbuffer }
  else s

/-- A write to a cached texture. -/
def modifyTexture (texture : ℕ) (f : Texture → Texture) : State :=
  { s with textureCache := hashModify s.textureCache texture f }

/-- A write to a cached framebuffer. -/
def modifyFramebuffer (framebuffer : ℕ) (f : Framebuffer → Framebuffer) : State :=
  { s with framebufferCache := hashModify s.framebufferCache framebuffer f }

/-- A write to a cached renderbuffer. -/
def modifyRenderbuffer (renderbuffer : ℕ) (f : Renderbuffer → Renderbuffer) : State :=
  { s with renderbufferCache := hashModify s.renderbufferCache renderbuffer f }

/-! ### Generating names -/

/-- `caching_client_glGenTextures`. -/
def glGenTextures (n : ℕ) : Option (State × Effects) := do
  let (textures, handler) ← allocNames s.textureNameHandler n
  let s := { s with textureNameHandler := handler }
  let s ← textures.foldlM createCachedTexture s
  return (s, [.forward (.glGenTextures n)])

/-- `caching_client_glGenFramebuffers`. -/
def glGenFramebuffers (n : ℕ) : Option (State × Effects) := do
  let (framebuffers, handler) ← allocNames s.framebufferNameHandler n
  let s := { s with framebufferNameHandler := handler }
  let s ← framebuffers.foldlM createCachedFramebuffer s
  return (s, [.forward (.glGenFramebuffers n)])

/-- `caching_client_glGenRenderbuffers`. -/
def glGenRenderbuffers (n : ℕ) : Option (State × Effects) := do
  let (renderbuffers, handler) ← allocNames s.renderbufferNameHandler n
  let s := { s with renderbufferNameHandler := handler }
  let s ← renderbuffers.foldlM createCachedRenderbuffer s
  return (s, [.forward (.glGenRenderbuffers n)])

/-! ### Deleting objects -/

/-- The bindings after a texture is deleted. -/
def unbindTexture (texture : ℕ) : State :=
  let s :=
    if s.textureBinding2D = texture then { s with textureBinding2D := 0 }
    else if s.textureBindingCube = texture then { s with textureBindingCube := 0 }
    else if s.textureBinding3D = texture then { s with textureBinding3D := 0 }
    else s
  if s.activeTexture = texture then { s with activeTexture := 0 } else s

/-- A framebuffer whose texture is deleted. -/
def clearImage (framebuffer : Framebuffer) : Framebuffer :=
  { framebuffer with complete := .completeUnknown, attachedImage := 0 }

/-- One round of the loop of `caching_client_glDeleteTextures`. The variable `framebuffer`
keeps its value to the next round, and is looked at even if there is no texture. -/
def deleteTexture : State × Option ℕ → ℕ → Option (State × Option ℕ)
  | (s, framebuffer), texture =>
    if texture = 0 then some (s, framebuffer)
    else
      let tex := s.lookupCachedTexture texture
      let framebuffer := match tex with
        | some tex =>
          (s.lookupCachedFramebuffer tex.framebufferId).map fun _ => tex.framebufferId
        | none => framebuffer
      let cleared := match framebuffer, tex with
        | none, _ => some s
        -- The record of the texture is read through a null pointer.
        | some _, none => none
        | some id, some tex =>
          if tex.framebufferId ≠ 0 then some (s.modifyFramebuffer id clearImage) else some s
      cleared.map fun s => ((s.deleteCachedTexture texture).unbindTexture texture, framebuffer)

/-- `caching_client_glDeleteTextures`. The names are not given back. -/
def glDeleteTextures (textures : List ℕ) : Option (State × Effects) := do
  let (s, _) ← textures.foldlM deleteTexture (s, none)
  return (s, [.forward (.glDeleteTextures textures)])

/-- The binding after a renderbuffer is deleted. -/
def unbindRenderbuffer (renderbuffer : ℕ) : State :=
  if s.renderbufferBinding = renderbuffer then { s with renderbufferBinding := 0 } else s

/-- A framebuffer without a renderbuffer that is deleted. -/
def detachRenderbuffer (renderbuffer : ℕ) (framebuffer : Framebuffer) : Framebuffer where
  id := framebuffer.id
  attachedImage := framebuffer.attachedImage
  attachedColorBuffer :=
    if framebuffer.attachedColorBuffer = renderbuffer then 0 else framebuffer.attachedColorBuffer
  attachedDepthBuffer :=
    if framebuffer.attachedDepthBuffer = renderbuffer then 0 else framebuffer.attachedDepthBuffer
  attachedStencilBuffer :=
    if framebuffer.attachedStencilBuffer = renderbuffer then 0
    else framebuffer.attachedStencilBuffer
  complete := .completeUnknown

/-- One round of the loop of `caching_client_glDeleteRenderbuffers`. -/
def deleteRenderbuffer : State × Option ℕ → ℕ → Option (State × Option ℕ)
  | (s, framebuffer), renderbuffer =>
    if renderbuffer = 0 then some (s, framebuffer)
    else
      let rb := s.lookupCachedRenderbuffer renderbuffer
      let framebuffer := match rb with
        | some rb => (s.lookupCachedFramebuffer rb.framebufferId).map fun _ => rb.framebufferId
        | none => framebuffer
      let detached := match framebuffer, rb with
        | none, _ => some s
        -- The record of the renderbuffer is read through a null pointer.
        | some _, none => none
        | some id, some rb =>
          if rb.framebufferId ≠ 0 then
            some (s.modifyFramebuffer id (detachRenderbuffer renderbuffer))
          else some s
      detached.map fun s => (s.unbindRenderbuffer renderbuffer, framebuffer)

/-- `caching_client_glDeleteRenderbuffers`. The records stay in the cache. -/
def glDeleteRenderbuffers (renderbuffers : List ℕ) : Option (State × Effects) := do
  let s := { s with
    renderbufferNameHandler := deleteNames s.renderbufferNameHandler renderbuffers }
  let (s, _) ← renderbuffers.foldlM deleteRenderbuffer (s, none)
  return (s, [.forward (.glDeleteRenderbuffers renderbuffers)])

/-- What `caching_client_glDeleteFramebuffers` does to the objects attached to a framebuffer.
The first two conditions are the wrong way round, and the last one never holds. -/
def unlink (framebuffer : Framebuffer) : State :=
  let s :=
    if framebuffer.attachedImage = 0 then
      s.modifyTexture framebuffer.attachedImage fun texture => { texture with framebufferId := 0 }
    else s
  let s :=
    if framebuffer.attachedColorBuffer = 0 then
      s.modifyRenderbuffer framebuffer.attachedColorBuffer fun rb => { rb with framebufferId := 0 }
    else s
  let s :=
    if framebuffer.attachedStencilBuffer ≠ framebuffer.attachedColorBuffer ∧
        framebuffer.attachedStencilBuffer ≠ 0 then
      s.modifyRenderbuffer framebuffer.attachedStencilBuffer
        fun rb => { rb with framebufferId := 0 }
    else s
  if framebuffer.attachedDepthBuffer ≠ framebuffer.attachedDepthBuffer ∧
      framebuffer.attachedDepthBuffer ≠ 0 then
    s.modifyRenderbuffer framebuffer.attachedDepthBuffer fun rb => { rb with framebufferId := 0 }
  else s

/-- The binding after a framebuffer is deleted. -/
def unbindFramebuffer (framebuffer : ℕ) : State :=
  if s.framebufferBinding = framebuffer then { s with framebufferBinding := 0 } else s

/-- One round of the loop of `caching_client_glDeleteFramebuffers`. -/
def deleteFramebuffer (framebuffer : ℕ) : State :=
  if framebuffer = 0 then s
  else
    match s.lookupCachedFramebuffer framebuffer with
    | some fb => (s.unlink fb).unbindFramebuffer framebuffer
    | none => s.unbindFramebuffer framebuffer

/-- `caching_client_glDeleteFramebuffers`. The records stay in the cache. -/
def glDeleteFramebuffers (framebuffers : List ℕ) : Option (State × Effects) :=
  let s := { s with framebufferNameHandler := deleteNames s.framebufferNameHandler framebuffers }
  some (framebuffers.foldl deleteFramebuffer s, [.forward (.glDeleteFramebuffers framebuffers)])

/-! ### Binding objects -/

/-- `caching_client_glBindTexture`. -/
def glBindTexture (target texture : ℕ) : Option (State × Effects) := do
  if target = glTexture2D ∧ s.textureBinding2D = texture then return (s, [])
  if target = glTextureCubeMap ∧ s.textureBindingCube = texture then return (s, [])
  if target = glTexture3DOES ∧ s.textureBinding3D = texture then return (s, [])
  if ¬ (target = glTexture2D ∨ target = glTextureCubeMap ∨ target = glTexture3DOES) then
    return (s, [.setError glInvalidEnum])
  let s ←
    if texture ≠ 0 ∧ s.lookupCachedTexture texture = none then
      -- A name that no call generated is claimed.
      let s := { s with textureNameHandler := allocName s.textureNameHandler texture }
      s.createCachedTexture texture
    else some s
  let s :=
    if target = glTexture2D then { s with textureBinding2D := texture }
    else if target = glTextureCubeMap then { s with textureBindingCube := texture }
    else { s with textureBinding3D := texture }
  return (s, [.forward (.glBindTexture target texture)])

/-- The name that is cached as bound to a target. -/
def boundTexture (target : ℕ) : ℕ :=
  if target = glTexture2D then s.textureBinding2D
  else if target = glTextureCubeMap then s.textureBindingCube
  else s.textureBinding3D

/-- `caching_client_glBindFramebuffer`. It goes on after an error. -/
def glBindFramebuffer (target framebuffer : ℕ) : State × Effects :=
  if target = glFramebuffer ∧ s.framebufferBinding = framebuffer then (s, [])
  else
    let errors := if target ≠ glFramebuffer then [.setError glInvalidEnum] else []
    ({ s with framebufferBinding := framebuffer },
      errors ++ [.forward (.glBindFramebuffer target framebuffer)])

/-- `caching_client_glBindRenderbuffer`. It goes on after an error. -/
def glBindRenderbuffer (target renderbuffer : ℕ) : State × Effects :=
  let errors := if target ≠ glRenderbuffer then [.setError glInvalidEnum] else []
  ({ s with renderbufferBinding := renderbuffer },
    errors ++ [.forward (.glBindRenderbuffer target renderbuffer)])

/-! ### Attaching images -/

/-- `caching_client_glFramebufferTexture2D`. -/
def glFramebufferTexture2D (target attachment textarget texture : ℕ) (level : ℤ) :
    State × Effects :=
  if target ≠ glFramebuffer then (s, [.setError glInvalidEnum])
  else
    let effects : Effects :=
      [.forward (.glFramebufferTexture2D target attachment textarget texture level)]
    match s.lookupCachedTexture texture with
    | none => (s, effects)
    | some _ =>
      let framebufferId := s.framebufferBinding
      -- The texture that was attached before keeps its link.
      let s := s.modifyTexture texture fun tex => { tex with framebufferId := framebufferId }
      if framebufferId ≠ 0 then
        (s.modifyFramebuffer framebufferId fun framebuffer =>
          { framebuffer with attachedImage := texture, complete := .completeUnknown }, effects)
      else (s, effects)

/-- What `caching_client_glFramebufferRenderbuffer` does to the bound framebuffer. -/
def attachRenderbuffer (attachment renderbuffer : ℕ) (framebuffer : Framebuffer) : Framebuffer :=
  let framebuffer := { framebuffer with complete := .completeUnknown }
  if attachment = glColorAttachment0 then { framebuffer with attachedColorBuffer := renderbuffer }
  else if attachment = glDepthAttachment then
    { framebuffer with attachedDepthBuffer := renderbuffer }
  else if attachment = glStencilAttachment then
    { framebuffer with attachedStencilBuffer := renderbuffer }
  else framebuffer

/-- `caching_client_glFramebufferRenderbuffer`. -/
def glFramebufferRenderbuffer (target attachment renderbuffertarget renderbuffer : ℕ) :
    State × Effects :=
  if target ≠ glFramebuffer then (s, [.setError glInvalidEnum])
  else if renderbuffertarget ≠ glRenderbuffer ∧ renderbuffer ≠ 0 then
    (s, [.setError glInvalidEnum])
  else
    let s :=
      if s.framebufferBinding ≠ 0 then
        s.modifyFramebuffer s.framebufferBinding (attachRenderbuffer attachment renderbuffer)
      else s
    let framebufferId := s.framebufferBinding
    -- The link is made whatever the attachment is, and whether it is accepted or not.
    (s.modifyRenderbuffer renderbuffer fun rb => { rb with framebufferId := framebufferId },
      [.forward (.glFramebufferRenderbuffer target attachment renderbuffertarget renderbuffer)])

/-! ### Specifying images -/

/-- The query of the extension string, when it was not made before. -/
def queryExtensions (answer : Extensions) : State :=
  match s.extensions with
  | some _ => s
  | none =>
    { s with
      extensions := some answer
      supportsElementIndexUint := answer.elementIndexUint
      supportsBgra := answer.textureFormatBgra8888 }

/-- The texture that `caching_client_glTexImage2D` specifies an image of. -/
def imageTexture (target : ℕ) : ℕ :=
  if target = glTexture2D then s.textureBinding2D else s.textureBindingCube

/-- `caching_client_glTexImage2D`. -/
def glTexImage2D (target : ℕ) (level internalformat width height : ℤ) (format type : ℕ)
    (answer : Extensions) : State × Effects :=
  if level < 0 ∨ width < 0 ∨ height < 0 then (s, [.setError glInvalidValue])
  else if uint internalformat ≠ format then (s, [.setError glInvalidOperation])
  else if ¬ isValidTextureTarget target then (s, [.setError glInvalidEnum])
  else if type = glUnsignedShort565 ∧ format ≠ glRgb then (s, [.setError glInvalidOperation])
  else
    let s := s.queryExtensions answer
    if (type = glUnsignedShort4444 ∨ type = glUnsignedShort5551) ∧ format ≠ glRgba then
      (s, [.setError glInvalidOperation])
    else if ¬ s.supportsBgra ∧ format = glBgraExt then (s, [.setError glInvalidOperation])
    else
      let effects : Effects :=
        [.forward (.glTexImage2D target level internalformat width height format type answer)]
      match s.lookupCachedTexture (s.imageTexture target) with
      | none => (s, effects)
      | some texture =>
        -- The record has the image that was specified last, whatever its level is.
        let s := s.modifyTexture (s.imageTexture target) fun texture =>
          { texture with
            internalFormat := uint internalformat, width := width, height := height
            dataType := type }
        if texture.framebufferId ≠ 0 then
          (s.modifyFramebuffer texture.framebufferId fun framebuffer =>
            { framebuffer with complete := .completeUnknown }, effects)
        else (s, effects)

/-- `caching_client_glRenderbufferStorage`. -/
def glRenderbufferStorage (target internalformat : ℕ) (width height : ℤ) : State × Effects :=
  if target ≠ glRenderbuffer then (s, [.setError glInvalidEnum])
  else
    let s :=
      if s.framebufferBinding ≠ 0 then
        s.modifyFramebuffer s.framebufferBinding fun framebuffer =>
          { framebuffer with complete := .completeUnknown }
      else s
    (s, [.forward (.glRenderbufferStorage target internalformat width height)])

/-! ### Using the framebuffer -/

/-- `caching_client_glCheckFramebufferStatus`. -/
def glCheckFramebufferStatus (target result : ℕ) : State × Effects :=
  if target ≠ glFramebuffer then (s, [.setError glInvalidEnum])
  else
    let s :=
      if s.framebufferBinding ≠ 0 then
        s.modifyFramebuffer s.framebufferBinding fun framebuffer =>
          { framebuffer with
            complete := if result = glFramebufferComplete then .complete else .incomplete }
      else s
    (s, [.forward (.glCheckFramebufferStatus target result)])

/-- The check made by everything that uses the bound framebuffer. -/
def isIncomplete : Bool :=
  s.framebufferBinding ≠ 0 &&
    (s.lookupCachedFramebuffer s.framebufferBinding).any fun framebuffer =>
      framebuffer.id ≠ 0 && framebuffer.complete = .incomplete

/-- `caching_client_glClear`. -/
def glClear (mask : ℕ) : State × Effects :=
  if mask &&& glColorBufferBit = 0 ∧ mask &&& glDepthBufferBit = 0 ∧
      mask &&& glStencilBufferBit = 0 then (s, [.setError glInvalidEnum])
  else if s.isIncomplete then (s, [.setError glInvalidFramebufferOperation])
  else (s, [.forward (.glClear mask)])

/-- `caching_client_glDrawArrays`. -/
def glDrawArrays (mode : ℕ) (first count : ℤ) : State × Effects :=
  if ¬ isValidDrawMode mode then (s, [.setError glInvalidEnum])
  else if count < 0 ∨ first < 0 then (s, [.setError glInvalidValue])
  else if count = 0 then (s, [])
  else if s.vertexArrayBinding = 0 ∧ ¬ s.hasVertexAttribArraySet then (s, [])
  else if s.isIncomplete then (s, [.setError glInvalidFramebufferOperation])
  else (s, [.forward (.glDrawArrays mode first count)])

/-- `calculate_index_array_size`. -/
def calculateIndexArraySize (type : ℕ) (count : ℤ) : ℤ :=
  -- `GL_UNSIGNED_INT` is not counted.
  if type = glUnsignedByte then count else if type = glUnsignedShort then 2 * count else 0

/-- `caching_client_glDrawElements`. -/
def glDrawElements (mode : ℕ) (count : ℤ) (type : ℕ) (indices : Bool) : State × Effects :=
  if ¬ isValidDrawMode mode then (s, [.setError glInvalidEnum])
  else if ¬ (type = glUnsignedByte ∨ type = glUnsignedShort ∨
      s.supportsElementIndexUint ∧ type = glUnsignedInt) then (s, [.setError glInvalidEnum])
  else if count < 0 then (s, [.setError glInvalidValue])
  else if count = 0 then (s, [])
  else if s.vertexArrayBinding = 0 ∧ ¬ s.hasVertexAttribArraySet then (s, [])
  else if s.isIncomplete then (s, [.setError glInvalidFramebufferOperation])
  else if s.elementArrayBufferBinding = 0 ∧ ¬ indices ∨
      (s.vertexArrayBinding = 0 ∧ s.elementArrayBufferBinding = 0) ∧
        calculateIndexArraySize type count = 0 then (s, [])
  else (s, [.forward (.glDrawElements mode count type indices)])

end State

/-- The entry points. -/
def runCall (s : State) : Call → Option (State × Effects)
  | .glGenTextures n => s.glGenTextures n
  | .glGenFramebuffers n => s.glGenFramebuffers n
  | .glGenRenderbuffers n => s.glGenRenderbuffers n
  | .glDeleteTextures textures => s.glDeleteTextures textures
  | .glDeleteFramebuffers framebuffers => s.glDeleteFramebuffers framebuffers
  | .glDeleteRenderbuffers renderbuffers => s.glDeleteRenderbuffers renderbuffers
  | .glBindTexture target texture => s.glBindTexture target texture
  | .glBindFramebuffer target framebuffer => some (s.glBindFramebuffer target framebuffer)
  | .glBindRenderbuffer target renderbuffer => some (s.glBindRenderbuffer target renderbuffer)
  | .glFramebufferTexture2D target attachment textarget texture level =>
    some (s.glFramebufferTexture2D target attachment textarget texture level)
  | .glFramebufferRenderbuffer target attachment renderbuffertarget renderbuffer =>
    some (s.glFramebufferRenderbuffer target attachment renderbuffertarget renderbuffer)
  | .glTexImage2D target level internalformat width height format type answer =>
    some (s.glTexImage2D target level internalformat width height format type answer)
  | .glRenderbufferStorage target internalformat width height =>
    some (s.glRenderbufferStorage target internalformat width height)
  | .glCheckFramebufferStatus target result => some (s.glCheckFramebufferStatus target result)
  | .glClear mask => some (s.glClear mask)
  | .glDrawArrays mode first count => some (s.glDrawArrays mode first count)
  | .glDrawElements mode count type indices => some (s.glDrawElements mode count type indices)

/-! ### The operations, seen through `hash_lookup` -/

namespace State

variable {s t : State} {name k : ℕ} {framebuffer framebuffer' : Option ℕ}

@[simp] theorem lookup_modifyTexture {f : Texture → Texture} :
    (s.modifyTexture name f).lookupCachedTexture =
      Function.update s.lookupCachedTexture name ((s.lookupCachedTexture name).map f) :=
  hashLookup_hashModify

@[simp] theorem lookup_modifyFramebuffer {f : Framebuffer → Framebuffer} :
    (s.modifyFramebuffer name f).lookupCachedFramebuffer =
      Function.update s.lookupCachedFramebuffer name ((s.lookupCachedFramebuffer name).map f) :=
  hashLookup_hashModify

@[simp] theorem lookup_modifyRenderbuffer {f : Renderbuffer → Renderbuffer} :
    (s.modifyRenderbuffer name f).lookupCachedRenderbuffer =
      Function.update s.lookupCachedRenderbuffer name ((s.lookupCachedRenderbuffer name).map f) :=
  hashLookup_hashModify

theorem lookup_deleteCachedTexture : (s.deleteCachedTexture name).lookupCachedTexture =
    Function.update s.lookupCachedTexture name none := by
  unfold deleteCachedTexture
  split
  next => exact hashLookup_hashRemoveWithDeletion
  next hzero =>
    obtain rfl : name = 0 := not_not.mp hzero
    exact (Function.update_eq_self 0 s.lookupCachedTexture).symm

theorem modifyFramebuffer_of_none {f : Framebuffer → Framebuffer}
    (h : s.lookupCachedFramebuffer name = none) : s.modifyFramebuffer name f = s := by
  have hlookup : hashLookup s.framebufferCache name = none := h
  simp only [modifyFramebuffer, hashModify, hlookup]

theorem ne_zero_of_lookupCachedFramebuffer {fb : Framebuffer}
    (h : s.lookupCachedFramebuffer name = some fb) : name ≠ 0 := by
  rintro rfl
  cases h

theorem lookup_deleteCachedTexture_others :
    (s.deleteCachedTexture name).lookupCachedFramebuffer = s.lookupCachedFramebuffer ∧
      (s.deleteCachedTexture name).lookupCachedRenderbuffer = s.lookupCachedRenderbuffer := by
  unfold deleteCachedTexture
  split <;> exact ⟨rfl, rfl⟩

/-- Of a framebuffer that is deleted only the stencil buffer is unlinked, and only if it is
not the colour buffer too. -/
theorem unlink_eq {fb : Framebuffer} : s.unlink fb =
    if fb.attachedStencilBuffer ≠ fb.attachedColorBuffer ∧ fb.attachedStencilBuffer ≠ 0 then
      s.modifyRenderbuffer fb.attachedStencilBuffer fun rb => { rb with framebufferId := 0 }
    else s := by
  -- What is unlinked for an object that is not attached is the record of 0, and there is none.
  have himage : (if fb.attachedImage = 0 then
      s.modifyTexture fb.attachedImage fun texture => { texture with framebufferId := 0 }
      else s) = s := by
    split_ifs with hzero
    · rw [hzero]
      rfl
    · rfl
  have hcolor : (if fb.attachedColorBuffer = 0 then
      s.modifyRenderbuffer fb.attachedColorBuffer fun rb => { rb with framebufferId := 0 }
      else s) = s := by
    split_ifs with hzero
    · rw [hzero]
      rfl
    · rfl
  have hdepth : ¬ (fb.attachedDepthBuffer ≠ fb.attachedDepthBuffer ∧ fb.attachedDepthBuffer ≠ 0) :=
    fun h => h.1 rfl
  simp only [unlink, himage, hcolor, if_neg hdepth]

/-- The bindings are not in the caches. -/
@[simp] theorem lookup_unbindTexture :
    (s.unbindTexture name).lookupCachedTexture = s.lookupCachedTexture ∧
      (s.unbindTexture name).lookupCachedFramebuffer = s.lookupCachedFramebuffer ∧
      (s.unbindTexture name).lookupCachedRenderbuffer = s.lookupCachedRenderbuffer := by
  simp only [unbindTexture]
  split_ifs <;> exact ⟨rfl, rfl, rfl⟩

/-- The end of a round of the loop of `caching_client_glDeleteTextures`. -/
theorem lookup_removeTexture (s : State) (name : ℕ) :
    ((s.deleteCachedTexture name).unbindTexture name).lookupCachedTexture =
        Function.update s.lookupCachedTexture name none ∧
      ((s.deleteCachedTexture name).unbindTexture name).lookupCachedFramebuffer =
        s.lookupCachedFramebuffer ∧
      ((s.deleteCachedTexture name).unbindTexture name).lookupCachedRenderbuffer =
        s.lookupCachedRenderbuffer := by
  refine ⟨?_, ?_, ?_⟩
  · rw [lookup_unbindTexture.1, lookup_deleteCachedTexture]
  · rw [lookup_unbindTexture.2.1, lookup_deleteCachedTexture_others.1]
  · rw [lookup_unbindTexture.2.2, lookup_deleteCachedTexture_others.2]

@[simp] theorem lookup_unbindRenderbuffer :
    (s.unbindRenderbuffer name).lookupCachedTexture = s.lookupCachedTexture ∧
      (s.unbindRenderbuffer name).lookupCachedFramebuffer = s.lookupCachedFramebuffer ∧
      (s.unbindRenderbuffer name).lookupCachedRenderbuffer = s.lookupCachedRenderbuffer := by
  unfold unbindRenderbuffer
  split_ifs <;> exact ⟨rfl, rfl, rfl⟩

@[simp] theorem lookup_unbindFramebuffer :
    (s.unbindFramebuffer name).lookupCachedTexture = s.lookupCachedTexture ∧
      (s.unbindFramebuffer name).lookupCachedFramebuffer = s.lookupCachedFramebuffer ∧
      (s.unbindFramebuffer name).lookupCachedRenderbuffer = s.lookupCachedRenderbuffer := by
  unfold unbindFramebuffer
  split_ifs <;> exact ⟨rfl, rfl, rfl⟩

/-- A round of the loop of `caching_client_glDeleteTextures`: nothing for the name 0, no
framebuffer for a texture that is not cached, and otherwise the one in its record. -/
theorem deleteTexture_cases (h : deleteTexture (s, framebuffer) name = some (t, framebuffer')) :
    (name = 0 ∧ t = s ∧ framebuffer' = framebuffer) ∨
    (name ≠ 0 ∧ s.lookupCachedTexture name = none ∧ framebuffer = none ∧ framebuffer' = none ∧
      t = (s.deleteCachedTexture name).unbindTexture name) ∨
    ∃ tex, name ≠ 0 ∧ s.lookupCachedTexture name = some tex ∧
      framebuffer' =
        (s.lookupCachedFramebuffer tex.framebufferId).map (fun _ => tex.framebufferId) ∧
      t = ((s.modifyFramebuffer tex.framebufferId clearImage).deleteCachedTexture
        name).unbindTexture name := by
  simp only [deleteTexture] at h
  by_cases hzero : name = 0
  · rw [if_pos hzero] at h
    cases h
    exact .inl ⟨hzero, rfl, rfl⟩
  rw [if_neg hzero] at h
  right
  cases htex : s.lookupCachedTexture name with
  | none =>
    left
    rw [htex] at h
    -- Only if no framebuffer is left from the round before is no record read.
    cases framebuffer with
    | none =>
      cases h
      exact ⟨hzero, rfl, rfl, rfl, rfl⟩
    | some id => cases h
  | some tex =>
    right
    rw [htex] at h
    refine ⟨tex, hzero, rfl, ?_⟩
    cases hfb : s.lookupCachedFramebuffer tex.framebufferId with
    | none =>
      simp only [hfb, Option.map_none] at h
      cases h
      exact ⟨rfl, by rw [modifyFramebuffer_of_none hfb]⟩
    | some fb =>
      have hid : tex.framebufferId ≠ 0 := ne_zero_of_lookupCachedFramebuffer hfb
      simp only [hfb, Option.map_some, if_pos hid] at h
      cases h
      exact ⟨rfl, rfl⟩

/-- A round of the loop of `caching_client_glDeleteRenderbuffers`, in the same way. -/
theorem deleteRenderbuffer_cases
    (h : deleteRenderbuffer (s, framebuffer) name = some (t, framebuffer')) :
    (name = 0 ∧ t = s ∧ framebuffer' = framebuffer) ∨
    (name ≠ 0 ∧ s.lookupCachedRenderbuffer name = none ∧ framebuffer = none ∧
      framebuffer' = none ∧ t = s.unbindRenderbuffer name) ∨
    ∃ rb, name ≠ 0 ∧ s.lookupCachedRenderbuffer name = some rb ∧
      framebuffer' = (s.lookupCachedFramebuffer rb.framebufferId).map (fun _ => rb.framebufferId) ∧
      t = (s.modifyFramebuffer rb.framebufferId (detachRenderbuffer name)).unbindRenderbuffer
        name := by
  simp only [deleteRenderbuffer] at h
  by_cases hzero : name = 0
  · rw [if_pos hzero] at h
    cases h
    exact .inl ⟨hzero, rfl, rfl⟩
  rw [if_neg hzero] at h
  right
  cases hrb : s.lookupCachedRenderbuffer name with
  | none =>
    left
    rw [hrb] at h
    -- Only if no framebuffer is left from the round before is no record read.
    cases framebuffer with
    | none =>
      cases h
      exact ⟨hzero, rfl, rfl, rfl, rfl⟩
    | some id => cases h
  | some rb =>
    right
    rw [hrb] at h
    refine ⟨rb, hzero, rfl, ?_⟩
    cases hfb : s.lookupCachedFramebuffer rb.framebufferId with
    | none =>
      simp only [hfb, Option.map_none] at h
      cases h
      exact ⟨rfl, by rw [modifyFramebuffer_of_none hfb]⟩
    | some fb =>
      have hid : rb.framebufferId ≠ 0 := ne_zero_of_lookupCachedFramebuffer hfb
      simp only [hfb, Option.map_some, if_pos hid] at h
      cases h
      exact ⟨rfl, rfl⟩

/-- What no round of a loop changes. -/
theorem foldlM_round_eq {α : Type} {f : State → α} {names : List ℕ}
    {round : State × Option ℕ → ℕ → Option (State × Option ℕ)}
    (hround : ∀ {s t previous previous' name},
      round (s, previous) name = some (t, previous') → f t = f s)
    (h : names.foldlM round (s, framebuffer) = some (t, framebuffer')) : f t = f s := by
  -- The rounds may hand on any framebuffer.
  induction names generalizing s framebuffer with
  | nil =>
    cases h
    rfl
  | cons name names ih =>
    rw [List.foldlM_cons] at h
    obtain ⟨⟨u, previous⟩, hfirst, hrest⟩ := Option.bind_eq_some_iff.mp h
    exact (ih hrest).trans (hround hfirst)

/-- A round of the loop of `caching_client_glDeleteTextures` leaves the handlers of names. -/
theorem deleteTexture_handlers
    (h : deleteTexture (s, framebuffer) name = some (t, framebuffer')) :
    t.textureNameHandler = s.textureNameHandler ∧
      t.framebufferNameHandler = s.framebufferNameHandler ∧
      t.renderbufferNameHandler = s.renderbufferNameHandler := by
  have hremove : ∀ u : State,
      ((u.deleteCachedTexture name).unbindTexture name).textureNameHandler =
          u.textureNameHandler ∧
        ((u.deleteCachedTexture name).unbindTexture name).framebufferNameHandler =
          u.framebufferNameHandler ∧
        ((u.deleteCachedTexture name).unbindTexture name).renderbufferNameHandler =
          u.renderbufferNameHandler := by
    intro u
    simp only [unbindTexture, deleteCachedTexture]
    split_ifs <;> exact ⟨rfl, rfl, rfl⟩
  rcases deleteTexture_cases h with
    ⟨rfl, rfl, rfl⟩ | ⟨-, -, -, -, rfl⟩ | ⟨tex, -, -, -, rfl⟩
  · exact ⟨rfl, rfl, rfl⟩
  · exact hremove s
  · exact hremove _

/-- A round of the loop of `caching_client_glDeleteRenderbuffers` leaves them too. -/
theorem deleteRenderbuffer_handlers
    (h : deleteRenderbuffer (s, framebuffer) name = some (t, framebuffer')) :
    t.textureNameHandler = s.textureNameHandler ∧
      t.framebufferNameHandler = s.framebufferNameHandler ∧
      t.renderbufferNameHandler = s.renderbufferNameHandler := by
  have hunbind : ∀ u : State,
      (u.unbindRenderbuffer name).textureNameHandler = u.textureNameHandler ∧
        (u.unbindRenderbuffer name).framebufferNameHandler = u.framebufferNameHandler ∧
        (u.unbindRenderbuffer name).renderbufferNameHandler = u.renderbufferNameHandler := by
    intro u
    unfold unbindRenderbuffer
    split_ifs <;> exact ⟨rfl, rfl, rfl⟩
  rcases deleteRenderbuffer_cases h with
    ⟨rfl, rfl, rfl⟩ | ⟨-, -, -, -, rfl⟩ | ⟨rb, -, -, -, rfl⟩
  · exact ⟨rfl, rfl, rfl⟩
  · exact hunbind s
  · exact hunbind _

/-- The targets that textures are bound to. -/
def IsBindTarget (target : ℕ) : Prop :=
  target = glTexture2D ∨ target = glTextureCubeMap ∨ target = glTexture3DOES

instance {target : ℕ} : Decidable (IsBindTarget target) :=
  inferInstanceAs (Decidable (_ ∨ _ ∨ _))

/-- The chain of comparisons stores to one of the three bindings. -/
theorem storeBinding_eq {target : ℕ} (htarget : IsBindTarget target) (texture : ℕ) (u : State) :
    (if target = glTexture2D then { u with textureBinding2D := texture }
      else if target = glTextureCubeMap then { u with textureBindingCube := texture }
      else { u with textureBinding3D := texture }) =
      { u with
        textureBinding2D := if target = glTexture2D then texture else u.textureBinding2D
        textureBindingCube := if target = glTextureCubeMap then texture else u.textureBindingCube
        textureBinding3D := if target = glTexture3DOES then texture else u.textureBinding3D } := by
  have hcube : glTextureCubeMap ≠ glTexture2D := by decide
  have h3D : glTexture3DOES ≠ glTexture2D ∧ glTexture3DOES ≠ glTextureCubeMap := by decide
  rcases htarget with rfl | rfl | rfl
  · rw [if_pos rfl, if_pos rfl, if_neg hcube.symm, if_neg h3D.1.symm]
  · rw [if_neg hcube, if_pos rfl, if_neg hcube, if_pos rfl, if_neg h3D.2.symm]
  · rw [if_neg h3D.1, if_neg h3D.2, if_neg h3D.1, if_neg h3D.2, if_pos rfl]

/-- Binding a texture does nothing if it is bound, or is refused, or stores the name, and
makes a record for a name that has none. -/
theorem glBindTexture_cases {target texture : ℕ} {effects : Effects}
    (h : s.glBindTexture target texture = some (t, effects)) :
    (t = s ∧ effects = [] ∧ s.boundTexture target = texture) ∨
    (t = s ∧ effects = [.setError glInvalidEnum] ∧ ¬ IsBindTarget target) ∨
    (effects = [.forward (.glBindTexture target texture)] ∧ IsBindTarget target ∧
      ∃ cache handler,
        t = { s with
          textureCache := cache
          textureNameHandler := handler
          textureBinding2D := if target = glTexture2D then texture else s.textureBinding2D
          textureBindingCube :=
            if target = glTextureCubeMap then texture else s.textureBindingCube
          textureBinding3D :=
            if target = glTexture3DOES then texture else s.textureBinding3D } ∧
        ∀ k, hashLookup cache k =
          if k = texture ∧ texture ≠ 0 ∧ s.lookupCachedTexture texture = none then
            some (createTexture texture)
          else s.lookupCachedTexture k) := by
  have hcube : glTextureCubeMap ≠ glTexture2D := by decide
  have h3D : glTexture3DOES ≠ glTexture2D ∧ glTexture3DOES ≠ glTextureCubeMap := by decide
  simp only [glBindTexture] at h
  -- Each binding is compared with the name, and only then is the target checked.
  by_cases hsame : target = glTexture2D ∧ s.textureBinding2D = texture
  · rw [if_pos hsame] at h
    cases h
    exact .inl ⟨rfl, rfl, by rw [boundTexture, if_pos hsame.1, hsame.2]⟩
  rw [if_neg hsame] at h
  by_cases hsame : target = glTextureCubeMap ∧ s.textureBindingCube = texture
  · rw [if_pos hsame] at h
    cases h
    exact .inl ⟨rfl, rfl, by rw [boundTexture, hsame.1, if_neg hcube, if_pos rfl, hsame.2]⟩
  rw [if_neg hsame] at h
  by_cases hsame : target = glTexture3DOES ∧ s.textureBinding3D = texture
  · rw [if_pos hsame] at h
    cases h
    exact .inl ⟨rfl, rfl, by
      rw [boundTexture, hsame.1, if_neg h3D.1, if_neg h3D.2, hsame.2]⟩
  rw [if_neg hsame] at h
  right
  by_cases htarget : target = glTexture2D ∨ target = glTextureCubeMap ∨ target = glTexture3DOES
  swap
  · rw [if_pos htarget] at h
    cases h
    exact .inl ⟨rfl, rfl, htarget⟩
  rw [if_neg (not_not.mpr htarget)] at h
  right
  by_cases hcached : texture ≠ 0 ∧ s.lookupCachedTexture texture = none
  -- A record is made unless there is one, and never for 0.
  · rw [if_pos hcached] at h
    obtain ⟨u, hu, heq⟩ := Option.bind_eq_some_iff.mp h
    obtain ⟨cache, hinsert, hcache⟩ := Option.bind_eq_some_iff.mp hu
    cases hcache
    rw [storeBinding_eq htarget] at heq
    cases heq
    refine ⟨rfl, htarget, cache, _, rfl, fun k => ?_⟩
    rw [hashLookup_hashInsert hinsert, Function.update_apply]
    by_cases hk : k = texture
    · rw [if_pos hk, if_pos ⟨hk, hcached⟩]
    · rw [if_neg hk, if_neg fun hand => hk hand.1]
      rfl
  · rw [if_neg hcached] at h
    rw [Option.pure_def, Option.bind_eq_bind, Option.bind_some, storeBinding_eq htarget] at h
    cases h
    exact ⟨rfl, htarget, _, _, rfl, fun k => (if_neg fun hand => hcached hand.2).symm⟩

/-! ### Creating records -/

theorem foldlM_createCachedTexture {names : List ℕ} : names.foldlM createCachedTexture s =
    (names.foldlM (fun cache name => hashInsert cache name (createTexture name))
      s.textureCache).map fun cache => { s with textureCache := cache } := by
  induction names generalizing s with
  | nil => rfl
  | cons name names ih =>
    simp only [List.foldlM_cons, createCachedTexture, Option.bind_eq_bind, Option.pure_def]
    cases hashInsert s.textureCache name (createTexture name) with
    | none => rfl
    | some cache => exact ih

theorem foldlM_createCachedFramebuffer {names : List ℕ} : names.foldlM createCachedFramebuffer s =
    (names.foldlM (fun cache name => hashInsert cache name (createFramebuffer name))
      s.framebufferCache).map fun cache => { s with framebufferCache := cache } := by
  induction names generalizing s with
  | nil => rfl
  | cons name names ih =>
    simp only [List.foldlM_cons, createCachedFramebuffer, Option.bind_eq_bind, Option.pure_def]
    cases hashInsert s.framebufferCache name (createFramebuffer name) with
    | none => rfl
    | some cache => exact ih

theorem foldlM_createCachedRenderbuffer {names : List ℕ} :
    names.foldlM createCachedRenderbuffer s =
      (names.foldlM (fun cache name => hashInsert cache name (createRenderbuffer name))
        s.renderbufferCache).map fun cache => { s with renderbufferCache := cache } := by
  induction names generalizing s with
  | nil => rfl
  | cons name names ih =>
    simp only [List.foldlM_cons, createCachedRenderbuffer, Option.bind_eq_bind, Option.pure_def]
    cases hashInsert s.renderbufferCache name (createRenderbuffer name) with
    | none => rfl
    | some cache => exact ih

/-- The client takes the names from its handler, and has a new record for each. -/
theorem glGenTextures_spec {n : ℕ} {names : List ℕ} {handler : NameHandler}
    {effects : Effects} (halloc : allocNames s.textureNameHandler n = some (names, handler))
    (h : s.glGenTextures n = some (t, effects)) :
    ∃ cache, t = { s with textureNameHandler := handler, textureCache := cache } ∧
      ∀ k, hashLookup cache k =
        if k ∈ names then some (createTexture k) else s.lookupCachedTexture k := by
  obtain ⟨p, halloc', hrest⟩ := Option.bind_eq_some_iff.mp h
  obtain rfl : (names, handler) = p := Option.some.inj (halloc.symm.trans halloc')
  obtain ⟨u, hcreate, heq⟩ := Option.bind_eq_some_iff.mp hrest
  rw [foldlM_createCachedTexture] at hcreate
  obtain ⟨cache, hcache, rfl⟩ := Option.map_eq_some_iff.mp hcreate
  cases heq
  exact ⟨cache, rfl, fun k => hashLookup_foldlM_hashInsert hcache⟩

theorem glGenFramebuffers_spec {n : ℕ} {names : List ℕ} {handler : NameHandler}
    {effects : Effects} (halloc : allocNames s.framebufferNameHandler n = some (names, handler))
    (h : s.glGenFramebuffers n = some (t, effects)) :
    ∃ cache, t = { s with framebufferNameHandler := handler, framebufferCache := cache } ∧
      ∀ k, hashLookup cache k =
        if k ∈ names then some (createFramebuffer k) else s.lookupCachedFramebuffer k := by
  obtain ⟨p, halloc', hrest⟩ := Option.bind_eq_some_iff.mp h
  obtain rfl : (names, handler) = p := Option.some.inj (halloc.symm.trans halloc')
  obtain ⟨u, hcreate, heq⟩ := Option.bind_eq_some_iff.mp hrest
  rw [foldlM_createCachedFramebuffer] at hcreate
  obtain ⟨cache, hcache, rfl⟩ := Option.map_eq_some_iff.mp hcreate
  cases heq
  exact ⟨cache, rfl, fun k => hashLookup_foldlM_hashInsert hcache⟩

theorem glGenRenderbuffers_spec {n : ℕ} {names : List ℕ} {handler : NameHandler}
    {effects : Effects} (halloc : allocNames s.renderbufferNameHandler n = some (names, handler))
    (h : s.glGenRenderbuffers n = some (t, effects)) :
    ∃ cache, t = { s with renderbufferNameHandler := handler, renderbufferCache := cache } ∧
      ∀ k, hashLookup cache k =
        if k ∈ names then some (createRenderbuffer k) else s.lookupCachedRenderbuffer k := by
  obtain ⟨p, halloc', hrest⟩ := Option.bind_eq_some_iff.mp h
  obtain rfl : (names, handler) = p := Option.some.inj (halloc.symm.trans halloc')
  obtain ⟨u, hcreate, heq⟩ := Option.bind_eq_some_iff.mp hrest
  rw [foldlM_createCachedRenderbuffer] at hcreate
  obtain ⟨cache, hcache, rfl⟩ := Option.map_eq_some_iff.mp hcreate
  cases heq
  exact ⟨cache, rfl, fun k => hashLookup_foldlM_hashInsert hcache⟩

end State

end GpuProxy.Objects
