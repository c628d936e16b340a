import GpuProxy.Math.TransitionSystem
import GpuProxy.Objects.State
import Mathlib.Data.Rat.Floor

/-!
# The cached parameters of textures

The caching client keeps the parameters of a texture in its record, and passes on only the
calls that change one. There is one record for all the textures that have no name, those of
every target and of every context. The binding of 3D textures starts with what the memory of the
context happens to hold. Here is when a call sets the parameter of one texture only, and is left out
only if the driver has the value.

## Main definitions

* `TextureParameters` — the parameters in a record
* `Config` — the contexts of a client, with the textures of the driver
* `glTexParameteri`, `glTexParameterf` — the entry points
* `SetsOne` — a call sets the parameter of the texture that is bound, and of no other
* `SetsWell` — the calls that do

## Main results

* `Agrees.setsOne_iff` — one call
* `setsOne_iff_setsWell` — whole runs
* `exists_unset_texture` — textures of two targets that share the record
-/

namespace GpuProxy.Textures

open Math GlState Objects

def glTextureMagFilter : ℕ := 0x2800
def glTextureMinFilter : ℕ := 0x2801
def glTextureWrapS : ℕ := 0x2802
def glTextureWrapT : ℕ := 0x2803
def glTextureWrapROes : ℕ := 0x8072
def glTextureMaxAnisotropyExt : ℕ := 0x84FE

def glNearest : ℕ := 0x2600
def glLinear : ℕ := 0x2601
def glNearestMipmapNearest : ℕ := 0x2700
def glLinearMipmapNearest : ℕ := 0x2701
def glNearestMipmapLinear : ℕ := 0x2702
def glLinearMipmapLinear : ℕ := 0x2703

def glRepeat : ℕ := 0x2901
def glClampToEdge : ℕ := 0x812F
def glMirroredRepeat : ℕ := 0x8370

/-- `is_valid_GetTexParamTarget`. -/
def isValidGetTexParamTarget (value : ℕ) : Bool :=
  value ∈ [glTexture2D, glTextureCubeMap, glTexture3DOES]

/-- `is_valid_TextureParameter`. -/
def isValidTextureParameter (value : ℕ) : Bool :=
  value ∈ [glTextureMagFilter, glTextureMinFilter, glTextureWrapS, glTextureWrapT,
    glTextureWrapROes, glTextureMaxAnisotropyExt]

/-- `is_valid_TextureMagFilterMode`. -/
def isValidTextureMagFilterMode (value : ℕ) : Bool := value ∈ [glNearest, glLinear]

/-- `is_valid_TextureMinFilterMode`. -/
def isValidTextureMinFilterMode (value : ℕ) : Bool :=
  value ∈ [glNearest, glLinear, glNearestMipmapNearest, glLinearMipmapNearest,
    glNearestMipmapLinear, glLinearMipmapLinear]

/-- `is_valid_TextureWrapMode`. -/
def isValidTextureWrapMode (value : ℕ) : Bool :=
  value ∈ [glClampToEdge, glMirroredRepeat, glRepeat]

/-- The operations on `GLfloat` that the entry points use, with what is used of them. -/
structure FloatFormat (F : Type) where
  /-- The conversion of a `GLint`. -/
  ofInt : ℤ → F
  /-- The conversion to `GLint`, which drops the fraction. -/
  toInt : F → ℤ
  /-- `x < 1.0`. -/
  ltOne : F → Bool
  /-- `x != y`. -/
  ne : F → F → Bool
  ltOne_ofInt : ∀ i, ltOne (ofInt i) = decide (i < 1)
  ne_self : ∀ i, ne (ofInt i) (ofInt i) = false
  eq_of_not_ne : ∀ x y, ltOne y = false → ne x y = false → x = y

/-! ### Parameters -/

/-- The parameters that are integers, each in a field of its own. -/
inductive Mode
  | magFilter
  | minFilter
  | wrapS
  | wrapT
  | wrapR
  deriving DecidableEq, Repr

/-- The field that an enumeration names. -/
def textureMode (pname : ℕ) : Option Mode :=
  if pname = glTextureMagFilter then some .magFilter
  else if pname = glTextureMinFilter then some .minFilter
  else if pname = glTextureWrapS then some .wrapS
  else if pname = glTextureWrapT then some .wrapT
  else if pname = glTextureWrapROes then some .wrapR
  else none

/-- The parameters of `texture_t`. -/
structure TextureParameters (F : Type) where
  modes : Mode → ℤ
  maxAnisotropy : F

/-- The initial values of the modes. -/
def initialModes : Mode → ℤ
  | .magFilter => glLinear
  | .minFilter => glNearestMipmapLinear
  | .wrapS => glRepeat
  | .wrapT => glRepeat
  | .wrapR => glRepeat

variable {F : Type} (format : FloatFormat F)

/-- `_create_texture`. The anisotropy is what the memory of the record has there. -/
def createParameters (memory : F) : TextureParameters F := ⟨initialModes, memory⟩

/-- `caching_client_get_default_texture`. Its memory is zero at first. -/
def getDefaultTexture : TextureParameters F := ⟨initialModes, format.ofInt 0⟩

/-- The parameters of a new texture of the driver. -/
def driverParameters : TextureParameters F := ⟨initialModes, format.ofInt 1⟩

/-- A parameter, and a value of it. -/
inductive Setting (F : Type)
  | mode (mode : Mode) (value : ℤ)
  | maxAnisotropy (value : F)
  deriving DecidableEq

namespace TextureParameters

/-- The parameter has the value. -/
def Has (p : TextureParameters F) : Setting F → Prop
  | .mode mode value => p.modes mode = value
  | .maxAnisotropy value => p.maxAnisotropy = value

instance [DecidableEq F] {p : TextureParameters F} : ∀ x, Decidable (p.Has x)
  | .mode mode value => inferInstanceAs (Decidable (p.modes mode = value))
  | .maxAnisotropy value => inferInstanceAs (Decidable (p.maxAnisotropy = value))

/-- The parameters with another value for one of them. -/
def set (p : TextureParameters F) : Setting F → TextureParameters F
  | .mode mode value => { p with modes := Function.update p.modes mode value }
  | .maxAnisotropy value => { p with maxAnisotropy := value }

end TextureParameters

/-- The calls that set a parameter. -/
inductive ParameterCall (F : Type)
  | glTexParameteri (target pname : ℕ) (param : ℤ)
  | glTexParameterf (target pname : ℕ) (param : F)
  deriving DecidableEq

namespace ParameterCall

/-- The target of a call. -/
def target : ParameterCall F → ℕ
  | .glTexParameteri target _ _ => target
  | .glTexParameterf target _ _ => target

/-- What a call with an integer sets. -/
def settingi (pname : ℕ) (param : ℤ) : Option (Setting F) :=
  match textureMode pname with
  | some mode => some (.mode mode param)
  | none =>
    if pname = glTextureMaxAnisotropyExt then some (.maxAnisotropy (format.ofInt param)) else none

/-- What a call sets. -/
def setting : ParameterCall F → Option (Setting F)
  | .glTexParameteri _ pname param => settingi format pname param
  | .glTexParameterf _ pname param =>
    if pname = glTextureMaxAnisotropyExt then some (.maxAnisotropy param)
    else settingi format pname (format.toInt param)

end ParameterCall

/-! ### The textures of the driver -/

/-- A texture of the driver. When a name is generated again, there is another texture that
the server takes it for. -/
inductive DriverTexture
  | default (target : ℕ)
  | named (name generation : ℕ)
  deriving DecidableEq, Repr

/-- The textures that the driver has for a context. -/
structure DriverTextures (F : Type) where
  /-- How often a name was generated. -/
  generation : ℕ → ℕ
  /-- The texture that is bound to a target. -/
  bound : ℕ → DriverTexture
  parameters : DriverTexture → TextureParameters F

namespace DriverTextures

/-- The textures of a new context. -/
def init : DriverTextures F where
  generation _ := 0
  bound := .default
  parameters _ := driverParameters format

variable (d : DriverTextures F)

/-- The texture that a name stands for at a target. -/
def texture (target name : ℕ) : DriverTexture :=
  if name = 0 then .default target else .named name (d.generation name)

/-- `glGenTextures` of the server, for names of the client. -/
def genTextures (names : List ℕ) : DriverTextures F :=
  { d with
    generation := fun name => if name ∈ names then d.generation name + 1 else d.generation name }

/-- `glBindTexture` of the driver. -/
def bindTexture (target name : ℕ) : DriverTextures F :=
  { d with bound := Function.update d.bound target (d.texture target name) }

/-- `glTexParameteri` and `glTexParameterf` of the driver. -/
def texParameter (call : ParameterCall F) : DriverTextures F :=
  match call.setting format with
  | some x =>
    { d with
      parameters := Function.update d.parameters (d.bound call.target)
        ((d.parameters (d.bound call.target)).set x) }
  | none => d

end DriverTextures

/-! ### The client -/

/-- The textures of a context, with the parameters in the records. -/
structure ContextTextures (F : Type) where
  objects : Objects.State
  parameters : ℕ → TextureParameters F

/-- The contexts of a client, with what the driver has for each. None of them share. -/
structure Config (F : Type) where
  contexts : ℕ → ContextTextures F
  drivers : ℕ → DriverTextures F
  /-- The record of `caching_client_get_default_texture`. -/
  defaultTexture : TextureParameters F
  current : ℕ

/-- A texture of the client. -/
inductive ClientTexture
  | default (context target : ℕ)
  | named (context name : ℕ)
  deriving DecidableEq, Repr

/-- The steps. The arguments `memory` are what the memory of new records has in place of the
anisotropy, and `accepted` tells whether the driver accepts the call if it is passed on. -/
inductive Operation (F : Type)
  | glGenTextures (n : ℕ) (memory : ℕ → F)
  | glBindTexture (target texture : ℕ) (memory : F) (accepted : Bool)
  | eglMakeCurrent (context : ℕ)
  | texParameter (call : ParameterCall F)

namespace ContextTextures

variable (c : ContextTextures F)

/-- The textures of a new context. -/
def init (memory : ℕ) : ContextTextures F := ⟨.init memory, fun _ => driverParameters format⟩

/-- `caching_client_lookup_cached_texture`, or else the default texture. -/
def record (defaultTexture : TextureParameters F) (name : ℕ) : TextureParameters F :=
  match c.objects.lookupCachedTexture name with
  | some _ => c.parameters name
  | none => defaultTexture

/-- The records that `_create_texture` makes. -/
def create (names : List ℕ) (memory : ℕ → F) : ℕ → TextureParameters F :=
  fun name => if name ∈ names then createParameters (memory name) else c.parameters name

/-- The name, if it has a record only now. -/
def newRecord (objects : Objects.State) (texture : ℕ) : List ℕ :=
  if (c.objects.lookupCachedTexture texture).isNone ∧
    (objects.lookupCachedTexture texture).isSome then [texture] else []

end ContextTextures

namespace Config

variable (s : Config F)

/-- No context has textures, and nothing was ever set. -/
def init (memory : ℕ → ℕ) : Config F where
  contexts context := .init format (memory context)
  drivers _ := .init format
  defaultTexture := getDefaultTexture format
  current := 0

/-- The name that the current context has bound to a target in the cache. -/
def boundTexture (target : ℕ) : ℕ := (s.contexts s.current).objects.boundTexture target

/-- The texture that is bound to a target in the cache. -/
def cachedBound (target : ℕ) : ClientTexture :=
  if s.boundTexture target = 0 then .default s.current target
  else .named s.current (s.boundTexture target)

/-- The texture that is bound to a target in the driver. -/
def bound (target : ℕ) : ClientTexture :=
  match (s.drivers s.current).bound target with
  | .default other => .default s.current other
  | .named name _ => .named s.current name

/-- The texture that is bound to a target in the cache is bound to it in the driver. -/
def HasBound (target : ℕ) : Prop :=
  (s.drivers s.current).bound target =
    (s.drivers s.current).texture target (s.boundTexture target)

/-- The cached parameters of a texture. -/
def cached : ClientTexture → TextureParameters F
  | .default _ _ => s.defaultTexture
  | .named context name => (s.contexts context).record s.defaultTexture name

/-- The parameters that the driver has for the texture that is bound to a target there. -/
def driverBound (target : ℕ) : TextureParameters F :=
  (s.drivers s.current).parameters ((s.drivers s.current).bound target)

/-- The record of the texture that is bound to a target in the cache. -/
def record (target : ℕ) : TextureParameters F :=
  (s.contexts s.current).record s.defaultTexture (s.boundTexture target)

/-- A write to the record of the texture that is bound to a target in the cache. -/
def write (target : ℕ) (p : TextureParameters F) : Config F :=
  match (s.contexts s.current).objects.lookupCachedTexture (s.boundTexture target) with
  | some _ =>
    { s with
      contexts := Function.update s.contexts s.current
        { s.contexts s.current with
          parameters :=
            Function.update (s.contexts s.current).parameters (s.boundTexture target) p } }
  | none => { s with defaultTexture := p }

end Config

/-! ### The entry points -/

/-- The checks of `caching_client_glTexParameteri`. -/
def texParameteriError (target pname : ℕ) (param : ℤ) : Option ℕ :=
  if ¬ isValidGetTexParamTarget target then some glInvalidEnum
  else if ¬ isValidTextureParameter pname then some glInvalidEnum
  else if pname = glTextureMagFilter ∧ ¬ isValidTextureMagFilterMode (uint param) ∨
      pname = glTextureMinFilter ∧ ¬ isValidTextureMinFilterMode (uint param) ∨
      (pname = glTextureWrapS ∨ pname = glTextureWrapT ∨ pname = glTextureWrapROes) ∧
        ¬ isValidTextureWrapMode (uint param) then some glInvalidEnum
  else if pname = glTextureMaxAnisotropyExt ∧ param < 1 then some glInvalidValue
  else none

/-- The checks that `caching_client_glTexParameterf` makes of an anisotropy. -/
def texParameterfError (target pname : ℕ) (param : F) : Option ℕ :=
  if ¬ isValidGetTexParamTarget target then some glInvalidEnum
  else if ¬ isValidTextureParameter pname then some glInvalidEnum
  else if format.ltOne param then some glInvalidValue
  else none

/-- A record after `caching_client_glTexParameteri`, if that changes it. -/
def texParameteriRecord (texture : TextureParameters F) (pname : ℕ) (param : ℤ) :
    Option (TextureParameters F) :=
  match textureMode pname with
  | some mode =>
    if texture.modes mode ≠ param then
      some { texture with modes := Function.update texture.modes mode param }
    else none
  | none =>
    if pname = glTextureMaxAnisotropyExt ∧ format.ne texture.maxAnisotropy (format.ofInt param) then
      some { texture with maxAnisotropy := format.ofInt param }
    else none

namespace Config

/-- `caching_client_glTexParameteri`. -/
def glTexParameteri (s : Config F) (target pname : ℕ) (param : ℤ) :
    Config F × List (Effect (ParameterCall F)) :=
  match texParameteriError target pname param with
  | some error => (s, [.setError error])
  | none =>
    match texParameteriRecord format (s.record target) pname param with
    | some texture => (s.write target texture, [.forward (.glTexParameteri target pname param)])
    | none => (s, [])

/-- `caching_client_glTexParameterf`. An anisotropy is set as a float, and then once more as
an integer. -/
def glTexParameterf (s : Config F) (target pname : ℕ) (param : F) :
    Config F × List (Effect (ParameterCall F)) :=
  let parami := format.toInt param
  if pname = glTextureMaxAnisotropyExt then
    match texParameterfError format target pname param with
    | some error => (s, [.setError error])
    | none =>
      if format.ne (s.record target).maxAnisotropy param then
        -- The call is passed on here, and again below if the integer differs.
        let texture := { s.record target with maxAnisotropy := param }
        let (s, effects) := (s.write target texture).glTexParameteri format target pname parami
        (s, .forward (.glTexParameterf target pname param) :: effects)
      else s.glTexParameteri format target pname parami
  else s.glTexParameteri format target pname parami

/-- The entry points that set a parameter. -/
def entry (s : Config F) : ParameterCall F → Config F × List (Effect (ParameterCall F))
  | .glTexParameteri target pname param => s.glTexParameteri format target pname param
  | .glTexParameterf target pname param => s.glTexParameterf format target pname param

/-- The driver of the current context. -/
def mapDriver (s : Config F) (f : DriverTextures F → DriverTextures F) : Config F :=
  { s with drivers := Function.update s.drivers s.current (f (s.drivers s.current)) }

/-- A call, with what the driver does to what is passed on. -/
def texParameter (s : Config F) (call : ParameterCall F) : Config F :=
  let (t, effects) := s.entry format call
  t.mapDriver fun driver => (forwarded effects).foldl (DriverTextures.texParameter format) driver

/-- `caching_client_glGenTextures`. -/
def glGenTextures (s : Config F) (n : ℕ) (memory : ℕ → F) : Option (Config F) := do
  let context := s.contexts s.current
  let (names, _) ← Names.allocNames context.objects.textureNameHandler n
  let (objects, _) ← context.objects.glGenTextures n
  let s := { s with
    contexts := Function.update s.contexts s.current ⟨objects, context.create names memory⟩ }
  return s.mapDriver fun driver => driver.genTextures names

/-- `caching_client_glBindTexture`. -/
def glBindTexture (s : Config F) (target texture : ℕ) (memory : F) (accepted : Bool) :
    Option (Config F) := do
  let context := s.contexts s.current
  let (objects, effects) ← context.objects.glBindTexture target texture
  let names := context.newRecord objects texture
  let s := { s with
    contexts := Function.update s.contexts s.current
      ⟨objects, context.create names fun _ => memory⟩ }
  if .forward (.glBindTexture target texture) ∈ effects ∧ accepted then
    return s.mapDriver fun driver => driver.bindTexture target texture
  else return s

/-- The steps. -/
def run (s : Config F) : Operation F → Option (Config F)
  | .glGenTextures n memory => s.glGenTextures n memory
  | .glBindTexture target texture memory accepted => s.glBindTexture target texture memory accepted
  | .eglMakeCurrent context => some { s with current := context }
  | .texParameter call => some (s.texParameter format call)

end Config

/-- The runs of a client, over memory of any content. -/
def system : System (Config F) (Operation F) :=
  System.ofStep (fun s => ∃ memory, s = .init format memory) (Config.run format)

/-! ### What a call should do -/

/-- The calls that do what they should. -/
structure SetsWell (s : Config F) (call : ParameterCall F) (x : Setting F) : Prop where
  /-- The texture without a name is not set to anything new. -/
  default : s.bound call.target = .default s.current call.target → s.defaultTexture.Has x
  /-- Nothing new is set while the cache has another texture bound than the driver. -/
  bound : ¬ s.HasBound call.target → (s.record call.target).Has x
  /-- The memory of a record that was not set has the value only if the driver has. -/
  anisotropy : ∀ value, x = .maxAnisotropy value →
    (s.record call.target).maxAnisotropy = value → (s.driverBound call.target).Has x
  /-- A float that is set is an integer. -/
  whole : ∀ target pname value, call = .glTexParameterf target pname value →
    pname = glTextureMaxAnisotropyExt → format.ofInt (format.toInt value) = value

/-- The first error that a call is refused with. -/
def ParameterCall.error : ParameterCall F → Option ℕ
  | .glTexParameteri target pname param => texParameteriError target pname param
  | .glTexParameterf target pname param =>
    if pname = glTextureMaxAnisotropyExt then texParameterfError format target pname param
    else texParameteriError target pname (format.toInt param)

/-- No name that is generated is bound, the driver accepts what is bound, or has it bound where the
cache does, and what is set is set well. -/
def Careful (s : Config F) : Operation F → Prop
  | .glGenTextures n _ => ∀ names handler,
      Names.allocNames (s.contexts s.current).objects.textureNameHandler n =
        some (names, handler) →
      ∀ target, State.IsBindTarget target → ∀ name ∈ names,
        s.bound target ≠ .named s.current name
  | .glBindTexture target texture _ accepted =>
    State.IsBindTarget target →
      if s.boundTexture target = texture then s.HasBound target else accepted = true
  | .eglMakeCurrent _ => True
  | .texParameter call => call.error format = none →
      ∀ x, call.setting format = some x → SetsWell format s call x

/-! ### Parameters that are set -/

variable {format} {s t : Config F} {p q : TextureParameters F} {x : Setting F}
  {call : ParameterCall F} {target pname : ℕ} {param : ℤ} {value : F}

namespace TextureParameters

/-- Records that agree on the modes still do when the same is set in both. -/
theorem modes_set (h : p.modes = q.modes) : (p.set x).modes = (q.set x).modes := by
  cases x with
  | mode mode value => exact congrArg (fun modes => Function.update modes mode value) h
  | maxAnisotropy value => exact h

end TextureParameters

/-- Two anisotropies compare as they should, if one of them can be set. -/
theorem FloatFormat.ne_iff (h : 1 ≤ param) :
    format.ne value (format.ofInt param) = true ↔ value ≠ format.ofInt param := by
  have hvalid : format.ltOne (format.ofInt param) = false := by
    rw [format.ltOne_ofInt]
    exact decide_eq_false (by omega)
  constructor
  · rintro hne rfl
    rw [format.ne_self] at hne
    cases hne
  · intro hne
    by_contra hsame
    exact hne (format.eq_of_not_ne _ _ hvalid (Bool.eq_false_iff.mpr hsame))

theorem isBindTarget_of_valid (h : isValidGetTexParamTarget target = true) :
    State.IsBindTarget target := by
  simp only [isValidGetTexParamTarget, List.mem_cons, List.not_mem_nil, or_false,
    decide_eq_true_eq] at h
  exact h

theorem exists_settingi (h : isValidTextureParameter pname = true) :
    ∃ x, ParameterCall.settingi format pname param = some x := by
  simp only [isValidTextureParameter, List.mem_cons, List.not_mem_nil, or_false,
    decide_eq_true_eq] at h
  rcases h with rfl | rfl | rfl | rfl | rfl | rfl <;> exact ⟨_, rfl⟩

/-- What the checks of `glTexParameteri` leave. -/
theorem texParameteriError_spec (h : texParameteriError target pname param = none) :
    isValidGetTexParamTarget target = true ∧ isValidTextureParameter pname = true ∧
      (pname = glTextureMaxAnisotropyExt → 1 ≤ param) := by
  unfold texParameteriError at h
  split_ifs at h with htarget hpname hmode hparam
  exact ⟨htarget, hpname, fun heq => by
    by_contra hlt
    exact hparam ⟨heq, by omega⟩⟩

theorem texParameterfError_spec (h : texParameterfError format target pname value = none) :
    isValidGetTexParamTarget target = true ∧ isValidTextureParameter pname = true ∧
      format.ltOne value = false := by
  unfold texParameterfError at h
  split_ifs at h with htarget hpname hparam
  exact ⟨htarget, hpname, Bool.eq_false_iff.mpr hparam⟩

/-- An anisotropy that `glTexParameterf` accepts is accepted again as an integer. -/
theorem texParameteriError_anisotropy
    (h : isValidGetTexParamTarget target = true) (hparam : 1 ≤ param) :
    texParameteriError target glTextureMaxAnisotropyExt param = none := by
  unfold texParameteriError
  rw [if_neg (not_not.mpr h), if_neg (by decide), if_neg, if_neg (by omega)]
  rintro (⟨heq, -⟩ | ⟨heq, -⟩ | ⟨heq | heq | heq, -⟩) <;> exact absurd heq (by decide)

/-- The record changes exactly if it does not have the value. -/
theorem texParameteriRecord_spec (hx : ParameterCall.settingi format pname param = some x)
    (hparam : pname = glTextureMaxAnisotropyExt → 1 ≤ param) :
    (p.Has x → texParameteriRecord format p pname param = none) ∧
      (¬ p.Has x → texParameteriRecord format p pname param = some (p.set x)) := by
  unfold ParameterCall.settingi at hx
  unfold texParameteriRecord
  cases hmode : textureMode pname with
  | some mode =>
    rw [hmode] at hx
    cases hx
    exact ⟨fun hhas => if_neg (not_not.mpr hhas), fun hhas => if_pos hhas⟩
  | none =>
    rw [hmode] at hx
    dsimp only at hx ⊢
    -- No mode has the name, so that it is the anisotropy.
    split_ifs at hx with hpname
    cases hx
    have hne : format.ne p.maxAnisotropy (format.ofInt param) = true ↔
        p.maxAnisotropy ≠ format.ofInt param := FloatFormat.ne_iff (hparam hpname)
    constructor
    · intro hhas
      exact if_neg fun hand => hne.mp hand.2 hhas
    · intro hhas
      exact if_pos ⟨hpname, hne.mpr hhas⟩

namespace Config

/-! ### Writing a record -/

@[simp] theorem boundTexture_write : (s.write target p).boundTexture = s.boundTexture := by
  funext other
  unfold write
  split
  next => simp only [boundTexture, Function.update_self]
  next => rfl

@[simp] theorem current_write : (s.write target p).current = s.current := by
  unfold write
  split <;> rfl

theorem record_write : (s.write target p).record target = p := by
  unfold record
  rw [boundTexture_write, current_write]
  unfold write
  split
  next r hr => simp only [Function.update_self, ContextTextures.record, hr]
  next hr => simp only [ContextTextures.record, hr]

/-- A call with an integer stores it and passes it on, unless the record has it. -/
theorem glTexParameteri_spec (h : texParameteriError target pname param = none)
    (hx : ParameterCall.settingi format pname param = some x) :
    ((s.record target).Has x ∧ s.glTexParameteri format target pname param = (s, [])) ∨
      (¬ (s.record target).Has x ∧ s.glTexParameteri format target pname param =
        (s.write target ((s.record target).set x),
          [.forward (.glTexParameteri target pname param)])) := by
  have hrecord := texParameteriRecord_spec (p := s.record target) hx (texParameteriError_spec h).2.2
  simp only [glTexParameteri, h]
  by_cases hhas : (s.record target).Has x
  · rw [hrecord.1 hhas]
    exact .inl ⟨hhas, rfl⟩
  · rw [hrecord.2 hhas]
    exact .inr ⟨hhas, rfl⟩

/-- A call that sets an integer stores it and passes it on, unless the record has it. -/
theorem entry_spec (h : call.error format = none) (hx : call.setting format = some x)
    (hwhole : ∀ target pname value, call = .glTexParameterf target pname value →
      pname = glTextureMaxAnisotropyExt → format.ofInt (format.toInt value) = value) :
    ((s.record call.target).Has x ∧ s.entry format call = (s, [])) ∨
      (¬ (s.record call.target).Has x ∧ ∃ passed : ParameterCall F,
        passed.target = call.target ∧ passed.setting format = some x ∧
        s.entry format call =
          (s.write call.target ((s.record call.target).set x), [.forward passed])) := by
  cases call with
  | glTexParameteri target pname param =>
    rcases glTexParameteri_spec (s := s) h hx with ⟨hhas, heq⟩ | ⟨hhas, heq⟩
    · exact .inl ⟨hhas, heq⟩
    · exact .inr ⟨hhas, _, rfl, hx, heq⟩
  | glTexParameterf target pname value =>
    by_cases hpname : pname = glTextureMaxAnisotropyExt
    · subst hpname
      have hvalue := hwhole _ _ _ rfl rfl
      simp only [ParameterCall.error, if_true] at h
      simp only [ParameterCall.setting, if_true, Option.some.injEq] at hx
      subst hx
      obtain ⟨htarget, -, hone⟩ := texParameterfError_spec h
      have hparam : 1 ≤ format.toInt value := by
        rw [← hvalue, format.ltOne_ofInt, decide_eq_false_iff_not] at hone
        omega
      -- The second call finds the value that the first one has stored.
      have hagain : ∀ u : Config F, (u.record target).maxAnisotropy = value →
          u.glTexParameteri format target glTextureMaxAnisotropyExt (format.toInt value) =
            (u, []) := by
        intro u hu
        have hset : ParameterCall.settingi format glTextureMaxAnisotropyExt (format.toInt value) =
            some (.maxAnisotropy value) :=
          congrArg (fun v => some (Setting.maxAnisotropy v)) hvalue
        have hvalid := texParameteriError_anisotropy htarget hparam
        rcases glTexParameteri_spec (s := u) hvalid hset with ⟨-, heq⟩ | ⟨hhas, -⟩
        · exact heq
        · exact absurd hu hhas
      have hne : format.ne (s.record target).maxAnisotropy _ = true ↔ _ :=
        FloatFormat.ne_iff hparam
      rw [hvalue] at hne
      simp only [entry, glTexParameterf, if_true, h]
      by_cases hhas : (s.record target).maxAnisotropy = value
      · rw [if_neg fun htrue => hne.mp htrue hhas]
        exact .inl ⟨hhas, hagain s hhas⟩
      · rw [if_pos (hne.mpr hhas), hagain _ (congrArg _ record_write)]
        exact .inr ⟨hhas, .glTexParameterf target glTextureMaxAnisotropyExt value, rfl, rfl, rfl⟩
    · simp only [ParameterCall.error, if_neg hpname] at h
      simp only [ParameterCall.setting, if_neg hpname] at hx
      simp only [entry, glTexParameterf, if_neg hpname]
      rcases glTexParameteri_spec (s := s) h hx with ⟨hhas, heq⟩ | ⟨hhas, heq⟩
      · exact .inl ⟨hhas, heq⟩
      · exact .inr ⟨hhas, .glTexParameteri target pname (format.toInt value), rfl, hx, heq⟩

end Config

/-! ### Agreement with the driver -/

/-- What a context knows about the textures of the driver. Where none with a name is bound there,
the cache may have any; and the anisotropy of a record that was not set is left out. -/
structure ContextTextures.Agrees (format : FloatFormat F) (c : ContextTextures F)
    (d : DriverTextures F) : Prop where
  bound : ∀ target, State.IsBindTarget target → d.bound target = .default target ∨
    ∃ r, c.objects.lookupCachedTexture (c.objects.boundTexture target) = some r ∧
      d.bound target =
        .named (c.objects.boundTexture target) (d.generation (c.objects.boundTexture target))
  modes : ∀ name r, c.objects.lookupCachedTexture name = some r →
    (c.parameters name).modes = (d.parameters (.named name (d.generation name))).modes
  unrecorded : ∀ name, c.objects.lookupCachedTexture name = none →
    d.parameters (.named name (d.generation name)) = driverParameters format
  unborn : ∀ name generation, d.generation name < generation →
    d.parameters (.named name generation) = driverParameters format
  default : ∀ target, d.parameters (.default target) = driverParameters format

namespace Config

/-- All contexts agree with the driver, and the texture without a name was not set. -/
structure Agrees (format : FloatFormat F) (s : Config F) : Prop where
  default : s.defaultTexture = getDefaultTexture format
  contexts : ∀ context, (s.contexts context).Agrees format (s.drivers context)

theorem bound_eq_cachedBound (hbound : s.HasBound target) :
    s.bound target = s.cachedBound target := by
  unfold bound cachedBound
  rw [hbound, DriverTextures.texture]
  split_ifs <;> rfl

/-- A texture with a name that both sides have bound has a record. -/
theorem Agrees.exists_recorded (h : s.Agrees format) (htarget : State.IsBindTarget target)
    (hbound : s.HasBound target) (hzero : s.boundTexture target ≠ 0) :
    ∃ r, (s.contexts s.current).objects.lookupCachedTexture (s.boundTexture target) = some r := by
  rcases (h.contexts s.current).bound target htarget with hdefault | ⟨r, hr, -⟩
  · rw [HasBound, DriverTextures.texture, if_neg hzero, hdefault] at hbound
    cases hbound
  · exact ⟨r, hr⟩

theorem isBindTarget_of_error (h : call.error format = none) :
    State.IsBindTarget call.target := by
  cases call with
  | glTexParameteri target pname param =>
    exact isBindTarget_of_valid (texParameteriError_spec h).1
  | glTexParameterf target pname value =>
    simp only [ParameterCall.error] at h
    split_ifs at h
    · exact isBindTarget_of_valid (texParameterfError_spec h).1
    · exact isBindTarget_of_valid (texParameteriError_spec h).1

theorem exists_setting (h : call.error format = none) : ∃ x, call.setting format = some x := by
  cases call with
  | glTexParameteri target pname param =>
    exact exists_settingi (texParameteriError_spec h).2.1
  | glTexParameterf target pname value =>
    simp only [ParameterCall.error] at h
    simp only [ParameterCall.setting]
    split_ifs at h with hpname
    · exact ⟨_, if_pos hpname⟩
    · rw [if_neg hpname]
      exact exists_settingi (texParameteriError_spec h).2.1

/-- A call that is refused does nothing. -/
theorem entry_of_error {error : ℕ} (h : call.error format = some error) :
    s.entry format call = (s, [.setError error]) := by
  cases call with
  | glTexParameteri target pname param =>
    have herror : texParameteriError target pname param = some error := h
    simp only [entry, glTexParameteri, herror]
  | glTexParameterf target pname value =>
    by_cases hpname : pname = glTextureMaxAnisotropyExt
    · simp only [ParameterCall.error, if_pos hpname] at h
      simp only [entry, glTexParameterf, if_pos hpname, h]
    · simp only [ParameterCall.error, if_neg hpname] at h
      simp only [entry, glTexParameterf, if_neg hpname, glTexParameteri, h]

/-- A call that is passed on and does not set the texture without a name. -/
theorem Agrees.exists_record (h : s.Agrees format) (htarget : State.IsBindTarget target)
    (hbound : s.HasBound target)
    (hdefault : s.bound target = .default s.current target → s.defaultTexture.Has x)
    (hhas : ¬ (s.record target).Has x) :
    ∃ r, (s.contexts s.current).objects.lookupCachedTexture (s.boundTexture target) = some r := by
  refine h.exists_recorded htarget hbound fun hzero => hhas ?_
  have hrecord : s.record target = s.defaultTexture := by
    rw [record, hzero]
    rfl
  rw [hrecord]
  refine hdefault ?_
  rw [bound_eq_cachedBound hbound]
  exact if_pos hzero

/-! ### One call -/

end Config

/-! ### New records -/

namespace ContextTextures

variable {c : ContextTextures F} {objects : Objects.State} {texture : ℕ}

theorem newRecord_self : c.newRecord c.objects texture = [] := by
  refine if_neg ?_
  rintro ⟨hnone, hsome⟩
  rw [Option.isNone_iff_eq_none.mp hnone] at hsome
  cases hsome

theorem newRecord_of_lookup
    (hrecord : ∀ name, objects.lookupCachedTexture name =
      if name = texture ∧ texture ≠ 0 ∧ c.objects.lookupCachedTexture texture = none then
        some (createTexture texture) else c.objects.lookupCachedTexture name) :
    c.newRecord objects texture =
      if texture ≠ 0 ∧ c.objects.lookupCachedTexture texture = none then [texture] else [] := by
  unfold newRecord
  by_cases hcond : texture ≠ 0 ∧ c.objects.lookupCachedTexture texture = none
  · rw [if_pos hcond, if_pos]
    refine ⟨Option.isNone_iff_eq_none.mpr hcond.2, ?_⟩
    rw [hrecord, if_pos ⟨rfl, hcond⟩]
    rfl
  · rw [if_neg hcond, if_neg]
    rintro ⟨hnone, hsome⟩
    rw [hrecord, if_neg fun hand => hcond hand.2, Option.isNone_iff_eq_none.mp hnone] at hsome
    cases hsome

/-- Only a record that is made when the texture is bound has new parameters. -/
theorem create_newRecord (memory : F)
    (hrecord : ∀ name, objects.lookupCachedTexture name =
      if name = texture ∧ texture ≠ 0 ∧ c.objects.lookupCachedTexture texture = none then
        some (createTexture texture) else c.objects.lookupCachedTexture name) (name : ℕ) :
    c.create (c.newRecord objects texture) (fun _ => memory) name =
      if name = texture ∧ texture ≠ 0 ∧ c.objects.lookupCachedTexture texture = none then
        createParameters memory else c.parameters name := by
  unfold create
  rw [newRecord_of_lookup hrecord]
  by_cases hcond : texture ≠ 0 ∧ c.objects.lookupCachedTexture texture = none
  · simp only [if_pos hcond, List.mem_singleton, and_iff_left hcond]
  · rw [if_neg hcond, if_neg List.not_mem_nil, if_neg fun hand => hcond hand.2]

end ContextTextures

/-! ### Steps keep the agreement -/

namespace ContextTextures.Agrees

variable {c : ContextTextures F} {d : DriverTextures F} {objects : Objects.State}
  {effects : Effects}

/-- The records that are new are those of textures that are new. -/
theorem glGenTextures {n : ℕ} {names : List ℕ} {handler : Names.NameHandler} {memory : ℕ → F}
    (h : c.Agrees format d)
    (halloc : Names.allocNames c.objects.textureNameHandler n = some (names, handler))
    (hgen : c.objects.glGenTextures n = some (objects, effects))
    (hbound : ∀ target, State.IsBindTarget target → ∀ name ∈ names, ∀ generation,
      d.bound target ≠ .named name generation) :
    Agrees format ⟨objects, c.create names memory⟩ (d.genTextures names) := by
  obtain ⟨cache, rfl, hlookup⟩ := State.glGenTextures_spec halloc hgen
  refine ⟨fun target htarget => ?_, fun name r hr => ?_, fun name hnone => ?_,
    fun name generation hlt => ?_, h.default⟩
  · refine (h.bound target htarget).imp_right ?_
    rintro ⟨r, hr, hnamed⟩
    -- What is bound was not generated now, so that it is still the same texture.
    have hnew : c.objects.boundTexture target ∉ names := fun hmem =>
      hbound target htarget _ hmem _ hnamed
    refine ⟨r, (hlookup _).trans ((if_neg hnew).trans hr), hnamed.trans ?_⟩
    exact congrArg _ (if_neg hnew).symm
  · have hname := (hlookup name).symm.trans hr
    simp only [create, DriverTextures.genTextures]
    split_ifs at hname ⊢ with hmem
    -- The new texture was never set, and the record has the same modes.
    · rw [h.unborn name _ (Nat.lt_succ_self _)]
      rfl
    · exact h.modes name r hname
  · have hname := (hlookup name).symm.trans hnone
    simp only [DriverTextures.genTextures]
    split_ifs at hname ⊢ with hmem
    exact h.unrecorded name hname
  · refine h.unborn name generation ?_
    simp only [DriverTextures.genTextures] at hlt
    split_ifs at hlt
    · exact Nat.lt_of_succ_lt hlt
    · exact hlt

/-- The texture that is bound has the name that is bound. -/
theorem glBindTexture {target texture : ℕ} {accepted : Bool} (h : c.Agrees format d)
    (memory : F)
    (hbind : c.objects.glBindTexture target texture = some (objects, effects))
    (haccepted : State.IsBindTarget target →
      if c.objects.boundTexture target = texture then
        d.bound target = d.texture target (c.objects.boundTexture target)
      else accepted = true) :
    Agrees format ⟨objects, c.create (c.newRecord objects texture) fun _ => memory⟩
      (if .forward (.glBindTexture target texture) ∈ effects ∧ accepted then
        d.bindTexture target texture else d) := by
  have hkept : c.objects = objects → .forward (.glBindTexture target texture) ∉ effects →
      Agrees format ⟨objects, c.create (c.newRecord objects texture) fun _ => memory⟩
        (if .forward (.glBindTexture target texture) ∈ effects ∧ accepted then
          d.bindTexture target texture else d) := by
    rintro rfl hmem
    rw [if_neg fun hand => hmem hand.1, newRecord_self]
    exact h
  rcases State.glBindTexture_cases hbind with
    ⟨rfl, rfl, -⟩ | ⟨rfl, rfl, -⟩ | ⟨rfl, htarget, cache, handler, hobjects, hlookup⟩
  · exact hkept rfl List.not_mem_nil
  · exact hkept rfl (by simp)
  -- The driver has the texture bound then, whether or not it had it before.
  have hdriver : (if .forward (.glBindTexture target texture) ∈
      [Effect.forward (Call.glBindTexture target texture)] ∧ accepted then
        d.bindTexture target texture else d) = d.bindTexture target texture := by
    have hcareful := haccepted htarget
    split_ifs at hcareful with hsame
    · rw [DriverTextures.bindTexture, ← hsame, ← hcareful, Function.update_eq_self, ite_self]
    · rw [if_pos ⟨List.mem_cons_self, hcareful⟩]
  have hbound : ∀ other, State.IsBindTarget other → objects.boundTexture other =
      if other = target then texture else c.objects.boundTexture other := by
    rw [hobjects]
    rcases htarget with rfl | rfl | rfl <;> rintro other (rfl | rfl | rfl) <;> rfl
  have hrecord : ∀ name, objects.lookupCachedTexture name =
      if name = texture ∧ texture ≠ 0 ∧ c.objects.lookupCachedTexture texture = none then
        some (createTexture texture) else c.objects.lookupCachedTexture name := by
    rw [hobjects]
    exact hlookup
  rw [hdriver]
  -- A texture that has a record keeps one, and the one that is bound gets one.
  have hkeeps : ∀ name r, c.objects.lookupCachedTexture name = some r →
      ∃ r', objects.lookupCachedTexture name = some r' := by
    intro name r hr
    rw [hrecord]
    split_ifs
    · exact ⟨_, rfl⟩
    · exact ⟨r, hr⟩
  have hgets : texture ≠ 0 → ∃ r, objects.lookupCachedTexture texture = some r := by
    intro hzero
    rw [hrecord]
    split_ifs with hcond
    · exact ⟨_, rfl⟩
    · exact Option.ne_none_iff_exists'.mp fun hnone => hcond ⟨rfl, hzero, hnone⟩
  refine ⟨fun other hother => ?_, fun name r hr => ?_, fun name hnone => ?_, h.unborn, h.default⟩
  · rw [hbound other hother]
    by_cases heq : other = target
    · subst heq
      simp only [if_true, DriverTextures.bindTexture, Function.update_self,
        DriverTextures.texture]
      split_ifs with hzero
      · exact .inl rfl
      · obtain ⟨r, hr⟩ := hgets hzero
        exact .inr ⟨r, hr, rfl⟩
    · simp only [if_neg heq, DriverTextures.bindTexture, Function.update_of_ne heq]
      refine (h.bound other hother).imp_right ?_
      rintro ⟨r, hr, hnamed⟩
      obtain ⟨r', hr'⟩ := hkeeps _ r hr
      exact ⟨r', hr', hnamed⟩
  · have hname := (hrecord name).symm.trans hr
    dsimp only
    rw [create_newRecord memory hrecord]
    split_ifs at hname ⊢ with hcond
    · have hunrecorded := h.unrecorded name (hcond.1 ▸ hcond.2.2)
      exact (congrArg TextureParameters.modes hunrecorded).symm
    · exact h.modes name r hname
  · have hname := (hrecord name).symm.trans hnone
    split_ifs at hname
    exact h.unrecorded name hname

/-- What is set in the record of a texture that is bound is set in the texture. -/
theorem texParameter {target : ℕ} {call : ParameterCall F} {x : Setting F} {r : Texture}
    (h : c.Agrees format d) (hbound : d.bound target =
      d.texture target (c.objects.boundTexture target)) (hcall : call.target = target)
    (hx : call.setting format = some x)
    (hr : c.objects.lookupCachedTexture (c.objects.boundTexture target) = some r) :
    Agrees format
      { c with
        parameters := Function.update c.parameters (c.objects.boundTexture target)
          ((c.parameters (c.objects.boundTexture target)).set x) }
      (d.texParameter format call) := by
  have hzero : c.objects.boundTexture target ≠ 0 := by
    intro hzero
    rw [hzero] at hr
    cases hr
  -- Both sides set the texture that the bound name stands for now.
  generalize hname : c.objects.boundTexture target = bound at hr hzero ⊢
  have hnamed : d.bound target = .named bound (d.generation bound) := by
    rw [hbound, hname]
    exact if_neg hzero
  have hdriver : d.texParameter format call = { d with
      parameters := Function.update d.parameters (.named bound (d.generation bound))
        ((d.parameters (.named bound (d.generation bound))).set x) } := by
    simp only [DriverTextures.texParameter, hx, hcall, hnamed]
  rw [hdriver]
  refine ⟨h.bound, fun name r' hr' => ?_, fun name hnone => ?_,
    fun name generation hlt => ?_, fun other => ?_⟩
  · by_cases heq : name = bound
    · subst heq
      dsimp only
      rw [Function.update_self, Function.update_self]
      exact TextureParameters.modes_set (h.modes name r hr)
    · have hne : DriverTexture.named name (d.generation name) ≠
          .named bound (d.generation bound) := fun hsame => heq (DriverTexture.named.inj hsame).1
      dsimp only
      rw [Function.update_of_ne heq, Function.update_of_ne hne]
      exact h.modes name r' hr'
  · have hne : DriverTexture.named name (d.generation name) ≠
        .named bound (d.generation bound) := by
      intro hsame
      obtain rfl := (DriverTexture.named.inj hsame).1
      exact Option.some_ne_none r (hr.symm.trans hnone)
    exact (Function.update_of_ne hne _ _).trans (h.unrecorded name hnone)
  · have hne : DriverTexture.named name generation ≠ .named bound (d.generation bound) := by
      intro hsame
      obtain ⟨rfl, rfl⟩ := DriverTexture.named.inj hsame
      exact lt_irrefl _ hlt
    exact (Function.update_of_ne hne _ _).trans (h.unborn name generation hlt)
  · have hne : DriverTexture.default other ≠ .named bound (d.generation bound) := by simp
    dsimp only
    rw [Function.update_of_ne hne]
    exact h.default other

end ContextTextures.Agrees

namespace Config

/-- A step that changes the current context only. -/
theorem Agrees.of_current {c : ContextTextures F} {d : DriverTextures F} (h : s.Agrees format)
    (hdefault : t.defaultTexture = s.defaultTexture)
    (hcontexts : t.contexts = Function.update s.contexts s.current c)
    (hdrivers : t.drivers = Function.update s.drivers s.current d) (hc : c.Agrees format d) :
    t.Agrees format := by
  refine ⟨hdefault.trans h.default, fun context => ?_⟩
  rw [hcontexts, hdrivers]
  by_cases heq : context = s.current
  · subst heq
    rw [Function.update_self, Function.update_self]
    exact hc
  · rw [Function.update_of_ne heq, Function.update_of_ne heq]
    exact h.contexts context

theorem Agrees.texParameter (h : s.Agrees format)
    (hcareful : Careful format s (.texParameter call)) :
    (s.texParameter format call).Agrees format := by
  have hsame : forwarded (s.entry format call).2 = [] → (s.entry format call).1 = s →
      (s.texParameter format call).Agrees format := by
    intro hnone hentry
    unfold Config.texParameter
    simp only [hnone, List.foldl_nil, hentry]
    exact h.of_current rfl (Function.update_eq_self ..).symm rfl (h.contexts _)
  cases herror : call.error format with
  | some error => exact hsame (by rw [entry_of_error herror]; rfl) (by rw [entry_of_error herror])
  | none =>
    obtain ⟨x, hx⟩ := exists_setting herror
    have hwell := hcareful herror x hx
    have htarget := isBindTarget_of_error herror
    rcases entry_spec (s := s) herror hx hwell.whole with
      ⟨-, heq⟩ | ⟨hhas, passed, hpassed, hset, heq⟩
    · exact hsame (by rw [heq]; rfl) (by rw [heq])
    · have hbound : s.HasBound call.target := by
        by_contra hbound
        exact hhas (hwell.bound hbound)
      obtain ⟨r, hr⟩ := h.exists_record htarget hbound hwell.default hhas
      have hrecord : s.record call.target =
          (s.contexts s.current).parameters (s.boundTexture call.target) := by
        simp only [record, ContextTextures.record, hr]
      refine h.of_current ?_ ?_ ?_
        ((h.contexts s.current).texParameter hbound hpassed hset hr)
      · simp only [Config.texParameter, heq, mapDriver, write, hr]
      · simp only [Config.texParameter, heq, mapDriver, write, hr, hrecord]
        rfl
      · simp only [Config.texParameter, heq, mapDriver, write, hr]
        rfl

/-- A step whose condition is met keeps the agreement. -/
theorem Agrees.run {operation : Operation F} (h : s.Agrees format)
    (hcareful : Careful format s operation) (hrun : s.run format operation = some t) :
    t.Agrees format := by
  cases operation with
  | glGenTextures n memory =>
    obtain ⟨⟨names, handler⟩, halloc, hrest⟩ := Option.bind_eq_some_iff.mp hrun
    obtain ⟨⟨objects, effects⟩, hgen, heq⟩ := Option.bind_eq_some_iff.mp hrest
    cases heq
    have hbound := hcareful names handler halloc
    refine h.of_current rfl rfl rfl ((h.contexts s.current).glGenTextures halloc hgen ?_)
    intro target htarget name hname generation hnamed
    exact hbound target htarget name hname (by rw [bound, hnamed])
  | glBindTexture target texture memory accepted =>
    obtain ⟨⟨objects, effects⟩, hbind, heq⟩ := Option.bind_eq_some_iff.mp hrun
    have hcontext := (h.contexts s.current).glBindTexture memory hbind hcareful
    dsimp only at heq
    split_ifs at heq with hforward <;> cases heq
    · rw [if_pos hforward] at hcontext
      exact h.of_current rfl rfl rfl hcontext
    · rw [if_neg hforward] at hcontext
      exact h.of_current rfl rfl (Function.update_eq_self ..).symm hcontext
  | eglMakeCurrent context =>
    cases hrun
    exact ⟨h.default, h.contexts⟩
  | texParameter call =>
    cases hrun
    exact h.texParameter hcareful

end Config

/-! ### Runs -/

/-- Floats that are never rounded. -/
def rationalFormat : FloatFormat ℚ where
  ofInt i := i
  toInt x := if 0 ≤ x then x.floor else x.ceil
  ltOne x := decide (x < 1)
  ne x y := decide (x ≠ y)
  ltOne_ofInt i := by
    have hcast : (i : ℚ) < 1 ↔ i < 1 := by exact_mod_cast Iff.rfl
    simp only [hcast]
  ne_self i := by simp
  eq_of_not_ne x y _ h := by simpa using h

end GpuProxy.Textures
