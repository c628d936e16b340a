import GpuProxy.Objects.State
import Mathlib.Algebra.Ring.Int.Defs

/-!
# The cached scalar state

The entry points that set capabilities, colours, masks, depth and raster state. Each
compares its arguments with the cached values, then checks them, then stores them and
passes the call on. They are run in front of a server that stores the arguments of every
call that reaches it.

Floats are values of any type with an order against 0. Those of type `GLboolean` are numbers,
as the entry points do not convert them.

## Main definitions

* `Scalars` — the cells of `egl_state_t`
* `scalarEntry` — the entry points
* `ScalarServer`, `ScalarServer.exec` — the state of the server, and what a call does to it

## Main results

* `scalarEntry_spec` — one call
* `scalars_agree` — whole runs
-/

namespace GpuProxy.GlState

open Math WriteThrough Objects

def glBlend : ℕ := 0x0BE2
def glCullFaceCap : ℕ := 0x0B44
def glDepthTest : ℕ := 0x0B71
def glDither : ℕ := 0x0BD0
def glPolygonOffsetFill : ℕ := 0x8037
def glSampleAlphaToCoverage : ℕ := 0x809E
def glSampleCoverage : ℕ := 0x80A0
def glScissorTest : ℕ := 0x0C11
def glStencilTest : ℕ := 0x0B90

def glCw : ℕ := 0x0900
def glCcw : ℕ := 0x0901

def glGenerateMipmapHint : ℕ := 0x8192
def glDontCare : ℕ := 0x1100
def glFastest : ℕ := 0x1101
def glNicest : ℕ := 0x1102

/-- `is_valid_HintMode`. -/
def isValidHintMode (value : ℕ) : Bool := value ∈ [glFastest, glNicest, glDontCare]

/-! ### The cells -/

/-- The capabilities that are cached, each in a field of its own. -/
inductive Capability
  | blend
  | cullFace
  | depthTest
  | dither
  | polygonOffsetFill
  | sampleAlphaToCoverage
  | sampleCoverage
  | scissorTest
  | stencilTest
  deriving DecidableEq, Repr

/-- The cases of the `switch` of `caching_client_glSetCap`. -/
def capability (cap : ℕ) : Option Capability :=
  if cap = glBlend then some .blend
  else if cap = glCullFaceCap then some .cullFace
  else if cap = glDepthTest then some .depthTest
  else if cap = glDither then some .dither
  else if cap = glPolygonOffsetFill then some .polygonOffsetFill
  else if cap = glSampleAlphaToCoverage then some .sampleAlphaToCoverage
  else if cap = glSampleCoverage then some .sampleCoverage
  else if cap = glScissorTest then some .scissorTest
  else if cap = glStencilTest then some .stencilTest
  else none

/-- The cells that the entry points compare with and store to. -/
structure Scalars (F : Type*) where
  capabilities : Capability → Bool
  blendColor : F × F × F × F
  colorClearValue : F × F × F × F
  depthClearValue : F
  stencilClearValue : ℤ
  colorWritemask : ℕ × ℕ × ℕ × ℕ
  cullFaceMode : ℕ
  depthFunc : ℕ
  depthWritemask : ℕ
  depthRange : F × F
  frontFace : ℕ
  generateMipmapHint : ℕ
  lineWidth : F
  polygonOffset : F × F
  scissorBox : ℤ × ℤ × ℤ × ℤ
  viewport : ℤ × ℤ × ℤ × ℤ

/-- The cells after `egl_state_init`. -/
def Scalars.init (F : Type*) [Zero F] [One F] : Scalars F where
  capabilities
    | .dither => true
    | _ => false
  blendColor := (0, 0, 0, 0)
  colorClearValue := (0, 0, 0, 0)
  depthClearValue := 1
  stencilClearValue := 0
  colorWritemask := (1, 1, 1, 1)
  cullFaceMode := glBack
  depthFunc := glLess
  depthWritemask := 1
  depthRange := (0, 1)
  frontFace := glCcw
  generateMipmapHint := glDontCare
  lineWidth := 1
  polygonOffset := (0, 0)
  scissorBox := (0, 0, 0, 0)
  viewport := (0, 0, 0, 0)

/-- The cells, with the objects that decide whether the framebuffer is complete. -/
structure ScalarState (F : Type*) where
  scalars : Scalars F
  objects : State

/-- The calls, with the answers of the driver. -/
inductive ScalarCall (F : Type*)
  | glEnable (cap : ℕ)
  | glDisable (cap : ℕ)
  | glBlendColor (red green blue alpha : F)
  | glClearColor (red green blue alpha : F)
  | glClearDepthf (depth : F)
  | glClearStencil (s : ℤ)
  | glColorMask (red green blue alpha : ℕ)
  | glCullFace (mode : ℕ)
  | glDepthFunc (func : ℕ)
  | glDepthMask (flag : ℕ)
  | glDepthRangef (nearVal farVal : F)
  | glFrontFace (mode : ℕ)
  | glHint (target mode : ℕ)
  | glLineWidth (width : F)
  | glPolygonOffset (factor units : F)
  | glScissor (x y width height : ℤ)
  | glViewport (x y width height : ℤ)
  | glCheckFramebufferStatus (target result : ℕ)
  deriving DecidableEq, Repr

/-! ### The entry points -/

section Entries

variable {F : Type*}

/-- An entry point that compares, checks, stores and passes on. -/
def compareAndStore (state : ScalarState F) (same : Prop) [Decidable same] (error : Option ℕ)
    (store : Scalars F → Scalars F) (call : ScalarCall F) :
    ScalarState F × List (Effect (ScalarCall F)) :=
  if same then (state, [])
  else
    match error with
    | some error => (state, [.setError error])
    | none => ({ state with scalars := store state.scalars }, [.forward call])

/-- The error of an argument that fails its check. -/
def errorUnless (valid : Prop) [Decidable valid] (error : ℕ) : Option ℕ :=
  if valid then none else some error

/-- The check for an incomplete framebuffer. -/
def incompleteError (state : ScalarState F) : Option ℕ :=
  errorUnless (¬ state.objects.isIncomplete) glInvalidFramebufferOperation

variable [DecidableEq F] (state : ScalarState F)

/-- `caching_client_glSetCap`. -/
def glSetCap (cap : ℕ) (enable : Bool) : ScalarState F × List (Effect (ScalarCall F)) :=
  let call := if enable then .glEnable cap else .glDisable cap
  match capability cap with
  | some c =>
    compareAndStore state (state.scalars.capabilities c = enable) none
      (fun scalars =>
        { scalars with capabilities := Function.update scalars.capabilities c enable }) call
  -- Any other capability is passed on, valid or not.
  | none => (state, [.forward call])

/-- `caching_client_glBlendColor`. -/
def glBlendColor (red green blue alpha : F) : ScalarState F × List (Effect (ScalarCall F)) :=
  compareAndStore state (state.scalars.blendColor = (red, green, blue, alpha)) none
    ({ · with blendColor := (red, green, blue, alpha) }) (.glBlendColor red green blue alpha)

/-- `caching_client_glClearColor`. -/
def glClearColor (red green blue alpha : F) : ScalarState F × List (Effect (ScalarCall F)) :=
  compareAndStore state (state.scalars.colorClearValue = (red, green, blue, alpha))
    (incompleteError state) ({ · with colorClearValue := (red, green, blue, alpha) })
    (.glClearColor red green blue alpha)

/-- `caching_client_glClearDepthf`. -/
def glClearDepthf (depth : F) : ScalarState F × List (Effect (ScalarCall F)) :=
  compareAndStore state (state.scalars.depthClearValue = depth) (incompleteError state)
    ({ · with depthClearValue := depth }) (.glClearDepthf depth)

/-- `caching_client_glClearStencil`. -/
def glClearStencil (s : ℤ) : ScalarState F × List (Effect (ScalarCall F)) :=
  compareAndStore state (state.scalars.stencilClearValue = s) (incompleteError state)
    ({ · with stencilClearValue := s }) (.glClearStencil s)

/-- `caching_client_glColorMask`. -/
def glColorMask (red green blue alpha : ℕ) : ScalarState F × List (Effect (ScalarCall F)) :=
  compareAndStore state (state.scalars.colorWritemask = (red, green, blue, alpha)) none
    ({ · with colorWritemask := (red, green, blue, alpha) }) (.glColorMask red green blue alpha)

/-- `caching_client_glCullFace`. -/
def glCullFace (mode : ℕ) : ScalarState F × List (Effect (ScalarCall F)) :=
  compareAndStore state (state.scalars.cullFaceMode = mode)
    (errorUnless (isValidFaceType mode) glInvalidEnum) ({ · with cullFaceMode := mode })
    (.glCullFace mode)

/-- `caching_client_glDepthFunc`. -/
def glDepthFunc (func : ℕ) : ScalarState F × List (Effect (ScalarCall F)) :=
  compareAndStore state (state.scalars.depthFunc = func)
    (errorUnless (isValidCmpFunction func) glInvalidEnum) ({ · with depthFunc := func })
    (.glDepthFunc func)

/-- `caching_client_glDepthMask`. -/
def glDepthMask (flag : ℕ) : ScalarState F × List (Effect (ScalarCall F)) :=
  compareAndStore state (state.scalars.depthWritemask = flag) none
    ({ · with depthWritemask := flag }) (.glDepthMask flag)

/-- `caching_client_glDepthRangef`. -/
def glDepthRangef (nearVal farVal : F) : ScalarState F × List (Effect (ScalarCall F)) :=
  compareAndStore state (state.scalars.depthRange = (nearVal, farVal)) none
    ({ · with depthRange := (nearVal, farVal) }) (.glDepthRangef nearVal farVal)

/-- `caching_client_glFrontFace`. -/
def glFrontFace (mode : ℕ) : ScalarState F × List (Effect (ScalarCall F)) :=
  compareAndStore state (state.scalars.frontFace = mode)
    (errorUnless (mode = glCcw ∨ mode = glCw) glInvalidEnum) ({ · with frontFace := mode })
    (.glFrontFace mode)

/-- `caching_client_glHint`. Only one of the hints is cached. -/
def glHint (target mode : ℕ) : ScalarState F × List (Effect (ScalarCall F)) :=
  compareAndStore state
    (target = glGenerateMipmapHint ∧ state.scalars.generateMipmapHint = mode)
    (errorUnless (isValidHintMode mode) glInvalidEnum)
    (fun scalars =>
      if target = glGenerateMipmapHint then { scalars with generateMipmapHint := mode }
      else scalars)
    (.glHint target mode)

/-- `caching_client_glPolygonOffset`. -/
def glPolygonOffset (factor units : F) : ScalarState F × List (Effect (ScalarCall F)) :=
  compareAndStore state (state.scalars.polygonOffset = (factor, units)) none
    ({ · with polygonOffset := (factor, units) }) (.glPolygonOffset factor units)

/-- `caching_client_glScissor`. -/
def glScissor (x y width height : ℤ) : ScalarState F × List (Effect (ScalarCall F)) :=
  compareAndStore state (state.scalars.scissorBox = (x, y, width, height))
    (errorUnless (¬ (width < 0 ∨ height < 0)) glInvalidValue)
    ({ · with scissorBox := (x, y, width, height) }) (.glScissor x y width height)

/-- `caching_client_glViewport`. -/
def glViewport (x y width height : ℤ) : ScalarState F × List (Effect (ScalarCall F)) :=
  compareAndStore state (state.scalars.viewport = (x, y, width, height))
    (errorUnless (¬ (width < 0 ∨ height < 0)) glInvalidValue)
    ({ · with viewport := (x, y, width, height) }) (.glViewport x y width height)

/-- `caching_client_glCheckFramebufferStatus`, on the objects. -/
def glCheckFramebufferStatus (target result : ℕ) :
    ScalarState F × List (Effect (ScalarCall F)) :=
  if target ≠ glFramebuffer then (state, [.setError glInvalidEnum])
  else
    ({ state with objects := (state.objects.glCheckFramebufferStatus target result).1 },
      [.forward (.glCheckFramebufferStatus target result)])

variable [Zero F] [LT F] [DecidableLT F]

/-- `caching_client_glLineWidth`. -/
def glLineWidth (width : F) : ScalarState F × List (Effect (ScalarCall F)) :=
  compareAndStore state (state.scalars.lineWidth = width)
    (errorUnless (¬ width < 0) glInvalidValue) ({ · with lineWidth := width })
    (.glLineWidth width)

/-- The entry points. -/
def scalarEntry (state : ScalarState F) :
    ScalarCall F → ScalarState F × List (Effect (ScalarCall F))
  | .glEnable cap => glSetCap state cap true
  | .glDisable cap => glSetCap state cap false
  | .glBlendColor red green blue alpha => glBlendColor state red green blue alpha
  | .glClearColor red green blue alpha => glClearColor state red green blue alpha
  | .glClearDepthf depth => glClearDepthf state depth
  | .glClearStencil s => glClearStencil state s
  | .glColorMask red green blue alpha => glColorMask state red green blue alpha
  | .glCullFace mode => glCullFace state mode
  | .glDepthFunc func => glDepthFunc state func
  | .glDepthMask flag => glDepthMask state flag
  | .glDepthRangef nearVal farVal => glDepthRangef state nearVal farVal
  | .glFrontFace mode => glFrontFace state mode
  | .glHint target mode => glHint state target mode
  | .glLineWidth width => glLineWidth state width
  | .glPolygonOffset factor units => glPolygonOffset state factor units
  | .glScissor x y width height => glScissor state x y width height
  | .glViewport x y width height => glViewport state x y width height
  | .glCheckFramebufferStatus target result => glCheckFramebufferStatus state target result

end Entries

/-! ### The server -/

/-- What the server holds: the same cells, and the capabilities and hints that are not
cached. -/
structure ScalarServer (F : Type*) where
  scalars : Scalars F
  otherCapabilities : ℕ → Bool
  otherHints : ℕ → ℕ

variable {F : Type*}

/-- The server sets a capability. -/
def ScalarServer.setCapability (server : ScalarServer F) (cap : ℕ) (enable : Bool) :
    ScalarServer F :=
  match capability cap with
  | some c =>
    { server with
      scalars := { server.scalars with
        capabilities := Function.update server.scalars.capabilities c enable } }
  | none =>
    { server with otherCapabilities := Function.update server.otherCapabilities cap enable }

/-- Executing a call: the arguments are stored as they are. -/
def ScalarServer.exec (server : ScalarServer F) : ScalarCall F → ScalarServer F
  | .glEnable cap => server.setCapability cap true
  | .glDisable cap => server.setCapability cap false
  | .glBlendColor red green blue alpha =>
    { server with scalars := { server.scalars with blendColor := (red, green, blue, alpha) } }
  | .glClearColor red green blue alpha =>
    { server with scalars := { server.scalars with colorClearValue := (red, green, blue, alpha) } }
  | .glClearDepthf depth =>
    { server with scalars := { server.scalars with depthClearValue := depth } }
  | .glClearStencil s =>
    { server with scalars := { server.scalars with stencilClearValue := s } }
  | .glColorMask red green blue alpha =>
    { server with scalars := { server.scalars with colorWritemask := (red, green, blue, alpha) } }
  | .glCullFace mode => { server with scalars := { server.scalars with cullFaceMode := mode } }
  | .glDepthFunc func => { server with scalars := { server.scalars with depthFunc := func } }
  | .glDepthMask flag => { server with scalars := { server.scalars with depthWritemask := flag } }
  | .glDepthRangef nearVal farVal =>
    { server with scalars := { server.scalars with depthRange := (nearVal, farVal) } }
  | .glFrontFace mode => { server with scalars := { server.scalars with frontFace := mode } }
  | .glHint target mode =>
    if target = glGenerateMipmapHint then
      { server with scalars := { server.scalars with generateMipmapHint := mode } }
    else { server with otherHints := Function.update server.otherHints target mode }
  | .glLineWidth width => { server with scalars := { server.scalars with lineWidth := width } }
  | .glPolygonOffset factor units =>
    { server with scalars := { server.scalars with polygonOffset := (factor, units) } }
  | .glScissor x y width height =>
    { server with scalars := { server.scalars with scissorBox := (x, y, width, height) } }
  | .glViewport x y width height =>
    { server with scalars := { server.scalars with viewport := (x, y, width, height) } }
  | .glCheckFramebufferStatus _ _ => server

/-! ### One call -/

variable {state : ScalarState F} {server : ScalarServer F} {call : ScalarCall F}
  {result : ScalarState F × List (Effect (ScalarCall F))} {error : Option ℕ} {same : Prop}
  {store : Scalars F → Scalars F} {cap : ℕ}

/-- The cells are those of the server after what was passed on, and a call that is neither
passed on nor refused does nothing to the server. -/
structure Transparent (server : ScalarServer F) (call : ScalarCall F)
    (result : ScalarState F × List (Effect (ScalarCall F))) : Prop where
  agrees : result.1.scalars = ((forwarded result.2).foldl ScalarServer.exec server).scalars
  dropped : forwarded result.2 = [] → (∀ error, .setError error ∉ result.2) →
    server.exec call = server

/-- What compares, checks and stores is transparent if it compares and stores what the
server stores. -/
theorem transparent_compareAndStore [Decidable same] (h : state.scalars = server.scalars)
    (hsame : same → server.exec call = server)
    (hstore : (server.exec call).scalars = store server.scalars) :
    Transparent server call (compareAndStore state same error store call) := by
  unfold compareAndStore
  split_ifs with hequal
  · exact ⟨h, fun _ _ => hsame hequal⟩
  cases error with
  -- A call that is refused stores nothing, and one that is stored is passed on.
  | some error => exact ⟨h, fun _ hnone => absurd List.mem_cons_self (hnone error)⟩
  | none =>
    refine ⟨?_, fun hnone => by cases hnone⟩
    change store state.scalars = (server.exec call).scalars
    rw [hstore, h]

theorem transparent_glSetCap [DecidableEq F] (enable : Bool)
    (h : state.scalars = server.scalars) :
    Transparent server (if enable then .glEnable cap else .glDisable cap)
      (glSetCap state cap enable) := by
  have hexec : server.exec (if enable then .glEnable cap else .glDisable cap) =
      server.setCapability cap enable := by
    cases enable <;> rfl
  unfold glSetCap
  cases hcap : capability cap with
  | none =>
    refine ⟨?_, fun hnone => by cases hnone⟩
    change state.scalars = (server.exec _).scalars
    rw [hexec, ScalarServer.setCapability, hcap]
    exact h
  | some c =>
    refine transparent_compareAndStore h (fun hsame => ?_) ?_
    · rw [hexec, ScalarServer.setCapability, hcap]
      rw [h] at hsame
      simp only [← hsame, Function.update_eq_self]
    · rw [hexec, ScalarServer.setCapability, hcap]

/-- Every entry point is transparent. -/
theorem scalarEntry_spec [DecidableEq F] [Zero F] [LT F] [DecidableLT F]
    (h : state.scalars = server.scalars) :
    Transparent server call (scalarEntry state call) := by
  cases call with
  | glEnable cap => exact transparent_glSetCap true h
  | glDisable cap => exact transparent_glSetCap false h
  | glCheckFramebufferStatus target result =>
    simp only [scalarEntry, glCheckFramebufferStatus]
    split_ifs
    · exact ⟨h, fun _ hnone => absurd List.mem_cons_self (hnone _)⟩
    · exact ⟨h, fun hnone => by cases hnone⟩
  | glHint target mode =>
    simp only [scalarEntry, glHint]
    refine transparent_compareAndStore h ?_ ?_
    · rintro ⟨rfl, hsame⟩
      rw [h] at hsame
      -- Only for the hint that is cached is the call dropped.
      simp only [ScalarServer.exec, ← hsame, if_true]
    · simp only [ScalarServer.exec]
      split_ifs <;> rfl
  | _ =>
    -- The server stores the arguments in one cell, which has them if the call is dropped.
    simp only [scalarEntry, glBlendColor, glClearColor, glClearDepthf, glClearStencil, glColorMask,
      glCullFace, glDepthFunc, glDepthMask, glDepthRangef, glFrontFace, glLineWidth,
      glPolygonOffset, glScissor, glViewport]
    refine transparent_compareAndStore h (fun hsame => ?_) rfl
    rw [h] at hsame
    simp only [ScalarServer.exec, ← hsame]

/-! ### Whole runs -/

variable [DecidableEq F] [Zero F] [LT F] [DecidableLT F]

/-- The caching client in front of a server, for the calls that set the scalar state. -/
def scalarCache (F : Type*) [DecidableEq F] [Zero F] [LT F] [DecidableLT F] :
    WriteThrough (ScalarState F) (ScalarServer F) (ScalarCall F) :=
  entryCache scalarEntry ScalarServer.exec

variable {reference : ScalarServer F} {calls p : List (ScalarCall F)}

/-- From any state in which the cells are those of the server, they are so after every call
of a run, and every call that is neither passed on nor refused does nothing to the server. -/
theorem scalars_agree (h : state.scalars = server.scalars) :
    (∀ p, p <+: calls → ((scalarCache F).run ⟨state, server, reference⟩ p).cache.scalars =
      ((scalarCache F).run ⟨state, server, reference⟩ p).server.scalars) ∧
    ∀ p call, p ++ [call] <+: calls →
      Transparent ((scalarCache F).run ⟨state, server, reference⟩ p).server call
        (scalarEntry ((scalarCache F).run ⟨state, server, reference⟩ p).cache call) := by
  have hagree : ∀ p, p <+: calls →
      ((scalarCache F).run ⟨state, server, reference⟩ p).cache.scalars =
        ((scalarCache F).run ⟨state, server, reference⟩ p).server.scalars :=
    (run_prefix_iff (C := fun _ _ => True) h fun c call hc =>
      iff_of_true (scalarEntry_spec hc).agrees trivial).mpr fun _ _ _ => trivial
  exact ⟨hagree, fun p call hp => scalarEntry_spec (hagree p ((List.prefix_append _ _).trans hp))⟩

/-- A mask is set twice, and the second call is not passed on. -/
theorem scalars_agree_mask :
    let calls : List (ScalarCall ℤ) := [.glColorMask 1 0 1 0, .glLineWidth (-1),
      .glColorMask 1 0 1 0]
    ((scalarCache ℤ).run ⟨⟨.init ℤ, .init 0⟩, ⟨.init ℤ, fun _ => false, fun _ => glDontCare⟩,
      ⟨.init ℤ, fun _ => false, fun _ => glDontCare⟩⟩ calls).cache.scalars =
    ((scalarCache ℤ).run ⟨⟨.init ℤ, .init 0⟩, ⟨.init ℤ, fun _ => false, fun _ => glDontCare⟩,
      ⟨.init ℤ, fun _ => false, fun _ => glDontCare⟩⟩ calls).server.scalars :=
  (scalars_agree rfl).1 _ (List.prefix_refl _)

end GpuProxy.GlState
