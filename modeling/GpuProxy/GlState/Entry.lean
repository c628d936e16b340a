import GpuProxy.Math.WriteThrough

/-!
# Entry points of the caching client

What the entry points of `caching_client.c` that set GL state have in common: the
enumerations they check their arguments against, and their two effects outside the cached
state, which are to pass a call on to the super dispatch and to record an error.

The lists of valid values are those of `_ENUM_LISTS` in `build_gles2_cmd_buffer.py`, from
which the functions `is_valid_*` are generated.

## Main definitions

* `isValidEquation`, `isValidSrcBlendFactor`, … — the functions `is_valid_*`
* `Effect` — a call passed on, or an error recorded
* `entryCache` — a family of entry points as a write-through cache
-/

namespace GpuProxy.GlState

open Math

def glZero : ℕ := 0
def glOne : ℕ := 1

def glInvalidEnum : ℕ := 0x0500
def glInvalidValue : ℕ := 0x0501

def glFuncAdd : ℕ := 0x8006
def glFuncSubtract : ℕ := 0x800A
def glFuncReverseSubtract : ℕ := 0x800B

def glSrcColor : ℕ := 0x0300
def glOneMinusSrcColor : ℕ := 0x0301
def glSrcAlpha : ℕ := 0x0302
def glOneMinusSrcAlpha : ℕ := 0x0303
def glDstAlpha : ℕ := 0x0304
def glOneMinusDstAlpha : ℕ := 0x0305
def glDstColor : ℕ := 0x0306
def glOneMinusDstColor : ℕ := 0x0307
def glSrcAlphaSaturate : ℕ := 0x0308
def glConstantColor : ℕ := 0x8001
def glOneMinusConstantColor : ℕ := 0x8002
def glConstantAlpha : ℕ := 0x8003
def glOneMinusConstantAlpha : ℕ := 0x8004

def glFront : ℕ := 0x0404
def glBack : ℕ := 0x0405
def glFrontAndBack : ℕ := 0x0408

def glNever : ℕ := 0x0200
def glLess : ℕ := 0x0201
def glEqual : ℕ := 0x0202
def glLequal : ℕ := 0x0203
def glGreater : ℕ := 0x0204
def glNotequal : ℕ := 0x0205
def glGequal : ℕ := 0x0206
def glAlways : ℕ := 0x0207

def glKeep : ℕ := 0x1E00
def glReplace : ℕ := 0x1E01
def glIncr : ℕ := 0x1E02
def glDecr : ℕ := 0x1E03
def glInvert : ℕ := 0x150A
def glIncrWrap : ℕ := 0x8507
def glDecrWrap : ℕ := 0x8508

/-- `is_valid_Equation`. -/
def isValidEquation (value : ℕ) : Bool :=
  value ∈ [glFuncAdd, glFuncSubtract, glFuncReverseSubtract]

/-- `is_valid_DstBlendFactor`. -/
def isValidDstBlendFactor (value : ℕ) : Bool :=
  value ∈ [glZero, glOne, glSrcColor, glOneMinusSrcColor, glDstColor, glOneMinusDstColor,
    glSrcAlpha, glOneMinusSrcAlpha, glDstAlpha, glOneMinusDstAlpha, glConstantColor,
    glOneMinusConstantColor, glConstantAlpha, glOneMinusConstantAlpha]

/-- `is_valid_SrcBlendFactor`. -/
def isValidSrcBlendFactor (value : ℕ) : Bool :=
  value ∈ [glZero, glOne, glSrcColor, glOneMinusSrcColor, glDstColor, glOneMinusDstColor,
    glSrcAlpha, glOneMinusSrcAlpha, glDstAlpha, glOneMinusDstAlpha, glConstantColor,
    glOneMinusConstantColor, glConstantAlpha, glOneMinusConstantAlpha, glSrcAlphaSaturate]

/-- `is_valid_FaceType`. -/
def isValidFaceType (value : ℕ) : Bool :=
  value ∈ [glFront, glBack, glFrontAndBack]

/-- `is_valid_CmpFunction`. -/
def isValidCmpFunction (value : ℕ) : Bool :=
  value ∈ [glNever, glLess, glEqual, glLequal, glGreater, glNotequal, glGequal, glAlways]

/-- `is_valid_StencilOp`. -/
def isValidStencilOp (value : ℕ) : Bool :=
  value ∈ [glKeep, glZero, glReplace, glIncr, glIncrWrap, glDecr, glDecrWrap, glInvert]

/-- What an entry point does beyond the cached state. -/
inductive Effect (α : Type*)
  /-- A call of the super dispatch. -/
  | forward (call : α)
  /-- A call of `caching_client_glSetError`. -/
  | setError (error : ℕ)
  deriving DecidableEq, Repr

variable {σ ρ α : Type*}

/-- The calls passed on. -/
def forwarded (effects : List (Effect α)) : List α :=
  effects.filterMap fun
    | .forward call => some call
    | .setError _ => none

@[simp] theorem forwarded_nil : forwarded ([] : List (Effect α)) = [] := rfl

@[simp] theorem forwarded_forward {call : α} {effects : List (Effect α)} :
    forwarded (.forward call :: effects) = call :: forwarded effects := rfl

@[simp] theorem forwarded_setError {error : ℕ} {effects : List (Effect α)} :
    forwarded (.setError error :: effects) = forwarded effects := rfl

/-- Entry points that update a cached state, in front of a machine that executes calls. -/
def entryCache (entry : σ → α → σ × List (Effect α)) (exec : ρ → α → ρ) :
    WriteThrough σ ρ α where
  call s a := ((entry s a).1, forwarded (entry s a).2)
  exec := exec

end GpuProxy.GlState
