import GpuProxy.GlState.Entry
import Mathlib.Data.Int.Notation

/-!
# The cached stencil state

`caching_client_glStencilFuncSeparate`, `glStencilMaskSeparate`, `glStencilOpSeparate` and
the forms without a face, against a machine that holds the stencil state of GL for the
front and the back faces. The entry points compare and store; what is wrong is where they
start, since `egl_state_init` fills the masks bytewise with ones.

## Main definitions

* `StencilState` — the fields of `egl_state_t`
* `stencilEntry` — the six entry points
* `StencilCell`, `StencilMachine` — the stencil state of GL by face
* `StencilSound` — a sequence of calls that ends with the cache and the server right
* `StencilServed` — a sequence of calls that has the server right throughout
* `StoredStencil` — a call that covers a cell, and finds another value in a cell it covers

## Main results

* `stencilSound_iff` — the cache and the server end right exactly if the function and the
  write mask of each face were covered by a call that was passed on, and the server is right
  throughout exactly if no call is dropped that covers one of them before that
* `not_stencilSound_of_initial_mask` — a first call that is dropped although it is needed
-/

namespace GpuProxy.GlState

open Math WriteThrough

/-- The stencil fields of `egl_state_t`. A mask is stored as the bits of a `GLint`. -/
structure StencilState where
  stencilFunc : ℕ
  stencilRef : ℤ
  stencilValueMask : BitVec 32
  stencilWritemask : BitVec 32
  stencilFail : ℕ
  stencilPassDepthFail : ℕ
  stencilPassDepthPass : ℕ
  stencilBackFunc : ℕ
  stencilBackRef : ℤ
  stencilBackValueMask : BitVec 32
  stencilBackWritemask : BitVec 32
  stencilBackFail : ℕ
  stencilBackPassDepthFail : ℕ
  stencilBackPassDepthPass : ℕ
  deriving DecidableEq, Repr

/-- `memset (&mask, byte, sizeof (GLint))`. -/
def memsetMask (byte : BitVec 8) : BitVec 32 := byte ++ byte ++ byte ++ byte

/-- The stencil fields after `egl_state_init`. -/
def StencilState.init : StencilState where
  stencilFunc := glAlways
  stencilRef := 0
  stencilValueMask := memsetMask 1
  stencilWritemask := memsetMask 1
  stencilFail := glKeep
  stencilPassDepthFail := glKeep
  stencilPassDepthPass := glKeep
  stencilBackFunc := glAlways
  stencilBackRef := 0
  stencilBackValueMask := memsetMask 1
  stencilBackWritemask := memsetMask 1
  stencilBackFail := glKeep
  stencilBackPassDepthFail := glKeep
  stencilBackPassDepthPass := glKeep

inductive StencilCall
  | glStencilFunc (func : ℕ) (ref : ℤ) (mask : BitVec 32)
  | glStencilFuncSeparate (face func : ℕ) (ref : ℤ) (mask : BitVec 32)
  | glStencilMask (mask : BitVec 32)
  | glStencilMaskSeparate (face : ℕ) (mask : BitVec 32)
  | glStencilOp (sfail dpfail dppass : ℕ)
  | glStencilOpSeparate (face sfail dpfail dppass : ℕ)
  deriving DecidableEq, Repr

/-- `caching_client_glStencilFuncSeparate`. -/
def glStencilFuncSeparate (state : StencilState) (face func : ℕ) (ref : ℤ) (mask : BitVec 32) :
    StencilState × List (Effect StencilCall) :=
  let call := Effect.forward (.glStencilFuncSeparate face func ref mask)
  if ¬ isValidFaceType face then (state, [.setError glInvalidEnum])
  else if ¬ isValidCmpFunction func then (state, [.setError glInvalidEnum])
  else if face = glFront then
    if func ≠ state.stencilFunc ∨ ref ≠ state.stencilRef ∨ mask ≠ state.stencilValueMask then
      ({ state with stencilFunc := func, stencilRef := ref, stencilValueMask := mask }, [call])
    else (state, [])
  else if face = glBack then
    if func ≠ state.stencilBackFunc ∨ ref ≠ state.stencilBackRef ∨
        mask ≠ state.stencilBackValueMask then
      ({ state with
        stencilBackFunc := func, stencilBackRef := ref, stencilBackValueMask := mask }, [call])
    else (state, [])
  else -- `GL_FRONT_AND_BACK`
    if func ≠ state.stencilBackFunc ∨ func ≠ state.stencilFunc ∨
        ref ≠ state.stencilBackRef ∨ ref ≠ state.stencilRef ∨
        mask ≠ state.stencilBackValueMask ∨ mask ≠ state.stencilValueMask then
      ({ state with
        stencilBackFunc := func, stencilFunc := func
        stencilBackRef := ref, stencilRef := ref
        stencilBackValueMask := mask, stencilValueMask := mask }, [call])
    else (state, [])

/-- `caching_client_glStencilFunc`. -/
def glStencilFunc (state : StencilState) (func : ℕ) (ref : ℤ) (mask : BitVec 32) :
    StencilState × List (Effect StencilCall) :=
  glStencilFuncSeparate state glFrontAndBack func ref mask

/-- `caching_client_glStencilMaskSeparate`. -/
def glStencilMaskSeparate (state : StencilState) (face : ℕ) (mask : BitVec 32) :
    StencilState × List (Effect StencilCall) :=
  let call := Effect.forward (.glStencilMaskSeparate face mask)
  if ¬ isValidFaceType face then (state, [.setError glInvalidEnum])
  else if face = glFront then
    if mask ≠ state.stencilWritemask then ({ state with stencilWritemask := mask }, [call])
    else (state, [])
  else if face = glBack then
    if mask ≠ state.stencilBackWritemask then
      ({ state with stencilBackWritemask := mask }, [call])
    else (state, [])
  else -- `GL_FRONT_AND_BACK`
    if mask ≠ state.stencilBackWritemask ∨ mask ≠ state.stencilWritemask then
      ({ state with stencilBackWritemask := mask, stencilWritemask := mask }, [call])
    else (state, [])

/-- `caching_client_glStencilMask`. -/
def glStencilMask (state : StencilState) (mask : BitVec 32) :
    StencilState × List (Effect StencilCall) :=
  glStencilMaskSeparate state glFrontAndBack mask

/-- `caching_client_glStencilOpSeparate`. -/
def glStencilOpSeparate (state : StencilState) (face sfail dpfail dppass : ℕ) :
    StencilState × List (Effect StencilCall) :=
  let call := Effect.forward (.glStencilOpSeparate face sfail dpfail dppass)
  if ¬ isValidFaceType face ∨ ¬ isValidStencilOp sfail ∨ ¬ isValidStencilOp dpfail ∨
      ¬ isValidStencilOp dppass then
    (state, [.setError glInvalidEnum])
  else if face = glFront then
    if sfail ≠ state.stencilFail ∨ dpfail ≠ state.stencilPassDepthFail ∨
        dppass ≠ state.stencilPassDepthPass then
      ({ state with
        stencilFail := sfail, stencilPassDepthFail := dpfail
        stencilPassDepthPass := dppass }, [call])
    else (state, [])
  else if face = glBack then
    if sfail ≠ state.stencilBackFail ∨ dpfail ≠ state.stencilBackPassDepthFail ∨
        dppass ≠ state.stencilBackPassDepthPass then
      ({ state with
        stencilBackFail := sfail, stencilBackPassDepthFail := dpfail
        stencilBackPassDepthPass := dppass }, [call])
    else (state, [])
  else -- `GL_FRONT_AND_BACK`
    if sfail ≠ state.stencilFail ∨ dpfail ≠ state.stencilPassDepthFail ∨
        dppass ≠ state.stencilPassDepthPass ∨ sfail ≠ state.stencilBackFail ∨
        dpfail ≠ state.stencilBackPassDepthFail ∨ dppass ≠ state.stencilBackPassDepthPass then
      ({ state with
        stencilFail := sfail, stencilPassDepthFail := dpfail, stencilPassDepthPass := dppass
        stencilBackFail := sfail, stencilBackPassDepthFail := dpfail
        stencilBackPassDepthPass := dppass }, [call])
    else (state, [])

/-- `caching_client_glStencilOp`. -/
def glStencilOp (state : StencilState) (sfail dpfail dppass : ℕ) :
    StencilState × List (Effect StencilCall) :=
  glStencilOpSeparate state glFrontAndBack sfail dpfail dppass

/-- The entry points that set the stencil state. -/
def stencilEntry (state : StencilState) : StencilCall → StencilState × List (Effect StencilCall)
  | .glStencilFunc func ref mask => glStencilFunc state func ref mask
  | .glStencilFuncSeparate face func ref mask => glStencilFuncSeparate state face func ref mask
  | .glStencilMask mask => glStencilMask state mask
  | .glStencilMaskSeparate face mask => glStencilMaskSeparate state face mask
  | .glStencilOp sfail dpfail dppass => glStencilOp state sfail dpfail dppass
  | .glStencilOpSeparate face sfail dpfail dppass =>
      glStencilOpSeparate state face sfail dpfail dppass

/-! ## The reference machine -/

/-- The faces a primitive can show. -/
inductive Side
  | front
  | back
  deriving DecidableEq, Repr

/-- What GL keeps for a face: the function with its reference value and mask, the write
mask, and the three operations. -/
inductive StencilCell
  | func (side : Side)
  | writemask (side : Side)
  | op (side : Side)
  deriving DecidableEq, Repr

/-- The values of a cell. -/
abbrev StencilCell.Value : StencilCell → Type
  | .func _ => ℕ × ℤ × BitVec 32
  | .writemask _ => BitVec 32
  | .op _ => ℕ × ℕ × ℕ

instance : ∀ cell : StencilCell, DecidableEq cell.Value
  | .func _ => inferInstanceAs (DecidableEq (ℕ × ℤ × BitVec 32))
  | .writemask _ => inferInstanceAs (DecidableEq (BitVec 32))
  | .op _ => inferInstanceAs (DecidableEq (ℕ × ℕ × ℕ))

/-- The stencil state of GL. -/
abbrev StencilMachine := ∀ cell : StencilCell, cell.Value

/-- The initial stencil state of GL, as documented in `egl_state.h`. -/
def StencilMachine.init : StencilMachine
  | .func _ => (glAlways, 0, 0xffffffff)
  | .writemask _ => (0xffffffff : BitVec 32)
  | .op _ => (glKeep, glKeep, glKeep)

/-- The sides that a face argument names. -/
def sides (face : ℕ) : List Side :=
  if face = glFront then [.front]
  else if face = glBack then [.back]
  else if face = glFrontAndBack then [.front, .back]
  else []

/-- What a call assigns to the cells. One with an invalid argument assigns nothing. -/
def stencilWrites : StencilCall → List (Sigma StencilCell.Value)
  | .glStencilFunc func ref mask =>
      if isValidCmpFunction func then
        (sides glFrontAndBack).map fun side => ⟨.func side, (func, ref, mask)⟩
      else []
  | .glStencilFuncSeparate face func ref mask =>
      if isValidCmpFunction func then
        (sides face).map fun side => ⟨.func side, (func, ref, mask)⟩
      else []
  | .glStencilMask mask => (sides glFrontAndBack).map fun side => ⟨.writemask side, mask⟩
  | .glStencilMaskSeparate face mask => (sides face).map fun side => ⟨.writemask side, mask⟩
  | .glStencilOp sfail dpfail dppass =>
      if isValidStencilOp sfail ∧ isValidStencilOp dpfail ∧ isValidStencilOp dppass then
        (sides glFrontAndBack).map fun side => ⟨.op side, (sfail, dpfail, dppass)⟩
      else []
  | .glStencilOpSeparate face sfail dpfail dppass =>
      if isValidStencilOp sfail ∧ isValidStencilOp dpfail ∧ isValidStencilOp dppass then
        (sides face).map fun side => ⟨.op side, (sfail, dpfail, dppass)⟩
      else []

/-- Executing a call. -/
def StencilMachine.exec (machine : StencilMachine) (call : StencilCall) : StencilMachine :=
  store machine (stencilWrites call)

/-- The stencil state that the fields stand for. -/
def StencilState.view (state : StencilState) : StencilMachine
  | .func .front => (state.stencilFunc, state.stencilRef, state.stencilValueMask)
  | .func .back => (state.stencilBackFunc, state.stencilBackRef, state.stencilBackValueMask)
  | .writemask .front => state.stencilWritemask
  | .writemask .back => state.stencilBackWritemask
  | .op .front => (state.stencilFail, state.stencilPassDepthFail, state.stencilPassDepthPass)
  | .op .back =>
      (state.stencilBackFail, state.stencilBackPassDepthFail, state.stencilBackPassDepthPass)

/-- The caching client in front of a server, for the calls that set the stencil state. -/
def stencilCache : WriteThrough StencilState StencilMachine StencilCall :=
  entryCache stencilEntry StencilMachine.exec

/-- The cache, the server and the reference after a sequence of calls. -/
def stencilRun (calls : List StencilCall) : Config StencilState StencilMachine :=
  stencilCache.run ⟨.init, .init, .init⟩ calls

/-- After the calls the fields and the server are as if every call had been executed. The
fields are not right at the start, so this can hold of a sequence and not of a prefix. -/
def StencilSound (calls : List StencilCall) : Prop :=
  Coherent StencilState.view (stencilRun calls)

/-- After every call the server is as if every call had been executed. -/
def StencilServed (calls : List StencilCall) : Prop :=
  ∀ p, p <+: calls → (stencilRun p).server = (stencilRun p).reference

/-- Some call of the sequence that covers the cell found another value than its own in a
cell it covers. -/
def StoredStencil (calls : List StencilCall) (cell : StencilCell) : Prop :=
  ∃ p call, p ++ [call] <+: calls ∧ cell ∈ (stencilWrites call).map Sigma.fst ∧
    ¬ Holds (stencilRun p).cache.view (stencilWrites call)

/-! ## The entry points compare and store -/

section Calls

variable {state : StencilState} {face func sfail dpfail dppass : ℕ} {ref : ℤ}
  {mask : BitVec 32} {call : StencilCall} {calls : List StencilCall} {cell : StencilCell}

/-- An entry point stores what the call assigns and passes the call on, or does neither if
the fields hold it already. -/
structure ComparesStencil (state : StencilState) (writes : List (Sigma StencilCell.Value))
    (result : StencilState × List (Effect StencilCall)) : Prop where
  dropped : Holds state.view writes →
    result.1.view = state.view ∧ forwarded result.2 = []
  stored : ¬ Holds state.view writes →
    result.1.view = store state.view writes ∧
      ∃ call, forwarded result.2 = [call] ∧ stencilWrites call = writes

theorem face_cases (h : isValidFaceType face) :
    face = glFront ∨ face = glBack ∨ face = glFrontAndBack := by
  simpa [isValidFaceType] using h

theorem sides_of_invalid (h : ¬ isValidFaceType face) : sides face = [] := by
  simp only [isValidFaceType, List.mem_cons, List.not_mem_nil, or_false, decide_eq_true_eq,
    not_or] at h
  simp [sides, h]

@[simp] theorem sides_front : sides glFront = [.front] := rfl

@[simp] theorem sides_back : sides glBack = [.back] := rfl

@[simp] theorem sides_frontAndBack : sides glFrontAndBack = [.front, .back] := rfl

/-- A call that is rejected assigns nothing. -/
theorem comparesStencil_setError {error : ℕ} :
    ComparesStencil state [] (state, [.setError error]) where
  dropped _ := ⟨rfl, rfl⟩
  stored h := absurd holds_nil h

/-- The shape of the branches: store and pass on if some field differs. -/
theorem comparesStencil_ite {writes : List (Sigma StencilCell.Value)} {state' : StencilState}
    {differs : Prop} [Decidable differs] (hdiffers : differs ↔ ¬ Holds state.view writes)
    (hview : state'.view = store state.view writes) (hcall : stencilWrites call = writes) :
    ComparesStencil state writes (if differs then (state', [.forward call]) else (state, [])) := by
  constructor
  · intro hholds
    have hsame : ¬ differs := fun h => hdiffers.mp h hholds
    simp [hsame]
  · intro hstale
    have hnew : differs := hdiffers.mpr hstale
    simp [hnew, hview, hcall]

/-- The switch over a valid face. -/
theorem comparesStencil_switch {writes : Side → Sigma StencilCell.Value}
    {front back both : StencilState × List (Effect StencilCall)} (hface : isValidFaceType face)
    (hfront : face = glFront → ComparesStencil state [writes .front] front)
    (hback : face = glBack → ComparesStencil state [writes .back] back)
    (hboth : face = glFrontAndBack →
      ComparesStencil state [writes .front, writes .back] both) :
    ComparesStencil state ((sides face).map writes)
      (if face = glFront then front else if face = glBack then back else both) := by
  rcases face_cases hface with rfl | rfl | rfl
  · rw [if_pos rfl]
    exact hfront rfl
  · rw [if_neg (by decide), if_pos rfl]
    exact hback rfl
  · rw [if_neg (by decide), if_neg (by decide)]
    exact hboth rfl

theorem comparesStencil_funcSeparate :
    ComparesStencil state (stencilWrites (.glStencilFuncSeparate face func ref mask))
      (glStencilFuncSeparate state face func ref mask) := by
  by_cases hface : isValidFaceType face
  swap
  · simpa [glStencilFuncSeparate, stencilWrites, hface, sides_of_invalid hface] using
      comparesStencil_setError
  by_cases hfunc : isValidCmpFunction func
  swap
  · simpa [glStencilFuncSeparate, stencilWrites, hface, hfunc] using comparesStencil_setError
  simp only [glStencilFuncSeparate, hface, hfunc, not_true_eq_false, if_false, stencilWrites,
    if_true]
  apply comparesStencil_switch hface <;> rintro rfl <;> apply comparesStencil_ite
  case hfront.hdiffers | hback.hdiffers | hboth.hdiffers =>
    simp only [holds_cons, holds_nil, StencilState.view, Prod.mk.injEq]
    grind
  case hfront.hview | hback.hview | hboth.hview =>
    funext cell
    rcases cell with side | side | side <;> cases side <;>
      simp [StencilState.view, Function.update]
  case hfront.hcall | hback.hcall | hboth.hcall => simp [stencilWrites, hfunc]

theorem comparesStencil_maskSeparate :
    ComparesStencil state (stencilWrites (.glStencilMaskSeparate face mask))
      (glStencilMaskSeparate state face mask) := by
  by_cases hface : isValidFaceType face
  swap
  · simpa [glStencilMaskSeparate, stencilWrites, hface, sides_of_invalid hface] using
      comparesStencil_setError
  simp only [glStencilMaskSeparate, hface, not_true_eq_false, if_false, stencilWrites]
  apply comparesStencil_switch hface <;> rintro rfl <;> apply comparesStencil_ite
  case hfront.hdiffers | hback.hdiffers | hboth.hdiffers =>
    simp only [holds_cons, holds_nil, StencilState.view]
    grind
  case hfront.hview | hback.hview | hboth.hview =>
    funext cell
    rcases cell with side | side | side <;> cases side <;>
      simp [StencilState.view, Function.update]
  case hfront.hcall | hback.hcall | hboth.hcall => simp [stencilWrites]

theorem comparesStencil_opSeparate :
    ComparesStencil state (stencilWrites (.glStencilOpSeparate face sfail dpfail dppass))
      (glStencilOpSeparate state face sfail dpfail dppass) := by
  by_cases hface : isValidFaceType face
  swap
  · simpa [glStencilOpSeparate, stencilWrites, hface, sides_of_invalid hface] using
      comparesStencil_setError
  by_cases hops : isValidStencilOp sfail ∧ isValidStencilOp dpfail ∧ isValidStencilOp dppass
  swap
  · have hrejected : ¬ isValidFaceType face ∨ ¬ isValidStencilOp sfail ∨
        ¬ isValidStencilOp dpfail ∨ ¬ isValidStencilOp dppass := by tauto
    rw [glStencilOpSeparate, if_pos hrejected, stencilWrites, if_neg hops]
    exact comparesStencil_setError
  simp only [glStencilOpSeparate, hface, hops, not_true_eq_false, or_self, if_false,
    stencilWrites, if_true, and_self]
  apply comparesStencil_switch hface <;> rintro rfl <;> apply comparesStencil_ite
  case hfront.hdiffers | hback.hdiffers | hboth.hdiffers =>
    simp only [holds_cons, holds_nil, StencilState.view, Prod.mk.injEq]
    grind
  case hfront.hview | hback.hview | hboth.hview =>
    funext cell
    rcases cell with side | side | side <;> cases side <;>
      simp [StencilState.view, Function.update]
  case hfront.hcall | hback.hcall | hboth.hcall => simp [stencilWrites, hops]

/-- Every entry point compares and stores. The forms without a face do what the others do
for both faces. -/
theorem comparesStencil_entry :
    ComparesStencil state (stencilWrites call) (stencilEntry state call) := by
  cases call with
  | glStencilFunc func ref mask => exact comparesStencil_funcSeparate
  | glStencilFuncSeparate face func ref mask => exact comparesStencil_funcSeparate
  | glStencilMask mask => exact comparesStencil_maskSeparate
  | glStencilMaskSeparate face mask => exact comparesStencil_maskSeparate
  | glStencilOp sfail dpfail dppass => exact comparesStencil_opSeparate
  | glStencilOpSeparate face sfail dpfail dppass => exact comparesStencil_opSeparate

/-! ## When the cache is right -/

/-- The start, with the fields taken as cells. -/
def stencilCells : Config StencilMachine StencilMachine :=
  ⟨StencilState.init.view, .init, .init⟩

/-- The fields, taken as cells, run as the cache that compares and stores. -/
theorem comparing_run_stencil :
    (comparing stencilWrites).run stencilCells calls =
      ⟨(stencilRun calls).cache.view, (stencilRun calls).server,
        (stencilRun calls).reference⟩ := by
  refine run_abstract (W := stencilCache) (c := ⟨.init, .init, .init⟩)
    (f := StencilState.view) ?_ ?_ rfl
  · intro state call
    have hcompares : ComparesStencil state (stencilWrites call) (stencilEntry state call) :=
      comparesStencil_entry
    by_cases hholds : Holds state.view (stencilWrites call)
    · simp [comparing, hholds, stencilCache, entryCache, hcompares.dropped hholds]
    · simp [comparing, hholds, stencilCache, entryCache, hcompares.stored hholds]
  · intro state call machine
    have hcompares : ComparesStencil state (stencilWrites call) (stencilEntry state call) :=
      comparesStencil_entry
    by_cases hholds : Holds state.view (stencilWrites call)
    · simp [comparing, hholds, stencilCache, entryCache, hcompares.dropped hholds]
    · obtain ⟨-, fed, hfed, hwrites⟩ := hcompares.stored hholds
      simp [comparing, hholds, stencilCache, entryCache, hfed, StencilMachine.exec, hwrites]

theorem refreshed_iff_storedStencil :
    Refreshed stencilWrites stencilCells calls cell ↔
      StoredStencil calls cell := by
  simp only [Refreshed, StoredStencil, comparing_run_stencil]

/-- At the start the fields are right about the operations only. -/
theorem init_view_eq_iff :
    StencilState.init.view cell = StencilMachine.init cell ↔ ∃ side, cell = .op side := by
  rcases cell with side | side | side <;> cases side <;> simp <;> decide

theorem coherent_stencil_iff :
    StencilSound calls ↔
      ∀ side, StoredStencil calls (.func side) ∧ StoredStencil calls (.writemask side) := by
  have hcells : StencilSound calls ↔ ∀ cell, StencilState.init.view cell =
      StencilMachine.init cell ∨ StoredStencil calls cell := by
    have hagree : Coherent id ((comparing stencilWrites).run stencilCells calls) ↔
        ∀ cell, stencilCells.cache cell = stencilCells.server cell ∨
          Refreshed stencilWrites stencilCells calls cell := comparing_coherent_iff rfl
    rw [comparing_run_stencil] at hagree
    simp only [refreshed_iff_storedStencil] at hagree
    have hsound : StencilSound calls ↔ Coherent id
        ⟨(stencilRun calls).cache.view, (stencilRun calls).server,
          (stencilRun calls).reference⟩ :=
      ⟨fun h => ⟨h.cache, h.server⟩, fun h => ⟨h.cache, h.server⟩⟩
    exact hsound.trans hagree
  rw [hcells]
  constructor
  · intro h side
    -- The masks are wrong at the start, on both sides.
    have hfunc : StencilState.init.view (.func side) ≠ StencilMachine.init (.func side) :=
      init_view_eq_iff.not.mpr (by simp)
    have hmask : StencilState.init.view (.writemask side) ≠
        StencilMachine.init (.writemask side) :=
      init_view_eq_iff.not.mpr (by simp)
    exact ⟨(h _).resolve_left hfunc, (h _).resolve_left hmask⟩
  · intro h cell
    cases cell with
    | func side => exact Or.inr (h side).1
    | writemask side => exact Or.inr (h side).2
    | op side => exact Or.inl (init_view_eq_iff.mpr ⟨side, rfl⟩)

theorem stencilServed_iff :
    StencilServed calls ↔
      ∀ p call, p ++ [call] <+: calls →
        Holds (stencilRun p).cache.view (stencilWrites call) →
        ∀ cell ∈ (stencilWrites call).map Sigma.fst,
          (∃ side, cell = .op side) ∨ StoredStencil p cell := by
  have hserver : (∀ p, p <+: calls → ((comparing stencilWrites).run stencilCells p).server =
        ((comparing stencilWrites).run stencilCells p).reference) ↔
      ∀ p call, p ++ [call] <+: calls →
        Holds ((comparing stencilWrites).run stencilCells p).cache (stencilWrites call) →
        ∀ cell ∈ (stencilWrites call).map Sigma.fst,
          stencilCells.cache cell = stencilCells.server cell ∨
            Refreshed stencilWrites stencilCells p cell := comparing_server_iff rfl
  simp only [comparing_run_stencil, refreshed_iff_storedStencil] at hserver
  simp only [← init_view_eq_iff]
  exact hserver

/-- The cache and the server are right after a sequence of calls exactly if it passed on a
call that set the stencil function of each face, and one that set the write mask of each
face. The server is right after every call exactly if each call that is dropped covers
cells of the operations, or cells that a call before it was passed on for. -/
theorem stencilSound_iff :
    (StencilSound calls ↔
      ∀ side, StoredStencil calls (.func side) ∧ StoredStencil calls (.writemask side)) ∧
    (StencilServed calls ↔
      ∀ p call, p ++ [call] <+: calls →
        Holds (stencilRun p).cache.view (stencilWrites call) →
        ∀ cell ∈ (stencilWrites call).map Sigma.fst,
          (∃ side, cell = .op side) ∨ StoredStencil p cell) :=
  ⟨coherent_stencil_iff, stencilServed_iff⟩

/-- A first call with the masks of `egl_state_init` is dropped: the server keeps its own. -/
theorem not_stencilSound_of_initial_mask :
    ¬ StencilSound [.glStencilMask (memsetMask 1), .glStencilFunc glAlways 0 (memsetMask 1)] := by
  intro h
  have hserver := congrFun h.server (.writemask .front)
  revert hserver
  decide

end Calls

end GpuProxy.GlState
