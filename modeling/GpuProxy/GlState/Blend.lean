import GpuProxy.GlState.Entry

/-!
# The cached blend state

`caching_client_glBlendEquation`, `glBlendEquationSeparate`, `glBlendFunc` and
`glBlendFuncSeparate`, against a machine that holds the two blend equations and the four
blend factors. The last of them writes the alpha destination factor into the cell of the
colour one.

## Main definitions

* `BlendState` — the cells of `egl_state_t`
* `blendEntry` — the four entry points
* `BlendMachine`, `BlendMachine.exec` — the state of GL, and what a call does to it
* `BlendSound` — the cache is right after every call, and no call it drops was needed
* `KeepsBlend` — the calls that leave the cells right

## Main results

* `blendSound_iff` — the cache is right throughout exactly if every call is one that
  leaves the cells right
* `needed_blendFunc_dropped` — a run in which a call is dropped that the server needed
-/

namespace GpuProxy.GlState

open Math WriteThrough

/-- The blend cells of `egl_state_t`: the entries 0, for colour, and 1, for alpha, of the
arrays. The factors are stored as floats there, which represent every value that passes
the checks. -/
structure BlendState where
  blendEquation : ℕ × ℕ
  blendSrc : ℕ × ℕ
  blendDst : ℕ × ℕ
  deriving DecidableEq, Repr

/-- The blend cells after `egl_state_init`. -/
def BlendState.init : BlendState where
  blendEquation := (glFuncAdd, glFuncAdd)
  blendSrc := (glOne, glOne)
  blendDst := (glZero, glZero)

inductive BlendCall
  | glBlendEquation (mode : ℕ)
  | glBlendEquationSeparate (modeRGB modeAlpha : ℕ)
  | glBlendFunc (sfactor dfactor : ℕ)
  | glBlendFuncSeparate (srcRGB dstRGB srcAlpha dstAlpha : ℕ)
  deriving DecidableEq, Repr

/-- `caching_client_glBlendEquation`. -/
def glBlendEquation (state : BlendState) (mode : ℕ) : BlendState × List (Effect BlendCall) :=
  -- As in the other entry points, the comparison comes before the check.
  if state.blendEquation.1 = mode ∧ state.blendEquation.2 = mode then (state, [])
  else if ¬ isValidEquation mode then (state, [.setError glInvalidEnum])
  else ({ state with blendEquation := (mode, mode) }, [.forward (.glBlendEquation mode)])

/-- `caching_client_glBlendEquationSeparate`. -/
def glBlendEquationSeparate (state : BlendState) (modeRGB modeAlpha : ℕ) :
    BlendState × List (Effect BlendCall) :=
  if state.blendEquation.1 = modeRGB ∧ state.blendEquation.2 = modeAlpha then (state, [])
  else if ¬ isValidEquation modeRGB ∨ ¬ isValidEquation modeAlpha then
    (state, [.setError glInvalidEnum])
  else
    ({ state with blendEquation := (modeRGB, modeAlpha) },
      [.forward (.glBlendEquationSeparate modeRGB modeAlpha)])

/-- `caching_client_glBlendFunc`. -/
def glBlendFunc (state : BlendState) (sfactor dfactor : ℕ) :
    BlendState × List (Effect BlendCall) :=
  if state.blendSrc.1 = sfactor ∧ state.blendSrc.2 = sfactor ∧
      state.blendDst.1 = dfactor ∧ state.blendDst.2 = dfactor then (state, [])
  else if ¬ isValidSrcBlendFactor sfactor ∨ ¬ isValidDstBlendFactor dfactor then
    (state, [.setError glInvalidEnum])
  else
    ({ state with blendSrc := (sfactor, sfactor), blendDst := (dfactor, dfactor) },
      [.forward (.glBlendFunc sfactor dfactor)])

/-- The early return of `caching_client_glBlendFuncSeparate`. -/
def BlendState.hasFactors (state : BlendState) (srcRGB dstRGB srcAlpha dstAlpha : ℕ) : Prop :=
  state.blendSrc.1 = srcRGB ∧ state.blendSrc.2 = srcAlpha ∧
    state.blendDst.1 = dstRGB ∧ state.blendDst.2 = dstAlpha
  deriving Decidable

/-- The checks of `caching_client_glBlendFuncSeparate`. -/
def areValidFactors (srcRGB dstRGB srcAlpha dstAlpha : ℕ) : Bool :=
  isValidSrcBlendFactor srcRGB && isValidSrcBlendFactor srcAlpha &&
    isValidDstBlendFactor dstRGB && isValidDstBlendFactor dstAlpha

/-- `caching_client_glBlendFuncSeparate`. -/
def glBlendFuncSeparate (state : BlendState) (srcRGB dstRGB srcAlpha dstAlpha : ℕ) :
    BlendState × List (Effect BlendCall) :=
  if state.hasFactors srcRGB dstRGB srcAlpha dstAlpha then (state, [])
  else if ¬ areValidFactors srcRGB dstRGB srcAlpha dstAlpha then
    (state, [.setError glInvalidEnum])
  else
    let state := { state with blendSrc := (srcRGB, srcAlpha) }
    -- Both assignments are to `blend_dst[0]`.
    let state := { state with blendDst := (dstRGB, state.blendDst.2) }
    let state := { state with blendDst := (dstAlpha, state.blendDst.2) }
    (state, [.forward (.glBlendFuncSeparate srcRGB dstRGB srcAlpha dstAlpha)])

/-- The entry points that set the blend state. -/
def blendEntry (state : BlendState) : BlendCall → BlendState × List (Effect BlendCall)
  | .glBlendEquation mode => glBlendEquation state mode
  | .glBlendEquationSeparate modeRGB modeAlpha => glBlendEquationSeparate state modeRGB modeAlpha
  | .glBlendFunc sfactor dfactor => glBlendFunc state sfactor dfactor
  | .glBlendFuncSeparate srcRGB dstRGB srcAlpha dstAlpha =>
      glBlendFuncSeparate state srcRGB dstRGB srcAlpha dstAlpha

/-! ## The reference machine -/

/-- The blend state of GL. -/
structure BlendMachine where
  equationRGB : ℕ
  equationAlpha : ℕ
  srcRGB : ℕ
  srcAlpha : ℕ
  dstRGB : ℕ
  dstAlpha : ℕ
  deriving DecidableEq, Repr

/-- The initial blend state of GL. -/
def BlendMachine.init : BlendMachine where
  equationRGB := glFuncAdd
  equationAlpha := glFuncAdd
  srcRGB := glOne
  srcAlpha := glOne
  dstRGB := glZero
  dstAlpha := glZero

/-- Executing a call: GL ignores one with an invalid argument. -/
def BlendMachine.exec (machine : BlendMachine) : BlendCall → BlendMachine
  | .glBlendEquation mode =>
      if isValidEquation mode then { machine with equationRGB := mode, equationAlpha := mode }
      else machine
  | .glBlendEquationSeparate modeRGB modeAlpha =>
      if isValidEquation modeRGB ∧ isValidEquation modeAlpha then
        { machine with equationRGB := modeRGB, equationAlpha := modeAlpha }
      else machine
  | .glBlendFunc sfactor dfactor =>
      if isValidSrcBlendFactor sfactor ∧ isValidDstBlendFactor dfactor then
        { machine with
          srcRGB := sfactor, srcAlpha := sfactor, dstRGB := dfactor, dstAlpha := dfactor }
      else machine
  | .glBlendFuncSeparate srcRGB dstRGB srcAlpha dstAlpha =>
      if areValidFactors srcRGB dstRGB srcAlpha dstAlpha then
        { machine with
          srcRGB := srcRGB, srcAlpha := srcAlpha, dstRGB := dstRGB, dstAlpha := dstAlpha }
      else machine

/-- The blend state that the cells stand for. -/
def BlendState.view (state : BlendState) : BlendMachine where
  equationRGB := state.blendEquation.1
  equationAlpha := state.blendEquation.2
  srcRGB := state.blendSrc.1
  srcAlpha := state.blendSrc.2
  dstRGB := state.blendDst.1
  dstAlpha := state.blendDst.2

/-- The caching client in front of a server, for the calls that set the blend state. -/
def blendCache : WriteThrough BlendState BlendMachine BlendCall :=
  entryCache blendEntry BlendMachine.exec

/-- The cache, the server and the reference after a sequence of calls. -/
def blendRun (calls : List BlendCall) : Config BlendState BlendMachine :=
  blendCache.run ⟨.init, .init, .init⟩ calls

/-- A call that is not passed on reports an error or has no effect on GL. -/
def BlendAccounted (c : Config BlendState BlendMachine) (call : BlendCall) : Prop :=
  forwarded (blendEntry c.cache call).2 = [] →
    .setError glInvalidEnum ∈ (blendEntry c.cache call).2 ∨ c.reference.exec call = c.reference

/-- After every call the cells and the server are as if every call had been executed, and
every call that was not passed on is accounted for. -/
structure BlendSound (calls : List BlendCall) : Prop where
  coherent : ∀ p, p <+: calls → Coherent BlendState.view (blendRun p)
  accounted : ∀ p call, p ++ [call] <+: calls → BlendAccounted (blendRun p) call

/-! ## When the cache is right -/

/-- A call of `glBlendFuncSeparate` leaves the cells right if it is dropped or rejected, or
if the alpha factor it stores is both the colour factor and already in the alpha cell. The
other calls always do. -/
def KeepsBlend (state : BlendState) : BlendCall → Prop
  | .glBlendFuncSeparate srcRGB dstRGB srcAlpha dstAlpha =>
      state.hasFactors srcRGB dstRGB srcAlpha dstAlpha ∨
        ¬ areValidFactors srcRGB dstRGB srcAlpha dstAlpha ∨
        dstRGB = dstAlpha ∧ state.blendDst.2 = dstAlpha
  | _ => True

section Calls

variable {state : BlendState} {mode modeRGB modeAlpha sfactor dfactor : ℕ}
  {srcRGB dstRGB srcAlpha dstAlpha : ℕ} {call : BlendCall} {calls : List BlendCall}

/-- An entry point treats the cells, and what it passes on treats the server, as executing
the call does. -/
def ExecutesBlend (state : BlendState) (call : BlendCall) : Prop :=
  (blendEntry state call).1.view = state.view.exec call ∧
    (forwarded (blendEntry state call).2).foldl BlendMachine.exec state.view =
      state.view.exec call

theorem executes_glBlendEquation : ExecutesBlend state (.glBlendEquation mode) := by
  simp only [ExecutesBlend, blendEntry, glBlendEquation]
  split_ifs with hsame hvalid
  · simp [BlendMachine.exec, BlendState.view, hsame]
  · simp [BlendMachine.exec, BlendState.view, hvalid]
  · simp [BlendMachine.exec, hvalid]

theorem executes_glBlendEquationSeparate :
    ExecutesBlend state (.glBlendEquationSeparate modeRGB modeAlpha) := by
  simp only [ExecutesBlend, blendEntry, glBlendEquationSeparate]
  split_ifs with hsame hinvalid
  · simp [BlendMachine.exec, BlendState.view, hsame]
  · have : ¬ (isValidEquation modeRGB ∧ isValidEquation modeAlpha) := by tauto
    simp [BlendMachine.exec, this]
  · have : isValidEquation modeRGB ∧ isValidEquation modeAlpha := by tauto
    simp [BlendMachine.exec, BlendState.view, this]

theorem executes_glBlendFunc : ExecutesBlend state (.glBlendFunc sfactor dfactor) := by
  simp only [ExecutesBlend, blendEntry, glBlendFunc]
  split_ifs with hsame hinvalid
  · simp [BlendMachine.exec, BlendState.view, hsame]
  · have : ¬ (isValidSrcBlendFactor sfactor ∧ isValidDstBlendFactor dfactor) := by tauto
    simp [BlendMachine.exec, this]
  · have : isValidSrcBlendFactor sfactor ∧ isValidDstBlendFactor dfactor := by tauto
    simp [BlendMachine.exec, BlendState.view, this]

/-- What is stored is the alpha factor in the colour cell, and the old one in the alpha
cell. -/
theorem executes_glBlendFuncSeparate :
    ExecutesBlend state (.glBlendFuncSeparate srcRGB dstRGB srcAlpha dstAlpha) ↔
      KeepsBlend state (.glBlendFuncSeparate srcRGB dstRGB srcAlpha dstAlpha) := by
  simp only [ExecutesBlend, blendEntry, glBlendFuncSeparate, KeepsBlend]
  by_cases hsame : state.hasFactors srcRGB dstRGB srcAlpha dstAlpha
  · have hcells := hsame
    unfold BlendState.hasFactors at hcells
    simp [BlendMachine.exec, BlendState.view, hsame, hcells]
  by_cases hvalid : areValidFactors srcRGB dstRGB srcAlpha dstAlpha
  · simp only [hsame, hvalid, not_true_eq_false, if_false, false_or]
    simp only [BlendMachine.exec, BlendState.view, hvalid, if_true, forwarded_forward,
      forwarded_nil, List.foldl_cons, List.foldl_nil, BlendMachine.mk.injEq, true_and, and_true]
    -- The two destination cells against `dstRGB` and `dstAlpha`.
    constructor
    · rintro ⟨hcolour, halpha⟩
      exact ⟨hcolour.symm, halpha⟩
    · rintro ⟨heq, halpha⟩
      exact ⟨heq.symm, halpha⟩
  · simp [BlendMachine.exec, hsame, hvalid]

theorem executesBlend_iff : ExecutesBlend state call ↔ KeepsBlend state call := by
  cases call with
  | glBlendEquation mode => exact iff_of_true executes_glBlendEquation trivial
  | glBlendEquationSeparate modeRGB modeAlpha =>
    exact iff_of_true executes_glBlendEquationSeparate trivial
  | glBlendFunc sfactor dfactor => exact iff_of_true executes_glBlendFunc trivial
  | glBlendFuncSeparate srcRGB dstRGB srcAlpha dstAlpha => exact executes_glBlendFuncSeparate

/-- While the cells are right, a call that is not passed on leaves the reference as the
server is. -/
theorem blendAccounted_of_coherent {c : Config BlendState BlendMachine}
    (hbefore : Coherent BlendState.view c)
    (hafter : Coherent BlendState.view (blendCache.step c call)) : BlendAccounted c call := by
  intro hdropped
  right
  calc c.reference.exec call = (blendCache.step c call).server := hafter.server.symm
    _ = (forwarded (blendEntry c.cache call).2).foldl BlendMachine.exec c.server := rfl
    _ = c.server := by rw [hdropped]; rfl
    _ = c.reference := hbefore.server

/-- The blend cache is right throughout a sequence of calls exactly if each of them is one
that leaves the cells right. -/
theorem blendSound_iff :
    BlendSound calls ↔
      ∀ p call, p ++ [call] <+: calls → KeepsBlend (blendRun p).cache call := by
  have hinit : Coherent BlendState.view
      (⟨.init, .init, .init⟩ : Config BlendState BlendMachine) := ⟨rfl, rfl⟩
  have hcoherent : (∀ p, p <+: calls → Coherent BlendState.view (blendRun p)) ↔
      ∀ p call, p ++ [call] <+: calls → KeepsBlend (blendRun p).cache call :=
    coherent_prefix_iff hinit fun _ _ => executesBlend_iff
  constructor
  · intro h
    exact hcoherent.mp h.coherent
  -- The cells are right before and after the call, so a call that was dropped was not needed.
  · intro h
    have hall := hcoherent.mpr h
    refine ⟨hall, fun p call hp => ?_⟩
    apply blendAccounted_of_coherent (hall p ((List.prefix_append _ _).trans hp))
    have hafter := hall _ hp
    rwa [blendRun, run_concat] at hafter

/-- The separate call leaves `blend_dst` as it was before, so the second call is dropped
although the server has another factor. -/
theorem needed_blendFunc_dropped :
    ¬ BlendSound [.glBlendFuncSeparate glOne glOne glOne glZero,
      .glBlendFunc glOne glZero] := by
  intro h
  have hserver := (h.coherent _ (List.prefix_refl _)).server
  revert hserver
  decide

end Calls

end GpuProxy.GlState
