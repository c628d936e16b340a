import GpuProxy.GlState.Entry
import Mathlib.Data.Int.Notation

/-!
# The cached texture bindings

`caching_client_glActiveTexture`, `glBindTexture` and `glDeleteTextures`, against a machine
that holds the active unit and, for each unit and target, the bound texture. The cache has
one set of bindings. A change of units empties it, whatever is bound on the new unit, and a
deleted name is taken out of one binding for each time it is listed. The binding of 3D textures
starts with what the memory of the new state happens to hold.

The object cache, the name handler and the records of framebuffers, which these entry
points also update, do not bear on the bindings and are left out.

## Main definitions

* `TextureState` — the active unit and the bindings in `egl_state_t`
* `textureEntry` — the three entry points
* `TextureMachine` — the texture units of GL
* `TextureSound` — the bindings are those of the server after every call, and a texture
  that a dropped call binds is bound already
* `KeepsBindings` — the calls that leave the bindings right

## Main results

* `cell_resetBindings_iff` — when the loop over deleted names resets every binding to one
* `textureSound_iff` — the cache is right throughout exactly if it starts with no 3D texture, and
  every call is one that leaves the bindings right
* `needed_bind_dropped` — a run in which an unbinding call is dropped that was needed
-/

namespace GpuProxy.GlState

open Math WriteThrough

def glTexture2D : ℕ := 0x0DE1
def glTextureCubeMap : ℕ := 0x8513
def glTexture3DOES : ℕ := 0x806F

def glTexture0 : ℕ := 0x84C0
def glTexture31 : ℕ := 0x84DF

/-- The texture bindings of `egl_state_t`: entry 0 of `texture_binding` is for 2D textures,
entry 1 for cube maps. -/
structure TextureState where
  activeTexture : ℕ
  textureBinding : ℕ × ℕ
  textureBinding3d : ℕ
  deriving DecidableEq, Repr

/-- The fields after `egl_state_new`. No line of it sets `texture_binding_3d`, which is what
`malloc` finds in the memory. -/
def TextureState.init (memory : ℕ) : TextureState where
  activeTexture := glTexture0
  textureBinding := (0, 0)
  textureBinding3d := memory

/-- The calls. An array of names comes with the number of them to read. -/
inductive TextureCall
  | glActiveTexture (texture : ℕ)
  | glBindTexture (target texture : ℕ)
  | glDeleteTextures (n : ℤ) (textures : List ℕ)
  deriving DecidableEq, Repr

/-- `caching_client_glActiveTexture`. -/
def glActiveTexture (state : TextureState) (texture : ℕ) :
    TextureState × List (Effect TextureCall) :=
  if state.activeTexture = texture then (state, [])
  else if texture > glTexture31 ∨ texture < glTexture0 then (state, [.setError glInvalidEnum])
  else
    -- Whatever is bound on the new unit.
    ({ activeTexture := texture, textureBinding := (0, 0), textureBinding3d := 0 },
      [.forward (.glActiveTexture texture)])

/-- `caching_client_glBindTexture`. -/
def glBindTexture (state : TextureState) (target texture : ℕ) :
    TextureState × List (Effect TextureCall) :=
  let call := Effect.forward (.glBindTexture target texture)
  if target = glTexture2D ∧ state.textureBinding.1 = texture then (state, [])
  else if target = glTextureCubeMap ∧ state.textureBinding.2 = texture then (state, [])
  else if target = glTexture3DOES ∧ state.textureBinding3d = texture then (state, [])
  else if ¬ (target = glTexture2D ∨ target = glTextureCubeMap ∨ target = glTexture3DOES) then
    (state, [.setError glInvalidEnum])
  else if target = glTexture2D then
    ({ state with textureBinding := (texture, state.textureBinding.2) }, [call])
  else if target = glTextureCubeMap then
    ({ state with textureBinding := (state.textureBinding.1, texture) }, [call])
  else ({ state with textureBinding3d := texture }, [call])

/-- One round of the loop of `caching_client_glDeleteTextures`. -/
def resetBinding (state : TextureState) (texture : ℕ) : TextureState :=
  if texture = 0 then state
  else
    -- The first binding that has the name, and no other.
    let state :=
      if state.textureBinding.1 = texture then
        { state with textureBinding := (0, state.textureBinding.2) }
      else if state.textureBinding.2 = texture then
        { state with textureBinding := (state.textureBinding.1, 0) }
      else if state.textureBinding3d = texture then { state with textureBinding3d := 0 }
      else state
    -- A unit is compared with a name.
    if state.activeTexture = texture then { state with activeTexture := 0 } else state

/-- The loop of `caching_client_glDeleteTextures`. -/
def resetBindings (state : TextureState) (textures : List ℕ) : TextureState :=
  textures.foldl resetBinding state

/-- `caching_client_glDeleteTextures`. -/
def glDeleteTextures (state : TextureState) (n : ℤ) (textures : List ℕ) :
    TextureState × List (Effect TextureCall) :=
  if n < 0 then (state, [.setError glInvalidValue])
  else
    (resetBindings state (textures.take n.toNat), [.forward (.glDeleteTextures n textures)])

/-- The entry points that set the texture bindings. -/
def textureEntry (state : TextureState) : TextureCall → TextureState × List (Effect TextureCall)
  | .glActiveTexture texture => glActiveTexture state texture
  | .glBindTexture target texture => glBindTexture state target texture
  | .glDeleteTextures n textures => glDeleteTextures state n textures

/-! ## The reference machine -/

/-- The targets of a unit. -/
inductive TextureTarget
  | texture2D
  | textureCubeMap
  | texture3D
  deriving DecidableEq, Repr

/-- The target that an enumeration value names. -/
def textureTarget (target : ℕ) : Option TextureTarget :=
  if target = glTexture2D then some .texture2D
  else if target = glTextureCubeMap then some .textureCubeMap
  else if target = glTexture3DOES then some .texture3D
  else none

/-- The texture units of GL. -/
structure TextureMachine where
  active : ℕ
  binding : ℕ → TextureTarget → ℕ

/-- The initial state of the texture units. -/
def TextureMachine.init : TextureMachine where
  active := glTexture0
  binding _ _ := 0

/-- The texture bound on the active unit. -/
def TextureMachine.bound (machine : TextureMachine) (target : TextureTarget) : ℕ :=
  machine.binding machine.active target

/-- Executing a call. Deleting a texture unbinds it from every unit and target. -/
def TextureMachine.exec (machine : TextureMachine) : TextureCall → TextureMachine
  | .glActiveTexture texture =>
      if glTexture0 ≤ texture ∧ texture ≤ glTexture31 then { machine with active := texture }
      else machine
  | .glBindTexture target texture =>
      match textureTarget target with
      | none => machine
      | some target =>
          { machine with
            binding := Function.update machine.binding machine.active
              (Function.update (machine.binding machine.active) target texture) }
  | .glDeleteTextures n textures =>
      if n < 0 then machine
      else
        { machine with
          binding := fun unit target =>
            if machine.binding unit target ∈ textures.take n.toNat then 0
            else machine.binding unit target }

/-- The cached binding of a target. -/
def TextureState.cell (state : TextureState) : TextureTarget → ℕ
  | .texture2D => state.textureBinding.1
  | .textureCubeMap => state.textureBinding.2
  | .texture3D => state.textureBinding3d

/-- The cached bindings, in the order in which the loop over deleted names looks at them. -/
def TextureState.cells (state : TextureState) : List ℕ :=
  [state.textureBinding.1, state.textureBinding.2, state.textureBinding3d]

/-- The number of targets that a texture is bound to in the cache. -/
def TextureState.countBound (state : TextureState) (texture : ℕ) : ℕ := state.cells.count texture

/-- The caching client in front of a server, for the calls that set texture bindings. -/
def textureCache : WriteThrough TextureState TextureMachine TextureCall :=
  entryCache textureEntry TextureMachine.exec

/-- The cache and the server after a sequence of calls, in a context of the given memory. -/
def textureRun (memory : ℕ) (calls : List TextureCall) : Config TextureState TextureMachine :=
  textureCache.run ⟨.init memory, .init, .init⟩ calls

/-- The cached bindings are those of the active unit of the server. -/
def BindingsAgree (c : Config TextureState TextureMachine) : Prop :=
  ∀ target, c.cache.cell target = c.server.bound target

/-- The bindings are right after every call, and a dropped call binds what is bound. -/
structure TextureSound (memory : ℕ) (calls : List TextureCall) : Prop where
  cells : ∀ p, p <+: calls → BindingsAgree (textureRun memory p)
  dropped : ∀ p target texture bound, p ++ [.glBindTexture target texture] <+: calls →
    textureTarget target = some bound →
    forwarded (glBindTexture (textureRun memory p).cache target texture).2 = [] →
      (textureRun memory p).server.bound bound = texture

/-- A change of units that is passed on leaves the bindings right if nothing is bound on
the new unit. A deletion does if no listed texture is bound to more targets than it is
listed times. -/
def KeepsBindings (c : Config TextureState TextureMachine) : TextureCall → Prop
  | .glActiveTexture texture =>
      c.cache.activeTexture = texture ∨ texture > glTexture31 ∨ texture < glTexture0 ∨
        ∀ target, c.server.binding texture target = 0
  | .glBindTexture _ _ => True
  | .glDeleteTextures n textures =>
      n < 0 ∨ ∀ texture ∈ textures.take n.toNat, texture ≠ 0 →
        c.cache.countBound texture ≤ (textures.take n.toNat).count texture

/-! ## The loop over deleted names -/

section Reset

variable {state : TextureState} {texture other : ℕ} {textures : List ℕ} {target : TextureTarget}

/-- A round replaces the first binding to the name by none. -/
theorem cells_resetBinding :
    (resetBinding state texture).cells = state.cells.replace texture 0 := by
  by_cases hzero : texture = 0
  · subst hzero
    simp only [resetBinding, if_true, TextureState.cells, List.replace_cons]
    grind
  · simp only [resetBinding, hzero, if_false, TextureState.cells, List.replace_cons]
    grind

/-- A round changes no binding to another name. -/
theorem cell_resetBinding :
    (resetBinding state texture).cell target = state.cell target ∨
      (resetBinding state texture).cell target = 0 ∧ state.cell target = texture := by
  cases target <;> simp only [resetBinding, TextureState.cell] <;> grind

theorem mem_cells_iff : texture ∈ state.cells ↔ ∃ target, state.cell target = texture := by
  simp only [TextureState.cells, List.mem_cons, List.not_mem_nil, or_false]
  constructor
  · rintro (h | h | h)
    · exact ⟨.texture2D, h.symm⟩
    · exact ⟨.textureCubeMap, h.symm⟩
    · exact ⟨.texture3D, h.symm⟩
  · rintro ⟨target, rfl⟩
    cases target <;> simp [TextureState.cell]

theorem countBound_eq_zero_iff :
    state.countBound texture = 0 ↔ ∀ target, state.cell target ≠ texture := by
  rw [TextureState.countBound, List.count_eq_zero, mem_cells_iff, not_exists]

/-- A round takes a name out of one binding. -/
theorem countBound_resetBinding (h : other ≠ 0) :
    (resetBinding state texture).countBound other =
      state.countBound other - [texture].count other := by
  rw [TextureState.countBound, cells_resetBinding, List.count_replace, TextureState.countBound]
  by_cases hmem : texture ∈ state.cells
  · simp [hmem, h.symm, List.count_singleton]
  · have hcount : state.cells.count texture = 0 := List.count_eq_zero.mpr hmem
    by_cases heq : texture = other
    · subst heq
      simp [hmem, hcount]
    · simp [hmem, heq]

/-- The loop takes a name out of one binding for each time it is listed. -/
theorem countBound_resetBindings (h : other ≠ 0) :
    (resetBindings state textures).countBound other =
      state.countBound other - textures.count other := by
  induction textures generalizing state with
  | nil => rfl
  | cons texture textures ih =>
    have hround : resetBindings state (texture :: textures) =
      resetBindings (resetBinding state texture) textures := rfl
    have hcount : (texture :: textures).count other =
        [texture].count other + textures.count other := by
      rw [← List.singleton_append, List.count_append]
    rw [hround, ih, countBound_resetBinding h, hcount]
    omega

/-- The loop changes only bindings to listed names. -/
theorem cell_resetBindings :
    (resetBindings state textures).cell target = state.cell target ∨
      (resetBindings state textures).cell target = 0 ∧ state.cell target ∈ textures := by
  induction textures generalizing state with
  | nil => exact Or.inl rfl
  | cons texture textures ih =>
    have hround : resetBindings state (texture :: textures) =
      resetBindings (resetBinding state texture) textures := rfl
    have hfirst : (resetBinding state texture).cell target = state.cell target ∨
        (resetBinding state texture).cell target = 0 ∧ state.cell target = texture :=
      cell_resetBinding
    have hrest := @ih (resetBinding state texture)
    rw [hround]
    rcases hrest with hkept | ⟨hreset, hmem⟩
    · rw [hkept]
      rcases hfirst with h | ⟨h, heq⟩
      · exact Or.inl h
      · exact Or.inr ⟨h, by simp [heq]⟩
    · rcases hfirst with h | ⟨h, heq⟩
      · exact Or.inr ⟨hreset, List.mem_cons_of_mem _ (h ▸ hmem)⟩
      · exact Or.inr ⟨hreset, by simp [heq]⟩

/-- The loop resets every binding to a listed name exactly if no such name is bound more
often than it is listed. -/
theorem cell_resetBindings_iff :
    (∀ target, (resetBindings state textures).cell target =
        if state.cell target ∈ textures then 0 else state.cell target) ↔
      ∀ texture ∈ textures, texture ≠ 0 → state.countBound texture ≤ textures.count texture := by
  constructor
  -- A name that is bound nowhere after the loop was taken out as often as it was bound.
  · intro h texture hmem hne
    have hnone : ∀ target, (resetBindings state textures).cell target ≠ texture := by
      rintro target rfl
      rw [h target] at hmem hne
      by_cases hlisted : state.cell target ∈ textures
      · simp [hlisted] at hne
      · simp [hlisted] at hmem
    have hcount : 0 = state.countBound texture - textures.count texture := by
      rw [← countBound_resetBindings hne, countBound_eq_zero_iff.mpr hnone]
    omega
  · intro h target
    have hloop : (resetBindings state textures).cell target = state.cell target ∨
        (resetBindings state textures).cell target = 0 ∧ state.cell target ∈ textures :=
      cell_resetBindings
    rcases hloop with hkept | ⟨hreset, hmem⟩
    · -- A listed name that is still bound would be counted.
      by_cases hlisted : state.cell target ∈ textures
      · by_cases hzero : state.cell target = 0
        · simp [hkept, hzero]
        · have hle := h _ hlisted hzero
          have hnone : (resetBindings state textures).countBound (state.cell target) = 0 := by
            rw [countBound_resetBindings hzero]
            omega
          exact absurd hkept (countBound_eq_zero_iff.mp hnone target)
      · simp [hkept, hlisted]
    · simp [hreset, hmem]

end Reset

/-! ## When the cache is right -/

section Calls

variable {c : Config TextureState TextureMachine} {call : TextureCall}
  {calls : List TextureCall} {texture : ℕ} {target : TextureTarget}

theorem bindingsAgree_glActiveTexture (h : BindingsAgree c) :
    BindingsAgree (textureCache.step c (.glActiveTexture texture)) ↔
      KeepsBindings c (.glActiveTexture texture) := by
  by_cases hsame : c.cache.activeTexture = texture
  · have hstep : BindingsAgree (textureCache.step c (.glActiveTexture texture)) := by
      intro target
      simpa [step, textureCache, entryCache, textureEntry, glActiveTexture, hsame] using h target
    exact iff_of_true hstep (Or.inl hsame)
  by_cases hinvalid : texture > glTexture31 ∨ texture < glTexture0
  · have hstep : BindingsAgree (textureCache.step c (.glActiveTexture texture)) := by
      intro target
      simpa [step, textureCache, entryCache, textureEntry, glActiveTexture, hsame, hinvalid]
        using h target
    exact iff_of_true hstep (Or.inr (hinvalid.elim Or.inl fun h => Or.inr (Or.inl h)))
  · -- The cached bindings are emptied; those of the server are what the new unit has.
    have hunit : glTexture0 ≤ texture ∧ texture ≤ glTexture31 := by omega
    have hcell : ∀ target,
        (textureCache.step c (.glActiveTexture texture)).cache.cell target = 0 := by
      intro target
      cases target <;>
        simp [step, textureCache, entryCache, textureEntry, glActiveTexture, hsame, hinvalid,
          TextureState.cell]
    have hbound : ∀ target,
        (textureCache.step c (.glActiveTexture texture)).server.bound target =
          c.server.binding texture target := by
      intro target
      simp [step, textureCache, entryCache, textureEntry, glActiveTexture, hsame, hinvalid,
        TextureMachine.exec, hunit, TextureMachine.bound]
    have hempty : BindingsAgree (textureCache.step c (.glActiveTexture texture)) ↔
        ∀ target, c.server.binding texture target = 0 := by
      simp only [BindingsAgree, hcell, hbound]
      exact ⟨fun h target => (h target).symm, fun h target => (h target).symm⟩
    rw [hempty]
    constructor
    · intro h
      exact Or.inr (Or.inr (Or.inr h))
    · rintro (heq | hhigh | hlow | h)
      · exact absurd heq hsame
      · exact absurd (Or.inl hhigh) hinvalid
      · exact absurd (Or.inr hlow) hinvalid
      · exact h

/-- The three targets have different enumeration values. -/
theorem textureTarget_eq_some_iff {name : ℕ} :
    textureTarget name = some target ↔
      name = match target with
        | .texture2D => glTexture2D
        | .textureCubeMap => glTextureCubeMap
        | .texture3D => glTexture3DOES := by
  unfold textureTarget
  cases target <;> simp only [glTexture2D, glTextureCubeMap, glTexture3DOES] <;> grind

theorem textureTarget_eq_none_iff {name : ℕ} :
    textureTarget name = none ↔
      name ≠ glTexture2D ∧ name ≠ glTextureCubeMap ∧ name ≠ glTexture3DOES := by
  unfold textureTarget
  grind

section Bind

variable {state : TextureState} {name : ℕ}

theorem glBindTexture_of_none (h : textureTarget name = none) :
    glBindTexture state name texture = (state, [.setError glInvalidEnum]) := by
  obtain ⟨h2D, hcube, h3D⟩ := textureTarget_eq_none_iff.mp h
  simp [glBindTexture, h2D, hcube, h3D]

/-- A call that binds what the cache has is dropped. -/
theorem glBindTexture_of_eq (h : textureTarget name = some target)
    (hbound : state.cell target = texture) : glBindTexture state name texture = (state, []) := by
  rw [textureTarget_eq_some_iff] at h
  unfold glBindTexture
  cases target <;> subst h <;> simp_all [TextureState.cell]

/-- Any other call with a valid target is passed on, and its texture stored. -/
theorem glBindTexture_of_ne (h : textureTarget name = some target)
    (hbound : state.cell target ≠ texture) :
    (glBindTexture state name texture).2 = [.forward (.glBindTexture name texture)] ∧
      (glBindTexture state name texture).1.cell =
        Function.update state.cell target texture := by
  rw [textureTarget_eq_some_iff] at h
  constructor
  · cases target <;> subst h <;>
      simp_all [glBindTexture, TextureState.cell, glTexture2D, glTextureCubeMap, glTexture3DOES]
  · funext other
    cases target <;> subst h <;> cases other <;>
      simp_all [glBindTexture, TextureState.cell, glTexture2D, glTextureCubeMap, glTexture3DOES]

end Bind

theorem bindingsAgree_glBindTexture (h : BindingsAgree c) {name : ℕ} :
    BindingsAgree (textureCache.step c (.glBindTexture name texture)) := by
  intro target
  cases hname : textureTarget name with
  -- The machine ignores the target that the entry point rejects.
  | none =>
    simpa [step, textureCache, entryCache, textureEntry, glBindTexture_of_none hname] using h target
  | some bound =>
    by_cases hbound : c.cache.cell bound = texture
    · simpa [step, textureCache, entryCache, textureEntry, glBindTexture_of_eq hname hbound]
        using h target
    · obtain ⟨heffects, hcell⟩ := glBindTexture_of_ne hname hbound
      have hagree : c.cache.cell = c.server.bound := funext h
      simp only [step, textureCache, entryCache, textureEntry, heffects, hcell,
        forwarded_forward, forwarded_nil, List.foldl_cons, List.foldl_nil, TextureMachine.exec,
        hname, TextureMachine.bound, Function.update_self, hagree]
      rfl

theorem bindingsAgree_glDeleteTextures (h : BindingsAgree c) {n : ℤ} {textures : List ℕ} :
    BindingsAgree (textureCache.step c (.glDeleteTextures n textures)) ↔
      KeepsBindings c (.glDeleteTextures n textures) := by
  by_cases hn : n < 0
  · have hstep : BindingsAgree (textureCache.step c (.glDeleteTextures n textures)) := by
      intro target
      simpa [step, textureCache, entryCache, textureEntry, glDeleteTextures, hn] using h target
    exact iff_of_true hstep (Or.inl hn)
  · have hcache : (textureCache.step c (.glDeleteTextures n textures)).cache =
        resetBindings c.cache (textures.take n.toNat) := by
      simp [step, textureCache, entryCache, textureEntry, glDeleteTextures, hn]
    have hserver : ∀ target,
        (textureCache.step c (.glDeleteTextures n textures)).server.bound target =
          if c.server.bound target ∈ textures.take n.toNat then 0
          else c.server.bound target := by
      intro target
      simp only [step, textureCache, entryCache, textureEntry, glDeleteTextures, hn, if_false,
        forwarded_forward, forwarded_nil, List.foldl_cons, List.foldl_nil, TextureMachine.exec]
      rfl
    have hstep : BindingsAgree (textureCache.step c (.glDeleteTextures n textures)) ↔
        ∀ target, (resetBindings c.cache (textures.take n.toNat)).cell target =
          if c.cache.cell target ∈ textures.take n.toNat then 0 else c.cache.cell target := by
      apply forall_congr'
      intro target
      rw [hcache, hserver, h target]
    rw [hstep, cell_resetBindings_iff]
    simp [KeepsBindings, hn]

theorem bindingsAgree_step_iff (h : BindingsAgree c) :
    BindingsAgree (textureCache.step c call) ↔ KeepsBindings c call := by
  cases call with
  | glActiveTexture texture => exact bindingsAgree_glActiveTexture h
  | glBindTexture target texture => exact iff_of_true (bindingsAgree_glBindTexture h) trivial
  | glDeleteTextures n textures => exact bindingsAgree_glDeleteTextures h

/-- The bindings are right at the start if the memory holds 0. -/
theorem bindingsAgree_init_iff {memory : ℕ} :
    BindingsAgree (⟨.init memory, .init, .init⟩ : Config TextureState TextureMachine) ↔
      memory = 0 := by
  constructor
  · intro h
    exact h .texture3D
  · rintro rfl target
    cases target <;> rfl

/-- The cached bindings are right throughout a sequence of calls exactly if the memory of the
context holds 0, and each of the calls is one that leaves the bindings right. -/
theorem textureSound_iff {memory : ℕ} :
    TextureSound memory calls ↔ memory = 0 ∧
      ∀ p call, p ++ [call] <+: calls → KeepsBindings (textureRun memory p) call := by
  have hcells : memory = 0 → ((∀ p, p <+: calls → BindingsAgree (textureRun memory p)) ↔
      ∀ p call, p ++ [call] <+: calls → KeepsBindings (textureRun memory p) call) :=
    fun hmemory => run_prefix_iff (bindingsAgree_init_iff.mpr hmemory) fun _ _ =>
      bindingsAgree_step_iff
  constructor
  · intro h
    have hmemory : memory = 0 := bindingsAgree_init_iff.mp (h.cells [] List.nil_prefix)
    exact ⟨hmemory, (hcells hmemory).mp h.cells⟩
  · rintro ⟨hmemory, h⟩
    have hall := (hcells hmemory).mpr h
    refine ⟨hall, fun p name texture target hp htarget hdropped => ?_⟩
    rw [← hall p ((List.prefix_append _ _).trans hp)]
    by_contra hbound
    rw [(glBindTexture_of_ne htarget hbound).1] at hdropped
    simp at hdropped

/-- Back on a unit with a texture bound, the cache has none, and the call that would unbind
it is dropped. -/
theorem needed_bind_dropped :
    ¬ TextureSound 0 [.glBindTexture glTexture2D 5, .glActiveTexture (glTexture0 + 1),
      .glActiveTexture glTexture0, .glBindTexture glTexture2D 0] := by
  intro h
  have hbound := h.dropped [.glBindTexture glTexture2D 5, .glActiveTexture (glTexture0 + 1),
    .glActiveTexture glTexture0] glTexture2D 0 .texture2D (List.prefix_refl _) (by decide)
    (by decide)
  revert hbound
  decide

end Calls

end GpuProxy.GlState
