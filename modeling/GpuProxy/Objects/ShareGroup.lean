import GpuProxy.Names.Supply
import GpuProxy.Objects.State
import Mathlib.Data.Finset.Image

/-!
# Names in a share group

Contexts that were created with a common share context use its caches of textures,
renderbuffers and shader objects, but each has its own handlers of names. A name that is
returned on one context can be in use on another. Here is when it is not.

## Main definitions

* `Context`, `Group` — the contexts, with the redirected caches
* `GroupOp`, `Group.run` — creating and deleting on one of the contexts
* `Apart` — no name in use on another context is left in the handler of this one
* `KeepsApart` — the operations that return no name in use

## Main results

* `Separate.fresh_iff_apart` — a handler returns no name in use if and only if it is apart
* `names_unique` — whole runs
-/

namespace GpuProxy.Objects

open Math Names GlState State

def glVertexShader : ℕ := 0x8B31
def glFragmentShader : ℕ := 0x8B30

/-- `is_valid_ShaderType`. -/
def isValidShaderType (value : ℕ) : Bool := value ∈ [glVertexShader, glFragmentShader]

/-! ### The contexts -/

/-- The type of a `shader_object_t`. -/
inductive ShaderObjectType
  | program
  | shader
  deriving DecidableEq, Repr

/-- `shader_object_t`, and `program_t` but for the caches of locations. -/
structure ShaderObject where
  id : ℕ
  type : ShaderObjectType
  markForDeletion : Bool
  deriving DecidableEq, Repr

/-- The kinds of objects that the contexts of a group share. Programs and shaders have their
names in common. -/
inductive SharedKind
  | texture
  | renderbuffer
  | shaderObject
  deriving DecidableEq, Repr

/-- `egl_state_t`. -/
structure Context where
  own : State
  shaderObjectsNameHandler : NameHandler
  shaderObjects : List ShaderObject
  currentProgram : ℕ
  /-- `share_context`, by its number. -/
  shareContext : Option ℕ

/-- The contexts, by their numbers. -/
abbrev Group := ℕ → Context

namespace Group

/-- Context 0, and contexts that were created with it as the share context, each in memory of its
own. -/
def init (memory : ℕ → ℕ) : Group := fun context =>
  { own := .init (memory context)
    shaderObjectsNameHandler := nameHandlerCreate
    shaderObjects := []
    currentProgram := 0
    shareContext := if context = 0 then none else some 0 }

variable (g : Group) (context : ℕ)

/-- The context whose caches are used. -/
def cacheOwner : ℕ := (g context).shareContext.getD context

/-- What an entry point sees of a context: its own state, with the caches that
`egl_state_get_texture_cache`, `egl_state_get_framebuffer_cache` and
`egl_state_get_renderbuffer_cache` return. -/
def state : State :=
  { (g context).own with
    textureCache := (g (g.cacheOwner context)).own.textureCache
    framebufferCache := (g (g.cacheOwner context)).own.framebufferCache
    renderbufferCache := (g (g.cacheOwner context)).own.renderbufferCache }

/-- A write to one context. -/
def modify (f : Context → Context) : Group := Function.update g context (f (g context))

/-- What an entry point leaves: the caches to their owner, and the rest to the context. -/
def setState (s : State) : Group :=
  let g' := g.modify context fun ctx =>
    { ctx with
      own := { s with
        textureCache := ctx.own.textureCache
        framebufferCache := ctx.own.framebufferCache
        renderbufferCache := ctx.own.renderbufferCache } }
  g'.modify (g.cacheOwner context) fun ctx =>
    { ctx with
      own := { ctx.own with
        textureCache := s.textureCache
        framebufferCache := s.framebufferCache
        renderbufferCache := s.renderbufferCache } }

/-- `egl_state_get_shader_object_list`. -/
def shaderObjectList : List ShaderObject := (g (g.cacheOwner context)).shaderObjects

def setShaderObjectList (list : List ShaderObject) : Group :=
  g.modify (g.cacheOwner context) ({ · with shaderObjects := list })

/-- `egl_state_lookup_cached_shader_object`. -/
def lookupCachedShaderObject (id : ℕ) : Option ShaderObject :=
  (g.shaderObjectList context).find? (·.id = id)

/-- `egl_state_create_cached_program` and `egl_state_create_cached_shader`. -/
def createCachedShaderObject (type : ShaderObjectType) (id : ℕ) : Group :=
  g.setShaderObjectList context (g.shaderObjectList context ++ [⟨id, type, false⟩])

/-- Creating a program or shader, with the result. -/
def createShaderObject (type : ShaderObjectType) : Option (Group × ℕ) := do
  let (names, handler) ← allocNames (g context).shaderObjectsNameHandler 1
  let result ← names.head?
  let g := g.modify context ({ · with shaderObjectsNameHandler := handler })
  if result = 0 then return (g, 0)
  return (g.createCachedShaderObject context type result, result)

/-- `caching_client_glCreateProgram`. -/
def glCreateProgram : Option (Group × ℕ) := g.createShaderObject context .program

/-- `caching_client_glCreateShader`. -/
def glCreateShader (shaderType : ℕ) : Option (Group × ℕ) :=
  if ¬ isValidShaderType shaderType then some (g, 0) else g.createShaderObject context .shader

/-- `caching_client_glDeleteProgram`. The name is not given back. -/
def glDeleteProgram (program : ℕ) : Group :=
  match g.lookupCachedShaderObject context program with
  | none => g
  | some object =>
    let list := g.shaderObjectList context
    -- Only the current program of this context is kept until it is no longer used.
    if object.id = (g context).currentProgram then
      g.setShaderObjectList context
        (list.modify (list.findIdx (·.id = program)) ({ · with markForDeletion := true }))
    else g.setShaderObjectList context (list.eraseP (·.id = program))

/-- `glDeleteShader`, which the caching client has no entry point of its own for. -/
def glDeleteShader (_shader : ℕ) : Group := g

end Group

/-! ### Creating and deleting -/

/-- One operation on a context. -/
inductive GroupOp
  | glGenTextures (n : ℕ)
  | glGenRenderbuffers (n : ℕ)
  | glCreateProgram
  | glCreateShader (shaderType : ℕ)
  | glDeleteTextures (textures : List ℕ)
  | glDeleteRenderbuffers (renderbuffers : List ℕ)
  | glDeleteProgram (program : ℕ)
  | glDeleteShader (shader : ℕ)
  deriving DecidableEq, Repr

/-- The operations that return names. -/
def GroupOp.Generates : GroupOp → Prop
  | .glGenTextures _ | .glGenRenderbuffers _ | .glCreateProgram | .glCreateShader _ => True
  | _ => False

/-- The names that an operation gives back to the handler of its context. -/
def GroupOp.givenBack : GroupOp → List ℕ
  | .glDeleteRenderbuffers names => names
  | _ => []

/-- The kind of objects that an operation is on. -/
def GroupOp.kind : GroupOp → SharedKind
  | .glGenTextures _ | .glDeleteTextures _ => .texture
  | .glGenRenderbuffers _ | .glDeleteRenderbuffers _ => .renderbuffer
  | .glCreateProgram | .glCreateShader _ | .glDeleteProgram _ | .glDeleteShader _ => .shaderObject

/-- The names of the objects that an operation deletes. -/
def GroupOp.deleted : GroupOp → List ℕ
  | .glDeleteTextures names | .glDeleteRenderbuffers names => names
  | .glDeleteProgram name | .glDeleteShader name => [name]
  | _ => []

/-- An operation on a context, with the names that it returns. The result 0 is no name. -/
def Group.run (g : Group) (context : ℕ) : GroupOp → Option (Group × List ℕ)
  | .glGenTextures n => do
    let (names, _) ← allocNames (g.state context).textureNameHandler n
    let (s, _) ← (g.state context).glGenTextures n
    return (g.setState context s, names)
  | .glGenRenderbuffers n => do
    let (names, _) ← allocNames (g.state context).renderbufferNameHandler n
    let (s, _) ← (g.state context).glGenRenderbuffers n
    return (g.setState context s, names)
  | .glCreateProgram => do
    let (g, result) ← g.glCreateProgram context
    return (g, [result].filter (· ≠ 0))
  | .glCreateShader shaderType => do
    let (g, result) ← g.glCreateShader context shaderType
    return (g, [result].filter (· ≠ 0))
  | .glDeleteTextures textures => do
    let (s, _) ← (g.state context).glDeleteTextures textures
    return (g.setState context s, [])
  | .glDeleteRenderbuffers renderbuffers => do
    let (s, _) ← (g.state context).glDeleteRenderbuffers renderbuffers
    return (g.setState context s, [])
  | .glDeleteProgram program => some (g.glDeleteProgram context program, [])
  | .glDeleteShader shader => some (g.glDeleteShader shader, [])

/-- A group, with the objects that exist: the context each was generated on, and its name. -/
structure GroupHistory where
  group : Group
  live : SharedKind → Finset (ℕ × ℕ)

/-- An operation on a context. -/
def GroupHistory.step (h : GroupHistory) : ℕ × GroupOp → Option GroupHistory
  | (context, op) => do
    let (g, names) ← h.group.run context op
    return ⟨g, Function.update h.live op.kind
      ((h.live op.kind ∪ names.toFinset.image (context, ·)).filter (·.2 ∉ op.deleted))⟩

/-- All runs of the contexts of a group, over memory of any content. -/
def groupSystem : System GroupHistory (ℕ × GroupOp) :=
  System.ofStep (fun h => ∃ memory, h = ⟨.init memory, fun _ => ∅⟩) GroupHistory.step

/-- The objects that are deleted exist. -/
def DeletesLive (h : GroupHistory) (label : ℕ × GroupOp) : Prop :=
  label.2.deleted.Nodup ∧
    ∀ name ∈ label.2.deleted, ∃ object ∈ h.live label.2.kind, object.2 = name

/-- The handler of the names of a kind. -/
def Group.nameHandler (g : Group) (context : ℕ) : SharedKind → NameHandler
  | .texture => (g context).own.textureNameHandler
  | .renderbuffer => (g context).own.renderbufferNameHandler
  | .shaderObject => (g context).shaderObjectsNameHandler

/-- No name of an object of another context is left in the handler of this one. -/
def Apart (h : GroupHistory) (context : ℕ) (kind : SharedKind) : Prop :=
  ∀ object ∈ h.live kind, object.1 ≠ context →
    supply (h.group.nameHandler context kind) object.2 = 0

/-- Names are generated on a context that is apart, and given back to a handler that does not
have them left. -/
def KeepsApart (h : GroupHistory) (label : ℕ × GroupOp) : Prop :=
  (label.2.Generates → Apart h label.1 label.2.kind) ∧
    ∀ name ∈ label.2.givenBack, supply (h.group.nameHandler label.1 label.2.kind) name = 0

/-- The record of an object that a context finds. -/
def SameRecord (g g' : Group) (context : ℕ) (name : ℕ) : SharedKind → Prop
  | .texture => (g'.state context).lookupCachedTexture name =
    (g.state context).lookupCachedTexture name
  | .renderbuffer => (g'.state context).lookupCachedRenderbuffer name =
    (g.state context).lookupCachedRenderbuffer name
  | .shaderObject => g'.lookupCachedShaderObject context name =
    g.lookupCachedShaderObject context name

variable {g g' : Group} {h h' : GroupHistory} {s t : State} {context c n k name : ℕ}
  {names names' buffers : List ℕ} {kind : SharedKind} {op : GroupOp} {effects : Effects}
  {handler handler' : NameHandler} {live live' : ℕ → Prop}

/-! ### The contexts, after an operation -/

namespace Group

theorem modify_apply {f : Context → Context} :
    (g.modify context f) c = if c = context then f (g context) else g c := by
  unfold modify
  rw [Function.update_apply]

/-- What the write does not change. -/
theorem modify_field {α : Type} (field : Context → α) {f : Context → Context}
    (h : ∀ ctx, field (f ctx) = field ctx) : field ((g.modify context f) c) = field (g c) := by
  rw [modify_apply]
  split_ifs with hc
  · rw [h, hc]
  · rfl

theorem shareContext_setState : ((g.setState context s) c).shareContext = (g c).shareContext := by
  unfold setState
  refine Eq.trans (modify_field Context.shareContext ?_) (modify_field Context.shareContext ?_) <;>
    exact fun _ => rfl

@[simp] theorem cacheOwner_setState : (g.setState context s).cacheOwner c = g.cacheOwner c := by
  unfold cacheOwner
  rw [shareContext_setState]

@[simp] theorem cacheOwner_setShaderObjectList {list : List ShaderObject} :
    (g.setShaderObjectList context list).cacheOwner c = g.cacheOwner c := by
  have hshare : ((g.setShaderObjectList context list) c).shareContext = (g c).shareContext :=
    modify_field Context.shareContext fun _ => rfl
  unfold cacheOwner
  rw [hshare]

/-- The handlers after an entry point are those it leaves to its context. -/
theorem nameHandler_setState : (g.setState context s).nameHandler c kind =
    if c = context then
      match kind with
      | .texture => s.textureNameHandler
      | .renderbuffer => s.renderbufferNameHandler
      | .shaderObject => (g context).shaderObjectsNameHandler
    else g.nameHandler c kind := by
  have hcaches : (g.setState context s).nameHandler c kind =
      (g.modify context fun ctx =>
        { ctx with
          own := { s with
            textureCache := ctx.own.textureCache
            framebufferCache := ctx.own.framebufferCache
            renderbufferCache := ctx.own.renderbufferCache } }).nameHandler c kind := by
    cases kind with
    | texture => exact modify_field (·.own.textureNameHandler) fun _ => rfl
    | renderbuffer => exact modify_field (·.own.renderbufferNameHandler) fun _ => rfl
    | shaderObject => exact modify_field Context.shaderObjectsNameHandler fun _ => rfl
  rw [hcaches]
  -- Of the two writes only the first one has the handlers.
  cases kind <;> simp only [nameHandler, modify_apply] <;> split_ifs <;> rfl

theorem nameHandler_setShaderObjectList {list : List ShaderObject} :
    (g.setShaderObjectList context list).nameHandler c = g.nameHandler c := by
  funext kind
  cases kind with
  | texture => exact modify_field (·.own.textureNameHandler) fun _ => rfl
  | renderbuffer => exact modify_field (·.own.renderbufferNameHandler) fun _ => rfl
  | shaderObject => exact modify_field Context.shaderObjectsNameHandler fun _ => rfl

/-- A context sees the caches that an entry point left to their owner. -/
theorem caches_setState (howner : g.cacheOwner c = g.cacheOwner context) :
    ((g.setState context s).state c).textureCache = s.textureCache ∧
      ((g.setState context s).state c).renderbufferCache = s.renderbufferCache := by
  have hlast : (g.setState context s) (g.cacheOwner context) =
      { (g.setState context s) (g.cacheOwner context) with
        own := { ((g.setState context s) (g.cacheOwner context)).own with
          textureCache := s.textureCache
          framebufferCache := s.framebufferCache
          renderbufferCache := s.renderbufferCache } } := by
    simp only [setState, modify_apply, if_true]
  unfold state
  rw [cacheOwner_setState, howner, hlast]
  exact ⟨rfl, rfl⟩

theorem shaderObjectList_setShaderObjectList {list : List ShaderObject}
    (howner : g.cacheOwner c = g.cacheOwner context) :
    (g.setShaderObjectList context list).shaderObjectList c = list := by
  unfold shaderObjectList
  rw [cacheOwner_setShaderObjectList, howner, setShaderObjectList, modify_apply, if_pos rfl]

/-- A new shader object gets a name of the handler, and its record comes after all others. -/
theorem createShaderObject_cases {type : ShaderObjectType} {result : ℕ}
    (h : g.createShaderObject context type = some (g', result)) :
    ∃ handler, allocNames (g.nameHandler context .shaderObject) 1 = some ([result], handler) ∧
      (∀ c kind, g'.nameHandler c kind =
        if c = context ∧ kind = .shaderObject then handler else g.nameHandler c kind) ∧
      (∀ c, g'.cacheOwner c = g.cacheOwner c) ∧
      ∀ c, g.cacheOwner c = g.cacheOwner context → ∃ records,
        g'.shaderObjectList c = g.shaderObjectList c ++ records ∧
          ∀ record ∈ records, record.id = result ∧ result ≠ 0 := by
  obtain ⟨⟨names, handler⟩, halloc, hrest⟩ := Option.bind_eq_some_iff.mp h
  obtain ⟨first, hfirst, hresult⟩ := Option.bind_eq_some_iff.mp hrest
  have hlength := length_allocNames halloc
  obtain ⟨name, rfl⟩ := List.length_eq_one_iff.mp hlength
  cases hfirst
  -- The handler is written first, and then the list of the records.
  let g₁ := g.modify context ({ · with shaderObjectsNameHandler := handler })
  have hhandler : ∀ c kind, g₁.nameHandler c kind =
      if c = context ∧ kind = .shaderObject then handler else g.nameHandler c kind := by
    intro c kind
    cases kind with
    | texture =>
      rw [if_neg (by simp)]
      exact modify_field (·.own.textureNameHandler) fun _ => rfl
    | renderbuffer =>
      rw [if_neg (by simp)]
      exact modify_field (·.own.renderbufferNameHandler) fun _ => rfl
    | shaderObject =>
      simp only [nameHandler, g₁, modify_apply, and_true]
      split_ifs <;> rfl
  have howner : ∀ c, g₁.cacheOwner c = g.cacheOwner c := by
    intro c
    have hshare : (g₁ c).shareContext = (g c).shareContext :=
      modify_field Context.shareContext fun _ => rfl
    unfold cacheOwner
    rw [hshare]
  have hlist : ∀ c, g₁.shaderObjectList c = g.shaderObjectList c := by
    intro c
    unfold shaderObjectList
    rw [howner]
    exact modify_field Context.shaderObjects fun _ => rfl
  simp only at hresult
  split_ifs at hresult with hzero
  · cases hresult
    subst hzero
    exact ⟨handler, halloc, hhandler, howner, fun c _ => ⟨[], by rw [hlist, List.append_nil],
      fun record hrecord => by cases hrecord⟩⟩
  · cases hresult
    refine ⟨handler, halloc, fun c kind => ?_, fun c => ?_, fun c hc =>
      ⟨[⟨result, type, false⟩], ?_, fun record hrecord => ?_⟩⟩
    · exact (congrFun nameHandler_setShaderObjectList kind).trans (hhandler c kind)
    · exact cacheOwner_setShaderObjectList.trans (howner c)
    · refine (shaderObjectList_setShaderObjectList ?_).trans ?_
      · rw [howner, howner, hc]
      · change g₁.shaderObjectList context ++ _ = _
        rw [hlist]
        unfold shaderObjectList
        rw [hc]
    · rw [List.mem_singleton.mp hrecord]
      exact ⟨rfl, hzero⟩

end Group

/-! ### What an operation does to the handlers -/

/-- Names may leave the handler of the context, which are those returned, and names given back
come to it. No other handler is changed, and no cache has another owner. -/
structure Hands (g g' : Group) (context : ℕ) (op : GroupOp) (names : List ℕ) : Prop where
  others : ∀ c kind, ¬ (c = context ∧ kind = op.kind) →
    g'.nameHandler c kind = g.nameHandler c kind
  owners : ∀ c, g'.cacheOwner c = g.cacheOwner c
  handler : ∃ n names' handler,
    allocNames (g.nameHandler context op.kind) n = some (names', handler) ∧
      names.Sublist names' ∧ (op.Generates ∨ names' = []) ∧
      g'.nameHandler context op.kind = deleteNames handler op.givenBack

@[simp] theorem deleteNames_nil : deleteNames handler [] = handler := by
  simp [deleteNames]

/-- An entry point that leaves the other handlers of its context. -/
theorem hands_setState {t : State}
    (hothers : op.kind ≠ .texture → t.textureNameHandler = (g context).own.textureNameHandler)
    (hothers' : op.kind ≠ .renderbuffer →
      t.renderbufferNameHandler = (g context).own.renderbufferNameHandler)
    (hhandler : ∃ n names' handler,
      allocNames (g.nameHandler context op.kind) n = some (names', handler) ∧
        names.Sublist names' ∧ (op.Generates ∨ names' = []) ∧
        (match op.kind with
          | .texture => t.textureNameHandler
          | .renderbuffer => t.renderbufferNameHandler
          | .shaderObject => (g context).shaderObjectsNameHandler) =
            deleteNames handler op.givenBack) :
    Hands g (g.setState context t) context op names := by
  refine ⟨fun c kind hne => ?_, fun c => Group.cacheOwner_setState, ?_⟩
  · rw [Group.nameHandler_setState]
    split_ifs with hc
    · subst hc
      have hkind' : kind ≠ op.kind := fun h => hne ⟨rfl, h⟩
      cases kind with
      | texture => exact hothers hkind'.symm
      | renderbuffer => exact hothers' hkind'.symm
      | shaderObject => rfl
    · rfl
  · obtain ⟨n, names', handler, halloc, hsub, hgen, heq⟩ := hhandler
    refine ⟨n, names', handler, halloc, hsub, hgen, ?_⟩
    rw [Group.nameHandler_setState, if_pos rfl]
    exact heq

theorem hands_createShaderObject {type : ShaderObjectType} {result : ℕ}
    (h : g.createShaderObject context type = some (g', result)) (hkind : op.kind = .shaderObject)
    (hgen : op.Generates) (hback : op.givenBack = []) :
    Hands g g' context op ([result].filter (· ≠ 0)) := by
  obtain ⟨handler, halloc, hhandler, howner, -⟩ := Group.createShaderObject_cases h
  refine ⟨fun c kind hne => ?_, howner, 1, [result], handler, ?_, List.filter_sublist, .inl hgen,
    ?_⟩
  · rw [hhandler, if_neg (hkind ▸ hne)]
  · rw [hkind]
    exact halloc
  · rw [hhandler, hkind, if_pos ⟨rfl, rfl⟩, hback, deleteNames_nil]

theorem hands_run (h : g.run context op = some (g', names)) : Hands g g' context op names := by
  cases op with
  | glGenTextures n =>
    obtain ⟨⟨names', handler⟩, halloc, hrest⟩ := Option.bind_eq_some_iff.mp h
    obtain ⟨⟨t, effects⟩, hgen, heq⟩ := Option.bind_eq_some_iff.mp hrest
    cases heq
    obtain ⟨cache, rfl, -⟩ := glGenTextures_spec halloc hgen
    exact hands_setState (fun h => absurd rfl h) (fun _ => rfl)
      ⟨n, names, handler, halloc, .refl _, .inl trivial, deleteNames_nil.symm⟩
  | glGenRenderbuffers n =>
    obtain ⟨⟨names', handler⟩, halloc, hrest⟩ := Option.bind_eq_some_iff.mp h
    obtain ⟨⟨t, effects⟩, hgen, heq⟩ := Option.bind_eq_some_iff.mp hrest
    cases heq
    obtain ⟨cache, rfl, -⟩ := glGenRenderbuffers_spec halloc hgen
    exact hands_setState (fun _ => rfl) (fun h => absurd rfl h)
      ⟨n, names, handler, halloc, .refl _, .inl trivial, deleteNames_nil.symm⟩
  | glCreateProgram =>
    obtain ⟨⟨u, result⟩, hcreate, heq⟩ := Option.bind_eq_some_iff.mp h
    cases heq
    exact hands_createShaderObject hcreate rfl trivial rfl
  | glCreateShader shaderType =>
    obtain ⟨⟨u, result⟩, hcreate, heq⟩ := Option.bind_eq_some_iff.mp h
    cases heq
    unfold Group.glCreateShader at hcreate
    split_ifs at hcreate with hvalid
    · exact hands_createShaderObject hcreate rfl trivial rfl
    · cases hcreate
      -- An invalid type takes no name.
      exact ⟨fun _ _ _ => rfl, fun _ => rfl, 0, [], g.nameHandler context .shaderObject, rfl,
        .refl _, .inr rfl, deleteNames_nil.symm⟩
  | glDeleteTextures textures =>
    obtain ⟨⟨t, effects⟩, hdelete, heq⟩ := Option.bind_eq_some_iff.mp h
    cases heq
    obtain ⟨⟨u, previous⟩, hloop, heq⟩ := Option.bind_eq_some_iff.mp hdelete
    cases heq
    have htexture := foldlM_round_eq (f := State.textureNameHandler)
      -- The names of textures are not given back.
      (fun hround => (deleteTexture_handlers hround).1) hloop
    have hrenderbuffer := foldlM_round_eq (f := State.renderbufferNameHandler)
      (fun hround => (deleteTexture_handlers hround).2.2) hloop
    exact hands_setState (fun _ => htexture) (fun _ => hrenderbuffer)
      ⟨0, [], _, rfl, .refl _, .inr rfl, htexture.trans deleteNames_nil.symm⟩
  | glDeleteRenderbuffers renderbuffers =>
    obtain ⟨⟨t, effects⟩, hdelete, heq⟩ := Option.bind_eq_some_iff.mp h
    cases heq
    obtain ⟨⟨u, previous⟩, hloop, heq⟩ := Option.bind_eq_some_iff.mp hdelete
    cases heq
    have htexture := foldlM_round_eq (f := State.textureNameHandler)
      -- Those of renderbuffers are, before the loop.
      (fun hround => (deleteRenderbuffer_handlers hround).1) hloop
    have hrenderbuffer := foldlM_round_eq (f := State.renderbufferNameHandler)
      (fun hround => (deleteRenderbuffer_handlers hround).2.2) hloop
    exact hands_setState (fun _ => htexture) (fun h => absurd rfl h)
      ⟨0, [], _, rfl, .refl _, .inr rfl, hrenderbuffer⟩
  | glDeleteProgram program =>
    cases h
    have hsame : ∀ list, Hands g (g.setShaderObjectList context list) context
        (.glDeleteProgram program) [] := by
      intro list
      refine ⟨fun c kind _ => congrFun Group.nameHandler_setShaderObjectList kind,
        fun c => Group.cacheOwner_setShaderObjectList, 0, [], _, rfl, .refl _, .inr rfl, ?_⟩
      rw [Group.nameHandler_setShaderObjectList]
      exact deleteNames_nil.symm
    unfold Group.glDeleteProgram
    cases g.lookupCachedShaderObject context program with
    | none => exact ⟨fun _ _ _ => rfl, fun _ => rfl, 0, [], _, rfl, .refl _, .inr rfl,
        deleteNames_nil.symm⟩
    | some object =>
      simp only
      split_ifs
      · exact hsame _
      · exact hsame _
  | glDeleteShader shader =>
    cases h
    exact ⟨fun _ _ _ => rfl, fun _ => rfl, 0, [], _, rfl, .refl _, .inr rfl,
      deleteNames_nil.symm⟩

/-! ### Names that are returned -/

/-- A handler has no name left twice, and none of an object that was generated with it. -/
structure Deals (handler : NameHandler) (live : ℕ → Prop) : Prop where
  lastName_lt : handler.lastName < uintMax
  supply_zero : supply handler 0 = 0
  supply_le_one : ∀ k, supply handler k ≤ 1
  supply_live : ∀ k, live k → supply handler k = 0

theorem Deals.mono (h : Deals handler live) (hlive : ∀ k, live' k → live k) :
    Deals handler live' :=
  ⟨h.lastName_lt, h.supply_zero, h.supply_le_one, fun k hk => h.supply_live k (hlive k hk)⟩

theorem Deals.take (h : Deals handler live)
    (halloc : allocNames handler n = some (names, handler')) :
    names.Nodup ∧ (∀ k ∈ names, supply handler k = 1) ∧
      Deals handler' (fun k => live k ∨ k ∈ names) := by
  obtain ⟨hlast, -, hsupply⟩ := supply_allocNames h.lastName_lt halloc
  have hone : ∀ k ∈ names, supply handler k = 1 := by
    intro k hk
    have hcount := List.count_pos_iff.mpr hk
    have := hsupply k
    have := h.supply_le_one k
    omega
  refine ⟨List.nodup_iff_count_le_one.mpr fun k => ?_, hone, hlast, ?_, fun k => ?_, fun k hk => ?_⟩
  · have := hsupply k
    have := h.supply_le_one k
    omega
  · have := hsupply 0
    have := h.supply_zero
    omega
  · have := hsupply k
    have := h.supply_le_one k
    omega
  · have hleft := hsupply k
    rcases hk with hlive | hmem
    · have := h.supply_live k hlive
      omega
    · have := hone k hmem
      have hcount := List.count_pos_iff.mpr hmem
      omega

theorem Deals.give (h : Deals handler live) (honce : buffers.Nodup)
    (hleft : ∀ b ∈ buffers, supply handler b = 0) :
    Deals (deleteNames handler buffers) (fun k => live k ∧ k ∉ buffers) := by
  have hcount : ∀ k, (buffers.filter (· ≠ 0)).count k ≤ 1 :=
    List.nodup_iff_count_le_one.mp (honce.filter _)
  refine ⟨h.lastName_lt, ?_, fun k => ?_, fun k hk => ?_⟩
  · rw [supply_deleteNames, h.supply_zero, List.count_eq_zero_of_not_mem (by simp)]
  · rw [supply_deleteNames]
    by_cases hk : k ∈ buffers
    · rw [hleft k hk]
      have := hcount k
      omega
    · rw [List.count_eq_zero_of_not_mem fun hmem => hk (List.mem_of_mem_filter hmem)]
      exact h.supply_le_one k
  · rw [supply_deleteNames, h.supply_live k hk.1,
      List.count_eq_zero_of_not_mem fun hmem => hk.2 (List.mem_of_mem_filter hmem)]

/-- The caches of context 0 are used, and every handler deals its own names. -/
structure Separate (h : GroupHistory) : Prop where
  owner : ∀ c, h.group.cacheOwner c = 0
  deals : ∀ c kind, Deals (h.group.nameHandler c kind) fun k => (c, k) ∈ h.live kind

theorem givenBack_sublist (op : GroupOp) : op.givenBack.Sublist op.deleted := by
  cases op <;> first | exact .refl _ | exact List.nil_sublist _

/-- Names that a handler returns are new, if it is apart. -/
theorem Separate.fresh (hs : Separate h) (hapart : Apart h context kind)
    (halloc : allocNames (h.group.nameHandler context kind) n = some (names, handler)) :
    names.Nodup ∧ ∀ name ∈ names, name ≠ 0 ∧ ∀ other, (other, name) ∉ h.live kind := by
  have hdeals := hs.deals context kind
  obtain ⟨hnodup, hone, -⟩ := hdeals.take halloc
  refine ⟨hnodup, fun name hname => ⟨?_, fun other hlive => ?_⟩⟩
  · rintro rfl
    have := hone 0 hname
    have := hdeals.supply_zero
    omega
  · have hleft := hone name hname
    -- The object is of this context, or of another one that the handler is apart from.
    by_cases hother : other = context
    · rw [hother] at hlive
      have := hdeals.supply_live name hlive
      omega
    · have hzero : supply (h.group.nameHandler context kind) name = 0 :=
        hapart (other, name) hlive hother
      omega

/-- A handler that is not apart returns a name in use, if enough names are asked for. -/
theorem Separate.fresh_iff_apart (hs : Separate h) : Apart h context kind ↔
    ∀ n names handler, allocNames (h.group.nameHandler context kind) n = some (names, handler) →
      ∀ name ∈ names, ∀ other, (other, name) ∉ h.live kind := by
  refine ⟨fun hapart n names handler halloc name hname => ((hs.fresh hapart halloc).2 name hname).2,
    fun hfresh => ?_⟩
  rintro ⟨other, name⟩ hlive hother
  obtain ⟨n, names, handler, halloc, hcount⟩ := exists_allocNames_count
    (h.group.nameHandler context kind) (hs.deals context kind).lastName_lt name
  rw [← hcount, List.count_eq_zero]
  exact fun hname => hfresh n names handler halloc name hname other hlive

theorem mem_live_step {object : ℕ × ℕ} :
    object ∈ Function.update h.live op.kind
      ((h.live op.kind ∪ names.toFinset.image (context, ·)).filter (·.2 ∉ op.deleted)) kind ↔
    if kind = op.kind then
      (object ∈ h.live kind ∨ object.1 = context ∧ object.2 ∈ names) ∧ object.2 ∉ op.deleted
    else object ∈ h.live kind := by
  obtain ⟨c, k⟩ := object
  rw [Function.update_apply]
  split_ifs with hkind
  · subst hkind
    simp only [Finset.mem_filter, Finset.mem_union, Finset.mem_image, List.mem_toFinset,
      Prod.mk.injEq]
    grind
  · rfl

/-- One operation. -/
theorem Separate.step (hs : Separate h) (hdelete : DeletesLive h (context, op))
    (hkeeps : KeepsApart h (context, op)) (hstep : h.step (context, op) = some h') :
    Separate h' := by
  obtain ⟨⟨g, names⟩, hrun, heq⟩ := Option.bind_eq_some_iff.mp hstep
  cases heq
  obtain ⟨hothers, howners, n, names', handler, halloc, hsub, hgen, hhandler⟩ := hands_run hrun
  refine ⟨fun c => (howners c).trans (hs.owner c), fun c kind => ?_⟩
  by_cases hsame : c = context ∧ kind = op.kind
  · obtain ⟨rfl, rfl⟩ := hsame
    obtain ⟨-, -, htake⟩ := (hs.deals c op.kind).take halloc
    -- The handler of the context and the kind: names are taken, and then others given back.
    have hsupply := (supply_allocNames (hs.deals c op.kind).lastName_lt halloc).2.2
    have hgive := htake.give (hdelete.1.sublist (givenBack_sublist op)) fun b hb => by
      have hzero : supply (h.group.nameHandler c op.kind) b = 0 := hkeeps.2 b hb
      have := hsupply b
      omega
    change Deals (g.nameHandler c op.kind) _
    rw [hhandler]
    refine hgive.mono fun k hk => ?_
    rw [mem_live_step, if_pos rfl] at hk
    exact ⟨hk.1.imp_right fun hk => hsub.subset hk.2,
      fun hmem => hk.2 ((givenBack_sublist op).subset hmem)⟩
  · change Deals (g.nameHandler c kind) _
    rw [hothers c kind hsame]
    refine (hs.deals c kind).mono fun k hk => ?_
    rw [mem_live_step] at hk
    split_ifs at hk with hkind
    · exact hk.1.resolve_right fun hnew => hsame ⟨hnew.1, hkind⟩
    · exact hk

theorem deals_create (hlive : ∀ k, ¬ live k) : Deals nameHandlerCreate live := by
  refine ⟨by decide, rfl, fun k => ?_, fun k hk => absurd hk (hlive k)⟩
  change 0 + (if 0 < k ∧ k < uintMax then 1 else 0) ≤ 1
  split_ifs <;> omega

theorem separate_init {memory : ℕ → ℕ} : Separate ⟨.init memory, fun _ => ∅⟩ := by
  refine ⟨fun c => ?_, fun c kind => ?_⟩
  · simp only [Group.cacheOwner, Group.init]
    split_ifs with hc
    · exact hc
    · rfl
  · have hcreate : (Group.init memory).nameHandler c kind = nameHandlerCreate := by
      cases kind <;> rfl
    change Deals ((Group.init memory).nameHandler c kind) _
    rw [hcreate]
    exact deals_create fun k hk => Finset.notMem_empty _ hk

theorem separate_of_keepsApart
    (h₀ : (groupSystem.guarded fun h op => DeletesLive h op ∧ KeepsApart h op).Reachable h) :
    Separate h := by
  refine System.Invariant.holds ⟨?_, ?_⟩ h₀
  · rintro _ ⟨memory, rfl⟩
    exact separate_init
  · rintro h ⟨context, op⟩ h' - hs ⟨⟨hdelete, hkeeps⟩, hstep⟩
    exact hs.step hdelete hkeeps hstep

/-! ### The records -/

/-- All contexts of the group see the same caches. -/
theorem state_caches (howner : g.cacheOwner c = g.cacheOwner context) :
    (g.state c).textureCache = (g.state context).textureCache ∧
      (g.state c).renderbufferCache = (g.state context).renderbufferCache := by
  unfold Group.state
  rw [howner]
  exact ⟨rfl, rfl⟩

theorem sameRecord_createShaderObject {type : ShaderObjectType} {result : ℕ}
    (howner : g.cacheOwner c = g.cacheOwner context)
    (h : g.createShaderObject context type = some (g', result))
    (hname : name ∉ [result].filter (· ≠ 0)) : SameRecord g g' c name .shaderObject := by
  obtain ⟨handler, -, -, -, hlists⟩ := Group.createShaderObject_cases h
  obtain ⟨records, hlist, hids⟩ := hlists c howner
  -- The new record has another name, so that the one found is as before.
  have hnone : records.find? (·.id = name) = none := by
    rw [List.find?_eq_none]
    intro record hrecord hid
    obtain ⟨hresult, hzero⟩ := hids record hrecord
    have hid' : record.id = name := of_decide_eq_true hid
    refine hname (List.mem_filter.mpr ⟨?_, decide_eq_true ?_⟩)
    · rw [List.mem_singleton, ← hid', hresult]
    · rwa [← hid', hresult]
  change (g'.shaderObjectList c).find? (·.id = name) = (g.shaderObjectList c).find? (·.id = name)
  rw [hlist, List.find?_append, hnone, Option.or_none]

/-- Names that are returned get records, and no other record is changed. -/
theorem sameRecord_run (howner : g.cacheOwner c = g.cacheOwner context) (hgen : op.Generates)
    (hrun : g.run context op = some (g', names)) (hname : name ∉ names) :
    SameRecord g g' c name op.kind := by
  cases op with
  | glGenTextures n =>
    obtain ⟨⟨names', handler⟩, halloc, hrest⟩ := Option.bind_eq_some_iff.mp hrun
    obtain ⟨⟨t, effects⟩, hgen, heq⟩ := Option.bind_eq_some_iff.mp hrest
    cases heq
    obtain ⟨cache, rfl, hcache⟩ := glGenTextures_spec halloc hgen
    change hashLookup ((g.setState context _).state c).textureCache name =
      hashLookup (g.state c).textureCache name
    rw [(Group.caches_setState howner).1, (state_caches howner).1]
    exact (hcache name).trans (if_neg hname)
  | glGenRenderbuffers n =>
    obtain ⟨⟨names', handler⟩, halloc, hrest⟩ := Option.bind_eq_some_iff.mp hrun
    obtain ⟨⟨t, effects⟩, hgen, heq⟩ := Option.bind_eq_some_iff.mp hrest
    cases heq
    obtain ⟨cache, rfl, hcache⟩ := glGenRenderbuffers_spec halloc hgen
    change hashLookup ((g.setState context _).state c).renderbufferCache name =
      hashLookup (g.state c).renderbufferCache name
    rw [(Group.caches_setState howner).2, (state_caches howner).2]
    exact (hcache name).trans (if_neg hname)
  | glCreateProgram =>
    obtain ⟨⟨u, result⟩, hcreate, heq⟩ := Option.bind_eq_some_iff.mp hrun
    cases heq
    exact sameRecord_createShaderObject howner hcreate hname
  | glCreateShader shaderType =>
    obtain ⟨⟨u, result⟩, hcreate, heq⟩ := Option.bind_eq_some_iff.mp hrun
    cases heq
    unfold Group.glCreateShader at hcreate
    split_ifs at hcreate with hvalid
    · exact sameRecord_createShaderObject howner hcreate hname
    · cases hcreate
      rfl
  | _ => exact hgen.elim

/-! ### Whole runs -/

/-- In every run whose operations keep the contexts apart, no name that is returned is in
use, and the record of no object is replaced. A handler returns no name in use, however many
it is asked for, if and only if it is apart. -/
theorem names_unique
    (h₀ : (groupSystem.guarded fun h op => DeletesLive h op ∧ KeepsApart h op).Reachable h) :
    (∀ context op g' names, op.Generates → KeepsApart h (context, op) →
      h.group.run context op = some (g', names) →
        names.Nodup ∧ (∀ name ∈ names, name ≠ 0 ∧ ∀ other, (other, name) ∉ h.live op.kind) ∧
        ∀ object ∈ h.live op.kind, ∀ c, SameRecord h.group g' c object.2 op.kind) ∧
    ∀ context kind, Apart h context kind ↔ ∀ n names handler,
      allocNames (h.group.nameHandler context kind) n = some (names, handler) →
        ∀ name ∈ names, ∀ other, (other, name) ∉ h.live kind := by
  have hs := separate_of_keepsApart h₀
  refine ⟨fun context op g' names hgen hkeeps hrun => ?_, fun context kind => hs.fresh_iff_apart⟩
  obtain ⟨-, -, n, names', handler, halloc, hsub, -, -⟩ := hands_run hrun
  obtain ⟨hnodup, hfresh⟩ := hs.fresh (hkeeps.1 hgen) halloc
  refine ⟨hnodup.sublist hsub, fun name hname => hfresh name (hsub.subset hname), ?_⟩
  rintro ⟨other, name⟩ hlive c
  exact sameRecord_run ((hs.owner c).trans (hs.owner context).symm) hgen hrun fun hname =>
    (hfresh name (hsub.subset hname)).2 other hlive

instance : DecidablePred GroupOp.Generates
  | .glGenTextures _ | .glGenRenderbuffers _ | .glCreateProgram | .glCreateShader _ =>
    inferInstanceAs (Decidable True)
  | .glDeleteTextures _ | .glDeleteRenderbuffers _ | .glDeleteProgram _ | .glDeleteShader _ =>
    inferInstanceAs (Decidable False)

instance {context : ℕ} {kind : SharedKind} : Decidable (Apart h context kind) :=
  inferInstanceAs (Decidable (∀ object ∈ h.live kind, _ → _))

instance : DecidableRel DeletesLive := fun _ _ => inferInstanceAs (Decidable (_ ∧ _))

instance : DecidableRel KeepsApart := fun _ _ => inferInstanceAs (Decidable (_ ∧ _))

/-- One context generates two textures and deletes them, a second one generates two, and then
the first one again. -/
theorem names_unique_third : ∃ h g' names,
    (groupSystem.guarded fun h op => DeletesLive h op ∧ KeepsApart h op).Reachable h ∧
      h.group.run 1 (.glGenTextures 1) = some (g', names) ∧ names = [3] ∧
      ∀ other, (other, 3) ∉ h.live .texture := by
  let ops : List (ℕ × GroupOp) :=
    [(1, .glGenTextures 2), (1, .glDeleteTextures [1, 2]), (0, .glGenTextures 2)]
  let run := ops.foldlM
    (fun (h : GroupHistory) op =>
      if decide (DeletesLive h op ∧ KeepsApart h op) then h.step op else none)
    ⟨Group.init fun _ => 0, fun _ => ∅⟩
  have hresult : run.map (fun h => ((h.group.run 1 (.glGenTextures 1)).map Prod.snd,
      decide (KeepsApart h (1, .glGenTextures 1)))) = some (some [3], true) := by
    decide +kernel
  obtain ⟨h, hrun, hlast⟩ := Option.map_eq_some_iff.mp hresult
  rw [Prod.mk.injEq, decide_eq_true_eq] at hlast
  obtain ⟨⟨g', names⟩, hgen, rfl⟩ := Option.map_eq_some_iff.mp hlast.1
  have hreach := System.guarded_of_foldlM (S := groupSystem)
    (G := fun h op => DeletesLive h op ∧ KeepsApart h op) (fun _ _ _ h => h)
    (fun _ _ h => of_decide_eq_true h) (.init ⟨fun _ => 0, rfl⟩) hrun
  obtain ⟨-, hfresh, -⟩ := (names_unique hreach).1 1 (.glGenTextures 1) g' _ trivial hlast.2 hgen
  exact ⟨h, g', _, hreach, hgen, rfl, (hfresh 3 (List.mem_singleton_self 3)).2⟩

/-- Two contexts that each generate a texture both get the name 1. -/
theorem exists_shared_name : ∃ h g' names,
    (groupSystem.guarded fun h op => DeletesLive h op).Reachable h ∧
      h.group.run 1 (.glGenTextures 1) = some (g', names) ∧ 1 ∈ names ∧
      (0, 1) ∈ h.live .texture := by
  let ops : List (ℕ × GroupOp) := [(0, .glGenTextures 1)]
  let run := ops.foldlM
    (fun (h : GroupHistory) op => if decide (DeletesLive h op) then h.step op else none)
    ⟨Group.init fun _ => 0, fun _ => ∅⟩
  have hresult : run.map (fun h => ((h.group.run 1 (.glGenTextures 1)).map Prod.snd,
      decide ((0, 1) ∈ h.live .texture))) = some (some [1], true) := by
    decide +kernel
  obtain ⟨h, hrun, hlast⟩ := Option.map_eq_some_iff.mp hresult
  rw [Prod.mk.injEq, decide_eq_true_eq] at hlast
  obtain ⟨⟨g', names⟩, hgen, rfl⟩ := Option.map_eq_some_iff.mp hlast.1
  have hreach := System.guarded_of_foldlM (S := groupSystem) (G := fun h op => DeletesLive h op)
    (fun _ _ _ h => h) (fun _ _ h => of_decide_eq_true h) (.init ⟨fun _ => 0, rfl⟩) hrun
  exact ⟨h, g', _, hreach, hgen, List.mem_singleton_self 1, hlast.2⟩

end GpuProxy.Objects
