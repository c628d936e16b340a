import GpuProxy.Math.TransitionSystem
import GpuProxy.Objects.ShareGroup
import Mathlib.Logic.Relation

/-!
# Programs in use

A program that is deleted while it is in use stays in the list of shader objects, marked, until
it is no longer used. The list may be one of several contexts, but whether a program is in use
is only looked up on the context that makes the call. Here is when a list has the programs that
are not deleted and those that some context still uses.

## Main definitions

* `Group.glUseProgram` — using a program
* `ProgramHistory`, `programSystem` — creating, using and deleting on the contexts of a group
* `KnownWhileUsed` — a list has the programs that are not deleted, and those in use
* `KeepsUsed` — the calls that only remove programs that no context uses

## Main results

* `knownWhileUsed_of_keepsUsed` — whole runs
* `exists_used_unknown` — a program that another context uses is deleted
-/

namespace GpuProxy.Objects

open Math Names GlState

/-- The calls that create, use and delete programs. -/
inductive ProgramOp
  | glCreateProgram
  | glUseProgram (program : ℕ)
  | glDeleteProgram (program : ℕ)
  deriving DecidableEq, Repr

namespace Group

variable (g : Group) (context : ℕ)

/-- The error that `egl_state_lookup_cached_program_err` records, if it does not find a
program. -/
def programError (id error : ℕ) : Option ℕ :=
  match g.lookupCachedShaderObject context id with
  | none => some error
  | some object => if object.type ≠ .program then some glInvalidOperation else none

/-- `egl_state_destroy_cached_shader_object`, for the object that is found by its name. -/
def destroyCachedShaderObject (id : ℕ) : Group :=
  g.setShaderObjectList context ((g.shaderObjectList context).eraseP (·.id = id))

/-- `caching_client_glUseProgram`. -/
def glUseProgram (program : ℕ) : Group × List (Effect ProgramOp) :=
  if (g context).currentProgram = program then (g, [])
  else
    match if program ≠ 0 then g.programError context program glInvalidValue else none with
    | some error => (g, [.setError error])
    | none =>
      let g' :=
        -- The program in use before may have been marked.
        match g.lookupCachedShaderObject context (g context).currentProgram with
        | none => g
        | some object =>
          if object.markForDeletion then g.destroyCachedShaderObject context object.id else g
      (g'.modify context ({ · with currentProgram := program }), [.forward (.glUseProgram program)])

/-- Contexts that were just created, each with the share context it was created with. -/
def sharing (share : ℕ → Option ℕ) (memory : ℕ → ℕ) : Group := fun context =>
  { init memory context with shareContext := share context }

end Group

/-- Two contexts are in one share group if one was created with the other as its share
context, or if there are such contexts in between. -/
def SameShareGroup (share : ℕ → Option ℕ) : ℕ → ℕ → Prop :=
  Relation.EqvGen fun c c' => share c = some c'

/-- A share context was created with no share context. -/
def Flat (share : ℕ → Option ℕ) : Prop := ∀ c c', share c = some c' → share c' = none

/-- Contexts, with the programs that were created and those that were deleted: for each the
context that has the list, and the name. -/
structure ProgramHistory where
  group : Group
  created : Finset (ℕ × ℕ)
  deleted : Finset (ℕ × ℕ)

namespace ProgramHistory

variable (h : ProgramHistory)

/-- An operation on a context. A name that is created is that of a new program. -/
def step : ℕ × ProgramOp → Option ProgramHistory
  | (context, .glCreateProgram) => do
    let (g, result) ← h.group.glCreateProgram context
    if result = 0 then return { h with group := g }
    let object := (h.group.cacheOwner context, result)
    return ⟨g, insert object h.created, h.deleted.erase object⟩
  | (context, .glUseProgram program) =>
    some { h with group := (h.group.glUseProgram context program).1 }
  | (context, .glDeleteProgram program) =>
    some
      { h with
        group := h.group.glDeleteProgram context program
        deleted := insert (h.group.cacheOwner context, program) h.deleted }

/-- A program is current on some context of the share group. -/
def Used (share : ℕ → Option ℕ) (context program : ℕ) : Prop :=
  ∃ c, SameShareGroup share context c ∧ (h.group c).currentProgram = program

/-- The list of a share group has the programs that are not deleted, and those in use. -/
structure KnownWhileUsed (share : ℕ → Option ℕ) : Prop where
  /-- A program in use is in the list once. -/
  used : ∀ context program, program ≠ 0 → h.Used share context program →
    ∃ object, (h.group.shaderObjectList context).filter (·.id = program) = [object] ∧
      object.type = .program
  /-- A program that is marked is in use. -/
  marked : ∀ context, ∀ object ∈ h.group.shaderObjectList context,
    object.type = .program → object.markForDeletion = true → h.Used share context object.id
  /-- A program leaves the list when it is deleted and not in use. -/
  listed_iff : ∀ context program,
    (∃ object ∈ h.group.shaderObjectList context, object.id = program) ↔
      (h.group.cacheOwner context, program) ∈ h.created ∧
        ¬ ((h.group.cacheOwner context, program) ∈ h.deleted ∧ ¬ h.Used share context program)

/-- The calls that only remove programs that no context uses, and create none with a name in
the list. -/
def KeepsUsed : ℕ × ProgramOp → Prop
  | (context, .glCreateProgram) =>
    ∀ names handler, allocNames (h.group context).shaderObjectsNameHandler 1 =
      some (names, handler) → ∀ object ∈ h.group.shaderObjectList context, object.id ∉ names
  | (context, .glUseProgram program) =>
    -- The program in use before is removed if it is marked.
    (h.group context).currentProgram ≠ program →
      (program ≠ 0 → h.group.programError context program glInvalidValue = none) →
      ∀ object, h.group.lookupCachedShaderObject context (h.group context).currentProgram =
        some object → object.markForDeletion = true →
      ∀ c ≠ context, h.group.cacheOwner c = h.group.cacheOwner context →
        (h.group c).currentProgram ≠ (h.group context).currentProgram
  | (context, .glDeleteProgram program) =>
    program ≠ 0 → (h.group context).currentProgram ≠ program →
      ∀ c, h.group.cacheOwner c = h.group.cacheOwner context →
        (h.group c).currentProgram ≠ program

end ProgramHistory

/-- All runs on contexts that were created with given share contexts. -/
def programSystem (share : ℕ → Option ℕ) : System ProgramHistory (ℕ × ProgramOp) :=
  System.ofStep (fun h => ∃ memory, h = ⟨.sharing share memory, ∅, ∅⟩) ProgramHistory.step

variable {share : ℕ → Option ℕ} {g g' : Group} {h h' : ProgramHistory}
  {context c p current current' : ℕ} {list list' : List ShaderObject}
  {created deleted : Finset (ℕ × ℕ)}

/-! ### What an operation changes -/

/-- The list that a context uses and its current program, and nothing else about programs but
the handlers of names. -/
structure Changes (g g' : Group) (context : ℕ) (list : List ShaderObject) (current : ℕ) :
    Prop where
  share : ∀ c, (g' c).shareContext = (g c).shareContext
  list : ∀ c, g'.shaderObjectList c =
    if g.cacheOwner c = g.cacheOwner context then list else g.shaderObjectList c
  current : ∀ c, (g' c).currentProgram = if c = context then current else (g c).currentProgram

theorem Changes.cacheOwner (h : Changes g g' context list current) (c : ℕ) :
    g'.cacheOwner c = g.cacheOwner c := by
  unfold Group.cacheOwner
  rw [h.share]

theorem Changes.refl :
    Changes g g context (g.shaderObjectList context) (g context).currentProgram := by
  refine ⟨fun _ => rfl, fun c => ?_, fun c => ?_⟩
  · split_ifs with howner
    · unfold Group.shaderObjectList
      rw [howner]
    · rfl
  · split_ifs with hc
    · rw [hc]
    · rfl

/-- What the list of a context is not. -/
theorem Group.setShaderObjectList_field {α : Type} (field : Context → α)
    (h : ∀ ctx list, field { ctx with shaderObjects := list } = field ctx) :
    field ((g.setShaderObjectList context list) c) = field (g c) :=
  Group.modify_field field fun ctx => h ctx list

/-- The list is written after other changes. -/
theorem Changes.setShaderObjectList (h : Changes g g' context list current) :
    Changes g (g'.setShaderObjectList context list') context list' current := by
  refine ⟨fun c => ?_, fun c => ?_, fun c => ?_⟩
  · exact (Group.setShaderObjectList_field Context.shareContext fun _ _ => rfl).trans (h.share c)
  · split_ifs with howner
    · exact Group.shaderObjectList_setShaderObjectList (by rw [h.cacheOwner, h.cacheOwner, howner])
    · -- Another context has the list of this one.
      have hother : (g'.setShaderObjectList context list').shaderObjectList c =
          g'.shaderObjectList c := by
        unfold Group.shaderObjectList
        rw [Group.cacheOwner_setShaderObjectList, Group.setShaderObjectList, Group.modify_apply,
          if_neg (by rwa [h.cacheOwner, h.cacheOwner])]
      rw [hother, h.list, if_neg howner]
  · exact (Group.setShaderObjectList_field Context.currentProgram fun _ _ => rfl).trans
      (h.current c)

/-- A write to the context that leaves its list. -/
theorem Changes.modify (h : Changes g g' context list current) {f : Context → Context}
    (hshare : ∀ ctx, (f ctx).shareContext = ctx.shareContext)
    (hlist : ∀ ctx, (f ctx).shaderObjects = ctx.shaderObjects)
    (hcurrent : (f (g' context)).currentProgram = current') :
    Changes g (g'.modify context f) context list current' := by
  have hshare' : ∀ c, ((g'.modify context f) c).shareContext = (g' c).shareContext :=
    fun c => Group.modify_field Context.shareContext hshare
  refine ⟨fun c => (hshare' c).trans (h.share c), fun c => ?_, fun c => ?_⟩
  · rw [← h.list c]
    unfold Group.shaderObjectList Group.cacheOwner
    rw [hshare']
    exact Group.modify_field Context.shaderObjects hlist
  · rw [Group.modify_apply]
    split_ifs with hc
    · exact hcurrent
    · rw [h.current, if_neg hc]

theorem Group.shaderObjectsNameHandler_glDeleteProgram :
    ((g.glDeleteProgram context p) c).shaderObjectsNameHandler =
      (g c).shaderObjectsNameHandler := by
  unfold Group.glDeleteProgram
  cases g.lookupCachedShaderObject context p with
  | none => rfl
  | some object =>
    dsimp only
    split_ifs <;>
    exact Group.setShaderObjectList_field Context.shaderObjectsNameHandler fun _ _ => rfl

theorem Group.shaderObjectsNameHandler_glUseProgram :
    ((g.glUseProgram context p).1 c).shaderObjectsNameHandler =
      (g c).shaderObjectsNameHandler := by
  have hlist : ∀ list, ((g.setShaderObjectList context list) c).shaderObjectsNameHandler =
      (g c).shaderObjectsNameHandler := fun list =>
    Group.setShaderObjectList_field Context.shaderObjectsNameHandler fun _ _ => rfl
  have huse : ∀ g' : Group, (g' c).shaderObjectsNameHandler = (g c).shaderObjectsNameHandler →
      ((g'.modify context ({ · with currentProgram := p })) c).shaderObjectsNameHandler =
        (g c).shaderObjectsNameHandler := by
    intro g' h
    rw [← h]
    exact Group.modify_field Context.shaderObjectsNameHandler fun _ => rfl
  unfold Group.glUseProgram
  split
  · rfl
  · split
    · rfl
    · refine huse _ ?_
      cases g.lookupCachedShaderObject context (g context).currentProgram with
      | none => rfl
      | some object =>
        dsimp only
        split_ifs
        · exact hlist _
        · rfl

/-- A new program comes last in the list, unless the handler returned 0. -/
theorem changes_glCreateProgram {result : ℕ} (h : g.glCreateProgram context = some (g', result)) :
    (∃ handler, allocNames (g context).shaderObjectsNameHandler 1 = some ([result], handler) ∧
      (g' context).shaderObjectsNameHandler = handler) ∧
    Changes g g' context
      (g.shaderObjectList context ++ if result = 0 then [] else [⟨result, .program, false⟩])
      (g context).currentProgram := by
  obtain ⟨⟨names, handler⟩, halloc, hrest⟩ := Option.bind_eq_some_iff.mp h
  obtain ⟨first, hfirst, hresult⟩ := Option.bind_eq_some_iff.mp hrest
  obtain ⟨name, rfl⟩ := List.length_eq_one_iff.mp (length_allocNames halloc)
  cases hfirst
  have hhandler : Changes g
      (g.modify context ({ · with shaderObjectsNameHandler := handler })) context
      (g.shaderObjectList context) (g context).currentProgram :=
    Changes.refl.modify (fun _ => rfl) (fun _ => rfl) rfl
  simp only at hresult
  split_ifs at hresult with hzero
  · cases hresult
    subst hzero
    refine ⟨⟨handler, halloc, ?_⟩, ?_⟩
    · rw [Group.modify_apply, if_pos rfl]
    · rw [if_pos rfl, List.append_nil]
      exact hhandler
  · cases hresult
    refine ⟨⟨handler, halloc, ?_⟩, ?_⟩
    · refine (Group.setShaderObjectList_field Context.shaderObjectsNameHandler
        fun _ _ => rfl).trans ?_
      rw [Group.modify_apply, if_pos rfl]
    · have hlist := hhandler.list context
      rw [if_pos rfl] at hlist
      rw [if_neg hzero, ← hlist]
      exact hhandler.setShaderObjectList

/-! ### Lists of objects with different names -/

/-- An object with a name is marked. -/
def ShaderObject.mark (program : ℕ) (object : ShaderObject) : ShaderObject :=
  if object.id = program then { object with markForDeletion := true } else object

@[simp] theorem ShaderObject.id_mark {object : ShaderObject} : (object.mark p).id = object.id := by
  unfold ShaderObject.mark
  split_ifs <;> rfl

@[simp] theorem ShaderObject.type_mark {object : ShaderObject} :
    (object.mark p).type = object.type := by
  unfold ShaderObject.mark
  split_ifs <;> rfl

theorem find?_eq_some_iff (hnodup : (list.map (·.id)).Nodup) {object : ShaderObject} :
    list.find? (·.id = p) = some object ↔ object ∈ list ∧ object.id = p := by
  constructor
  · intro h
    exact ⟨List.mem_of_find?_eq_some h, by simpa using List.find?_some h⟩
  · rintro ⟨hmem, hid⟩
    cases hfind : list.find? (·.id = p) with
    | none => exact absurd hid (by simpa using List.find?_eq_none.mp hfind object hmem)
    | some other =>
      have hother : other.id = p := by simpa using List.find?_some hfind
      rw [List.inj_on_of_nodup_map hnodup (List.mem_of_find?_eq_some hfind) hmem
        (hother.trans hid.symm)]

theorem eraseP_eq_filter (hnodup : (list.map (·.id)).Nodup) :
    list.eraseP (·.id = p) = list.filter (·.id ≠ p) := by
  induction list with
  | nil => rfl
  | cons object rest ih =>
    obtain ⟨hnew, hrest⟩ := List.nodup_cons.mp hnodup
    by_cases hid : object.id = p
    · rw [List.eraseP_cons_of_pos (by simpa using hid),
        List.filter_cons_of_neg (by simpa using hid)]
      refine (List.filter_eq_self.mpr fun other hother => ?_).symm
      rw [decide_eq_true_eq]
      exact fun heq => hnew (List.mem_map.mpr ⟨other, hother, heq.trans hid.symm⟩)
    · rw [List.eraseP_cons_of_neg (by simpa using hid),
        List.filter_cons_of_pos (by simpa using hid), ih hrest]

theorem modify_eq_map (hnodup : (list.map (·.id)).Nodup) :
    list.modify (list.findIdx (·.id = p)) ({ · with markForDeletion := true }) =
      list.map (ShaderObject.mark p) := by
  induction list with
  | nil => rfl
  | cons object rest ih =>
    obtain ⟨hnew, hrest⟩ := List.nodup_cons.mp hnodup
    rw [List.map_cons, List.findIdx_cons]
    by_cases hid : object.id = p
    · have hothers : rest.map (ShaderObject.mark p) = rest := by
        refine (List.map_congr_left fun other hother => ?_).trans (List.map_id rest)
        exact if_neg fun heq => hnew (List.mem_map.mpr ⟨other, hother, heq.trans hid.symm⟩)
      simp [hid, ShaderObject.mark, hothers]
    · simp [hid, ShaderObject.mark, ih hrest]

theorem filter_eq_singleton (hnodup : (list.map (·.id)).Nodup) {object : ShaderObject}
    (hmem : object ∈ list) : list.filter (·.id = object.id) = [object] := by
  induction list with
  | nil => cases hmem
  | cons other rest ih =>
    obtain ⟨hnew, hrest⟩ := List.nodup_cons.mp hnodup
    rcases List.mem_cons.mp hmem with rfl | hmem
    · rw [List.filter_cons_of_pos (by simp), List.filter_eq_nil_iff.mpr]
      intro other hother hid
      exact hnew (List.mem_map.mpr ⟨other, hother, by simpa using hid⟩)
    · have hne : other.id ≠ object.id :=
        fun heq => hnew (List.mem_map.mpr ⟨object, hmem, heq.symm⟩)
      rw [List.filter_cons_of_neg (by simpa using hne), ih hrest hmem]

/-! ### The list after a call -/

/-- A deleted program leaves the list, unless the context uses it; then it is marked. -/
theorem changes_glDeleteProgram (hnodup : ((g.shaderObjectList context).map (·.id)).Nodup) :
    Changes g (g.glDeleteProgram context p) context
      (((g.shaderObjectList context).filter
        fun object => object.id ≠ p ∨ p = (g context).currentProgram).map (ShaderObject.mark p))
      (g context).currentProgram := by
  unfold Group.glDeleteProgram
  cases hfind : g.lookupCachedShaderObject context p with
  | none =>
    have hnone : ∀ object ∈ g.shaderObjectList context, object.id ≠ p := by
      simpa using List.find?_eq_none.mp hfind
    have hmark : ((g.shaderObjectList context).filter
        fun object => object.id ≠ p ∨ p = (g context).currentProgram).map (ShaderObject.mark p) =
          g.shaderObjectList context := by
      rw [List.filter_eq_self.mpr fun object hobject =>
        decide_eq_true (.inl (hnone object hobject))]
      exact (List.map_congr_left fun object hobject => if_neg (hnone object hobject)).trans
        (List.map_id _)
    rw [hmark]
    exact .refl
  | some object =>
    have hid : object.id = p := ((find?_eq_some_iff hnodup).mp hfind).2
    dsimp only
    split_ifs with hcurrent
    · rw [modify_eq_map hnodup, List.filter_eq_self.mpr fun _ _ => decide_eq_true
        (.inr (hid.symm.trans hcurrent))]
      exact Changes.refl.setShaderObjectList
    · have hmark : ((g.shaderObjectList context).filter
          fun object => object.id ≠ p ∨ p = (g context).currentProgram).map (ShaderObject.mark p) =
            (g.shaderObjectList context).filter (·.id ≠ p) := by
        have hne : p ≠ (g context).currentProgram := hid ▸ hcurrent
        simp only [hne, or_false]
        refine (List.map_congr_left fun other hother => ?_).trans (List.map_id _)
        exact if_neg (by simpa using (List.mem_filter.mp hother).2)
      rw [hmark, eraseP_eq_filter hnodup]
      exact Changes.refl.setShaderObjectList

/-- The program in use before leaves the list if it is marked, and then another one is used. -/
theorem changes_leave (hnodup : ((g.shaderObjectList context).map (·.id)).Nodup) :
    Changes g
      ((match g.lookupCachedShaderObject context (g context).currentProgram with
        | none => g
        | some object =>
          if object.markForDeletion then g.destroyCachedShaderObject context object.id
          else g).modify context ({ · with currentProgram := p })) context
      ((g.shaderObjectList context).filter fun object =>
        ¬ (object.id = (g context).currentProgram ∧ object.markForDeletion = true)) p := by
  cases hfind : g.lookupCachedShaderObject context (g context).currentProgram with
  | none =>
    have hnone : ∀ object ∈ g.shaderObjectList context,
        object.id ≠ (g context).currentProgram := by
      simpa using List.find?_eq_none.mp hfind
    have hfilter : ((g.shaderObjectList context).filter fun object =>
        ¬ (object.id = (g context).currentProgram ∧ object.markForDeletion = true)) =
          g.shaderObjectList context :=
      List.filter_eq_self.mpr fun object hobject =>
        decide_eq_true fun h => hnone object hobject h.1
    rw [hfilter]
    exact Changes.refl.modify (fun _ => rfl) (fun _ => rfl) rfl
  | some object =>
    obtain ⟨hmem, hid⟩ := (find?_eq_some_iff hnodup).mp hfind
    -- No other object has the name.
    have hsame : ∀ other ∈ g.shaderObjectList context,
        other.id = (g context).currentProgram → other = object := fun other hother heq =>
      List.inj_on_of_nodup_map hnodup hother hmem (heq.trans hid.symm)
    dsimp only
    split_ifs with hmarked
    · have hfilter : ((g.shaderObjectList context).filter fun other =>
          ¬ (other.id = (g context).currentProgram ∧ other.markForDeletion = true)) =
            (g.shaderObjectList context).eraseP (·.id = object.id) := by
        rw [eraseP_eq_filter hnodup, hid]
        refine List.filter_congr fun other hother => ?_
        rw [decide_eq_decide]
        refine not_congr ⟨fun h => h.1, fun h => ⟨h, ?_⟩⟩
        rw [hsame other hother h]
        exact hmarked
      rw [hfilter]
      exact Changes.refl.setShaderObjectList.modify (fun _ => rfl) (fun _ => rfl) rfl
    · have hfilter : ((g.shaderObjectList context).filter fun other =>
          ¬ (other.id = (g context).currentProgram ∧ other.markForDeletion = true)) =
            g.shaderObjectList context :=
        List.filter_eq_self.mpr fun other hother =>
          decide_eq_true fun h => hmarked (hsame other hother h.1 ▸ h.2)
      rw [hfilter]
      exact Changes.refl.modify (fun _ => rfl) (fun _ => rfl) rfl

/-- A program is used if it is known. -/
theorem changes_glUseProgram (hnodup : ((g.shaderObjectList context).map (·.id)).Nodup) :
    (g.glUseProgram context p).1 = g ∨
      (g context).currentProgram ≠ p ∧
      (p ≠ 0 → g.programError context p glInvalidValue = none) ∧
      Changes g (g.glUseProgram context p).1 context
        ((g.shaderObjectList context).filter fun object =>
          ¬ (object.id = (g context).currentProgram ∧ object.markForDeletion = true)) p := by
  unfold Group.glUseProgram
  split_ifs with hsame hzero
  · exact .inl rfl
  · cases herror : g.programError context p glInvalidValue with
    | some error => exact .inl rfl
    | none => exact .inr ⟨hsame, fun _ => rfl, changes_leave hnodup⟩
  · exact .inr ⟨hsame, fun hp => absurd hp hzero, changes_leave hnodup⟩

/-! ### Runs -/

/-- The list of a context has a program with the name. -/
def Group.Lists (g : Group) (context program : ℕ) : Prop :=
  program ∈ (g.shaderObjectList context).map (·.id)

/-- A context with the same list uses a program. -/
def Group.Uses (g : Group) (context program : ℕ) : Prop :=
  ∃ c, g.cacheOwner c = g.cacheOwner context ∧ (g c).currentProgram = program

/-- The lists have programs with different names, marked if they were deleted: those that were
not deleted, and those in use. -/
structure Tracked (share : ℕ → Option ℕ) (h : ProgramHistory) : Prop where
  share : ∀ c, (h.group c).shareContext = share c
  nodup : ∀ c, ((h.group.shaderObjectList c).map (·.id)).Nodup
  program : ∀ c, ∀ object ∈ h.group.shaderObjectList c, object.type = .program ∧ object.id ≠ 0
  marked : ∀ c, ∀ object ∈ h.group.shaderObjectList c, object.markForDeletion = true ↔
    (h.group.cacheOwner c, object.id) ∈ h.deleted
  listed : ∀ c p, h.group.Lists c p ↔ (h.group.cacheOwner c, p) ∈ h.created ∧
    ((h.group.cacheOwner c, p) ∈ h.deleted → h.group.Uses c p)
  current : ∀ c, (h.group c).currentProgram ≠ 0 → h.group.Lists c (h.group c).currentProgram
  created_ne : ∀ owner, (owner, 0) ∉ h.created

/-- Contexts with the same list use the same programs. -/
theorem Group.uses_congr (howner : g.cacheOwner c = g.cacheOwner context) :
    g.Uses c p ↔ g.Uses context p := by
  unfold Group.Uses
  rw [howner]

theorem Group.lists_congr (howner : g.cacheOwner c = g.cacheOwner context) :
    g.Lists c p ↔ g.Lists context p := by
  unfold Group.Lists Group.shaderObjectList
  rw [howner]

/-- Another context with the same list uses a program. -/
def Group.OtherUses (g : Group) (context program : ℕ) : Prop :=
  ∃ c, c ≠ context ∧ g.cacheOwner c = g.cacheOwner context ∧ (g c).currentProgram = program

theorem Changes.uses_iff (h : Changes g g' context list current) :
    g'.Uses context p ↔ current = p ∨ g.OtherUses context p := by
  constructor
  · rintro ⟨c, howner, hp⟩
    rw [h.current] at hp
    split_ifs at hp with hc
    · exact .inl hp
    · exact .inr ⟨c, hc, by rwa [h.cacheOwner, h.cacheOwner] at howner, hp⟩
  · rintro (rfl | ⟨c, hc, howner, hp⟩)
    · exact ⟨context, rfl, by rw [h.current, if_pos rfl]⟩
    · exact ⟨c, by rw [h.cacheOwner, h.cacheOwner, howner], by rw [h.current, if_neg hc, hp]⟩

/-- It is enough to look at the context that makes the call. -/
theorem Tracked.change (hs : Tracked share h) (hchange : Changes h.group g' context list current)
    (hcreated : ∀ owner p, owner ≠ h.group.cacheOwner context →
      ((owner, p) ∈ created ↔ (owner, p) ∈ h.created))
    (hdeleted : ∀ owner p, owner ≠ h.group.cacheOwner context →
      ((owner, p) ∈ deleted ↔ (owner, p) ∈ h.deleted))
    (hnodup : (list.map (·.id)).Nodup)
    (hprogram : ∀ object ∈ list, object.type = .program ∧ object.id ≠ 0)
    (hmarked : ∀ object ∈ list, object.markForDeletion = true ↔
      (h.group.cacheOwner context, object.id) ∈ deleted)
    (hlisted : ∀ p, p ∈ list.map (·.id) ↔ (h.group.cacheOwner context, p) ∈ created ∧
      ((h.group.cacheOwner context, p) ∈ deleted → current = p ∨ h.group.OtherUses context p))
    (hcurrent : ∀ p ≠ 0, current = p ∨ h.group.OtherUses context p → p ∈ list.map (·.id))
    (hzero : (h.group.cacheOwner context, 0) ∉ created) : Tracked share ⟨g', created, deleted⟩ := by
  have hlist : ∀ c, g'.shaderObjectList c = if h.group.cacheOwner c = h.group.cacheOwner context
      then list else h.group.shaderObjectList c := hchange.list
  -- A context with another list uses what it used before.
  have hothers : ∀ c p, h.group.cacheOwner c ≠ h.group.cacheOwner context →
      (g'.Uses c p ↔ h.group.Uses c p) := by
    intro c p hc
    refine exists_congr fun c' => ?_
    rw [hchange.cacheOwner, hchange.cacheOwner]
    refine and_congr_right fun howner => ?_
    rw [hchange.current, if_neg fun heq => hc (by rw [← howner, heq])]
  refine ⟨fun c => (hchange.share c).trans (hs.share c), fun c => ?_, fun c => ?_, fun c => ?_,
    fun c p => ?_, fun c => ?_, fun owner => ?_⟩
  · rw [hlist]
    split_ifs
    · exact hnodup
    · exact hs.nodup c
  · dsimp only
    rw [hlist]
    split_ifs
    · exact hprogram
    · exact hs.program c
  · dsimp only
    rw [hlist, hchange.cacheOwner]
    split_ifs with hc
    · rw [hc]
      exact hmarked
    · intro object hobject
      rw [hs.marked c object hobject, hdeleted _ _ hc]
  · dsimp only
    rw [Group.Lists, hlist, hchange.cacheOwner]
    split_ifs with hc
    · have howner : g'.cacheOwner c = g'.cacheOwner context := by
        rw [hchange.cacheOwner, hchange.cacheOwner, hc]
      rw [hc, Group.uses_congr howner, hchange.uses_iff]
      exact hlisted p
    · rw [hcreated _ _ hc, hdeleted _ _ hc, hothers c p hc]
      exact hs.listed c p
  · dsimp only
    intro hne
    rw [Group.Lists, hlist]
    rw [hchange.current] at hne ⊢
    by_cases hc : c = context
    · rw [if_pos hc] at hne ⊢
      rw [if_pos (by rw [hc])]
      exact hcurrent _ hne (.inl rfl)
    · rw [if_neg hc] at hne ⊢
      split_ifs with howner
      · exact hcurrent _ hne (.inr ⟨c, hc, howner, rfl⟩)
      · exact hs.current c hne
  · by_cases howner : owner = h.group.cacheOwner context
    · rw [howner]
      exact hzero
    · rw [hcreated _ _ howner]
      exact hs.created_ne owner

theorem uses_iff : g.Uses context p ↔ (g context).currentProgram = p ∨ g.OtherUses context p :=
  Changes.refl.uses_iff

/-- A name in use is in the list. -/
theorem Tracked.lists_of_uses (hs : Tracked share h) (hp : p ≠ 0) (huses : h.group.Uses context p) :
    h.group.Lists context p := by
  obtain ⟨c, howner, rfl⟩ := huses
  exact (Group.lists_congr howner).mp (hs.current c hp)

/-- A new program has a new name, and is not marked. -/
theorem Tracked.glCreateProgram {result : ℕ} (hs : Tracked share h) (hresult : result ≠ 0)
    (hnew : ¬ h.group.Lists context result)
    (hchange : Changes h.group g' context
      (h.group.shaderObjectList context ++ [⟨result, .program, false⟩])
      (h.group context).currentProgram) :
    Tracked share ⟨g', insert (h.group.cacheOwner context, result) h.created,
      h.deleted.erase (h.group.cacheOwner context, result)⟩ := by
  have hne : ∀ object ∈ h.group.shaderObjectList context, object.id ≠ result :=
    fun object hobject heq => hnew (List.mem_map.mpr ⟨object, hobject, heq⟩)
  refine hs.change hchange ?_ ?_ ?_ ?_ ?_ ?_ ?_ ?_
  · intro owner p howner
    simp [howner]
  · intro owner p howner
    simp [howner]
  · rw [List.map_append, List.nodup_append]
    refine ⟨hs.nodup context, List.nodup_singleton _, ?_⟩
    intro id hmem other hother heq
    rw [List.map_singleton, List.mem_singleton] at hother
    rw [heq, hother] at hmem
    exact hnew hmem
  · intro object hobject
    rcases List.mem_append.mp hobject with hobject | hobject
    · exact hs.program context object hobject
    · rw [List.mem_singleton.mp hobject]
      exact ⟨rfl, hresult⟩
  · intro object hobject
    rcases List.mem_append.mp hobject with hobject | hobject
    · rw [hs.marked context object hobject, Finset.mem_erase]
      exact ⟨fun hmem => ⟨fun heq => hne object hobject (Prod.mk.inj heq).2, hmem⟩,
        fun hmem => hmem.2⟩
    · rw [List.mem_singleton.mp hobject]
      simp
  · intro p
    rw [List.map_append, List.mem_append, List.map_singleton, List.mem_singleton,
      Finset.mem_insert, Finset.mem_erase, ← uses_iff]
    by_cases hp : p = result
    · simp [hp]
    · simpa [hp, Group.Lists] using hs.listed context p
  · intro p hp huses
    rw [List.map_append, List.mem_append]
    exact .inl (hs.lists_of_uses hp (uses_iff.mpr huses))
  · rw [Finset.mem_insert, not_or]
    exact ⟨fun heq => hresult (Prod.mk.inj heq).2.symm, hs.created_ne _⟩

/-- A program that is deleted is not used by another context. -/
theorem Tracked.glDeleteProgram (hs : Tracked share h)
    (hkeeps : h.KeepsUsed (context, .glDeleteProgram p)) :
    Tracked share { h with
      group := h.group.glDeleteProgram context p
      deleted := insert (h.group.cacheOwner context, p) h.deleted } := by
  have hchange := changes_glDeleteProgram (p := p) (hs.nodup context)
  have hmem : ∀ q, q ∈ (((h.group.shaderObjectList context).filter fun object =>
      object.id ≠ p ∨ p = (h.group context).currentProgram).map (ShaderObject.mark p)).map
        (·.id) ↔ h.group.Lists context q ∧ (q ≠ p ∨ p = (h.group context).currentProgram) := by
    intro q
    simp only [Group.Lists, List.mem_map, List.mem_filter, decide_eq_true_eq,
      exists_exists_and_eq_and, ShaderObject.id_mark]
    constructor
    · rintro ⟨object, ⟨hobject, hor⟩, rfl⟩
      exact ⟨⟨object, hobject, rfl⟩, hor⟩
    · rintro ⟨⟨object, hobject, rfl⟩, hor⟩
      exact ⟨object, ⟨hobject, hor⟩, rfl⟩
  have hunused : p ≠ 0 → (h.group context).currentProgram ≠ p → ¬ h.group.Uses context p :=
    fun hp hne ⟨c, howner, hc⟩ => hkeeps hp hne c howner hc
  refine hs.change hchange (fun _ _ _ => Iff.rfl) ?_ ?_ ?_ ?_ ?_ ?_ (hs.created_ne _)
  · intro owner q howner
    simp [howner]
  · rw [List.map_map]
    have hids : (·.id) ∘ ShaderObject.mark p = ShaderObject.id :=
      funext fun _ => ShaderObject.id_mark
    rw [hids]
    exact (hs.nodup context).sublist (List.filter_sublist.map _)
  · intro object hobject
    obtain ⟨other, hother, rfl⟩ := List.mem_map.mp hobject
    rw [ShaderObject.type_mark, ShaderObject.id_mark]
    exact hs.program context other (List.mem_of_mem_filter hother)
  · intro object hobject
    obtain ⟨other, hother, rfl⟩ := List.mem_map.mp hobject
    have hmarked := hs.marked context other (List.mem_of_mem_filter hother)
    rw [ShaderObject.id_mark, Finset.mem_insert, Prod.mk.injEq, ← hmarked]
    unfold ShaderObject.mark
    split_ifs with hid
    · simp [hid]
    · simp [hid]
  · intro q
    rw [hmem, hs.listed, uses_iff, Finset.mem_insert, Prod.mk.injEq]
    by_cases hq : q = p
    · subst hq
      by_cases hcurrent : (h.group context).currentProgram = q
      · simp [hcurrent]
      · -- Nothing uses the program, which leaves the list.
        have hother : (h.group.cacheOwner context, q) ∈ h.created →
            ¬ h.group.OtherUses context q := fun hcreated hother =>
          hunused (fun hzero => hs.created_ne _ (hzero ▸ hcreated)) hcurrent
            (uses_iff.mpr (.inr hother))
        simp only [hcurrent, false_or, ne_eq, not_true_eq_false, Ne.symm hcurrent, or_self,
          and_false, true_and, true_or, forall_const, false_iff, not_and]
        exact hother
    · simp [hq]
  · intro q hq huses
    refine (hmem q).mpr ⟨hs.lists_of_uses hq (uses_iff.mpr huses), ?_⟩
    by_contra hor
    rw [not_or, not_not] at hor
    obtain ⟨rfl, hcurrent⟩ := hor
    exact hunused hq (Ne.symm hcurrent) (uses_iff.mpr huses)

/-- A program that was marked is not used by another context when the context leaves it. -/
theorem Tracked.glUseProgram (hs : Tracked share h)
    (hkeeps : h.KeepsUsed (context, .glUseProgram p)) :
    Tracked share { h with group := (h.group.glUseProgram context p).1 } := by
  rcases changes_glUseProgram (p := p) (hs.nodup context) with heq | ⟨hne, hknown, hchange⟩
  · rw [heq]
    exact hs
  have hlists : p ≠ 0 → h.group.Lists context p := by
    intro hp
    have herror := hknown hp
    unfold Group.programError at herror
    cases hfind : h.group.lookupCachedShaderObject context p with
    | none =>
      rw [hfind] at herror
      cases herror
    | some object =>
      obtain ⟨hobject, hid⟩ := (find?_eq_some_iff (hs.nodup context)).mp hfind
      exact List.mem_map.mpr ⟨object, hobject, hid⟩
  -- The program in use before is removed if it was deleted, and is then in use no more.
  have hmem : ∀ q, q ∈ ((h.group.shaderObjectList context).filter fun object =>
      ¬ (object.id = (h.group context).currentProgram ∧ object.markForDeletion = true)).map
        (·.id) ↔ h.group.Lists context q ∧
          ¬ (q = (h.group context).currentProgram ∧
            (h.group.cacheOwner context, q) ∈ h.deleted) := by
    intro q
    simp only [Group.Lists, List.mem_map, List.mem_filter, decide_eq_true_eq]
    constructor
    · rintro ⟨object, ⟨hobject, hand⟩, rfl⟩
      exact ⟨⟨object, hobject, rfl⟩, by rwa [← hs.marked context object hobject]⟩
    · rintro ⟨⟨object, hobject, rfl⟩, hand⟩
      exact ⟨object, ⟨hobject, by rwa [hs.marked context object hobject]⟩, rfl⟩
  have hunused : h.group.Lists context (h.group context).currentProgram →
      (h.group.cacheOwner context, (h.group context).currentProgram) ∈ h.deleted →
        ¬ h.group.OtherUses context (h.group context).currentProgram := by
    intro hlist hdeleted ⟨c, hc, howner, hcurrent⟩
    obtain ⟨object, hobject, hid⟩ := List.mem_map.mp hlist
    exact hkeeps hne hknown object ((find?_eq_some_iff (hs.nodup context)).mpr ⟨hobject, hid⟩)
      ((hs.marked context object hobject).mpr (hid ▸ hdeleted)) c hc howner hcurrent
  refine hs.change hchange (fun _ _ _ => Iff.rfl) (fun _ _ _ => Iff.rfl)
    ((hs.nodup context).sublist (List.filter_sublist.map _))
    (fun object hobject => hs.program context object (List.mem_of_mem_filter hobject))
    (fun object hobject => hs.marked context object (List.mem_of_mem_filter hobject)) ?_ ?_
    (hs.created_ne _)
  · intro q
    rw [hmem]
    constructor
    · rintro ⟨hlist, hnot⟩
      obtain ⟨hcreated, huses⟩ := (hs.listed context q).mp hlist
      refine ⟨hcreated, fun hdeleted => .inr ?_⟩
      exact (uses_iff.mp (huses hdeleted)).resolve_left fun heq => hnot ⟨heq.symm, hdeleted⟩
    · rintro ⟨hcreated, huses⟩
      have hlist : h.group.Lists context q := by
        refine (hs.listed context q).mpr ⟨hcreated, fun hdeleted => ?_⟩
        rcases huses hdeleted with rfl | hother
        · -- A name that is created is not 0, and the program was found.
          have hp : p ≠ 0 := fun hzero => hs.created_ne _ (hzero ▸ hcreated)
          exact ((hs.listed context p).mp (hlists hp)).2 hdeleted
        · exact uses_iff.mpr (.inr hother)
      refine ⟨hlist, ?_⟩
      rintro ⟨rfl, hdeleted⟩
      exact hunused hlist hdeleted ((huses hdeleted).resolve_left (Ne.symm hne))
  · rintro q hq (rfl | hother)
    · exact (hmem p).mpr ⟨hlists hq, fun h => hne h.1.symm⟩
    · have hlist := hs.lists_of_uses hq (uses_iff.mpr (.inr hother))
      refine (hmem q).mpr ⟨hlist, ?_⟩
      rintro ⟨rfl, hdeleted⟩
      exact hunused hlist hdeleted hother

theorem tracked_sharing (share : ℕ → Option ℕ) (memory : ℕ → ℕ) :
    Tracked share ⟨.sharing share memory, ∅, ∅⟩ := by
  have hlist : ∀ c, (Group.sharing share memory).shaderObjectList c = [] := fun _ => rfl
  refine ⟨fun _ => rfl, fun c => ?_, fun c object hobject => ?_, fun c object hobject => ?_,
    fun c p => ?_, fun c hc => absurd rfl hc, fun _ => Finset.notMem_empty _⟩
  · rw [hlist]
    exact List.nodup_nil
  · rw [hlist] at hobject
    cases hobject
  · rw [hlist] at hobject
    cases hobject
  · simp [Group.Lists, hlist]

theorem tracked_of_keepsUsed
    (h₀ : ((programSystem share).guarded ProgramHistory.KeepsUsed).Reachable h) :
    Tracked share h := by
  refine System.Invariant.holds ⟨?_, ?_⟩ h₀
  · rintro _ ⟨memory, rfl⟩
    exact tracked_sharing share memory
  · rintro h ⟨context, op⟩ h' - hs ⟨hkeeps, hstep⟩
    cases op with
    | glCreateProgram =>
      obtain ⟨⟨g, result⟩, hcreate, hrest⟩ := Option.bind_eq_some_iff.mp hstep
      obtain ⟨⟨handler, halloc, -⟩, hchange⟩ := changes_glCreateProgram hcreate
      dsimp only at hrest
      split_ifs at hrest with hresult
      · cases hrest
        rw [if_pos hresult, List.append_nil] at hchange
        exact hs.change hchange (fun _ _ _ => Iff.rfl) (fun _ _ _ => Iff.rfl) (hs.nodup context)
          (hs.program context) (hs.marked context)
          (fun p => (hs.listed context p).trans (by rw [uses_iff]))
          (fun p hp huses => hs.lists_of_uses hp (uses_iff.mpr huses)) (hs.created_ne _)
      · cases hrest
        rw [if_neg hresult] at hchange
        refine hs.glCreateProgram hresult (fun hlist => ?_) hchange
        obtain ⟨object, hobject, hid⟩ := List.mem_map.mp hlist
        exact hkeeps _ _ halloc object hobject (List.mem_singleton.mpr hid)
    | glUseProgram program =>
      cases hstep
      exact hs.glUseProgram hkeeps
    | glDeleteProgram program =>
      cases hstep
      exact hs.glDeleteProgram hkeeps

/-- The contexts of a share group are those with the same list, if no share context was created
with a share context itself. -/
theorem Tracked.sameShareGroup_iff (hs : Tracked share h) (hflat : Flat share) :
    SameShareGroup share c context ↔ h.group.cacheOwner c = h.group.cacheOwner context := by
  have howner : ∀ c c', share c = some c' →
      h.group.cacheOwner c = c' ∧ h.group.cacheOwner c' = c' := by
    intro c c' hshare
    unfold Group.cacheOwner
    rw [hs.share, hs.share, hshare, hflat c c' hshare]
    exact ⟨rfl, rfl⟩
  constructor
  · intro hsame
    induction hsame with
    | rel c c' hshare => exact (howner c c' hshare).1.trans (howner c c' hshare).2.symm
    | refl c => rfl
    | symm c c' _ ih => exact ih.symm
    | trans c c' c'' _ _ ih ih' => exact ih.trans ih'
  · intro hsame
    -- Each is in the share group of the context that has the list.
    have hroot : ∀ c, SameShareGroup share c (h.group.cacheOwner c) := by
      intro c
      cases hshare : share c with
      | none =>
        have hself : h.group.cacheOwner c = c := by
          unfold Group.cacheOwner
          rw [hs.share, hshare]
          rfl
        rw [hself]
        exact .refl c
      | some c' =>
        rw [(howner c c' hshare).1]
        exact .rel c c' hshare
    exact (hroot c).trans _ _ _ (hsame ▸ (hroot context).symm)

/-- In every run whose calls only remove programs that no context uses, and create none with a
name in the list, the list of a share group has the programs that are not deleted and those in
use. -/
theorem knownWhileUsed_of_keepsUsed (hflat : Flat share)
    (h₀ : ((programSystem share).guarded ProgramHistory.KeepsUsed).Reachable h) :
    h.KnownWhileUsed share := by
  have hs := tracked_of_keepsUsed h₀
  have hused : ∀ c p, h.Used share c p ↔ h.group.Uses c p := by
    intro c p
    refine exists_congr fun c' => and_congr_left fun _ => ?_
    rw [hs.sameShareGroup_iff hflat]
    exact eq_comm
  refine ⟨fun c p hp huses => ?_, fun c object hobject _ hmarked => ?_, fun c p => ?_⟩
  · obtain ⟨object, hobject, rfl⟩ := List.mem_map.mp (hs.lists_of_uses hp ((hused c p).mp huses))
    exact ⟨object, filter_eq_singleton (hs.nodup c) hobject, (hs.program c object hobject).1⟩
  · have hlist : h.group.Lists c object.id := List.mem_map.mpr ⟨object, hobject, rfl⟩
    rw [hused]
    exact ((hs.listed c object.id).mp hlist).2 ((hs.marked c object hobject).mp hmarked)
  · rw [hused, not_and_not_right, ← hs.listed, Group.Lists, List.mem_map]

/-- Contexts that were created with context 0 as their share context. -/
def shareFirst : ℕ → Option ℕ := fun context => if context = 0 then none else some 0

theorem flat_shareFirst : Flat shareFirst := by
  intro c c' hshare
  unfold shareFirst at hshare
  split_ifs at hshare
  cases hshare
  rfl

/-- A context creates a program, which another one uses and then deletes. -/
theorem knownWhileUsed_marked : ∃ h : ProgramHistory,
    h.group.shaderObjectList 0 = [⟨1, .program, true⟩] ∧ h.KnownWhileUsed shareFirst := by
  have hreach : ∃ h, ((programSystem shareFirst).guarded ProgramHistory.KeepsUsed).Reachable h ∧
      h.group.shaderObjectList 0 = [⟨1, .program, true⟩] := by
    refine ⟨_, .step (.step (.step (.init ⟨fun _ => 0, rfl⟩) (a := (0, .glCreateProgram)) ⟨?_, rfl⟩)
      (a := (1, .glUseProgram 1)) ⟨?_, rfl⟩) (a := (1, .glDeleteProgram 1)) ⟨?_, rfl⟩, ?_⟩
    · intro names handler _ object hobject
      cases hobject
    · intro _ _ object hfind
      cases hfind
    · intro _ hne
      exact absurd rfl hne
    · rfl
  obtain ⟨h, hreach, hlist⟩ := hreach
  exact ⟨h, hlist, knownWhileUsed_of_keepsUsed flat_shareFirst hreach⟩

/-- A context uses a program, which another one deletes. -/
theorem exists_used_unknown : ∃ share h, Flat share ∧ (programSystem share).Reachable h ∧
    ¬ h.KnownWhileUsed share := by
  let ops : List (ℕ × ProgramOp) :=
    [(0, .glCreateProgram), (0, .glUseProgram 1), (1, .glDeleteProgram 1)]
  let start : ProgramHistory := ⟨.sharing shareFirst fun _ => 0, ∅, ∅⟩
  have hresult : (ops.foldlM ProgramHistory.step start).map (fun h =>
      (h.group.shaderObjectList 0, (h.group 0).currentProgram)) = some ([], 1) := by
    decide +kernel
  obtain ⟨h, hrun, hlast⟩ := Option.map_eq_some_iff.mp hresult
  rw [Prod.mk.injEq] at hlast
  refine ⟨shareFirst, h, flat_shareFirst, System.reachable_of_foldlM (.init ⟨_, rfl⟩) hrun,
    fun hused => ?_⟩
  obtain ⟨object, hlist, -⟩ := hused.used 0 1 Nat.one_ne_zero ⟨0, .refl 0, hlast.2⟩
  rw [hlast.1] at hlist
  cases hlist

end GpuProxy.Objects
