import GpuProxy.Contexts.CachedStates
import Mathlib.Data.List.Induction

/-!
# The registry of surfaces and contexts

`egl_state.c` keeps a list of displays, and for each of them lists of records of the
surfaces and the contexts that were created on it. The generic list routine that is to
delete a record compares the address of the record, but is called with the handle of the
surface or context. So nothing is ever deleted, as long as no handle happens to be the
address of a record.

## Main definitions

* `HandleRecord`, `DisplayRecord` — `surface_t` or `context_t`, `display_ctxs_surfaces_t`
* `addRecord`, `destroyRecord` — the functions of `egl_state.c`, for either kind of record
* `cachedGlSurfaceAdd`, `cachedGlSurfaceDestroy`, … — under their names there
* `RegistryOp`, `registryAfter` — sequences of calls
* `Unrelated` — no handle that is destroyed is the address of a record
* `RegistryFaithful` — the records are those of what was added and not destroyed

## Main results

* `cachedRecords_registryAfter` — the records are those of everything that was ever added
* `registryFaithful_iff` — when the registry is faithful
* `destroyed_surface_matches` — a surface that matches after it was destroyed
-/

namespace GpuProxy.Contexts

/-- A `surface_t` or a `context_t` at its address. The configuration is left out. -/
structure HandleRecord where
  address : ℕ
  handle : ℕ
  deriving DecidableEq, Repr

/-- The two kinds of records of a display. -/
inductive RecordKind
  | surface
  | context
  deriving DecidableEq, Repr

/-- `display_ctxs_surfaces_t`, without what is not read here. -/
structure DisplayRecord where
  display : ℕ
  surfaces : List HandleRecord
  contexts : List HandleRecord
  deriving DecidableEq, Repr

namespace DisplayRecord

def list (d : DisplayRecord) : RecordKind → List HandleRecord
  | .surface => d.surfaces
  | .context => d.contexts

/-- A change of one of the lists. -/
def change (d : DisplayRecord) (f : List HandleRecord → List HandleRecord) :
    RecordKind → DisplayRecord
  | .surface => { d with surfaces := f d.surfaces }
  | .context => { d with contexts := f d.contexts }

@[simp] theorem display_change {d : DisplayRecord} {f : List HandleRecord → List HandleRecord}
    {kind : RecordKind} : (d.change f kind).display = d.display := by
  cases kind <;> rfl

theorem list_change {d : DisplayRecord} {f : List HandleRecord → List HandleRecord}
    {kind other : RecordKind} :
    (d.change f kind).list other = (if other = kind then f else id) (d.list other) := by
  cases kind <;> cases other <;> rfl

end DisplayRecord

/-- `link_list_delete_first_entry_matching_data`, for a list whose elements point to
records. -/
def deleteFirstEntryMatchingData (list : List HandleRecord) (data : ℕ) : List HandleRecord :=
  list.eraseP fun r => r.address = data

/-- `cached_gl_display_new`. -/
def cachedGlDisplayNew (display : ℕ) : DisplayRecord where
  display := display
  surfaces := []
  contexts := []

/-- The search for a display that all these functions begin with. -/
def matchedDisplay (displays : List DisplayRecord) (display : ℕ) : Option DisplayRecord :=
  displays.find? fun d => d.display = display

/-- A change of the matched display, if there is one. -/
def changeMatched (f : DisplayRecord → DisplayRecord) (display : ℕ) :
    List DisplayRecord → List DisplayRecord
  | [] => []
  | d :: displays =>
    if d.display = display then f d :: displays else d :: changeMatched f display displays

/-- `cached_gl_display_find`. -/
def cachedGlDisplayFind (displays : List DisplayRecord) (display : ℕ) : Option DisplayRecord :=
  if display = eglNo then none else matchedDisplay displays display

/-- `cached_gl_display_destroy`. -/
def cachedGlDisplayDestroy (displays : List DisplayRecord) (display : ℕ) : List DisplayRecord :=
  displays.eraseP fun d => d.display = display

/-- The records of one kind: none for a display that is not found. -/
def cachedRecords (kind : RecordKind) (displays : List DisplayRecord) (display : ℕ) :
    List HandleRecord :=
  ((matchedDisplay displays display).map fun d => d.list kind).getD []

/-- A new record, for which `malloc` returned `address`, behind the others. -/
def addRecord (kind : RecordKind) (displays : List DisplayRecord) (display handle address : ℕ) :
    List DisplayRecord :=
  changeMatched (fun d => d.change (fun list => list ++ [⟨address, handle⟩]) kind) display displays

/-- The handle is passed as the data to look for. -/
def destroyRecord (kind : RecordKind) (displays : List DisplayRecord) (display handle : ℕ) :
    List DisplayRecord :=
  changeMatched (fun d => d.change (fun list => deleteFirstEntryMatchingData list handle) kind)
    display displays

/-- `cached_gl_surfaces`. -/
def cachedGlSurfaces : List DisplayRecord → ℕ → List HandleRecord := cachedRecords .surface

/-- `cached_gl_contexts`. -/
def cachedGlContexts : List DisplayRecord → ℕ → List HandleRecord := cachedRecords .context

/-- `cached_gl_surface_add`. -/
def cachedGlSurfaceAdd : List DisplayRecord → ℕ → ℕ → ℕ → List DisplayRecord :=
  addRecord .surface

/-- `cached_gl_context_add`. -/
def cachedGlContextAdd : List DisplayRecord → ℕ → ℕ → ℕ → List DisplayRecord :=
  addRecord .context

/-- `cached_gl_surface_destroy`. -/
def cachedGlSurfaceDestroy : List DisplayRecord → ℕ → ℕ → List DisplayRecord :=
  destroyRecord .surface

/-- `cached_gl_context_destroy`. -/
def cachedGlContextDestroy : List DisplayRecord → ℕ → ℕ → List DisplayRecord :=
  destroyRecord .context

/-- `cached_gl_surface_match`. -/
def cachedGlSurfaceMatch (surfaces : List HandleRecord) (eglSurface : ℕ) : Bool :=
  if eglSurface = eglNo then true else surfaces.any fun r => r.handle = eglSurface

/-! ## Looking a display up after a change -/

section Lookup

variable {d : DisplayRecord} {displays : List DisplayRecord} {f : DisplayRecord → DisplayRecord}
  {display other : ℕ}

theorem matchedDisplay_cons_of_eq (h : d.display = display) :
    matchedDisplay (d :: displays) display = some d := by
  simp [matchedDisplay, h]

theorem matchedDisplay_cons_of_ne (h : d.display ≠ display) :
    matchedDisplay (d :: displays) display = matchedDisplay displays display := by
  simp [matchedDisplay, h]

/-- A change is seen by looking its own display up, and only there. -/
theorem matchedDisplay_changeMatched (hf : ∀ d, (f d).display = d.display) :
    matchedDisplay (changeMatched f display displays) other =
      (matchedDisplay displays other).map (if other = display then f else id) := by
  -- Both walks stop at the first record of their display.
  induction displays with
  | nil => rfl
  | cons d displays ih =>
    by_cases hd : d.display = display <;> by_cases hother : d.display = other
    · have heq : other = display := hother.symm.trans hd
      rw [changeMatched, if_pos hd, matchedDisplay_cons_of_eq ((hf d).trans hother),
        matchedDisplay_cons_of_eq hother, if_pos heq]
      rfl
    · have hne : other ≠ display := fun h => hother (hd.trans h.symm)
      rw [changeMatched, if_pos hd, matchedDisplay_cons_of_ne ((hf d).trans_ne hother),
        matchedDisplay_cons_of_ne hother, if_neg hne, Option.map_id, id]
    · have hne : other ≠ display := fun h => hd (hother.trans h)
      rw [changeMatched, if_neg hd, matchedDisplay_cons_of_eq hother,
        matchedDisplay_cons_of_eq hother, if_neg hne, Option.map_id, id]
    · rw [changeMatched, if_neg hd, matchedDisplay_cons_of_ne hother, ih,
        matchedDisplay_cons_of_ne hother]

theorem isSome_matchedDisplay_changeMatched (hf : ∀ d, (f d).display = d.display) :
    (matchedDisplay (changeMatched f display displays) other).isSome =
      (matchedDisplay displays other).isSome := by
  rw [matchedDisplay_changeMatched hf, Option.isSome_map]

variable {kind otherKind : RecordKind} {handle address : ℕ}

/-- An added record is the last of its list, and the other lists stay as they are. -/
theorem cachedRecords_addRecord (hlisted : (matchedDisplay displays other).isSome) :
    cachedRecords otherKind (addRecord kind displays display handle address) other =
      cachedRecords otherKind displays other ++
        if other = display ∧ otherKind = kind then [⟨address, handle⟩] else [] := by
  unfold cachedRecords addRecord
  rw [matchedDisplay_changeMatched fun _ => DisplayRecord.display_change]
  by_cases hother : other = display
  · obtain ⟨d, hd⟩ := Option.isSome_iff_exists.mp hlisted
    subst hother
    by_cases hkind : otherKind = kind <;> simp [hkind, hd, DisplayRecord.list_change]
  · simp [hother]

/-- What is found after a record was added was there, or is the new record. -/
theorem mem_cachedRecords_addRecord {r : HandleRecord}
    (h : r ∈ cachedRecords otherKind (addRecord kind displays display handle address) other) :
    r ∈ cachedRecords otherKind displays other ∨
      other = display ∧ otherKind = kind ∧ r = ⟨address, handle⟩ := by
  by_cases hlisted : (matchedDisplay displays other).isSome
  · rw [cachedRecords_addRecord hlisted, List.mem_append] at h
    split at h
    next hsame => exact h.imp_right fun hr => ⟨hsame.1, hsame.2, by simpa using hr⟩
    next => exact Or.inl (by simpa using h)
  · have hnone : matchedDisplay (addRecord kind displays display handle address) other = none := by
      rw [addRecord, ← Option.not_isSome_iff_eq_none,
        isSome_matchedDisplay_changeMatched fun _ => DisplayRecord.display_change]
      exact hlisted
    simp [cachedRecords, hnone] at h

/-- A deletion concerns one list of one display. -/
theorem cachedRecords_destroyRecord :
    cachedRecords otherKind (destroyRecord kind displays display handle) other =
      if other = display ∧ otherKind = kind then
        deleteFirstEntryMatchingData (cachedRecords otherKind displays other) handle
      else cachedRecords otherKind displays other := by
  unfold cachedRecords destroyRecord
  rw [matchedDisplay_changeMatched fun _ => DisplayRecord.display_change]
  by_cases hother : other = display
  · subst hother
    rcases matchedDisplay displays other with _ | d
    · simp [deleteFirstEntryMatchingData]
    · by_cases hkind : otherKind = kind <;> simp [hkind, DisplayRecord.list_change]
  · simp [hother]

/-- Nothing is deleted if the handle is the address of no record. -/
theorem deleteFirstEntryMatchingData_of_ne {list : List HandleRecord}
    (h : ∀ r ∈ list, r.address ≠ handle) : deleteFirstEntryMatchingData list handle = list :=
  List.eraseP_of_forall_not fun r hr => by simpa using h r hr

theorem cachedRecords_destroyRecord_of_ne
    (h : ∀ r ∈ cachedRecords otherKind displays other, r.address ≠ handle) :
    cachedRecords otherKind (destroyRecord kind displays display handle) other =
      cachedRecords otherKind displays other := by
  rw [cachedRecords_destroyRecord, deleteFirstEntryMatchingData_of_ne h, ite_self]

end Lookup

/-! ## Sequences of calls -/

/-- The calls that add a record and that are to delete one. -/
inductive RegistryOp
  | add (kind : RecordKind) (display handle address : ℕ)
  | destroy (kind : RecordKind) (display handle : ℕ)
  deriving DecidableEq, Repr

def RegistryOp.apply (displays : List DisplayRecord) : RegistryOp → List DisplayRecord
  | .add .surface display surface address => cachedGlSurfaceAdd displays display surface address
  | .add .context display context address => cachedGlContextAdd displays display context address
  | .destroy .surface display surface => cachedGlSurfaceDestroy displays display surface
  | .destroy .context display context => cachedGlContextDestroy displays display context

/-- The registry after calls that start from displays without records. -/
def registryAfter (displays : List ℕ) (ops : List RegistryOp) : List DisplayRecord :=
  ops.foldl RegistryOp.apply (displays.map cachedGlDisplayNew)

/-- The record that a call adds to the list of one kind of one display. -/
def RegistryOp.added (kind : RecordKind) (display : ℕ) : RegistryOp → Option HandleRecord
  | .add kind' display' handle address =>
      if display = display' ∧ kind = kind' then some ⟨address, handle⟩ else none
  | .destroy _ _ _ => none

/-- The addresses of the records are not the handles that are destroyed. -/
def Unrelated (ops : List RegistryOp) : Prop :=
  ∀ kind display handle address kind' display' handle',
    .add kind display handle address ∈ ops → .destroy kind' display' handle' ∈ ops →
      address ≠ handle'

/-- How often a handle was added on a display. -/
def timesAdded (kind : RecordKind) (display handle : ℕ) (ops : List RegistryOp) : ℕ :=
  (ops.filterMap (RegistryOp.added kind display)).countP fun r => r.handle = handle

/-- How often a handle was destroyed on a display. -/
def timesDestroyed (kind : RecordKind) (display handle : ℕ) (ops : List RegistryOp) : ℕ :=
  ops.count (.destroy kind display handle)

/-- A handle was added on a display, and not destroyed since. -/
def AddedLast (kind : RecordKind) (display handle : ℕ) (ops : List RegistryOp) : Prop :=
  ∃ p q address, ops = p ++ .add kind display handle address :: q ∧
    .destroy kind display handle ∉ q

/-- A surface matches if it was added more often than it was destroyed, and a context has
a record if it was added and not destroyed since. -/
structure RegistryFaithful (displays : List ℕ) (ops : List RegistryOp) : Prop where
  surfaces : ∀ display ∈ displays, ∀ surface, surface ≠ eglNo →
    (cachedGlSurfaceMatch (cachedGlSurfaces (registryAfter displays ops) display) surface = true ↔
      timesDestroyed .surface display surface ops < timesAdded .surface display surface ops)
  contexts : ∀ display ∈ displays, ∀ context,
    ((∃ r ∈ cachedGlContexts (registryAfter displays ops) display, r.handle = context) ↔
      AddedLast .context display context ops)

section Sequences

variable {displays : List ℕ} {ops : List RegistryOp} {display : ℕ} {kind : RecordKind}

theorem isSome_matchedDisplay_registryAfter (hdisplay : display ∈ displays) :
    (matchedDisplay (registryAfter displays ops) display).isSome := by
  induction ops using List.reverseRecOn with
  | nil =>
    rw [matchedDisplay, List.find?_isSome]
    exact ⟨cachedGlDisplayNew display, List.mem_map_of_mem hdisplay, by simp [cachedGlDisplayNew]⟩
  | append_singleton ops op ih =>
    rw [registryAfter, List.foldl_concat]
    have hsame : ∀ f : DisplayRecord → DisplayRecord, (∀ d, (f d).display = d.display) →
        ∀ other, (matchedDisplay (changeMatched f other (registryAfter displays ops))
          display).isSome := by
      intro f hf other
      rwa [isSome_matchedDisplay_changeMatched hf]
    rcases op with ⟨kind, other, handle, address⟩ | ⟨kind, other, handle⟩ <;> cases kind <;>
      exact hsame _ (fun _ => DisplayRecord.display_change) other

theorem apply_add {list : List DisplayRecord} {handle address : ℕ} :
    RegistryOp.apply list (.add kind display handle address) =
      addRecord kind list display handle address := by
  cases kind <;> rfl

theorem apply_destroy {list : List DisplayRecord} {handle : ℕ} :
    RegistryOp.apply list (.destroy kind display handle) =
      destroyRecord kind list display handle := by
  cases kind <;> rfl

theorem cachedRecords_registryAfter_nil :
    cachedRecords kind (registryAfter displays []) display = [] := by
  rcases hfind : matchedDisplay (registryAfter displays []) display with _ | d
  · simp [cachedRecords, hfind]
  · have hmem : d ∈ displays.map cachedGlDisplayNew := List.mem_of_find?_eq_some hfind
    obtain ⟨other, -, rfl⟩ := List.mem_map.mp hmem
    cases kind <;> simp [cachedRecords, hfind, cachedGlDisplayNew, DisplayRecord.list]

theorem Unrelated.of_append {rest : List RegistryOp} (h : Unrelated (ops ++ rest)) :
    Unrelated ops := fun _ _ _ _ _ _ _ hadd hdestroy =>
  h _ _ _ _ _ _ _ (List.mem_append_left _ hadd) (List.mem_append_left _ hdestroy)

/-- A record in the list was added. -/
theorem exists_add_of_mem {r : HandleRecord}
    (h : r ∈ ops.filterMap (RegistryOp.added kind display)) :
    .add kind display r.handle r.address ∈ ops := by
  obtain ⟨op, hop, hr⟩ := List.mem_filterMap.mp h
  rcases op with ⟨kind', display', handle, address⟩ | ⟨kind', display', handle⟩
  · simp only [RegistryOp.added, Option.ite_none_right_eq_some, Option.some.injEq] at hr
    obtain ⟨⟨rfl, rfl⟩, rfl⟩ := hr
    exact hop
  · simp [RegistryOp.added] at hr

/-- The lists hold a record of everything that was ever added. -/
theorem cachedRecords_registryAfter (hunrelated : Unrelated ops)
    (hdisplay : display ∈ displays) :
    cachedRecords kind (registryAfter displays ops) display =
      ops.filterMap (RegistryOp.added kind display) := by
  induction ops using List.reverseRecOn with
  | nil => exact cachedRecords_registryAfter_nil
  | append_singleton ops op ih =>
    have hlist := ih hunrelated.of_append
    rw [registryAfter, List.foldl_concat, List.filterMap_append, ← registryAfter]
    rcases op with ⟨kind', display', handle, address⟩ | ⟨kind', display', handle⟩
    · rw [apply_add, cachedRecords_addRecord (isSome_matchedDisplay_registryAfter hdisplay), hlist]
      by_cases hsame : display = display' ∧ kind = kind' <;> simp [RegistryOp.added, hsame]
    -- The handle is the address of no record in the list, so that nothing is deleted.
    · have hnone : ∀ r ∈ ops.filterMap (RegistryOp.added kind display), r.address ≠ handle :=
        fun r hr => hunrelated _ _ _ _ _ _ _ (List.mem_append_left _ (exists_add_of_mem hr))
          (List.mem_append_right _ (List.mem_singleton_self _))
      rw [← hlist] at hnone
      rw [apply_destroy, cachedRecords_destroyRecord_of_ne hnone, hlist]
      simp [RegistryOp.added]

/-- A handle has a record exactly if it was ever added. -/
theorem exists_record_iff {handle : ℕ} (hunrelated : Unrelated ops)
    (hdisplay : display ∈ displays) :
    (∃ r ∈ cachedRecords kind (registryAfter displays ops) display, r.handle = handle) ↔
      0 < timesAdded kind display handle ops := by
  rw [cachedRecords_registryAfter hunrelated hdisplay, timesAdded, List.countP_pos_iff]
  simp

theorem timesAdded_pos_of_addedLast {handle : ℕ} (h : AddedLast kind display handle ops) :
    0 < timesAdded kind display handle ops := by
  obtain ⟨p, q, address, rfl, -⟩ := h
  rw [timesAdded, List.countP_pos_iff]
  refine ⟨⟨address, handle⟩, ?_, by simp⟩
  simp [RegistryOp.added]

/-- When no handle is the address of a record, the registry is faithful exactly if every
surface that was added was added more often than destroyed, and every context that was
added was not destroyed since. -/
theorem registryFaithful_iff (hunrelated : Unrelated ops) :
    RegistryFaithful displays ops ↔
      ∀ display ∈ displays,
        (∀ surface, surface ≠ eglNo → timesAdded .surface display surface ops = 0 ∨
          timesDestroyed .surface display surface ops <
            timesAdded .surface display surface ops) ∧
        ∀ context, timesAdded .context display context ops = 0 ∨
          AddedLast .context display context ops := by
  have hsurface : ∀ display ∈ displays, ∀ surface, surface ≠ eglNo →
      (cachedGlSurfaceMatch (cachedGlSurfaces (registryAfter displays ops) display) surface = true ↔
        0 < timesAdded .surface display surface ops) := by
    intro display hdisplay surface hne
    rw [← exists_record_iff hunrelated hdisplay, cachedGlSurfaceMatch, if_neg hne]
    simp [cachedGlSurfaces]
  have hcontext : ∀ display ∈ displays, ∀ context,
      ((∃ r ∈ cachedGlContexts (registryAfter displays ops) display, r.handle = context) ↔
        0 < timesAdded .context display context ops) :=
    fun display hdisplay context => exists_record_iff hunrelated hdisplay
  -- A handle has a record if it was ever added. Whether it should have one is another matter.
  constructor
  · intro h display hdisplay
    constructor
    · intro surface hne
      have hiff := (hsurface display hdisplay surface hne).symm.trans
        (h.surfaces display hdisplay surface hne)
      omega
    · intro context
      rcases Nat.eq_zero_or_pos (timesAdded .context display context ops) with hzero | hpos
      · exact Or.inl hzero
      · exact Or.inr ((h.contexts display hdisplay context).mp
          ((hcontext display hdisplay context).mpr hpos))
  · intro h
    constructor
    · intro display hdisplay surface hne
      rw [hsurface display hdisplay surface hne]
      have hcounts := (h display hdisplay).1 surface hne
      omega
    · intro display hdisplay context
      rw [hcontext display hdisplay context]
      constructor
      · intro hpos
        exact ((h display hdisplay).2 context).resolve_left (Nat.pos_iff_ne_zero.mp hpos)
      · exact timesAdded_pos_of_addedLast

theorem unrelated_pair {surface other address : ℕ} (h : address ≠ other) :
    Unrelated [.add .surface 1 surface address, .destroy .surface 1 other] := by
  intro kind display handle address' kind' display' handle' hadd hdestroy
  simp only [List.mem_cons, RegistryOp.add.injEq, reduceCtorEq, List.not_mem_nil, or_false,
    RegistryOp.destroy.injEq, false_or] at hadd hdestroy
  rw [hadd.2.2.2, hdestroy.2.2]
  exact h

/-- A surface is added, and another one, which was not, is destroyed. -/
theorem registryFaithful_of_stranger :
    RegistryFaithful [1] [.add .surface 1 5 100, .destroy .surface 1 6] := by
  refine (registryFaithful_iff (unrelated_pair (by decide))).mpr fun display hdisplay => ?_
  obtain rfl : display = 1 := by simpa using hdisplay
  constructor
  · intro surface hne
    by_cases hsurface : surface = 5
    · subst hsurface
      exact Or.inr (by decide)
    · left
      simp [timesAdded, RegistryOp.added, Ne.symm hsurface]
  · intro context
    left
    simp [timesAdded, RegistryOp.added]

/-- A surface that was added and destroyed still matches, though its handle is not the
address of its record. -/
theorem destroyed_surface_matches :
    Unrelated [.add .surface 1 5 100, .destroy .surface 1 5] ∧
      ¬ RegistryFaithful [1] [.add .surface 1 5 100, .destroy .surface 1 5] := by
  refine ⟨unrelated_pair (by decide), fun h => ?_⟩
  have hmatch := h.surfaces 1 (by simp) 5 (by decide)
  revert hmatch
  decide

end Sequences

end GpuProxy.Contexts
