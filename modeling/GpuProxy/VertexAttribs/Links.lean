import GpuProxy.Math.PointerPath
import GpuProxy.VertexAttribs.EnabledList
import Mathlib.Data.Int.Basic
import Mathlib.Data.List.Nodup

/-!
# The list of enabled attributes in memory

What the two list helpers do to the nodes of the list: removing an attribute that is not
listed changes nothing, adding one in front of the list drops the list, and every other
addition puts the attribute behind some node. The list may be in blocks that are not in use
any more, and a block that is freed must not have nodes of it.

## Main definitions

* `Listed`, `Linked` — the nodes of the list, in allocated memory
* `SameLinks`, `SameButLinks` — what the helpers leave unchanged
* `InsertsInFront` — the attribute added becomes the first of the list
* `GrowthSafe` — a new attribute does not free the block of a node
* `Accepted` — the index check

## Main results

* `removeFromEnabledAttribList_spec`, `addToEnabledAttribList_spec` — the two helpers
* `Linked.remove`, `Linked.add`, `Linked.appendAttrib` — the nodes afterwards
* `doesIndexOverflow_spec` — the index check
-/

namespace GpuProxy.VertexAttribs

open Math

/-- The pointer to the next node, for every address. -/
def nextOf (heap : Loc → VertexAttrib) (x : Loc) : Option Loc := (heap x).nextEnabled

/-- The enabled attributes are `ls`, in the order of the list. -/
def Listed (list : AttribList) (ls : List Loc) : Prop :=
  Math.Path (nextOf list.heap) list.enabledAttribs ls none

/-- The indices of some attributes. -/
def indices (heap : Loc → VertexAttrib) (ls : List Loc) : List ℕ := ls.map fun x => (heap x).index

/-- The block in use is allocated and not freed. -/
structure Allocated (list : AttribList) : Prop where
  attribs_lt : list.attribs < list.nextBlock
  attribs_live : list.attribs ∉ list.freed
  freed_lt : ∀ b ∈ list.freed, b < list.nextBlock

/-- An attribute in an allocated block, and below `count` if the block is the one in use. -/
structure Placed (list : AttribList) (x : Loc) : Prop where
  live : x.block ∉ list.freed
  block_lt : x.block < list.nextBlock
  idx_lt : x.block = list.attribs → x.idx < list.count

/-- The nodes of the list are `ls`, attributes in allocated memory. -/
structure Linked (list : AttribList) (ls : List Loc) : Prop extends Allocated list where
  listed : Listed list ls
  placed : ∀ x ∈ ls, Placed list x

variable {list list' : AttribList} {heap heap' : Loc → VertexAttrib} {ls rest : List Loc}
  {new a : Loc} {fuel chunk chunk' : ℕ} {enabled previous previous' : Option Loc}

/-! ### Memory that differs in fields the list does not depend on -/

/-- Two memories with the same indices and the same `next_enabled` pointers. -/
structure SameLinks (heap heap' : Loc → VertexAttrib) : Prop where
  index : ∀ x, (heap' x).index = (heap x).index
  next : ∀ x, nextOf heap' x = nextOf heap x

theorem SameLinks.update {attrib : VertexAttrib} (hindex : attrib.index = (heap a).index)
    (hnext : attrib.nextEnabled = (heap a).nextEnabled) :
    SameLinks heap (Function.update heap a attrib) := by
  constructor <;> intro x <;> rcases eq_or_ne x a with rfl | hne
  · simpa using hindex
  · simp [hne]
  · simpa [nextOf] using hnext
  · simp [nextOf, hne]

theorem SameLinks.trans {heap'' : Loc → VertexAttrib} (h : SameLinks heap heap')
    (h' : SameLinks heap' heap'') : SameLinks heap heap'' :=
  ⟨fun x => (h'.index x).trans (h.index x), fun x => (h'.next x).trans (h.next x)⟩

theorem SameLinks.indices_eq (h : SameLinks heap heap') : indices heap' ls = indices heap ls :=
  List.map_congr_left fun x _ => h.index x

theorem Linked.of_sameLinks (h : Linked list ls) (hsame : SameLinks list.heap heap) :
    Linked { list with heap := heap } ls := by
  refine { h with listed := ?_, placed := ?_ }
  · exact Math.Path.congr h.listed fun x _ => hsame.next x
  · exact fun x hx => ⟨(h.placed x hx).live, (h.placed x hx).block_lt, (h.placed x hx).idx_lt⟩

/-- Memory whose attributes differ in `chunk` and `next_enabled` at most. -/
def SameButLinks (heap heap' : Loc → VertexAttrib) : Prop :=
  ∀ x, ∃ chunk next, heap' x = { heap x with chunk := chunk, nextEnabled := next }

theorem SameButLinks.refl (heap : Loc → VertexAttrib) : SameButLinks heap heap :=
  fun _ => ⟨_, _, rfl⟩

theorem SameButLinks.trans {heap'' : Loc → VertexAttrib} (h : SameButLinks heap heap')
    (h' : SameButLinks heap' heap'') : SameButLinks heap heap'' := by
  intro x
  obtain ⟨_, _, hx⟩ := h x
  obtain ⟨chunk, next, hx'⟩ := h' x
  exact ⟨chunk, next, by rw [hx', hx]⟩

theorem SameButLinks.symm (h : SameButLinks heap heap') : SameButLinks heap' heap := by
  intro x
  obtain ⟨_, _, hx⟩ := h x
  exact ⟨(heap x).chunk, (heap x).nextEnabled, by rw [hx]⟩

theorem sameButLinks_setNext (heap : Loc → VertexAttrib) (x : Loc) (next : Option Loc) :
    SameButLinks heap (setNext heap x next) := by
  intro y
  rcases eq_or_ne y x with rfl | hne
  · exact ⟨(heap y).chunk, next, by simp [setNext]⟩
  · exact ⟨_, _, by rw [setNext, Function.update_of_ne hne]⟩

theorem sameButLinks_setChunk (heap : Loc → VertexAttrib) (x : Loc) (chunk : ℕ) :
    SameButLinks heap (Function.update heap x { heap x with chunk := chunk }) := by
  intro y
  rcases eq_or_ne y x with rfl | hne
  · exact ⟨chunk, (heap y).nextEnabled, by simp⟩
  · exact ⟨_, _, by rw [Function.update_of_ne hne]⟩

theorem SameButLinks.index (h : SameButLinks heap heap') (x : Loc) :
    (heap' x).index = (heap x).index := by
  obtain ⟨_, _, hx⟩ := h x
  rw [hx]

theorem SameButLinks.indices_eq (h : SameButLinks heap heap') :
    indices heap' ls = indices heap ls :=
  List.map_congr_left fun x _ => h.index x

theorem nextOf_setNext_self (heap : Loc → VertexAttrib) (x : Loc) (next : Option Loc) :
    nextOf (setNext heap x next) x = next := by
  simp [nextOf, setNext]

theorem nextOf_setNext_of_ne {x y : Loc} (next : Option Loc) (h : y ≠ x) :
    nextOf (setNext heap x next) y = nextOf heap y := by
  simp [nextOf, setNext, h]

/-! ### Removing -/

/-- The loop finds the attribute and makes the node before it skip it, or changes nothing. -/
theorem removeLoop_spec {previous : Loc}
    (h : removeLoop new fuel heap previous enabled = some heap')
    (hpath : Math.Path (nextOf heap) enabled rest none) :
    (new ∉ rest ∧ heap' = heap) ∨ ∃ xs x ys, previous :: rest = xs ++ x :: new :: ys ∧
      heap' = setNext heap x (heap new).nextEnabled := by
  induction fuel generalizing previous enabled rest with
  | zero => cases h
  | succ fuel ih =>
    cases enabled with
    | none =>
      rw [removeLoop] at h
      obtain rfl : rest = [] := hpath.eq_of_none rfl
      exact .inl ⟨List.not_mem_nil, (Option.some.inj h).symm⟩
    | some e =>
      obtain ⟨rest, rfl, hrest⟩ := hpath.exists_eq_cons
      rw [removeLoop] at h
      split at h
      -- Found: the node before it takes over its `next_enabled`.
      next heq =>
        subst heq
        exact .inr ⟨[], previous, rest, rfl, (Option.some.inj h).symm⟩
      next hne =>
        rcases ih h hrest with ⟨hnot, rfl⟩ | ⟨xs, x, ys, hsplit, rfl⟩
        · refine .inl ⟨?_, rfl⟩
          simp only [List.mem_cons, not_or]
          exact ⟨fun heq => hne heq.symm, hnot⟩
        · refine .inr ⟨previous :: xs, x, ys, ?_, rfl⟩
          rw [hsplit, List.cons_append]

theorem ne_of_mem_middle {xs ys : List Loc} {x y : Loc} (h : (xs ++ x :: ys).Nodup)
    (hy : y ∈ xs ++ ys) : y ≠ x := by
  rintro rfl
  exact (List.nodup_cons.mp (List.nodup_middle.mp h)).1 hy

theorem erase_middle {xs ys : List Loc} {x a : Loc} (h : (xs ++ x :: a :: ys).Nodup) :
    (xs ++ x :: a :: ys).erase a = xs ++ x :: ys := by
  have hsplit : xs ++ x :: a :: ys = (xs ++ [x]) ++ a :: ys := by simp
  rw [hsplit] at h ⊢
  have hnot : a ∉ xs ++ [x] := fun hmem =>
    (List.nodup_cons.mp (List.nodup_middle.mp h)).1 (List.mem_append_left _ hmem)
  rw [List.erase_append_right _ hnot, List.erase_cons_head, List.append_assoc,
    List.singleton_append]

/-- The list without its cell `a`, when the cell before `a` is made to skip it. -/
theorem path_setNext_erase {p : Option Loc} {xs ys : List Loc} {x : Loc}
    (h : Math.Path (nextOf heap) p (xs ++ x :: a :: ys) none) :
    Math.Path (nextOf (setNext heap x (nextOf heap a))) p ((xs ++ x :: a :: ys).erase a) none := by
  have hnodup := h.nodup
  rw [erase_middle hnodup]
  refine h.removeAfter (nextOf_setNext_self heap x _) fun y hy => nextOf_setNext_of_ne _ ?_
  refine ne_of_mem_middle hnodup ?_
  rw [List.mem_append] at hy ⊢
  exact hy.imp_right (List.mem_cons_of_mem _)

/-- What the removal of an attribute does to the list and to the counter. -/
theorem removeFromEnabledAttribList_spec (hlisted : Listed list ls)
    (h : removeFromEnabledAttribList list new fuel = some list') :
    ∃ heap head, list' = { list with
        heap := heap
        enabledAttribs := head
        enabledCount := if ls = [] then list.enabledCount else list.enabledCount - 1 } ∧
      SameButLinks list.heap heap ∧ Listed list' (ls.erase new) := by
  unfold removeFromEnabledAttribList at h
  split at h
  -- The function returns before it counts down.
  next hhead =>
    cases h
    obtain rfl : ls = [] := hlisted.eq_of_none hhead
    exact ⟨list.heap, list.enabledAttribs, rfl, .refl _, hlisted⟩
  next e hhead =>
    have hpath : Math.Path (nextOf list.heap) (some e) ls none := hhead ▸ hlisted
    obtain ⟨rest, rfl, hrest⟩ := hpath.exists_eq_cons
    have hnot : e ∉ rest := (List.nodup_cons.mp hlisted.nodup).1
    split at h
    -- The first node: the list starts at the next one.
    next heq =>
      subst heq
      cases h
      refine ⟨_, _, rfl, sameButLinks_setNext _ _ _, ?_⟩
      rw [List.erase_cons_head]
      refine hrest.congr fun x hx => nextOf_setNext_of_ne _ ?_
      rintro rfl
      exact hnot hx
    next hne =>
      obtain ⟨heap', hloop, rfl⟩ := Option.map_eq_some_iff.mp h
      rcases removeLoop_spec hloop hrest with ⟨hmem, rfl⟩ | ⟨xs, x, ys, hsplit, rfl⟩
      -- Not found: the list stays, and the counter goes down all the same.
      · refine ⟨list.heap, list.enabledAttribs, rfl, .refl _, ?_⟩
        have herase : (e :: rest).erase new = e :: rest :=
          List.erase_of_not_mem (by simp [hmem, Ne.symm hne])
        rw [herase]
        exact hlisted
      · refine ⟨_, list.enabledAttribs, rfl, sameButLinks_setNext _ _ _, ?_⟩
        unfold Listed at hlisted ⊢
        rw [hsplit] at hlisted ⊢
        exact path_setNext_erase hlisted

/-! ### Adding -/

/-- The new attribute overlaps the first one of the list and does not lie behind it. -/
def InsertsInFront (heap : Loc → VertexAttrib) (new : Loc) (ls : List Loc) : Prop :=
  ∃ n rest, ls = n :: rest ∧ attribsMemoryOverlap (heap new) (heap n) = true ∧
    ¬(heap n).pointer < (heap new).pointer

theorem skipChunk_spec (h : skipChunk new heap chunk fuel enabled previous = some previous')
    (hpath : Math.Path (nextOf heap) enabled rest none) :
    previous' = previous ∨ ∃ x ∈ rest, previous' = some x := by
  induction fuel generalizing enabled previous rest with
  | zero => cases h
  | succ fuel ih =>
    cases enabled with
    | none => exact .inl (Option.some.inj h).symm
    | some e =>
      obtain ⟨rest, rfl, hrest⟩ := hpath.exists_eq_cons
      rw [skipChunk] at h
      split at h
      · rcases ih h hrest with rfl | ⟨x, hx, rfl⟩
        · exact .inr ⟨e, List.mem_cons_self, rfl⟩
        · exact .inr ⟨x, List.mem_cons_of_mem _ hx, rfl⟩
      · exact .inl (Option.some.inj h).symm

/-- Memory whose attributes differ in their `chunk` at most. -/
def SameButChunk (heap heap' : Loc → VertexAttrib) : Prop :=
  ∀ x, ∃ chunk, heap' x = { heap x with chunk := chunk }

theorem SameButChunk.sameLinks (h : SameButChunk heap heap') : SameLinks heap heap' := by
  constructor <;> intro x <;> obtain ⟨chunk, hx⟩ := h x
  · rw [hx]
  · rw [nextOf, hx, nextOf]

theorem SameButChunk.sameButLinks (h : SameButChunk heap heap') : SameButLinks heap heap' := by
  intro x
  obtain ⟨chunk, hx⟩ := h x
  exact ⟨chunk, _, hx⟩

theorem SameButChunk.update {heap'' : Loc → VertexAttrib} {e : Loc}
    (h : SameButChunk (Function.update heap e { heap e with chunk := chunk }) heap'') :
    SameButChunk heap heap'' := by
  intro x
  obtain ⟨chunk', hx⟩ := h x
  refine ⟨chunk', hx.trans ?_⟩
  rcases eq_or_ne x e with rfl | hne <;> simp [*]

/-- The loop changes chunks only, and stops behind a node of the list or before the first. -/
theorem addLoop_spec
    (h : addLoop new fuel heap enabled previous chunk = some (heap', chunk', previous'))
    (hpath : Math.Path (nextOf heap) enabled rest none) :
    SameButChunk heap heap' ∧ (previous' = previous ∨ ∃ x ∈ rest, previous' = some x) := by
  induction fuel generalizing heap enabled previous chunk rest with
  | zero => cases h
  | succ fuel ih =>
    cases enabled with
    | none =>
      cases h
      exact ⟨fun _ => ⟨_, rfl⟩, .inl rfl⟩
    | some e =>
      obtain ⟨rest, rfl, hrest⟩ := hpath.exists_eq_cons
      rw [addLoop] at h
      split at h
      · obtain ⟨previous'', hskip, heq⟩ := Option.map_eq_some_iff.mp h
        cases heq
        exact ⟨fun _ => ⟨_, rfl⟩, skipChunk_spec hskip hpath⟩
      -- No overlap: the node gets the next chunk number, and the loop goes on behind it.
      · have hlinks : SameLinks heap
            (Function.update heap e { heap e with chunk := uint ((heap e).chunk + 1) }) :=
          SameLinks.update rfl rfl
        obtain ⟨hsame, hprevious⟩ := ih h (hrest.congr fun x _ => hlinks.next x)
        refine ⟨hsame.update, .inr ?_⟩
        rcases hprevious with rfl | ⟨x, hx, rfl⟩
        · exact ⟨e, List.mem_cons_self, rfl⟩
        · exact ⟨x, List.mem_cons_of_mem _ hx, rfl⟩

theorem skipChunk_ne_none {p : Loc}
    (h : skipChunk new heap chunk fuel enabled (some p) = some previous') : previous' ≠ none := by
  induction fuel generalizing enabled p with
  | zero => cases h
  | succ fuel ih =>
    cases enabled with
    | none =>
      cases h
      simp
    | some e =>
      rw [skipChunk] at h
      split at h
      · exact ih h
      · cases h
        simp

theorem addLoop_ne_none {p : Loc}
    (h : addLoop new fuel heap enabled (some p) chunk = some (heap', chunk', previous')) :
    previous' ≠ none := by
  induction fuel generalizing heap enabled p chunk with
  | zero => cases h
  | succ fuel ih =>
    cases enabled with
    | none =>
      cases h
      simp
    | some e =>
      rw [addLoop] at h
      split at h
      · obtain ⟨previous'', hskip, heq⟩ := Option.map_eq_some_iff.mp h
        cases heq
        exact skipChunk_ne_none hskip
      · exact ih h

/-- The loop stops before the first node exactly if the new attribute goes in front. -/
theorem addLoop_eq_none_iff {n : Loc} (ns : List Loc)
    (h : addLoop new fuel heap (some n) none chunk = some (heap', chunk', previous')) :
    previous' = none ↔ InsertsInFront heap new (n :: ns) := by
  have hfront : InsertsInFront heap new (n :: ns) ↔
      attribsMemoryOverlap (heap new) (heap n) = true ∧ ¬(heap n).pointer < (heap new).pointer := by
    constructor
    · rintro ⟨n', ns', heq, hcond⟩
      cases heq
      exact hcond
    · exact fun hcond => ⟨n, ns, rfl, hcond⟩
  cases fuel with
  | zero => cases h
  | succ fuel =>
    rw [addLoop] at h
    rw [hfront]
    split at h
    next hoverlap =>
      obtain ⟨previous'', hskip, heq⟩ := Option.map_eq_some_iff.mp h
      cases heq
      cases fuel with
      | zero => cases hskip
      | succ fuel =>
        rw [skipChunk] at hskip
        split at hskip
        next hbefore =>
          have hne := skipChunk_ne_none hskip
          simp [hne, hbefore.2]
        next hbefore =>
          cases hskip
          simpa [hoverlap] using hbefore
    next hoverlap =>
      have hne := addLoop_ne_none h
      simp [hne, hoverlap]

theorem attribsMemoryOverlap_congr {x y x' y' : VertexAttrib}
    (hx : x'.pointer = x.pointer ∧ x'.stride = x.stride)
    (hy : y'.pointer = y.pointer ∧ y'.stride = y.stride) :
    attribsMemoryOverlap x' y' = attribsMemoryOverlap x y := by
  simp only [attribsMemoryOverlap, hx.1, hy.1]
  split <;> simp [*]

/-- An attribute that is listed already, and overlaps itself, stops the loops. -/
theorem skipChunk_before (hnew : new ∈ rest)
    (h : skipChunk new heap chunk fuel enabled previous = some previous')
    (hpath : Math.Path (nextOf heap) enabled rest none) :
    previous' = previous ∨ ∃ xs x ys, rest = xs ++ x :: ys ∧ previous' = some x ∧ new ∈ ys := by
  induction fuel generalizing enabled previous rest with
  | zero => cases h
  | succ fuel ih =>
    cases enabled with
    | none => exact .inl (Option.some.inj h).symm
    | some e =>
      obtain ⟨rest, rfl, hrest⟩ := hpath.exists_eq_cons
      rw [skipChunk] at h
      split at h
      next hbefore =>
        have hne : new ≠ e := by
          rintro rfl
          exact Nat.lt_irrefl _ hbefore.2
        have hnew := (List.mem_cons.mp hnew).resolve_left hne
        rcases ih hnew h hrest with rfl | ⟨xs, x, ys, rfl, rfl, hys⟩
        · exact .inr ⟨[], e, rest, rfl, rfl, hnew⟩
        · exact .inr ⟨e :: xs, x, ys, rfl, rfl, hys⟩
      next => exact .inl (Option.some.inj h).symm

theorem addLoop_before (hnew : new ∈ rest)
    (hself : attribsMemoryOverlap (heap new) (heap new) = true)
    (h : addLoop new fuel heap enabled previous chunk = some (heap', chunk', previous'))
    (hpath : Math.Path (nextOf heap) enabled rest none) :
    previous' = previous ∨ ∃ xs x ys, rest = xs ++ x :: ys ∧ previous' = some x ∧ new ∈ ys := by
  induction fuel generalizing heap enabled previous chunk rest with
  | zero => cases h
  | succ fuel ih =>
    cases enabled with
    | none =>
      cases h
      exact .inl rfl
    | some e =>
      obtain ⟨rest, rfl, hrest⟩ := hpath.exists_eq_cons
      rw [addLoop] at h
      split at h
      · obtain ⟨previous'', hskip, heq⟩ := Option.map_eq_some_iff.mp h
        cases heq
        exact skipChunk_before hnew hskip hpath
      next hoverlap =>
        have hne : new ≠ e := by
          rintro rfl
          exact hoverlap hself
        have hnew := (List.mem_cons.mp hnew).resolve_left hne
        have hlinks : SameLinks heap
            (Function.update heap e { heap e with chunk := uint ((heap e).chunk + 1) }) :=
          SameLinks.update rfl rfl
        rw [← Function.update_of_ne hne
          { heap e with chunk := uint ((heap e).chunk + 1) } heap] at hself
        rcases ih hnew hself h (hrest.congr fun x _ => hlinks.next x) with
          rfl | ⟨xs, x, ys, rfl, rfl, hys⟩
        · exact .inr ⟨[], e, rest, rfl, rfl, hnew⟩
        · exact .inr ⟨e :: xs, x, ys, rfl, rfl, hys⟩

/-- Linking a new node behind another one. -/
theorem path_relinked {p : Option Loc} {xs ys : List Loc} {x : Loc}
    (h : Math.Path (nextOf heap) p (xs ++ x :: ys) none) (hnew : new ∉ xs ++ x :: ys) :
    Math.Path (nextOf (setNext (setNext heap new (nextOf heap x)) x (some new))) p
      (xs ++ x :: new :: ys) none := by
  have hne : new ≠ x := by
    rintro rfl
    simp at hnew
  refine h.insertAfter (nextOf_setNext_self _ _ _) ?_ fun y hy => ?_
  · rw [nextOf_setNext_of_ne _ hne, nextOf_setNext_self]
  · have hyx : y ≠ x := ne_of_mem_middle h.nodup hy
    have hynew : y ≠ new := by
      rintro rfl
      rw [List.mem_append] at hy hnew
      exact hnew (hy.imp_right (List.mem_cons_of_mem _))
    rw [nextOf_setNext_of_ne _ hyx, nextOf_setNext_of_ne _ hynew]

/-- Linking a node a second time, behind an earlier one, makes the list cyclic. -/
theorem not_path_of_relinked {p : Option Loc} {xs ys : List Loc} {x : Loc} {zs : List Loc}
    (h : Math.Path (nextOf heap) p (xs ++ x :: ys) none) (hnew : new ∈ ys) :
    ¬Math.Path (nextOf (setNext (setNext heap new (nextOf heap x)) x (some new))) p zs none := by
  intro hzs
  obtain ⟨before, after, rfl⟩ := List.append_of_mem hnew
  have hnodup : ((xs ++ x :: before) ++ new :: after).Nodup := by simpa using h.nodup
  have hne : new ≠ x := (ne_of_mem_middle hnodup (by simp)).symm
  have hapart : ∀ y ∈ xs ++ before, y ≠ x ∧ y ≠ new := by
    intro y hy
    constructor
    · refine ne_of_mem_middle h.nodup ?_
      simp only [List.mem_append] at hy ⊢
      exact hy.imp_right .inl
    · refine ne_of_mem_middle hnodup ?_
      simp only [List.mem_append, List.mem_cons] at hy ⊢
      exact .inl (hy.imp_right .inr)
  have hsame : ∀ y ∈ xs ++ before,
      nextOf (setNext (setNext heap new (nextOf heap x)) x (some new)) y = nextOf heap y := by
    intro y hy
    rw [nextOf_setNext_of_ne _ (hapart y hy).1, nextOf_setNext_of_ne _ (hapart y hy).2]
  obtain ⟨q, hxs, rfl, hrest⟩ := path_append.mp h
  obtain ⟨r, hbefore, rfl, -⟩ := path_append.mp hrest
  -- The path to `new`, and the one from there back to it.
  have hfirst : Math.Path (nextOf (setNext (setNext heap new (nextOf heap x)) x (some new))) p
      (xs ++ [x]) (some new) := by
    refine path_append.mpr ⟨some x, hxs.congr fun y hy => ?_, rfl, nextOf_setNext_self _ _ _⟩
    exact hsame y (List.mem_append_left _ hy)
  have hcycle : Math.Path (nextOf (setNext (setNext heap new (nextOf heap x)) x (some new)))
      (some new) (new :: before) (some new) := by
    refine ⟨rfl, ?_⟩
    rw [nextOf_setNext_of_ne _ hne, nextOf_setNext_self]
    exact hbefore.congr fun y hy => hsame y (List.mem_append_right _ hy)
  obtain ⟨ws, hws⟩ := hfirst.exists_rest hzs
  exact hcycle.not_of_cycle hws

/-- What adding an attribute does: the list becomes that attribute alone if it was empty or
the attribute goes in front; else the attribute goes behind some node. -/
theorem addToEnabledAttribList_spec (hlisted : Listed list ls)
    (h : addToEnabledAttribList list new fuel = some list') :
    ∃ heap head, list' = { list with
        heap := heap, enabledAttribs := head, enabledCount := list.enabledCount + 1 } ∧
      SameButLinks list.heap heap ∧
      ((ls = [] ∨ InsertsInFront list.heap new ls) ∧ Listed list' [new] ∨
        ¬InsertsInFront list.heap new ls ∧
          (new ∉ ls → ∃ xs x ys, ls = xs ++ x :: ys ∧ Listed list' (xs ++ x :: new :: ys)) ∧
          (new ∈ ls → attribsMemoryOverlap (list.heap new) (list.heap new) = true →
            ∀ zs, ¬Listed list' zs)) := by
  unfold addToEnabledAttribList at h
  split at h
  next hhead =>
    cases h
    obtain rfl : ls = [] := hlisted.eq_of_none hhead
    refine ⟨_, _, rfl, fun x => ?_, .inl ⟨.inl rfl, rfl, ?_⟩⟩
    · rcases eq_or_ne x new with rfl | hne
      · exact ⟨1, none, by simp⟩
      · exact ⟨_, _, by rw [Function.update_of_ne hne]⟩
    · simp [Math.Path, nextOf]
  next e hhead =>
    obtain ⟨⟨heap, chunk, previous⟩, hloop, hlist⟩ := Option.map_eq_some_iff.mp h
    have hpath : Math.Path (nextOf list.heap) (some e) ls none := hhead ▸ hlisted
    obtain ⟨rest, rfl, -⟩ := hpath.exists_eq_cons
    obtain ⟨hsame, hprevious⟩ := addLoop_spec hloop hpath
    have hfront := addLoop_eq_none_iff rest hloop
    -- The memory after `new_attrib->chunk = chunk`.
    have hlinks : SameLinks list.heap
        (Function.update heap new { heap new with chunk := chunk }) :=
      hsame.sameLinks.trans (SameLinks.update rfl rfl)
    have hchunk : SameButLinks list.heap
        (Function.update heap new { heap new with chunk := chunk }) :=
      hsame.sameButLinks.trans (sameButLinks_setChunk _ _ _)
    -- Without a previous node the new one becomes the whole list.
    cases previous with
    | none =>
      cases hlist
      refine ⟨_, _, rfl, hchunk.trans (sameButLinks_setNext _ _ _),
        .inl ⟨.inr (hfront.mp rfl), rfl, ?_⟩⟩
      exact nextOf_setNext_self _ _ _
    | some p =>
      cases hlist
      refine ⟨_, list.enabledAttribs, rfl,
        (hchunk.trans (sameButLinks_setNext _ _ _)).trans (sameButLinks_setNext _ _ _),
        .inr ⟨fun hin => (by cases hfront.mpr hin), fun hnew => ?_, fun hnew hself zs => ?_⟩⟩
      · obtain ⟨x, hx, heq⟩ := hprevious.resolve_left (by simp)
        cases heq
        obtain ⟨xs, ys, hsplit⟩ := List.append_of_mem hx
        refine ⟨xs, p, ys, hsplit, ?_⟩
        have hwhole := hpath.congr fun x _ => hlinks.next x
        rw [hsplit] at hwhole hnew
        unfold Listed
        rw [hhead]
        exact path_relinked hwhole hnew
      · obtain ⟨xs, x, ys, hsplit, heq, hys⟩ :=
          (addLoop_before hnew hself hloop hpath).resolve_left (by simp)
        cases heq
        have hwhole := hpath.congr fun x _ => hlinks.next x
        rw [hsplit] at hwhole
        unfold Listed
        rw [hhead]
        exact not_path_of_relinked hwhole hys

/-! ### The helpers on a list in allocated memory -/

theorem Linked.remove (h : Linked list ls)
    (hrun : removeFromEnabledAttribList list new fuel = some list') :
    Linked list' (ls.erase new) := by
  obtain ⟨heap, head, rfl, hsame, hlisted⟩ := removeFromEnabledAttribList_spec h.listed hrun
  refine ⟨⟨h.attribs_lt, h.attribs_live, h.freed_lt⟩, hlisted, fun x hx => ?_⟩
  have hx := h.placed x (List.mem_of_mem_erase hx)
  exact ⟨hx.live, hx.block_lt, hx.idx_lt⟩

/-- An attribute that is added either becomes the whole list, or joins it. -/
theorem Linked.add (h : Linked list ls) (hnew : Placed list new)
    (hnot : ¬InsertsInFront list.heap new ls → new ∉ ls)
    (hrun : addToEnabledAttribList list new fuel = some list') :
    ∃ ls', Linked list' ls' ∧ ((ls = [] ∨ InsertsInFront list.heap new ls) ∧ ls' = [new] ∨
      ¬InsertsInFront list.heap new ls ∧ ls'.Perm (new :: ls)) := by
  obtain ⟨heap, head, rfl, hsame, hcases⟩ := addToEnabledAttribList_spec h.listed hrun
  rcases hcases with ⟨hempty, hlisted⟩ | ⟨hfront, hsplit, -⟩
  · refine ⟨[new], ⟨⟨h.attribs_lt, h.attribs_live, h.freed_lt⟩, hlisted, ?_⟩, .inl ⟨hempty, rfl⟩⟩
    simpa using ⟨hnew.live, hnew.block_lt, hnew.idx_lt⟩
  · obtain ⟨xs, x, ys, rfl, hlisted⟩ := hsplit (hnot hfront)
    -- Wherever it was put, the nodes are the old ones and the new one.
    have hperm : (xs ++ x :: new :: ys).Perm (new :: (xs ++ x :: ys)) := by
      have hmiddle : ((xs ++ [x]) ++ new :: ys).Perm (new :: ((xs ++ [x]) ++ ys)) :=
        List.perm_middle
      simpa using hmiddle
    refine ⟨_, ⟨⟨h.attribs_lt, h.attribs_live, h.freed_lt⟩, hlisted, fun y hy => ?_⟩,
      .inr ⟨hfront, hperm⟩⟩
    have hy : Placed list y := by
      rcases List.mem_cons.mp (hperm.mem_iff.mp hy) with rfl | hy
      · exact hnew
      · exact h.placed y hy
    exact ⟨hy.live, hy.block_lt, hy.idx_lt⟩

/-- Moving the attributes to a new block does not free the block of a listed one. -/
def GrowthSafe (list : AttribList) (ls : List Loc) : Prop :=
  list.count < numEmbedded ∨ list.attribs = 0 ∨ ∀ x ∈ ls, x.block ≠ list.attribs

/-- A new attribute is written where no attribute in use is, in the old block or the new. -/
theorem heap_appendAttrib {attrib : VertexAttrib} {x : Loc} (hx : Placed list x) :
    (appendAttrib list attrib).heap x = list.heap x := by
  unfold VertexAttribs.appendAttrib
  split
  · have hne : x ≠ ⟨list.attribs, list.count⟩ := by
      rintro rfl
      exact absurd (hx.idx_lt rfl) (Nat.lt_irrefl _)
    simp only [Function.update_of_ne hne]
  · have hold : x.block ≠ list.nextBlock := Nat.ne_of_lt hx.block_lt
    have hne : x ≠ ⟨list.nextBlock, list.count⟩ := fun heq => hold (congrArg Loc.block heq)
    simp only [Function.update_of_ne hne, hold, false_and, if_false]

/-- A new attribute, which is not listed, leaves the list as it is. -/
theorem Linked.appendAttrib {attrib : VertexAttrib} (h : Linked list ls)
    (hsafe : GrowthSafe list ls) : Linked (appendAttrib list attrib) ls := by
  have hsame : ∀ x ∈ ls, (VertexAttribs.appendAttrib list attrib).heap x = list.heap x :=
    fun x hx => heap_appendAttrib (h.placed x hx)
  have hlisted : Math.Path (nextOf (VertexAttribs.appendAttrib list attrib).heap)
      list.enabledAttribs ls none :=
    h.listed.congr fun x hx => congrArg VertexAttrib.nextEnabled (hsame x hx)
  unfold VertexAttribs.appendAttrib at hlisted ⊢
  split at hlisted
  next hshort =>
    rw [if_pos hshort]
    refine ⟨⟨h.attribs_lt, h.attribs_live, h.freed_lt⟩, hlisted, fun x hx => ?_⟩
    have hx := h.placed x hx
    exact ⟨hx.live, hx.block_lt, fun hblock => Nat.lt_succ_of_lt (hx.idx_lt hblock)⟩
  -- The attributes are copied to a new block; the nodes listed stay in the old one.
  next hlong =>
    rw [if_neg hlong]
    refine ⟨⟨Nat.lt_succ_self _, ?_, ?_⟩, hlisted, fun x hx =>
      ⟨?_, Nat.lt_succ_of_lt (h.placed x hx).block_lt,
        fun heq => absurd heq (Nat.ne_of_lt (h.placed x hx).block_lt)⟩⟩
    · simp only
      split
      · simp only [List.mem_cons, not_or]
        exact ⟨(Nat.ne_of_lt h.attribs_lt).symm, fun hmem => Nat.lt_irrefl _ (h.freed_lt _ hmem)⟩
      · exact fun hmem => Nat.lt_irrefl _ (h.freed_lt _ hmem)
    · intro b hb
      simp only at hb ⊢
      split at hb
      · rcases List.mem_cons.mp hb with rfl | hb
        · exact Nat.lt_succ_of_lt h.attribs_lt
        · exact Nat.lt_succ_of_lt (h.freed_lt b hb)
      · exact Nat.lt_succ_of_lt (h.freed_lt b hb)
    · have hlive := (h.placed x hx).live
      simp only
      split
      -- The old block is freed, so no listed attribute may be in it.
      next hmoved =>
        have hblock := (hsafe.resolve_left hlong).resolve_left hmoved x hx
        simpa [hblock] using hlive
      next => exact hlive

/-! ### Finding an attribute, and checking its index -/

variable {driverMax : ℤ} {s t : ClientState} {index : ℕ}

/-- The index passes `caching_client_does_index_overflow`. -/
def Accepted (driverMax : ℤ) (s : ClientState) (index : ℕ) : Prop :=
  index ≤ uint (queryMaxVertexAttribs driverMax s).maxVertexAttribs

theorem findIndex_spec (h : findIndex list index = some a) :
    a.block = list.attribs ∧ a.idx < list.count ∧ (list.heap a).index = index := by
  obtain ⟨i, hfind, rfl⟩ := Option.map_eq_some_iff.mp h
  have hmem := List.mem_of_find?_eq_some hfind
  have hindex := List.find?_some hfind
  exact ⟨rfl, List.mem_range.mp hmem, by simpa using hindex⟩

theorem Allocated.placed (h : Allocated list) (hblock : a.block = list.attribs)
    (hidx : a.idx < list.count) : Placed list a :=
  ⟨hblock ▸ h.attribs_live, hblock ▸ h.attribs_lt, fun _ => hidx⟩

/-- What the list of enabled attributes depends on, apart from the attributes. -/
structure SameBindings (s t : ClientState) : Prop where
  vertexAttribs : t.vertexAttribs = s.vertexAttribs
  vertexArrayBinding : t.vertexArrayBinding = s.vertexArrayBinding
  arrayBufferBinding : t.arrayBufferBinding = s.arrayBufferBinding

theorem sameBindings_setError (error : ℕ) : SameBindings s (setError s error) := by
  unfold setError
  split <;> exact ⟨rfl, rfl, rfl⟩

theorem sameBindings_queryMaxVertexAttribs :
    SameBindings s (queryMaxVertexAttribs driverMax s) := by
  unfold queryMaxVertexAttribs
  split <;> exact ⟨rfl, rfl, rfl⟩

theorem SameBindings.trans {u : ClientState} (h : SameBindings s t) (h' : SameBindings t u) :
    SameBindings s u :=
  ⟨h'.vertexAttribs.trans h.vertexAttribs, h'.vertexArrayBinding.trans h.vertexArrayBinding,
    h'.arrayBufferBinding.trans h.arrayBufferBinding⟩

/-- The check of the index leaves attributes and bindings alone, and passes accepted ones. -/
theorem doesIndexOverflow_spec {overflow : Bool}
    (h : doesIndexOverflow driverMax s index = (t, overflow)) :
    SameBindings s t ∧ (overflow = false ↔ Accepted driverMax s index) := by
  rw [doesIndexOverflow] at h
  split at h
  next hle =>
    cases h
    exact ⟨sameBindings_queryMaxVertexAttribs, by simpa [Accepted] using hle⟩
  next hlt =>
    cases h
    exact ⟨sameBindings_queryMaxVertexAttribs.trans (sameBindings_setError _),
      by simpa [Accepted] using hlt⟩

theorem accepted_congr (h : t.maxVertexAttribsQueried = s.maxVertexAttribsQueried)
    (hmax : t.maxVertexAttribs = s.maxVertexAttribs) :
    Accepted driverMax t index ↔ Accepted driverMax s index := by
  simp only [Accepted, queryMaxVertexAttribs, h]
  split <;> simp [hmax]

theorem insertsInFront_congr
    (h : ∀ x, (heap' x).pointer = (heap x).pointer ∧ (heap' x).stride = (heap x).stride) :
    InsertsInFront heap' new ls ↔ InsertsInFront heap new ls := by
  have hoverlap : ∀ x, attribsMemoryOverlap (heap' new) (heap' x) =
      attribsMemoryOverlap (heap new) (heap x) :=
    fun x => attribsMemoryOverlap_congr (h new) (h x)
  simp only [InsertsInFront, hoverlap, (h _).1]

end GpuProxy.VertexAttribs
