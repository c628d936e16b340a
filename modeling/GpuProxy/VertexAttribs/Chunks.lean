import GpuProxy.VertexAttribs.Draw
import GpuProxy.VertexAttribs.Insertion
import Mathlib.Tactic.Linarith
import Mathlib.Tactic.Ring

/-!
# Chunks of attributes

Enabled attributes that overlap get one chunk number and are copied together. The numbers go down
along the list, and within a chunk the addresses go up, so that no attribute of a chunk starts
below its first one. How far a chunk reaches is computed from its last attribute alone: an
attribute with a larger stride may reach farther.

## Main definitions

* `listSystem` — the runs of the two list helpers from the empty list on
* `MayPrecede` — the order of the list
* `Covered` — the copied bytes of a chunk have all the data of an attribute
* `ReachesFar` — the chunks whose last attribute reaches farthest

## Main results

* `inGroups_of_reachable` — the order is kept by fewer than `2 ^ 32` calls
* `runCovered_iff` — which chunks are copied far enough
* `exists_uncovered` — an array with a stride, and one without behind its first element
-/

namespace GpuProxy.VertexAttribs

open Math

/-! ### Lists that are built by the helpers -/

/-- A list of enabled attributes, with the number of calls made on it. -/
structure BuiltList where
  list : AttribList
  calls : ℕ

/-- The calls of the helpers, and what is written to an attribute that is not listed. -/
inductive ListOp
  | add (new : Loc)
  | remove (a : Loc)
  | write (a : Loc) (attrib : VertexAttrib)

/-- An attribute is added that is not listed, and one removed that is. -/
def listSystem : System BuiltList ListOp where
  Init s := s.list.enabledAttribs = none ∧ s.calls = 0
  Step s op t := ∃ ls, Listed s.list ls ∧ match op with
    | .add new => new ∉ ls ∧ t.calls = s.calls + 1 ∧
      ∃ fuel, addToEnabledAttribList s.list new fuel = some t.list
    | .remove a => a ∈ ls ∧ t.calls = s.calls + 1 ∧
      ∃ fuel, removeFromEnabledAttribList s.list a fuel = some t.list
    | .write a attrib => a ∉ ls ∧ t.calls = s.calls ∧
      t.list = { s.list with heap := Function.update s.list.heap a attrib }

/-! ### The order of the list -/

/-- The second attribute is in a lower chunk, or it is in the same and not at a lower address. -/
def MayPrecede (a b : VertexAttrib) : Prop :=
  b.chunk < a.chunk ∨ b.chunk = a.chunk ∧ a.pointer ≤ b.pointer

/-- An attribute that is put in a chunk. -/
def VertexAttrib.inChunk (a : VertexAttrib) (chunk : ℕ) : VertexAttrib := { a with chunk := chunk }

/-- The listed attributes are in order. -/
def InGroups (heap : Loc → VertexAttrib) (ls : List Loc) : Prop :=
  (ls.map heap).Pairwise MayPrecede

variable {list list' : AttribList} {heap heap' : Loc → VertexAttrib} {ls ls' rest : List Loc}
  {new : Loc} {fuel chunk chunk' n : ℕ} {enabled previous previous' : Option Loc}
  {a b c : VertexAttrib}

theorem MayPrecede.trans (hab : MayPrecede a b) (hbc : MayPrecede b c) : MayPrecede a c := by
  unfold MayPrecede at *
  omega

theorem MayPrecede.chunk_le (h : MayPrecede a b) : b.chunk ≤ a.chunk := by
  obtain hlt | ⟨heq, -⟩ := h
  · exact hlt.le
  · exact heq.le

theorem MayPrecede.congr {a' b' : VertexAttrib} (h : MayPrecede a b)
    (ha : a'.chunk = a.chunk ∧ a'.pointer = a.pointer)
    (hb : b'.chunk = b.chunk ∧ b'.pointer = b.pointer) : MayPrecede a' b' := by
  unfold MayPrecede at *
  rwa [ha.1, ha.2, hb.1, hb.2]

/-- The order does not depend on other fields. -/
theorem InGroups.congr (h : InGroups heap ls)
    (hsame : ∀ x ∈ ls, (heap' x).chunk = (heap x).chunk ∧ (heap' x).pointer = (heap x).pointer) :
    InGroups heap' ls := by
  unfold InGroups at *
  rw [List.pairwise_map] at *
  exact h.imp_of_mem fun hx hy hxy => hxy.congr (hsame _ hx) (hsame _ hy)

theorem InGroups.sublist (h : InGroups heap ls) (hsub : ls'.Sublist ls) : InGroups heap ls' :=
  List.Pairwise.sublist (hsub.map heap) h

/-! ### Adding -/

theorem getLast?_cons_or {e : Loc} (before : List Loc) :
    (e :: before).getLast?.or previous = before.getLast?.or (some e) := by
  cases before with
  | nil => rfl
  | cons x before =>
    rw [List.getLast?_cons_cons, List.getLast?_cons]
    rfl

/-- Whatever the first may precede may come behind it, in front of the rest or further on. -/
theorem mem_inserted {before after : List VertexAttrib} {P : VertexAttrib → Prop}
    (hold : ∀ b ∈ before ++ after, P b) (hnew : P a) : ∀ b ∈ before ++ a :: after, P b := by
  intro b hb
  rw [List.mem_append, List.mem_cons] at hb
  obtain hb | rfl | hb := hb
  · exact hold b (List.mem_append_left _ hb)
  · exact hnew
  · exact hold b (List.mem_append_right _ hb)

/-- The attributes passed in the chunk are at lower addresses, and the next one is not. -/
theorem skipChunk_inGroups (hpath : Math.Path (nextOf heap) enabled rest none)
    (hgroups : InGroups heap rest) (hchunk : ∀ x ∈ rest, (heap x).chunk ≤ chunk)
    (h : skipChunk new heap chunk fuel enabled previous = some previous') :
    ∃ before after, rest = before ++ after ∧ previous' = before.getLast?.or previous ∧
      (before.map heap ++ (heap new).inChunk chunk :: after.map heap).Pairwise
        MayPrecede := by
  induction fuel generalizing enabled previous rest with
  | zero => cases h
  | succ fuel ih =>
    cases enabled with
    | none =>
      obtain rfl : rest = [] := hpath.eq_of_none rfl
      cases h
      exact ⟨[], [], rfl, rfl, List.pairwise_singleton _ _⟩
    | some e =>
      obtain ⟨rest, rfl, hrest⟩ := hpath.exists_eq_cons
      obtain ⟨hfirst, hgroups'⟩ := List.pairwise_cons.1 hgroups
      rw [skipChunk] at h
      split_ifs at h with hpass
      · obtain ⟨before, after, rfl, hprevious, hordered⟩ :=
          ih hrest hgroups' (fun x hx => hchunk x (List.mem_cons_of_mem e hx)) h
        rw [List.map_append] at hfirst
        refine ⟨e :: before, after, rfl, hprevious.trans (getLast?_cons_or before).symm,
          List.pairwise_cons.2 ⟨mem_inserted hfirst ?_, hordered⟩⟩
        exact .inr ⟨hpass.1.symm, hpass.2.le⟩
      · have hnew : MayPrecede ((heap new).inChunk chunk) (heap e) := by
          have hle := hchunk e List.mem_cons_self
          unfold MayPrecede VertexAttrib.inChunk
          simp only
          omega
        cases h
        refine ⟨[], e :: rest, rfl, rfl, List.pairwise_cons.2 ⟨fun b hb => ?_, hgroups⟩⟩
        obtain rfl | hb := List.mem_cons.1 hb
        · exact hnew
        · exact hnew.trans (hfirst b hb)

/-- The memory after `previous_attrib->chunk++`. -/
def countUp (heap : Loc → VertexAttrib) (e : Loc) : Loc → VertexAttrib :=
  Function.update heap e { heap e with chunk := uint ((heap e).chunk + 1) }

theorem countUp_self {e : Loc} (hwrap : (heap e).chunk + 1 < 2 ^ 32) :
    (countUp heap e e).pointer = (heap e).pointer ∧
      (countUp heap e e).chunk = (heap e).chunk + 1 := by
  have huint : uint ((heap e).chunk + 1) = (heap e).chunk + 1 := uint_natCast_of_lt hwrap
  simp [countUp, huint]

theorem countUp_of_ne {e x : Loc} (hx : x ≠ e) : countUp heap e x = heap x :=
  Function.update_of_ne hx _ _

theorem countUp_of_mem {e x : Loc} (he : e ∉ rest) (hx : x ∈ rest) :
    countUp heap e x = heap x := by
  apply countUp_of_ne
  rintro rfl
  exact he hx

/-- What the loop leaves: the attributes passed are counted up, so that the new one may come behind
them in the chunk of the last one. -/
structure LoopInOrder (new : Loc) (heap heap' : Loc → VertexAttrib) (rest : List Loc)
    (chunk chunk' : ℕ) (previous previous' : Option Loc) : Prop where
  kept : ∀ x ∉ rest, heap' x = heap x
  counted : ∀ x ∈ rest, (heap' x).pointer = (heap x).pointer ∧
    ((heap' x).chunk = (heap x).chunk ∨ (heap' x).chunk = (heap x).chunk + 1)
  chunk_eq : chunk' = chunk ∨ ∃ x ∈ rest, chunk' = (heap x).chunk
  inserted : ∃ before after, rest = before ++ after ∧ previous' = before.getLast?.or previous ∧
    (before.map heap' ++ (heap' new).inChunk chunk' :: after.map heap').Pairwise MayPrecede

/-- One more attribute is passed in front. -/
theorem LoopInOrder.cons {e : Loc} (hnode : e ∉ rest) (hwrap : (heap e).chunk + 1 < 2 ^ 32)
    (hfirst : ∀ x ∈ rest, MayPrecede (heap e) (heap x))
    (h : LoopInOrder new (countUp heap e) heap' rest (heap e).chunk chunk' (some e) previous') :
    LoopInOrder new heap heap' (e :: rest) chunk chunk' previous previous' := by
  obtain ⟨hkept, hpassed, hchunk, before, after, rfl, hprevious, hordered⟩ := h
  obtain ⟨hpointer, hcounted⟩ := countUp_self hwrap
  have hrest : ∀ x ∈ before ++ after, countUp heap e x = heap x := by
    intro x hx
    exact countUp_of_mem hnode hx
  have hheap : ∀ x ∈ before ++ after, (heap' x).pointer = (heap x).pointer ∧
      ((heap' x).chunk = (heap x).chunk ∨ (heap' x).chunk = (heap x).chunk + 1) := by
    intro x hx
    rw [← hrest x hx]
    exact hpassed x hx
  have hlast : ∃ x ∈ e :: (before ++ after), chunk' = (heap x).chunk := by
    obtain heq | ⟨x, hx, heq⟩ := hchunk
    · exact ⟨e, List.mem_cons_self, heq⟩
    · exact ⟨x, List.mem_cons_of_mem e hx, hrest x hx ▸ heq⟩
  refine ⟨fun x hx => ?_, fun x hx => ?_, .inr hlast, e :: before, after, rfl,
    hprevious.trans (getLast?_cons_or before).symm,
    List.pairwise_cons.2 ⟨mem_inserted (fun b hb => ?_) ?_, hordered⟩⟩
  · rw [List.mem_cons, not_or] at hx
    rw [hkept x hx.2, countUp_of_ne hx.1]
  · obtain rfl | hx := List.mem_cons.1 hx
    · rw [hkept x hnode]
      exact ⟨hpointer, .inr hcounted⟩
    · exact hheap x hx
  · rw [← List.map_append] at hb
    obtain ⟨x, hx, rfl⟩ := List.mem_map.1 hb
    obtain ⟨hpointer', hchunk'⟩ := hheap x hx
    have hbefore := hfirst x hx
    unfold MayPrecede at hbefore ⊢
    rw [hkept e hnode, hcounted, hpointer, hpointer']
    omega
  · left
    rw [hkept e hnode, hcounted]
    obtain ⟨x, hx, heq⟩ := hlast
    obtain rfl | hx := List.mem_cons.1 hx
    · exact heq ▸ Nat.lt_succ_self _
    · exact Nat.lt_succ_of_le (heq ▸ (hfirst x hx).chunk_le)

theorem addLoop_inGroups (hpath : Math.Path (nextOf heap) enabled rest none)
    (hgroups : InGroups heap rest) (hwrap : ∀ x ∈ rest, (heap x).chunk + 1 < 2 ^ 32)
    (h : addLoop new fuel heap enabled previous chunk = some (heap', chunk', previous'))
    (hnew : new ∉ rest) : LoopInOrder new heap heap' rest chunk chunk' previous previous' := by
  induction fuel generalizing heap enabled previous chunk rest with
  | zero => cases h
  | succ fuel ih =>
    cases enabled with
    | none =>
      obtain rfl : rest = [] := hpath.eq_of_none rfl
      cases h
      exact ⟨fun _ _ => rfl, by simp, .inl rfl, [], [], rfl, rfl, List.pairwise_singleton _ _⟩
    | some e =>
      obtain ⟨rest, rfl, hrest⟩ := hpath.exists_eq_cons
      obtain ⟨hfirst, hgroups'⟩ : (∀ x ∈ rest, MayPrecede (heap e) (heap x)) ∧
          InGroups heap rest := by
        obtain ⟨hfirst, hgroups'⟩ := List.pairwise_cons.1 hgroups
        exact ⟨fun x hx => hfirst _ (List.mem_map_of_mem hx), hgroups'⟩
      rw [addLoop] at h
      split_ifs at h
      · have hchunk : ∀ x ∈ e :: rest, (heap x).chunk ≤ (heap e).chunk := by
          intro x hx
          obtain rfl | hx := List.mem_cons.1 hx
          · exact le_rfl
          · exact (hfirst x hx).chunk_le
        obtain ⟨previous'', hskip, heq⟩ := Option.map_eq_some_iff.1 h
        cases heq
        exact ⟨fun _ _ => rfl, fun _ _ => ⟨rfl, .inl rfl⟩, .inr ⟨e, List.mem_cons_self, rfl⟩,
          skipChunk_inGroups hpath hgroups hchunk hskip⟩
      · have hcounting : addLoop new fuel (countUp heap e) (heap e).nextEnabled (some e)
            (heap e).chunk = some (heap', chunk', previous') := h
        have hnode : e ∉ rest := (List.nodup_cons.1 hpath.nodup).1
        have hkept : ∀ x ∈ rest, countUp heap e x = heap x := fun x hx => countUp_of_mem hnode hx
        apply LoopInOrder.cons hnode (hwrap e List.mem_cons_self) hfirst
        apply ih (hrest.congr fun x hx => by rw [nextOf, hkept x hx, nextOf])
          (hgroups'.congr fun x hx => by rw [hkept x hx]; exact ⟨rfl, rfl⟩) _ hcounting
        · exact fun hmem => hnew (List.mem_cons_of_mem e hmem)
        · intro x hx
          rw [hkept x hx]
          exact hwrap x (List.mem_cons_of_mem e hx)

/-- The numbers go up by one at most, also that of the new attribute. -/
theorem LoopInOrder.chunk_le (h : LoopInOrder new heap heap' rest chunk chunk' previous previous')
    (hle : ∀ x ∈ rest, (heap x).chunk ≤ n) (hchunk : chunk ≤ n) {x : Loc}
    (hx : x = new ∨ x ∈ rest) :
    (Function.update heap' new { heap' new with chunk := chunk' } x).chunk ≤ n + 1 := by
  rcases eq_or_ne x new with rfl | hne
  · rw [Function.update_self]
    obtain rfl | ⟨y, hy, rfl⟩ := h.chunk_eq
    · exact hchunk.trans n.le_succ
    · exact (hle y hy).trans n.le_succ
  · have hx := hx.resolve_left hne
    have hxn := hle x hx
    rw [Function.update_of_ne hne]
    obtain ⟨-, heq | heq⟩ := h.counted x hx <;> omega

@[simp] theorem setNext_chunk (x y : Loc) (next : Option Loc) :
    (setNext heap x next y).chunk = (heap y).chunk := by
  rcases eq_or_ne y x with rfl | hne
  · simp [setNext]
  · rw [setNext, Function.update_of_ne hne]

@[simp] theorem setNext_pointer (x y : Loc) (next : Option Loc) :
    (setNext heap x next y).pointer = (heap y).pointer := by
  rcases eq_or_ne y x with rfl | hne
  · simp [setNext]
  · rw [setNext, Function.update_of_ne hne]

theorem map_update_inserted {before after : List Loc} (hnew : new ∉ before ++ after) :
    (before ++ new :: after).map (Function.update heap new a) =
      before.map heap ++ a :: after.map heap := by
  have hkept : ∀ x ∈ before ++ after, Function.update heap new a x = heap x := by
    intro x hx
    apply Function.update_of_ne
    rintro rfl
    exact hnew hx
  rw [List.map_append, List.map_cons, Function.update_self,
    List.map_congr_left fun x hx => hkept x (List.mem_append_left _ hx),
    List.map_congr_left fun x hx => hkept x (List.mem_append_right _ hx)]

/-- An addition keeps the order, and the numbers go up by one at most. -/
theorem addToEnabledAttribList_inGroups (hlisted : Listed list ls) (hnew : new ∉ ls)
    (hgroups : InGroups list.heap ls) (hle : ∀ x ∈ ls, (list.heap x).chunk ≤ n)
    (hn : n + 1 < 2 ^ 32) (h : addToEnabledAttribList list new fuel = some list') :
    ∃ ls', Listed list' ls' ∧ InGroups list'.heap ls' ∧
      ∀ x ∈ ls', (list'.heap x).chunk ≤ n + 1 := by
  unfold addToEnabledAttribList at h
  split at h
  next hhead =>
    cases h
    obtain rfl : ls = [] := hlisted.eq_of_none hhead
    refine ⟨[new], ⟨rfl, ?_⟩, List.pairwise_singleton _ _, fun x hx => ?_⟩
    · simp [Math.Path, nextOf]
    · obtain rfl := List.mem_singleton.1 hx
      simp
  next e hhead =>
    obtain ⟨⟨heap, chunk, previous⟩, hloop, hlist⟩ := Option.map_eq_some_iff.1 h
    have hpath : Math.Path (nextOf list.heap) (some e) ls none := hhead ▸ hlisted
    obtain ⟨hsame, -⟩ := addLoop_spec hloop hpath
    have hleft := addLoop_inGroups hpath hgroups
      (fun x hx => (Nat.succ_le_succ (hle x hx)).trans_lt hn) hloop hnew
    obtain ⟨before, after, rfl, hprevious, hordered⟩ := hleft.inserted
    -- The memory after `new_attrib->chunk = chunk`.
    set heap₁ := Function.update heap new { heap new with chunk := chunk } with hheap₁
    have hinserted : InGroups heap₁ (before ++ new :: after) := by
      unfold InGroups
      rw [hheap₁, map_update_inserted hnew]
      exact hordered
    have hbound : ∀ x ∈ before ++ new :: after, (heap₁ x).chunk ≤ n + 1 := by
      intro x hx
      apply hleft.chunk_le hle n.zero_le
      simpa only [List.mem_append, List.mem_cons, or_left_comm] using hx
    cases previous with
    | none =>
      cases hlist
      refine ⟨[new], ⟨rfl, nextOf_setNext_self _ _ _⟩, List.pairwise_singleton _ _,
        fun x hx => ?_⟩
      obtain rfl := List.mem_singleton.1 hx
      rw [setNext_chunk]
      exact hbound x (by simp)
    | some p =>
      cases hlist
      obtain ⟨xs, rfl⟩ : ∃ xs, before = xs ++ [p] := by
        rw [Option.or_none] at hprevious
        exact List.getLast?_eq_some_iff.1 hprevious.symm
      have hlinks : SameLinks list.heap heap₁ := hsame.sameLinks.trans (SameLinks.update rfl rfl)
      have hwhole := hpath.congr fun x _ => hlinks.next x
      have hsplit : ∀ ys : List Loc, xs ++ [p] ++ ys = xs ++ p :: ys := by simp
      rw [hsplit] at hwhole hnew hinserted hbound
      refine ⟨xs ++ p :: new :: after, ?_, hinserted.congr fun x _ => ?_, fun x hx => ?_⟩
      · unfold Listed
        rw [hhead]
        exact path_relinked hwhole hnew
      · rw [setNext_chunk, setNext_chunk, setNext_pointer, setNext_pointer]
        exact ⟨rfl, rfl⟩
      · rw [setNext_chunk, setNext_chunk]
        exact hbound x hx

/-! ### Removing -/

theorem removeLoop_eq_setNext {p : Loc}
    (h : removeLoop new fuel heap p enabled = some heap') :
    heap' = heap ∨ ∃ x next, heap' = setNext heap x next := by
  induction fuel generalizing p enabled with
  | zero => cases h
  | succ fuel ih =>
    cases enabled with
    | none =>
      cases h
      exact .inl rfl
    | some e =>
      rw [removeLoop] at h
      split_ifs at h
      · cases h
        exact .inr ⟨_, _, rfl⟩
      · exact ih h

/-- A removal leaves the numbers and the addresses. -/
theorem removeFromEnabledAttribList_heap
    (h : removeFromEnabledAttribList list new fuel = some list') (x : Loc) :
    (list'.heap x).chunk = (list.heap x).chunk ∧
      (list'.heap x).pointer = (list.heap x).pointer := by
  unfold removeFromEnabledAttribList at h
  split at h
  next =>
    cases h
    exact ⟨rfl, rfl⟩
  next e hhead =>
    split_ifs at h
    · cases h
      exact ⟨setNext_chunk _ _ _, setNext_pointer _ _ _⟩
    · obtain ⟨heap', hloop, rfl⟩ := Option.map_eq_some_iff.1 h
      obtain rfl | ⟨y, next, rfl⟩ := removeLoop_eq_setNext hloop
      · exact ⟨rfl, rfl⟩
      · exact ⟨setNext_chunk _ _ _, setNext_pointer _ _ _⟩

/-! ### Whole runs -/

/-- The list has no cycles, and with few calls it is in order and its numbers are low. -/
def Ordered (s : BuiltList) : Prop :=
  ∃ ls, Listed s.list ls ∧ (s.calls < 2 ^ 32 → InGroups s.list.heap ls ∧
    ∀ x ∈ ls, (s.list.heap x).chunk ≤ s.calls)

theorem Ordered.add {s t : BuiltList} (h : Ordered s) (hlisted : Listed s.list ls)
    (hnew : new ∉ ls) (hcalls : t.calls = s.calls + 1)
    (hrun : addToEnabledAttribList s.list new fuel = some t.list) : Ordered t := by
  obtain ⟨ls', hlisted', hordered⟩ := h
  obtain rfl : ls' = ls := hlisted'.eq_of_none hlisted
  by_cases hfew : s.calls + 1 < 2 ^ 32
  · obtain ⟨hgroups, hle⟩ := hordered (by omega)
    obtain ⟨ls', hlisted', hgroups', hle'⟩ :=
      addToEnabledAttribList_inGroups hlisted hnew hgroups hle hfew hrun
    exact ⟨ls', hlisted', fun _ => ⟨hgroups', hcalls ▸ hle'⟩⟩
  · obtain ⟨heap, head, -, -, ⟨-, halone⟩ | ⟨-, hjoins, -⟩⟩ :=
      addToEnabledAttribList_spec hlisted hrun
    · exact ⟨_, halone, fun h => absurd (hcalls ▸ h) hfew⟩
    · obtain ⟨xs, x, ys, -, hlisted'⟩ := hjoins hnew
      exact ⟨_, hlisted', fun h => absurd (hcalls ▸ h) hfew⟩

theorem Ordered.remove {s t : BuiltList} {x : Loc} (h : Ordered s)
    (hcalls : t.calls = s.calls + 1)
    (hrun : removeFromEnabledAttribList s.list x fuel = some t.list) : Ordered t := by
  obtain ⟨ls, hlisted, hordered⟩ := h
  obtain ⟨-, -, -, -, hlisted'⟩ := removeFromEnabledAttribList_spec hlisted hrun
  have hheap := removeFromEnabledAttribList_heap hrun
  refine ⟨_, hlisted', fun hfew => ?_⟩
  obtain ⟨hgroups, hle⟩ := hordered (by omega)
  refine ⟨(hgroups.sublist List.erase_sublist).congr fun x _ => hheap x, fun x hx => ?_⟩
  have := hle x (List.mem_of_mem_erase hx)
  rw [(hheap x).1]
  omega

/-- Of a listed attribute, the order depends on the link, the number and the pointer. -/
theorem Ordered.write {s t : BuiltList} (h : Ordered s) (hlisted : Listed s.list ls)
    (hcalls : t.calls = s.calls) (hhead : t.list.enabledAttribs = s.list.enabledAttribs)
    (hkept : ∀ x ∈ ls, (t.list.heap x).nextEnabled = (s.list.heap x).nextEnabled ∧
      (t.list.heap x).chunk = (s.list.heap x).chunk ∧
      (t.list.heap x).pointer = (s.list.heap x).pointer) : Ordered t := by
  obtain ⟨ls', hlisted', hordered⟩ := h
  obtain rfl : ls' = ls := hlisted'.eq_of_none hlisted
  refine ⟨ls', ?_, fun hfew => ?_⟩
  · unfold Listed at hlisted ⊢
    rw [hhead]
    exact hlisted.congr fun x hx => (hkept x hx).1
  · obtain ⟨hgroups, hle⟩ := hordered (hcalls ▸ hfew)
    refine ⟨hgroups.congr fun x hx => (hkept x hx).2, fun x hx => ?_⟩
    rw [(hkept x hx).2.1, hcalls]
    exact hle x hx

theorem ordered_init {s : BuiltList} (hs : s.list.enabledAttribs = none) : Ordered s :=
  ⟨[], hs, fun _ => ⟨List.Pairwise.nil, by simp⟩⟩

theorem invariant_ordered : listSystem.Invariant Ordered where
  init s hs := ordered_init hs.1
  step := by
    rintro s op t - hordered ⟨ls, hlisted, hstep⟩
    cases op with
    | add new =>
      obtain ⟨hnew, hcalls, fuel, hrun⟩ := hstep
      exact hordered.add hlisted hnew hcalls hrun
    | remove a =>
      obtain ⟨-, hcalls, fuel, hrun⟩ := hstep
      exact hordered.remove hcalls hrun
    | write a attrib =>
      obtain ⟨hnot, hcalls, hlist⟩ := hstep
      refine hordered.write hlisted hcalls (by rw [hlist]) fun x hx => ?_
      have hne : x ≠ a := by
        rintro rfl
        exact hnot hx
      rw [hlist]
      simp only [Function.update_of_ne hne, and_self]

/-- After fewer than `2 ^ 32` calls the list is in order. -/
theorem inGroups_of_reachable {s : BuiltList} (hs : listSystem.Reachable s)
    (hlisted : Listed s.list ls) (hcalls : s.calls < 2 ^ 32) : InGroups s.list.heap ls := by
  obtain ⟨ls', hlisted', hordered⟩ := invariant_ordered.holds hs
  obtain rfl := hlisted.eq_of_none hlisted'
  exact (hordered hcalls).1

/-! ### What a chunk covers -/

/-- The bytes of an element. -/
def elementSize (a : VertexAttrib) : ℤ := a.size * getDataSize a.type

/-- The bytes from an element to the next. -/
def elementStride (a : VertexAttrib) : ℤ := if a.stride ≠ 0 then a.stride else elementSize a

/-- What `glVertexAttribPointer` accepts. -/
structure ValidArray (a : VertexAttrib) : Prop where
  type : a.type = glByte ∨ a.type = glUnsignedByte ∨ a.type = glShort ∨
    a.type = glUnsignedShort ∨ a.type = glFloat ∨ a.type = glFixed
  size : 1 ≤ a.size ∧ a.size ≤ 4
  stride : 0 ≤ a.stride ∧ a.stride < 2 ^ 31

/-- What is stored in an attribute: what `glVertexAttribPointer` accepts, or the size 0 of a new
one. -/
structure StoredArray (a : VertexAttrib) : Prop where
  type : a.type = glByte ∨ a.type = glUnsignedByte ∨ a.type = glShort ∨
    a.type = glUnsignedShort ∨ a.type = glFloat ∨ a.type = glFixed
  size : 0 ≤ a.size ∧ a.size ≤ 4
  stride : 0 ≤ a.stride ∧ a.stride < 2 ^ 31

theorem ValidArray.stored {a : VertexAttrib} (ha : ValidArray a) : StoredArray a :=
  ⟨ha.type, ⟨by have := ha.size; omega, ha.size.2⟩, ha.stride⟩

/-- The last attribute of a chunk. -/
def lastOf (run : VertexAttrib × List VertexAttrib) : VertexAttrib := run.2.getLastD run.1

/-- The elements of an attribute are in the bytes that are copied from the first one on. -/
def Covered (run : VertexAttrib × List VertexAttrib) (count : ℕ) (a : VertexAttrib) : Prop :=
  run.1.pointer ≤ a.pointer ∧
    a.pointer + elementStride a * (count - 1) + elementSize a ≤
      run.1.pointer + chunkSizeOf count run

/-- No attribute gets ahead of the last one by more than there is room at the first element, and
the size of the chunk does not wrap around. -/
structure ReachesFar (calls count : ℕ) (run : VertexAttrib × List VertexAttrib) : Prop where
  inOrder : 2 ^ 32 ≤ calls → ∀ a ∈ run.2, run.1.pointer ≤ a.pointer
  noWrap : elementStride (lastOf run) * count + (lastOf run).pointer - run.1.pointer < 2 ^ 64
  reaches : ∀ a ∈ run.1 :: run.2, (count - 1) * (elementStride a - elementStride (lastOf run)) ≤
    ((lastOf run).pointer + elementStride (lastOf run) : ℤ) - (a.pointer + elementSize a)

variable {as : List VertexAttrib} {run : VertexAttrib × List VertexAttrib} {count : ℕ}

theorem chunkRuns_spec (hrun : run ∈ chunkRuns as) :
    (run.1 :: run.2).Sublist as ∧ ∀ a ∈ run.2, a.chunk = run.1.chunk := by
  induction as generalizing run with
  | nil => cases hrun
  | cons a as ih =>
    rw [chunkRuns] at hrun
    split at hrun
    next =>
      obtain rfl := List.mem_singleton.1 hrun
      exact ⟨List.singleton_sublist.2 List.mem_cons_self, by simp⟩
    next b others runs hruns =>
      have hhead : (b, others) ∈ chunkRuns as := by
        rw [hruns]
        exact List.mem_cons_self
      have hfirst := ih hhead
      split_ifs at hrun with hchunk
      · obtain rfl | hrun := List.mem_cons.1 hrun
        · refine ⟨hfirst.1.cons_cons a, fun c hc => ?_⟩
          obtain rfl | hc := List.mem_cons.1 hc
          · exact hchunk.symm
          · exact (hfirst.2 c hc).trans hchunk.symm
        · obtain ⟨hsub, heq⟩ := ih (by rw [hruns]; exact List.mem_cons_of_mem _ hrun)
          exact ⟨hsub.cons a, heq⟩
      · obtain rfl | hrun := List.mem_cons.1 hrun
        · exact ⟨List.singleton_sublist.2 List.mem_cons_self, by simp⟩
        · obtain ⟨hsub, heq⟩ := ih (hruns ▸ hrun)
          exact ⟨hsub.cons a, heq⟩

/-- In an ordered list the first attribute of a chunk has the lowest address. -/
theorem pointer_le_of_mem_run (hordered : as.Pairwise MayPrecede) (hrun : run ∈ chunkRuns as) :
    ∀ a ∈ run.2, run.1.pointer ≤ a.pointer := by
  intro a ha
  obtain ⟨hsub, hchunk⟩ := chunkRuns_spec hrun
  obtain hlt | ⟨-, hle⟩ := (List.pairwise_cons.1 (hordered.sublist hsub)).1 a ha
  · exact absurd (hchunk a ha) hlt.ne
  · exact hle

theorem lastOf_mem : lastOf run ∈ run.1 :: run.2 := by
  obtain ⟨first, others⟩ := run
  cases others with
  | nil => exact List.mem_cons_self
  | cons b others =>
    have hlast := List.getLast?_eq_some_getLast (List.cons_ne_nil b others)
    apply List.mem_cons_of_mem
    rw [lastOf, List.getLastD_eq_getLast?, hlast]
    exact List.getLast_mem _

theorem StoredArray.getDataSize_mem (ha : StoredArray a) :
    getDataSize a.type = 1 ∨ getDataSize a.type = 2 ∨ getDataSize a.type = 4 := by
  obtain ⟨h | h | h | h | h | h, -, -⟩ := ha <;> rw [h] <;> decide

/-- An element has up to 16 bytes. -/
theorem StoredArray.elementSize_bounds (ha : StoredArray a) :
    0 ≤ elementSize a ∧ elementSize a ≤ 16 := by
  have hsize := ha.size
  unfold elementSize
  obtain h | h | h := ha.getDataSize_mem <;> rw [h] <;> push_cast <;> omega

theorem StoredArray.elementStride_bounds (ha : StoredArray a) :
    0 ≤ elementStride a ∧ elementStride a < 2 ^ 31 := by
  have hsize := ha.elementSize_bounds
  have hstride := ha.stride
  unfold elementStride
  split_ifs <;> omega

theorem StoredArray.chunkSizeOf_eq (hlast : StoredArray (lastOf run)) : chunkSizeOf count run =
    sizeT (elementStride (lastOf run) * count + (lastOf run).pointer - run.1.pointer) := by
  have hdata : getDataSize (lastOf run).type ≠ 0 := by
    obtain h | h | h := hlast.getDataSize_mem <;> rw [h] <;> decide
  have hstride : ((if (lastOf run).stride ≠ 0 then uint (lastOf run).stride
      else uint ((lastOf run).size * getDataSize (lastOf run).type) : ℕ) : ℤ) =
      elementStride (lastOf run) := by
    have huint : ∀ z : ℤ, 0 ≤ z → z < 2 ^ 31 → (uint z : ℤ) = z := by
      intro z hz hlt
      unfold uint
      omega
    have hsize := hlast.elementSize_bounds
    unfold elementStride
    split_ifs
    · exact huint _ hlast.stride.1 hlast.stride.2
    · exact huint _ (by unfold elementSize at hsize; omega) (by unfold elementSize at hsize; omega)
  change vertexChunkSize run.1 (lastOf run) count = _
  simp only [vertexChunkSize, if_neg hdata]
  rw [hstride]

/-- The bytes from the first element of a chunk to behind the last one of its last attribute. -/
def runExtent (count : ℕ) (run : VertexAttrib × List VertexAttrib) : ℤ :=
  elementStride (lastOf run) * count + (lastOf run).pointer - run.1.pointer

/-- The last attribute has all its elements only if the size does not wrap around. -/
theorem runExtent_lt (hlast : StoredArray (lastOf run))
    (hcovered : Covered run count (lastOf run)) :
    runExtent count run < 2 ^ 64 := by
  obtain ⟨hpointer, hend⟩ := hcovered
  have hstride := hlast.elementStride_bounds
  have hsize := hlast.elementSize_bounds
  have hbelow : elementStride (lastOf run) * (count - 1) =
      elementStride (lastOf run) * count - elementStride (lastOf run) := by ring
  have hmachine : (chunkSizeOf count run : ℤ) = runExtent count run % 2 ^ 64 := by
    rw [hlast.chunkSizeOf_eq, sizeT, Int.toNat_of_nonneg (Int.emod_nonneg _ (by norm_num))]
    rfl
  rw [hbelow, hmachine] at hend
  unfold runExtent at hend ⊢
  omega

/-- If it does not, an attribute is covered as far as its last element is. -/
theorem covered_iff (hlast : StoredArray (lastOf run)) (hwrap : runExtent count run < 2 ^ 64)
    (hpointer : run.1.pointer ≤ (lastOf run).pointer) :
    Covered run count a ↔ run.1.pointer ≤ a.pointer ∧
      (count - 1) * (elementStride a - elementStride (lastOf run)) ≤
        ((lastOf run).pointer + elementStride (lastOf run) : ℤ) - (a.pointer + elementSize a) := by
  have hstride := hlast.elementStride_bounds
  have hnonneg : 0 ≤ elementStride (lastOf run) * count :=
    Int.mul_nonneg (by omega) (Int.natCast_nonneg count)
  have hmachine : (chunkSizeOf count run : ℤ) = runExtent count run := by
    rw [hlast.chunkSizeOf_eq, sizeT]
    unfold runExtent at hwrap ⊢
    omega
  have hgap : (count - 1) * (elementStride a - elementStride (lastOf run)) =
      elementStride a * (count - 1) - elementStride (lastOf run) * count +
        elementStride (lastOf run) := by ring
  unfold Covered
  rw [hmachine, hgap]
  unfold runExtent
  refine and_congr_right fun _ => ?_
  constructor <;> intro h <;> linarith

theorem forall_covered_iff {calls : ℕ} (hlast : StoredArray (lastOf run))
    (hfew : calls < 2 ^ 32 → ∀ a ∈ run.2, run.1.pointer ≤ a.pointer) :
    (∀ a ∈ run.1 :: run.2, Covered run count a) ↔ ReachesFar calls count run := by
  constructor
  · intro hcovered
    have hwrap := runExtent_lt hlast (hcovered _ lastOf_mem)
    exact ⟨fun _ a ha => (hcovered a (List.mem_cons_of_mem _ ha)).1, hwrap,
      fun a ha => ((covered_iff hlast hwrap (hcovered _ lastOf_mem).1).1 (hcovered a ha)).2⟩
  · rintro ⟨hinOrder, hwrap, hreaches⟩ a ha
    have hpointer : ∀ b ∈ run.1 :: run.2, run.1.pointer ≤ b.pointer := by
      intro b hb
      obtain rfl | hb := List.mem_cons.1 hb
      · exact le_rfl
      · by_cases hcalls : calls < 2 ^ 32
        · exact hfew hcalls b hb
        · exact hinOrder (by omega) b hb
    exact (covered_iff hlast hwrap (hpointer _ lastOf_mem)).2 ⟨hpointer a ha, hreaches a ha⟩

/-- A chunk is copied far enough for all its attributes, if and only if none of them gets ahead of
the last one. -/
theorem runCovered_iff {s : BuiltList} (hs : listSystem.Reachable s) (hlisted : Listed s.list ls)
    (hvalid : ∀ x ∈ ls, ValidArray (s.list.heap x))
    (hrun : run ∈ chunkRuns (ls.map s.list.heap)) :
    (∀ a ∈ run.1 :: run.2, Covered run count a) ↔ ReachesFar s.calls count run := by
  obtain ⟨hsub, -⟩ := chunkRuns_spec hrun
  have hlast : StoredArray (lastOf run) := by
    obtain ⟨x, hx, heq⟩ := List.mem_map.1 (hsub.subset lastOf_mem)
    exact heq ▸ (hvalid x hx).stored
  apply forall_covered_iff hlast
  intro hfew
  exact pointer_le_of_mem_run (inGroups_of_reachable hs hlisted hfew) hrun

/-- Two attributes: one with the given stride, and one without, behind its first element. -/
def twoArrays (stride : ℤ) : AttribList where
  heap x := { freshAttrib x.idx 0 true with
    size := 1, stride := if x.idx = 0 then stride else 0, pointer := 16 + 4 * x.idx }
  freed := []
  nextBlock := 1
  count := 2
  enabledCount := 0
  attribs := 0
  enabledAttribs := none

/-- The list with the first of them. -/
def oneArray (stride : ℤ) : AttribList :=
  (addToEnabledAttribList (twoArrays stride) ⟨0, 0⟩ 3).getD (twoArrays stride)

/-- The list with both. -/
def bothArrays (stride : ℤ) : AttribList :=
  (addToEnabledAttribList (oneArray stride) ⟨0, 1⟩ 3).getD (oneArray stride)

theorem reachable_bothArrays {stride : ℤ}
    (h : addToEnabledAttribList (oneArray stride) ⟨0, 1⟩ 3 = some (bothArrays stride)) :
    listSystem.Reachable ⟨bothArrays stride, 2⟩ := by
  have hempty : listSystem.Reachable ⟨twoArrays stride, 0⟩ := .init ⟨rfl, rfl⟩
  have hfirst : listSystem.Reachable ⟨oneArray stride, 1⟩ :=
    hempty.step (a := .add ⟨0, 0⟩) ⟨[], rfl, by simp, rfl, 3, rfl⟩
  exact hfirst.step (a := .add ⟨0, 1⟩) ⟨[⟨0, 0⟩], ⟨rfl, rfl⟩, by decide, rfl, 3, h⟩

/-- The chunk of both. -/
def bothRun (stride : ℤ) : VertexAttrib × List VertexAttrib :=
  ((bothArrays stride).heap ⟨0, 0⟩, [(bothArrays stride).heap ⟨0, 1⟩])

theorem validArray_both {stride : ℤ} (hstride : 0 ≤ stride ∧ stride < 2 ^ 31)
    (hheap : (bothArrays stride).heap ⟨0, 0⟩ = { (bothArrays stride).heap ⟨0, 0⟩ with
        type := glFloat, size := 1, stride := stride } ∧
      (bothArrays stride).heap ⟨0, 1⟩ = { (bothArrays stride).heap ⟨0, 1⟩ with
        type := glFloat, size := 1, stride := 0 }) :
    ∀ x ∈ ([⟨0, 0⟩, ⟨0, 1⟩] : List Loc), ValidArray ((bothArrays stride).heap x) := by
  intro x hx
  simp only [List.mem_cons, List.not_mem_nil, or_false] at hx
  obtain rfl | rfl := hx
  · rw [hheap.1]
    exact ⟨by simp, by simp, hstride⟩
  · rw [hheap.2]
    exact ⟨by simp, by simp, by simp⟩

/-- Two arrays with elements behind each other. -/
theorem runCovered_interleaved : Covered (bothRun 4) 2 (bothRun 4).1 ∧
    Covered (bothRun 4) 2 (lastOf (bothRun 4)) := by
  have hreach : listSystem.Reachable ⟨bothArrays 4, 2⟩ := reachable_bothArrays rfl
  have hlisted : Listed (bothArrays 4) [⟨0, 0⟩, ⟨0, 1⟩] := ⟨rfl, rfl, rfl⟩
  have hstride : (0 : ℤ) ≤ 4 ∧ (4 : ℤ) < 2 ^ 31 := by decide
  have hrun : bothRun 4 ∈ chunkRuns (([⟨0, 0⟩, ⟨0, 1⟩] : List Loc).map (bothArrays 4).heap) :=
    List.mem_cons_self
  have hfar : ReachesFar 2 2 (bothRun 4) := by
    refine ⟨fun h => absurd h (by decide), by decide, fun a ha => ?_⟩
    obtain rfl | ha := List.mem_cons.1 ha
    · decide
    · obtain rfl := List.mem_singleton.1 ha
      decide
  have hall := (runCovered_iff hreach hlisted (validArray_both hstride ⟨rfl, rfl⟩) hrun).2 hfar
  exact ⟨hall _ List.mem_cons_self, hall _ lastOf_mem⟩

/-- Of an array with a stride only the first element is copied, as another one without ends the
chunk. -/
theorem exists_uncovered : ∃ s ls run, listSystem.Reachable s ∧ Listed s.list ls ∧
    (∀ x ∈ ls, ValidArray (s.list.heap x)) ∧ run ∈ chunkRuns (ls.map s.list.heap) ∧
      ¬∀ a ∈ run.1 :: run.2, Covered run 2 a := by
  have hstride : (0 : ℤ) ≤ 100 ∧ (100 : ℤ) < 2 ^ 31 := by decide
  refine ⟨⟨bothArrays 100, 2⟩, [⟨0, 0⟩, ⟨0, 1⟩], bothRun 100, reachable_bothArrays rfl,
    ⟨rfl, rfl, rfl⟩, validArray_both hstride ⟨rfl, rfl⟩, List.mem_cons_self, fun hall => ?_⟩
  obtain ⟨-, hend⟩ := hall (bothRun 100).1 List.mem_cons_self
  exact absurd hend (by decide)

end GpuProxy.VertexAttribs
