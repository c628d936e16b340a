import GpuProxy.VertexAttribs.Links

/-!
# The memory the list of enabled attributes leads to

A walk along the list reads and writes the attributes that it comes to, and the list need not
have an end. Whatever the list is like, the two helpers lead to no other attributes than it did
before, and the one they add; and a block that is freed is one it does not lead to, if a new
attribute is only made where that is so.

## Main definitions

* `Reached` — the attributes that walks along the list come to
* `Relinked` — what the helpers may change
* `WalksAllocated` — walks stay in allocated memory
* `GrowthApart` — a new attribute does not free an attribute the list leads to

## Main results

* `relinked_remove`, `relinked_add` — the two helpers, on any list
* `WalksAllocated.appendAttrib` — a new attribute
-/

namespace GpuProxy.VertexAttribs

open Math

variable {list list' : AttribList} {heap heap' : Loc → VertexAttrib} {P : Loc → Prop}
  {new a x : Loc} {attrib : VertexAttrib} {fuel chunk chunk' : ℕ}
  {enabled previous previous' : Option Loc}

/-- The attributes that a walk along the list of enabled ones comes to. -/
def Reached (list : AttribList) : Loc → Prop := Passed (nextOf list.heap) list.enabledAttribs

/-- The attributes behind those of a set are in the set. -/
def Closed (P : Loc → Prop) (heap : Loc → VertexAttrib) : Prop :=
  ∀ x y, P x → nextOf heap x = some y → P y

theorem closed_reached (list : AttribList) : Closed (Reached list) list.heap :=
  fun _ _ hx hy => .next hx hy

theorem reached_head (h : list.enabledAttribs = some x) : Reached list x := .head h

theorem closed_setNext {next : Option Loc} (h : Closed P heap) (hnext : ∀ y, next = some y → P y) :
    Closed P (setNext heap a next) := by
  intro x y hx hy
  by_cases hxa : x = a
  · rw [hxa, nextOf_setNext_self] at hy
    exact hnext y hy
  · rw [nextOf_setNext_of_ne _ hxa] at hy
    exact h x y hx hy

/-! ### The helpers -/

/-- What the helpers may change: links, and through them what the list leads to, by the
attribute `new` at most. -/
structure Relinked (list : AttribList) (new : Loc) (list' : AttribList) : Prop where
  count : list'.count = list.count
  attribs : list'.attribs = list.attribs
  freed : list'.freed = list.freed
  nextBlock : list'.nextBlock = list.nextBlock
  heap : SameButLinks list.heap list'.heap
  reached : ∀ x, Reached list' x → Reached list x ∨ x = new

theorem removeLoop_closed {previous : Loc}
    (h : removeLoop new fuel heap previous enabled = some heap') (hclosed : Closed P heap)
    (henabled : ∀ x, enabled = some x → P x) : SameButLinks heap heap' ∧ Closed P heap' := by
  induction fuel generalizing previous enabled with
  | zero => cases h
  | succ fuel ih =>
    cases enabled with
    | none =>
      cases h
      exact ⟨.refl _, hclosed⟩
    | some e =>
      have he : P e := henabled e rfl
      rw [removeLoop] at h
      split at h
      next heq =>
        subst heq
        cases h
        exact ⟨sameButLinks_setNext _ _ _, closed_setNext hclosed fun y hy => hclosed e y he hy⟩
      next => exact ih h fun y hy => hclosed e y he hy

theorem relinked_remove (h : removeFromEnabledAttribList list new fuel = some list') :
    Relinked list new list' := by
  unfold removeFromEnabledAttribList at h
  split at h
  next =>
    cases h
    exact ⟨rfl, rfl, rfl, rfl, .refl _, fun x hx => .inl hx⟩
  next e hhead =>
    have he : Reached list e := reached_head hhead
    have hnext : ∀ y, (list.heap e).nextEnabled = some y → Reached list y :=
      fun y hy => closed_reached list e y he hy
    split at h
    -- The first attribute, whose own link is cleared.
    next heq =>
      cases h
      have hclosed : Closed (Reached list) (setNext list.heap e none) :=
        closed_setNext (closed_reached list) fun y hy => by cases hy
      exact ⟨rfl, rfl, rfl, rfl, sameButLinks_setNext _ _ _,
        fun x hx => .inl (hx.of_closed hnext hclosed)⟩
    next =>
      obtain ⟨heap', hloop, rfl⟩ := Option.map_eq_some_iff.mp h
      obtain ⟨hsame, hclosed⟩ := removeLoop_closed hloop (closed_reached list) hnext
      exact ⟨rfl, rfl, rfl, rfl, hsame,
        fun x hx => .inl (hx.of_closed (fun y hy => reached_head hy) hclosed)⟩

theorem skipChunk_closed (h : skipChunk new heap chunk fuel enabled previous = some previous')
    (hclosed : Closed P heap) (henabled : ∀ x, enabled = some x → P x)
    (hprevious : ∀ x, previous = some x → P x) : ∀ x, previous' = some x → P x := by
  induction fuel generalizing enabled previous with
  | zero => cases h
  | succ fuel ih =>
    cases enabled with
    | none =>
      cases h
      exact hprevious
    | some e =>
      rw [skipChunk] at h
      split at h
      · exact ih h (fun y hy => hclosed e y (henabled e rfl) hy) henabled
      · cases h
        exact hprevious

theorem addLoop_closed
    (h : addLoop new fuel heap enabled previous chunk = some (heap', chunk', previous'))
    (hclosed : Closed P heap) (henabled : ∀ x, enabled = some x → P x)
    (hprevious : ∀ x, previous = some x → P x) :
    SameButChunk heap heap' ∧ ∀ x, previous' = some x → P x := by
  induction fuel generalizing heap enabled previous chunk with
  | zero => cases h
  | succ fuel ih =>
    cases enabled with
    | none =>
      cases h
      exact ⟨fun _ => ⟨_, rfl⟩, hprevious⟩
    | some e =>
      have he : P e := henabled e rfl
      rw [addLoop] at h
      split at h
      · obtain ⟨previous'', hskip, heq⟩ := Option.map_eq_some_iff.mp h
        cases heq
        exact ⟨fun _ => ⟨_, rfl⟩, skipChunk_closed hskip hclosed henabled hprevious⟩
      · have hlinks : SameLinks heap
            (Function.update heap e { heap e with chunk := uint ((heap e).chunk + 1) }) :=
          SameLinks.update rfl rfl
        obtain ⟨hsame, hwithin⟩ := ih h
          (fun x y hx hy => hclosed x y hx (by rwa [hlinks.next] at hy))
          (fun y hy => hclosed e y he hy) (fun y hy => by cases hy; exact he)
        exact ⟨hsame.update, hwithin⟩

theorem relinked_add (h : addToEnabledAttribList list new fuel = some list') :
    Relinked list new list' := by
  unfold addToEnabledAttribList at h
  split at h
  next hhead =>
    cases h
    refine ⟨rfl, rfl, rfl, rfl, fun x => ?_, fun x hx => .inr ?_⟩
    · rcases eq_or_ne x new with rfl | hne
      · exact ⟨1, none, by simp⟩
      · exact ⟨(list.heap x).chunk, (list.heap x).nextEnabled, by simp [hne]⟩
    -- The new attribute is the only one.
    · refine hx.of_closed (fun y hy => (Option.some.inj hy).symm) ?_
      rintro y z rfl hz
      simp [nextOf] at hz
  next e hhead =>
    obtain ⟨⟨heap, chunk, previous⟩, hloop, hlist⟩ := Option.map_eq_some_iff.mp h
    obtain ⟨hchunk, hprevious⟩ := addLoop_closed hloop (closed_reached list)
      (fun x hx => reached_head (hhead.trans hx)) (fun x hx => by cases hx)
    have hlinks : SameLinks list.heap
        (Function.update heap new { heap new with chunk := chunk }) :=
      hchunk.sameLinks.trans (SameLinks.update rfl rfl)
    have hsame : SameButLinks list.heap
        (Function.update heap new { heap new with chunk := chunk }) :=
      hchunk.sameButLinks.trans (sameButLinks_setChunk _ _ _)
    have hclosed : ∀ x y, Reached list x →
        nextOf (Function.update heap new { heap new with chunk := chunk }) x = some y →
          Reached list y := by
      intro x y hx hy
      rw [hlinks.next] at hy
      exact .next hx hy
    cases previous with
    | none =>
      cases hlist
      refine ⟨rfl, rfl, rfl, rfl, hsame.trans (sameButLinks_setNext _ _ _), fun x hx => .inr ?_⟩
      refine hx.of_closed (fun y hy => (Option.some.inj hy).symm) ?_
      rintro y z rfl hz
      rw [nextOf_setNext_self] at hz
      cases hz
    -- The new attribute goes behind `p`, and what was behind `p` goes behind it.
    | some p =>
      cases hlist
      have hp : Reached list p := hprevious p rfl
      refine ⟨rfl, rfl, rfl, rfl,
        (hsame.trans (sameButLinks_setNext _ _ _)).trans (sameButLinks_setNext _ _ _),
        fun x hx => ?_⟩
      refine hx.of_closed (P := fun x => Reached list x ∨ x = new)
        (fun y hy => .inl (reached_head hy)) fun y z hy hz => ?_
      by_cases hyp : y = p
      · rw [hyp, nextOf_setNext_self] at hz
        exact .inr (Option.some.inj hz).symm
      rw [nextOf_setNext_of_ne _ hyp] at hz
      by_cases hynew : y = new
      · rw [hynew, nextOf_setNext_self] at hz
        exact .inl (hclosed p z hp hz)
      · rw [nextOf_setNext_of_ne _ hynew] at hz
        exact .inl (hclosed y z (hy.resolve_right hynew) hz)

/-! ### Walks in allocated memory -/

/-- The walks along the list stay in allocated memory. -/
structure WalksAllocated (list : AttribList) : Prop extends Allocated list where
  live : ∀ x, Reached list x → x.block ∉ list.freed
  block_lt : ∀ x, Reached list x → x.block < list.nextBlock

/-- Moving the attributes to a new block does not free one that the list leads to. -/
def GrowthApart (list : AttribList) : Prop :=
  list.count < numEmbedded ∨ list.attribs = 0 ∨ ∀ x, Reached list x → x.block ≠ list.attribs

/-- A new attribute that is linked to none adds no link to those of old blocks. -/
theorem nextOf_of_appendAttrib {y z : Loc}
    (hattrib : attrib.nextEnabled = none ∨ attrib = list.heap ⟨list.attribs, list.count⟩)
    (hblock : y.block < list.nextBlock)
    (h : nextOf (VertexAttribs.appendAttrib list attrib).heap y = some z) :
    nextOf list.heap y = some z := by
  unfold nextOf VertexAttribs.appendAttrib at h
  rw [nextOf]
  split at h
  next =>
    by_cases hplace : y = ⟨list.attribs, list.count⟩
    · subst hplace
      simp only [Function.update_self] at h
      rcases hattrib with hnone | hsame
      · rw [hnone] at h
        cases h
      · rwa [hsame] at h
    · simpa only [Function.update_of_ne hplace] using h
  next =>
    have hold : y.block ≠ list.nextBlock := Nat.ne_of_lt hblock
    have hplace : y ≠ ⟨list.nextBlock, list.count⟩ := fun heq => hold (congrArg Loc.block heq)
    simpa only [Function.update_of_ne hplace, hold, false_and, if_false] using h

namespace WalksAllocated

theorem relinked (h : WalksAllocated list) (hnew : new.block = list.attribs)
    (hrelinked : Relinked list new list') : WalksAllocated list' := by
  have hreached : ∀ x, Reached list' x → x.block ∉ list.freed ∧ x.block < list.nextBlock := by
    intro x hx
    rcases hrelinked.reached x hx with hx | rfl
    · exact ⟨h.live x hx, h.block_lt x hx⟩
    · exact ⟨hnew ▸ h.attribs_live, hnew ▸ h.attribs_lt⟩
  constructor
  · refine ⟨?_, ?_, ?_⟩ <;> simp only [hrelinked.attribs, hrelinked.freed, hrelinked.nextBlock]
    · exact h.attribs_lt
    · exact h.attribs_live
    · exact h.freed_lt
  · intro x hx
    rw [hrelinked.freed]
    exact (hreached x hx).1
  · intro x hx
    rw [hrelinked.nextBlock]
    exact (hreached x hx).2

theorem of_sameLinks (h : WalksAllocated list) (hsame : SameLinks list.heap heap) :
    WalksAllocated { list with heap := heap } := by
  have hnext : nextOf heap = nextOf list.heap := funext hsame.next
  have hreached : Reached { list with heap := heap } = Reached list := by
    simp only [Reached, hnext]
  refine ⟨⟨h.attribs_lt, h.attribs_live, h.freed_lt⟩, ?_, ?_⟩ <;> rw [hreached]
  · exact h.live
  · exact h.block_lt

/-- A new attribute, which is linked to none, or left as the memory has it. -/
theorem appendAttrib (h : WalksAllocated list) (hgrowth : GrowthApart list)
    (hattrib : attrib.nextEnabled = none ∨ attrib = list.heap ⟨list.attribs, list.count⟩) :
    WalksAllocated (appendAttrib list attrib) := by
  -- The list leads where it did before.
  have hreached : ∀ x, Reached (VertexAttribs.appendAttrib list attrib) x → Reached list x := by
    intro x hx
    refine hx.of_closed (fun y hy => ?_) fun y z hy hz => ?_
    · have hhead : (VertexAttribs.appendAttrib list attrib).enabledAttribs =
          list.enabledAttribs := by
        unfold VertexAttribs.appendAttrib
        split <;> rfl
      exact reached_head (hhead ▸ hy)
    · exact .next hy (nextOf_of_appendAttrib hattrib (h.block_lt y hy) hz)
  by_cases hshort : list.count < numEmbedded
  · have happend : VertexAttribs.appendAttrib list attrib = { list with
        heap := Function.update list.heap ⟨list.attribs, list.count⟩ attrib
        count := list.count + 1 } := if_pos hshort
    rw [happend] at hreached ⊢
    exact ⟨⟨h.attribs_lt, h.attribs_live, h.freed_lt⟩, fun x hx => h.live x (hreached x hx),
      fun x hx => h.block_lt x (hreached x hx)⟩
  -- The block the attributes are moved out of is freed, unless it is the embedded one.
  · have hfreed : ∀ b, b ∈ (VertexAttribs.appendAttrib list attrib).freed →
        b ∈ list.freed ∨ b = list.attribs ∧ list.attribs ≠ 0 := by
      intro b hb
      unfold VertexAttribs.appendAttrib at hb
      rw [if_neg hshort] at hb
      simp only at hb
      split at hb
      next hheap =>
        rcases List.mem_cons.mp hb with rfl | hb
        · exact .inr ⟨rfl, hheap⟩
        · exact .inl hb
      next => exact .inl hb
    have hblock : (VertexAttribs.appendAttrib list attrib).nextBlock = list.nextBlock + 1 := by
      rw [VertexAttribs.appendAttrib, if_neg hshort]
    have hattribs : (VertexAttribs.appendAttrib list attrib).attribs = list.nextBlock := by
      rw [VertexAttribs.appendAttrib, if_neg hshort]
    refine ⟨⟨?_, ?_, ?_⟩, ?_, ?_⟩
    · rw [hattribs, hblock]
      exact Nat.lt_succ_self _
    · rw [hattribs]
      intro hmem
      rcases hfreed _ hmem with hmem | ⟨heq, -⟩
      · exact Nat.lt_irrefl _ (h.freed_lt _ hmem)
      · exact Nat.ne_of_gt h.attribs_lt heq
    · intro b hb
      rw [hblock]
      rcases hfreed b hb with hb | ⟨rfl, -⟩
      · exact Nat.lt_succ_of_lt (h.freed_lt b hb)
      · exact Nat.lt_succ_of_lt h.attribs_lt
    · intro x hx hmem
      rcases hfreed _ hmem with hmem | ⟨heq, hheap⟩
      · exact h.live x (hreached x hx) hmem
      · exact (hgrowth.resolve_left hshort).resolve_left hheap x (hreached x hx) heq
    · intro x hx
      rw [hblock]
      exact Nat.lt_succ_of_lt (h.block_lt x (hreached x hx))

end WalksAllocated

/-- Without enabled attributes there is nothing to walk along. -/
theorem walksAllocated_initial (heap : Loc → VertexAttrib) :
    WalksAllocated (initial heap).vertexAttribs := by
  have hnone : ∀ x, ¬Reached (initial heap).vertexAttribs x := fun x hx =>
    hx.of_closed (P := fun _ => False) (fun y hy => by cases hy) fun _ _ hy _ => hy
  exact ⟨⟨Nat.zero_lt_one, List.not_mem_nil, fun b hb => by cases hb⟩,
    fun x hx => absurd hx (hnone x), fun x hx => absurd hx (hnone x)⟩

end GpuProxy.VertexAttribs
