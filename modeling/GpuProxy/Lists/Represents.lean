import GpuProxy.Lists.Sequence
import Mathlib.Data.List.Nodup

/-!
# Linked lists are sequences

The linked list follows a sequence through every run of calls, and no access of it is to a node
that was freed. That the first node may lead back to a node that is gone does no harm: no call
follows the `prev` of the first node, and it is written when the node gets one in front of it.

## Main definitions

* `Represents` — the linked list has the entries of a sequence

## Main results

* `Represents.step` — a call on the linked list does what it does to the sequence
* `Represents.linkListMatch` — data is found when an entry has it
* `run_represents` — a run on the linked list is one of the sequence
-/

namespace GpuProxy.Lists

open Math

variable {α δ : Type}

/-- Writing at an address outside of a list leaves the fields of the list as they are. -/
theorem update_of_mem {β : Type} {f : ℕ → β} {v : β} {xs : List ℕ} {x y : ℕ} (hx : x ∉ xs)
    (hy : y ∈ xs) : Function.update f x v y = f y :=
  Function.update_of_ne (fun heq : y = x => hx (heq ▸ hy)) v f

/-! ### The fields of the nodes -/

namespace LinkList

/-- The fields, where there is a node. -/
def next (s : LinkList α δ) (x : ℕ) : Option ℕ := (s.node x).bind Node.next

def prev (s : LinkList α δ) (x : ℕ) : Option ℕ := (s.node x).bind Node.prev

/-- What the caller gave for a node, where there is one. -/
def content (s : LinkList α δ) (x : ℕ) : Option (α × Option δ) :=
  (s.node x).map fun node => (node.data, node.deleteFunction)

variable {s t : LinkList α δ} {x y element : ℕ} {node : Node α δ} {pointer : Option ℕ}
  {data : α} {deleteFunction : Option δ}

theorem node_of_content (h : s.content x = some (data, deleteFunction)) :
    s.node x = some ⟨data, s.next x, s.prev x, deleteFunction⟩ := by
  obtain ⟨node, hnode, heq⟩ := Option.map_eq_some_iff.mp h
  cases heq
  rw [next, prev, hnode]
  rfl

@[simp] theorem next_malloc :
    (s.malloc element node).next = Function.update s.next element node.next := by
  funext x
  exact Function.apply_update (fun _ (node : Option (Node α δ)) => node.bind Node.next) _ _ _ x

@[simp] theorem prev_malloc :
    (s.malloc element node).prev = Function.update s.prev element node.prev := by
  funext x
  exact Function.apply_update (fun _ (node : Option (Node α δ)) => node.bind Node.prev) _ _ _ x

@[simp] theorem content_malloc : (s.malloc element node).content =
    Function.update s.content element (some (node.data, node.deleteFunction)) := by
  funext x
  exact Function.apply_update (fun _ (node : Option (Node α δ)) =>
    node.map fun node => (node.data, node.deleteFunction)) _ _ _ x

theorem setNext_spec (h : s.content x ≠ none) (pointer : Option ℕ) :
    ∃ t, s.setNext x pointer = some t ∧ t.list = s.list ∧ t.deleted = s.deleted ∧
      t.next = Function.update s.next x pointer ∧ t.prev = s.prev ∧ t.content = s.content := by
  obtain ⟨⟨data, deleteFunction⟩, hcontent⟩ := Option.ne_none_iff_exists'.mp h
  have hnode := node_of_content hcontent
  have heq : s.setNext x pointer =
      some (s.malloc x ⟨data, pointer, s.prev x, deleteFunction⟩) := by
    rw [setNext, hnode]
    rfl
  refine ⟨_, heq, rfl, rfl, next_malloc, ?_, ?_⟩
  · rw [prev_malloc, Function.update_eq_self]
  · rw [content_malloc, ← hcontent, Function.update_eq_self]

theorem setPrev_spec (h : s.content x ≠ none) (pointer : Option ℕ) :
    ∃ t, s.setPrev x pointer = some t ∧ t.list = s.list ∧ t.deleted = s.deleted ∧
      t.next = s.next ∧ t.prev = Function.update s.prev x pointer ∧ t.content = s.content := by
  obtain ⟨⟨data, deleteFunction⟩, hcontent⟩ := Option.ne_none_iff_exists'.mp h
  have hnode := node_of_content hcontent
  have heq : s.setPrev x pointer =
      some (s.malloc x ⟨data, s.next x, pointer, deleteFunction⟩) := by
    rw [setPrev, hnode]
    rfl
  refine ⟨_, heq, rfl, rfl, ?_, prev_malloc, ?_⟩
  · rw [next_malloc, Function.update_eq_self]
  · rw [content_malloc, ← hcontent, Function.update_eq_self]

theorem dispose_spec (h : s.content x = some (data, deleteFunction)) :
    ∃ t, s.dispose x = some t ∧ t.list = s.list ∧
      t.deleted = s.deleted ++ (deleteFunction.map (·, data)).toList ∧
      t.next = Function.update s.next x none ∧ t.prev = Function.update s.prev x none ∧
      t.content = Function.update s.content x none := by
  have hnode := node_of_content h
  rw [dispose, hnode]
  refine ⟨_, rfl, rfl, rfl, ?_, ?_, ?_⟩
  · funext y
    exact Function.apply_update (fun _ (node : Option (Node α δ)) => node.bind Node.next) _ _ _ y
  · funext y
    exact Function.apply_update (fun _ (node : Option (Node α δ)) => node.bind Node.prev) _ _ _ y
  · funext y
    exact Function.apply_update (fun _ (node : Option (Node α δ)) =>
      node.map fun node => (node.data, node.deleteFunction)) _ _ _ y

/-- An element is skipped by the node that its `prev` leads to. -/
theorem unlink_spec (h : s.content x ≠ none) (hprev : s.prev x = some y) (hy : s.content y ≠ none)
    (hne : x ≠ y) (hnext : ∀ z, s.next x = some z → s.content z ≠ none) :
    ∃ t, s.unlink x = some t ∧ t.list = s.list ∧ t.deleted = s.deleted ∧
      t.content = s.content ∧ t.next = Function.update s.next y (s.next x) ∧
      (∀ z, s.next x = some z → t.prev z = some y) ∧
      ∀ z, s.next x ≠ some z → t.prev z = s.prev z := by
  obtain ⟨⟨data, deleteFunction⟩, hcontent⟩ := Option.ne_none_iff_exists'.mp h
  have hnode := node_of_content hcontent
  obtain ⟨s₁, hs₁, hlist₁, hdeleted₁, hnext₁, hprev₁, hcontent₁⟩ := setNext_spec hy (s.next x)
  have hnode₁ := node_of_content ((congrFun hcontent₁ x).trans hcontent)
  rw [hnext₁, hprev₁, Function.update_of_ne hne, hprev] at hnode₁
  rw [hprev] at hnode
  rw [unlink, hnode]
  simp only [Option.bind_eq_bind, Option.bind_some, hs₁, hnode₁]
  cases hz : s.next x with
  | none => exact ⟨s₁, rfl, hlist₁, hdeleted₁, hcontent₁, hz ▸ hnext₁, by simp, by simp [hprev₁]⟩
  | some z =>
    have hcontentz : s₁.content z ≠ none := by
      rw [hcontent₁]
      exact hnext z hz
    obtain ⟨t, ht, hlist, hdeleted, htnext, htprev, htcontent⟩ :=
      setPrev_spec hcontentz (some y)
    refine ⟨t, ht, hlist.trans hlist₁, hdeleted.trans hdeleted₁, htcontent.trans hcontent₁,
      hz ▸ htnext.trans hnext₁, fun w hw => ?_, fun w hw => ?_⟩
    · rw [← Option.some.inj hw, htprev, Function.update_self]
    · rw [htprev, hprev₁, Function.update_of_ne fun heq : w = z => hw (congrArg some heq.symm)]

/-- The last node is found in as many rounds as there are nodes. -/
theorem lastElement_spec {xs : List ℕ} {fuel : ℕ} (h : Path s.next (some x) (xs ++ [y]) none)
    (hcontent : ∀ z ∈ xs ++ [y], s.content z ≠ none) (hfuel : xs.length < fuel) :
    s.lastElement fuel x = some y := by
  induction fuel generalizing x xs with
  | zero => omega
  | succ fuel ih =>
    have hx : s.content x ≠ none := by
      obtain ⟨_, heq, -⟩ := h.exists_eq_cons
      exact hcontent x (heq ▸ List.mem_cons_self)
    obtain ⟨⟨data, deleteFunction⟩, hx⟩ := Option.ne_none_iff_exists'.mp hx
    rw [lastElement, node_of_content hx]
    cases xs with
    | nil =>
      obtain ⟨heq, hnone⟩ := h
      cases heq
      simp only [Option.bind_eq_bind, Option.bind_some, show s.next y = none from hnone]
      rfl
    | cons z zs =>
      obtain ⟨heq, hrest⟩ := h
      cases heq
      cases hnext : s.next x with
      | none =>
        rw [hnext] at hrest
        cases zs <;> cases hrest.1
      | some next =>
        rw [hnext] at hrest
        simp only [Option.bind_eq_bind, Option.bind_some]
        exact ih hrest (fun z hz => hcontent z (List.mem_cons_of_mem _ hz))
          (Nat.lt_of_succ_lt_succ hfuel)

/-- The new node leads to the first one, which leads back. -/
theorem linkListPrepend_spec (hfirst : ∀ x, s.list = some x → s.content x ≠ none ∧ x ≠ element)
    (data : α) (deleteFunction : Option δ) :
    ∃ t, s.linkListPrepend element data deleteFunction = some t ∧ t.list = some element ∧
      t.deleted = s.deleted ∧ t.next = Function.update s.next element s.list ∧
      t.content = Function.update s.content element (some (data, deleteFunction)) ∧
      (∀ x, s.list = some x → t.prev x = some element) ∧
      ∀ y ≠ element, s.list ≠ some y → t.prev y = s.prev y := by
  unfold linkListPrepend
  cases hlist : s.list with
  | none =>
    refine ⟨_, rfl, rfl, rfl, next_malloc, content_malloc, by simp, fun y hy _ => ?_⟩
    exact (congrFun prev_malloc y).trans (Function.update_of_ne hy _ _)
  | some first =>
    obtain ⟨hcontent, hne⟩ := hfirst first hlist
    set s₁ := s.malloc element ⟨data, some first, none, deleteFunction⟩ with hs₁
    have hthere : s₁.content first ≠ none := by
      rw [hs₁, content_malloc, Function.update_of_ne hne]
      exact hcontent
    obtain ⟨t, ht, -, hdeleted, hnext, hprev, hcontent⟩ := setPrev_spec hthere (some element)
    refine ⟨{ t with list := some element }, ?_, rfl, hdeleted, hnext.trans next_malloc,
      hcontent.trans content_malloc, fun x hx => ?_, fun y hy hyfirst => ?_⟩
    · dsimp only
      rw [← hs₁, ht]
      rfl
    · rw [← Option.some.inj hx]
      exact (congrFun hprev first).trans (Function.update_self ..)
    · have hyne : y ≠ first := fun heq => hyfirst (congrArg some heq.symm)
      refine (congrFun hprev y).trans ?_
      rw [Function.update_of_ne hyne, hs₁, prev_malloc, Function.update_of_ne hy]

theorem linkListAppend_of_none (hlist : s.list = none) (element : ℕ) (data : α)
    (deleteFunction : Option δ) (fuel : ℕ) :
    ∃ t, s.linkListAppend element data deleteFunction fuel = some t ∧ t.list = some element ∧
      t.deleted = s.deleted ∧ t.next = Function.update s.next element none ∧
      t.content = Function.update s.content element (some (data, deleteFunction)) := by
  refine ⟨{ s.malloc element ⟨data, none, none, deleteFunction⟩ with list := some element }, ?_,
    rfl, rfl, next_malloc, content_malloc⟩
  unfold linkListAppend
  dsimp only
  rw [show (s.malloc element ⟨data, none, none, deleteFunction⟩).list = none from hlist]

/-- The last node leads to the new one, and the new one back. -/
theorem linkListAppend_spec {first last fuel : ℕ} {xs : List ℕ} (hlist : s.list = some first)
    (hpath : Path s.next (some first) (xs ++ [last]) none)
    (hcontent : ∀ y ∈ xs ++ [last], s.content y ≠ none) (hnew : element ∉ xs ++ [last])
    (hfuel : xs.length < fuel) (data : α) (deleteFunction : Option δ) :
    ∃ t, s.linkListAppend element data deleteFunction fuel = some t ∧ t.list = some first ∧
      t.deleted = s.deleted ∧
      t.next = Function.update (Function.update s.next element none) last (some element) ∧
      t.prev = Function.update s.prev element (some last) ∧
      t.content = Function.update s.content element (some (data, deleteFunction)) := by
  unfold linkListAppend
  set s₁ := s.malloc element ⟨data, none, none, deleteFunction⟩ with hs₁
  have hnext : s₁.next = Function.update s.next element none := next_malloc
  have hprev : s₁.prev = Function.update s.prev element none := prev_malloc
  have hnode : s₁.content =
      Function.update s.content element (some (data, deleteFunction)) := content_malloc
  have hthere : ∀ y ∈ xs ++ [last], s₁.content y ≠ none := fun y hy => by
    rw [hnode, update_of_mem hnew hy]
    exact hcontent y hy
  -- The loop does not meet the new node, which nothing leads to yet.
  have hlast : s₁.lastElement fuel first = some last := by
    refine lastElement_spec (hpath.congr fun y hy => ?_) hthere hfuel
    exact (congrFun hnext y).trans (update_of_mem hnew hy)
  have hself : s₁.content element ≠ none := by
    rw [hnode, Function.update_self]
    simp
  obtain ⟨s₂, hs₂, hlist₂, hdeleted₂, hnext₂, hprev₂, hcontent₂⟩ :=
    setPrev_spec hself (some last)
  have hend : s₂.content last ≠ none := by
    rw [hcontent₂]
    exact hthere last (by simp)
  obtain ⟨t, ht, htlist, hdeleted, htnext, htprev, htcontent⟩ :=
    setNext_spec hend (some element)
  refine ⟨t, ?_, htlist.trans (hlist₂.trans hlist), hdeleted.trans hdeleted₂, ?_, ?_, ?_⟩
  · dsimp only
    rw [show s₁.list = some first from hlist]
    simp only [Option.bind_eq_bind, hlast, hs₂, Option.bind_some]
    exact ht
  · rw [htnext, hnext₂, hnext]
  · rw [htprev, hprev₂, hprev, Function.update_idem]
  · rw [htcontent, hcontent₂, hnode]

end LinkList

/-! ### The linked list of a sequence -/

/-- The nodes of a list are those of the entries, in order, and no others are allocated. -/
structure Represents (s : LinkList α δ) (q : Sequence α δ) : Prop where
  linked : TwoWay s.next s.prev s.list q.elements
  contents : ∀ e ∈ q.entries, s.content e.element = some (e.data, e.deleteFunction)
  allocated : ∀ x, s.content x ≠ none → x ∈ q.elements
  deleted : s.deleted = q.deleted

namespace Represents

variable {s t : LinkList α δ} {q : Sequence α δ} {e : Entry α δ}
  {es before after : List (Entry α δ)} {deleted : List (δ × α)} {fuel x : ℕ} {data : α}

theorem empty : Represents (LinkList.empty : LinkList α δ) Sequence.empty :=
  ⟨.nil, by simp [Sequence.empty], fun _ h => absurd rfl h, rfl⟩

theorem content_ne_none (h : Represents s q) (hx : x ∈ q.elements) : s.content x ≠ none := by
  obtain ⟨e, he, rfl⟩ := List.mem_map.mp hx
  rw [h.contents e he]
  simp

theorem entries_eq_nil (h : Represents s q) (hlist : s.list = none) : q.entries = [] := by
  have hpath := h.linked.path
  rw [hlist] at hpath
  exact List.map_eq_nil_iff.mp (hpath.eq_of_none rfl)

/-- One more node. -/
theorem ofNew (h : Represents s q) (hnew : e.element ∉ q.elements)
    (hmem : ∀ c, c ∈ es ↔ c = e ∨ c ∈ q.entries)
    (hcontent : t.content =
      Function.update s.content e.element (some (e.data, e.deleteFunction)))
    (hdeleted : t.deleted = s.deleted)
    (hlinked : TwoWay t.next t.prev t.list (es.map (·.element))) :
    Represents t { q with entries := es } where
  linked := hlinked
  contents := by
    intro c hc
    rw [hcontent]
    obtain rfl | hc := (hmem c).mp hc
    · rw [Function.update_self]
    · have hne : c.element ≠ e.element := by
        intro heq
        exact hnew (heq ▸ List.mem_map_of_mem hc)
      rw [Function.update_of_ne hne]
      exact h.contents c hc
  allocated := by
    intro x hx
    rw [hcontent] at hx
    rcases eq_or_ne x e.element with rfl | hne
    · exact List.mem_map_of_mem ((hmem e).mpr (.inl rfl))
    · rw [Function.update_of_ne hne] at hx
      obtain ⟨c, hc, rfl⟩ := List.mem_map.mp (h.allocated x hx)
      exact List.mem_map_of_mem ((hmem c).mpr (.inr hc))
  deleted := hdeleted.trans h.deleted

/-- One node less. -/
theorem ofRemoved (h : Represents s ⟨before ++ e :: after, deleted⟩)
    (hcontent : t.content = Function.update s.content e.element none)
    (hdeleted : t.deleted = s.deleted ++ e.deletion.toList)
    (hlinked : TwoWay t.next t.prev t.list ((before ++ after).map (·.element))) :
    Represents t ⟨before ++ after, deleted ++ e.deletion.toList⟩ where
  linked := hlinked
  contents := by
    intro c hc
    have hne : c.element ≠ e.element := by
      have hnodup := h.linked.nodup
      simp only [Sequence.elements, List.map_append, List.map_cons] at hnodup
      rw [List.nodup_middle, List.nodup_cons, ← List.map_append] at hnodup
      intro heq
      exact hnodup.1 (heq ▸ List.mem_map_of_mem hc)
    rw [hcontent, Function.update_of_ne hne]
    refine h.contents c ?_
    simp only [List.mem_append, List.mem_cons] at hc ⊢
    tauto
  allocated := by
    intro x hx
    rw [hcontent] at hx
    rcases eq_or_ne x e.element with rfl | hne
    · exact absurd (Function.update_self ..) hx
    · rw [Function.update_of_ne hne] at hx
      have hmem := h.allocated x hx
      simp only [Sequence.elements, List.map_append, List.map_cons, List.mem_append,
        List.mem_cons] at hmem ⊢
      tauto
  deleted := by
    rw [hdeleted, h.deleted]

/-! ### New entries -/

theorem prepend (h : Represents s q) (hnew : e.element ∉ q.elements) :
    ∃ t, s.linkListPrepend e.element e.data e.deleteFunction = some t ∧
      Represents t { q with entries := e :: q.entries } := by
  have hfirst : ∀ x, s.list = some x → s.content x ≠ none ∧ x ≠ e.element := by
    intro x hx
    have hmem : x ∈ q.elements := by
      have hpath := h.linked.path
      rw [hx] at hpath
      obtain ⟨_, heq, -⟩ := hpath.exists_eq_cons
      exact heq ▸ List.mem_cons_self
    exact ⟨h.content_ne_none hmem, fun heq => hnew (heq ▸ hmem)⟩
  obtain ⟨t, ht, hlist, hdeleted, hnext, hcontent, hback, hprev⟩ :=
    LinkList.linkListPrepend_spec hfirst e.data e.deleteFunction
  refine ⟨t, ht, h.ofNew hnew (fun c => List.mem_cons) hcontent hdeleted ?_⟩
  rw [hlist]
  refine h.linked.cons ?_ hback (fun y hy => ?_) fun y hy hy' => ?_
  · rw [hnext, Function.update_self]
  · rw [hnext, update_of_mem hnew hy]
  · exact hprev y (fun heq => hnew (heq ▸ hy)) hy'

/-- The first node of a list. -/
theorem appendFirst (h : Represents s q) (hnil : q.entries = []) :
    ∃ t, s.linkListAppend e.element e.data e.deleteFunction fuel = some t ∧
      Represents t { q with entries := [e] } := by
  have hlist : s.list = none := by
    have hpath := h.linked.path
    rw [Sequence.elements, hnil] at hpath
    exact hpath
  obtain ⟨t, ht, htlist, hdeleted, hnext, hcontent⟩ :=
    LinkList.linkListAppend_of_none hlist e.element e.data e.deleteFunction fuel
  have hnew : e.element ∉ q.elements := by simp [Sequence.elements, hnil]
  refine ⟨t, ht, h.ofNew hnew (by simp [hnil]) hcontent hdeleted ?_⟩
  rw [htlist]
  refine (TwoWay.nil : TwoWay s.next s.prev none []).cons ?_ (by simp) (by simp) (by simp)
  rw [hnext, Function.update_self]

theorem append (h : Represents s q) (hnew : e.element ∉ q.elements)
    (hfuel : q.entries.length < fuel) :
    ∃ t, s.linkListAppend e.element e.data e.deleteFunction fuel = some t ∧
      Represents t { q with entries := q.entries ++ [e] } := by
  obtain hnil | ⟨es, l, hes⟩ := q.entries.eq_nil_or_concat'
  · rw [hnil]
    exact h.appendFirst hnil
  have helements : q.elements = es.map (·.element) ++ [l.element] := by
    rw [Sequence.elements, hes, List.map_append]
    rfl
  have hlinked := h.linked
  rw [helements] at hlinked
  obtain ⟨first, hfirst⟩ := hlinked.path.exists_first
  rw [hfirst] at hlinked
  have hlength : (es.map (·.element)).length < fuel := by
    rw [hes] at hfuel
    simp only [List.length_append, List.length_singleton, List.length_map] at hfuel ⊢
    omega
  obtain ⟨t, ht, hlist, hdeleted, hnext, hprev, hcontent⟩ :=
    LinkList.linkListAppend_spec hfirst hlinked.path
      (fun y hy => h.content_ne_none (helements ▸ hy)) (helements ▸ hnew) hlength e.data
      e.deleteFunction
  refine ⟨t, ht, h.ofNew hnew (fun c => by simp [or_comm]) hcontent hdeleted ?_⟩
  rw [hlist, hes, List.map_append, List.map_append, List.append_assoc]
  rw [helements] at hnew
  have hne : e.element ≠ l.element := fun heq => hnew (by simp [heq])
  refine hlinked.snoc ?_ ?_ ?_ (fun y hy => ?_) fun y hy => ?_
  · rw [hnext, Function.update_self]
  · rw [hnext, Function.update_of_ne hne, Function.update_self]
  · rw [hprev, Function.update_self]
  · have hyl : y ≠ l.element := by
      rintro rfl
      exact List.disjoint_of_nodup_append hlinked.nodup hy (by simp)
    rw [hnext, Function.update_of_ne hyl, update_of_mem hnew (List.mem_append_left _ hy)]
  · rw [hprev, update_of_mem hnew hy]

/-! ### Entries taken out -/

/-- Freeing the element of an entry, when the list is that of the others. -/
theorem dispose (h : Represents s ⟨before ++ e :: after, deleted⟩)
    (hcontent : t.content = s.content) (hdeleted : t.deleted = s.deleted)
    (hlinked : ∀ next' prev', (∀ y ≠ e.element, next' y = t.next y) →
      (∀ y ≠ e.element, prev' y = t.prev y) →
      TwoWay next' prev' t.list ((before ++ after).map (·.element))) :
    ∃ t', t.dispose e.element = some t' ∧
      Represents t' ⟨before ++ after, deleted ++ e.deletion.toList⟩ := by
  have hself := h.contents e (by simp)
  rw [← hcontent] at hself
  obtain ⟨t', ht', hlist', hdeleted', hnext', hprev', hcontent'⟩ := LinkList.dispose_spec hself
  refine ⟨t', ht', h.ofRemoved (hcontent'.trans (by rw [hcontent])) ?_ ?_⟩
  · rw [hdeleted', hdeleted]
    rfl
  · rw [hlist']
    refine hlinked _ _ (fun y hy => ?_) fun y hy => ?_
    · rw [hnext', Function.update_of_ne hy]
    · rw [hprev', Function.update_of_ne hy]

/-- The first node is taken out by the variable `list`. The next one still leads back to it. -/
theorem deleteHead (h : Represents s ⟨e :: after, deleted⟩) :
    ∃ t, s.linkListDeleteElement e.element = some t ∧
      Represents t ⟨after, deleted ++ e.deletion.toList⟩ := by
  have hlinked := h.linked
  have hlist : s.list = some e.element := hlinked.path.1
  have hnotMem := (List.nodup_cons.mp hlinked.nodup).1
  have hne : ∀ y ∈ after.map (·.element), y ≠ e.element := fun y hy heq => hnotMem (heq ▸ hy)
  have hall : Represents s ⟨[] ++ e :: after, deleted⟩ := h
  unfold LinkList.linkListDeleteElement
  rw [if_pos hlist, LinkList.node_of_content (h.contents e List.mem_cons_self)]
  refine hall.dispose (t := { s with list := s.next e.element }) rfl rfl
    fun next' prev' hnext hprev => ?_
  exact hlinked.tail (fun y hy => hnext y (hne y hy)) fun y hy => hprev y (hne y hy)

/-- Another node is taken out by the two nodes next to it. -/
theorem deleteBehind {b : Entry α δ} (h : Represents s ⟨before ++ b :: e :: after, deleted⟩) :
    ∃ t, s.linkListDeleteElement e.element = some t ∧
      Represents t ⟨before ++ b :: after, deleted ++ e.deletion.toList⟩ := by
  set xs := before.map (·.element)
  set ys := after.map (·.element)
  have helements : Sequence.elements ⟨before ++ b :: e :: after, deleted⟩ =
      xs ++ b.element :: e.element :: ys := by
    simp [Sequence.elements, xs, ys]
  have hlinked := h.linked
  rw [helements] at hlinked
  have hb : b.element ∉ xs ++ e.element :: ys := by
    have hnodup := hlinked.nodup
    rw [List.nodup_middle, List.nodup_cons] at hnodup
    exact hnodup.1
  have hne : ∀ y ∈ xs ++ b.element :: ys, y ≠ e.element := by
    have hnodup := hlinked.nodup
    rw [List.append_cons, List.nodup_middle, List.nodup_cons, List.append_assoc,
      List.singleton_append] at hnodup
    rintro y hy rfl
    exact hnodup.1 hy
  -- What the code needs of the node: that it is not the first, and leads back.
  obtain ⟨_, -, -, hbe, -⟩ := path_append.mp hlinked.path
  have hback : s.prev e.element = some b.element := hlinked.back _ (by simp) _ hbe
  have hlist : s.list ≠ some e.element := by
    intro heq
    have hpath := hlinked.path
    rw [heq] at hpath
    exact hpath.next_ne_head (by simp : b.element ∈ _) hbe
  have hthere : ∀ y ∈ xs ++ b.element :: e.element :: ys, s.content y ≠ none := fun y hy =>
    h.content_ne_none (helements ▸ hy)
  obtain ⟨t, ht, htlist, htdeleted, htcontent, htnext, htprev, htprev'⟩ :=
    LinkList.unlink_spec (hthere e.element (by simp)) hback (hthere b.element (by simp))
      (hne b.element (by simp)).symm fun c hc =>
        hthere c (hlinked.path.next_mem (by simp) hc)
  have hall : Represents s ⟨(before ++ [b]) ++ e :: after, deleted⟩ := by
    rw [← List.append_cons]
    exact h
  unfold LinkList.linkListDeleteElement
  rw [if_neg hlist, ht]
  obtain ⟨t', ht', hrep⟩ := hall.dispose htcontent htdeleted fun next' prev' hnext hprev => by
    rw [htlist, ← List.append_cons, List.map_append, List.map_cons]
    refine hlinked.removeAfter ?_ (fun c hc => ?_) (fun y hy => ?_) fun y hy hey => ?_
    · rw [hnext _ (hne b.element (by simp)), htnext, Function.update_self]
    -- A node leads back to one node only, so the one behind `e` is not `e` itself.
    · have hce : c ≠ e.element := by
        rintro rfl
        have hself := hlinked.back _ (by simp) _ hc
        exact hne b.element (by simp) (Option.some.inj (hback.symm.trans hself))
      rw [hprev c hce, htprev c hc]
    · have hyb : y ≠ b.element := by
        rintro rfl
        simp only [List.mem_append, List.mem_cons] at hb hy
        tauto
      have hmem : y ∈ xs ++ b.element :: ys := by
        simp only [List.mem_append, List.mem_cons] at hy ⊢
        tauto
      rw [hnext y (hne y hmem), htnext, Function.update_of_ne hyb]
    · rw [hprev y (hne y hy), htprev' y hey]
  rw [← List.append_cons] at hrep
  exact ⟨t', ht', hrep⟩

theorem deleteElement (h : Represents s ⟨before ++ e :: after, deleted⟩) :
    ∃ t, s.linkListDeleteElement e.element = some t ∧
      Represents t ⟨before ++ after, deleted ++ e.deletion.toList⟩ := by
  obtain rfl | ⟨bs, b, rfl⟩ := before.eq_nil_or_concat'
  · exact h.deleteHead
  · rw [← List.append_cons] at h ⊢
    exact h.deleteBehind

/-- The element of an entry that the sequence gives up is deleted. -/
theorem deleteFirst {p : Entry α δ → Bool} (h : Represents s ⟨before ++ e :: after, deleted⟩)
    (hbefore : ∀ c ∈ before, ¬p c) (he : p e) :
    ∃ t, s.linkListDeleteElement e.element = some t ∧
      Represents t (Sequence.deleteFirst ⟨before ++ e :: after, deleted⟩ p) := by
  obtain ⟨t, ht, hrep⟩ := h.deleteElement
  refine ⟨t, ht, ?_⟩
  rw [Sequence.deleteFirst, List.eraseP_append_right _ hbefore, List.eraseP_cons_of_pos he,
    List.find?_append, List.find?_eq_none.mpr hbefore, Option.none_or, List.find?_cons_of_pos he,
    Option.toList_some, filterMap_deletion_cons, List.filterMap_nil, List.append_nil]
  exact hrep

/-- The loop comes to the first entry with the data, if there is one. -/
theorem deleteFirstLoop [DecidableEq α] (h : Represents s ⟨before ++ after, deleted⟩)
    (hbefore : ∀ c ∈ before, c.data ≠ data) {p : Option ℕ}
    (hpath : Path s.next p (after.map (·.element)) none) (hfuel : after.length < fuel) :
    ∃ t, s.deleteFirstLoop data fuel p = some t ∧
      Represents t (Sequence.deleteFirst ⟨before ++ after, deleted⟩ (·.data = data)) := by
  induction fuel generalizing before after p with
  | zero => omega
  | succ fuel ih =>
    cases after with
    | nil =>
      obtain rfl : p = none := hpath
      refine ⟨s, rfl, ?_⟩
      have hnone : ∀ c ∈ before ++ [], ¬decide (c.data = data) := by simpa using hbefore
      rw [Sequence.deleteFirst, List.eraseP_of_forall_not hnone, List.find?_eq_none.mpr hnone,
        Option.toList_none, List.filterMap_nil, List.append_nil]
      simp only [List.append_nil] at h ⊢
      exact h
    | cons e after =>
      obtain ⟨rfl, hpath⟩ := hpath
      rw [LinkList.deleteFirstLoop, LinkList.node_of_content (h.contents e (by simp))]
      by_cases hdata : e.data = data
      · simp only [Option.bind_eq_bind, Option.bind_some, if_pos hdata]
        exact h.deleteFirst (by simpa using hbefore) (by simpa using hdata)
      · simp only [Option.bind_eq_bind, Option.bind_some, if_neg hdata]
        rw [List.append_cons] at h ⊢
        refine ih h ?_ hpath (Nat.lt_of_succ_lt_succ hfuel)
        simp only [List.mem_append, List.mem_singleton]
        rintro c (hc | rfl)
        exacts [hbefore c hc, hdata]

/-- The loop frees all nodes. -/
theorem clearLoop {p : Option ℕ} (hpath : Path s.next p (es.map (·.element)) none)
    (hcontents : ∀ e ∈ es, s.content e.element = some (e.data, e.deleteFunction))
    (hfuel : es.length < fuel) :
    ∃ t, LinkList.clearLoop fuel p s = some t ∧
      t.deleted = s.deleted ++ es.filterMap Entry.deletion ∧
      ∀ x, t.content x ≠ none → s.content x ≠ none ∧ x ∉ es.map (·.element) := by
  induction fuel generalizing es p s with
  | zero => omega
  | succ fuel ih =>
    cases es with
    | nil =>
      obtain rfl : p = none := hpath
      exact ⟨s, rfl, by simp, fun x hx => ⟨hx, by simp⟩⟩
    | cons e es =>
      have hnodup := (List.nodup_cons.mp hpath.nodup).1
      obtain ⟨rfl, hpath⟩ := hpath
      have he := hcontents e List.mem_cons_self
      obtain ⟨s₁, hs₁, -, hdeleted₁, hnext₁, -, hcontent₁⟩ := LinkList.dispose_spec he
      -- `next` is read before the node is freed, and the path behind it is still there.
      have hpath₁ : Path s₁.next (s.next e.element) (es.map (·.element)) none := by
        refine hpath.congr fun y hy => ?_
        rw [hnext₁, update_of_mem hnodup hy]
      have hcontents₁ : ∀ c ∈ es, s₁.content c.element = some (c.data, c.deleteFunction) := by
        intro c hc
        rw [hcontent₁, update_of_mem hnodup (List.mem_map_of_mem hc)]
        exact hcontents c (List.mem_cons_of_mem _ hc)
      obtain ⟨t, ht, hdeleted, hgone⟩ := ih hpath₁ hcontents₁ (Nat.lt_of_succ_lt_succ hfuel)
      refine ⟨t, ?_, ?_, fun x hx => ?_⟩
      · rw [LinkList.clearLoop, LinkList.node_of_content he]
        simp only [Option.bind_eq_bind, Option.bind_some, hs₁]
        exact ht
      · rw [hdeleted, hdeleted₁, List.append_assoc]
        rw [filterMap_deletion_cons]
        rfl
      · obtain ⟨hx₁, hxes⟩ := hgone x hx
        rw [hcontent₁] at hx₁
        rcases eq_or_ne x e.element with rfl | hne
        · exact absurd (Function.update_self ..) hx₁
        · rw [Function.update_of_ne hne] at hx₁
          exact ⟨hx₁, List.not_mem_cons_of_ne_of_not_mem hne hxes⟩

theorem clear (h : Represents s q) (hfuel : q.entries.length < fuel) :
    ∃ t, s.linkListClear fuel = some t ∧
      Represents t ⟨[], q.deleted ++ q.entries.filterMap Entry.deletion⟩ := by
  unfold LinkList.linkListClear
  cases hlist : s.list with
  | none =>
    have hnil := h.entries_eq_nil hlist
    refine ⟨s, rfl, ?_⟩
    rw [hnil, List.filterMap_nil, List.append_nil]
    rw [show q = ⟨[], q.deleted⟩ by rw [← hnil]] at h
    exact h
  | some first =>
    obtain ⟨t, ht, hdeleted, hgone⟩ := clearLoop (hlist ▸ h.linked.path) h.contents hfuel
    refine ⟨{ t with list := none }, ?_, .nil, by simp, fun x hx => ?_, ?_⟩
    · rw [if_neg (by simp), ht]
      rfl
    · obtain ⟨hx', hxq⟩ := hgone x hx
      exact absurd (h.allocated x hx') hxq
    · rw [← h.deleted]
      exact hdeleted

theorem matchLoop [DecidableEq α] {p : Option ℕ}
    (hcontents : ∀ e ∈ es, s.content e.element = some (e.data, e.deleteFunction))
    (hpath : Path s.next p (es.map (·.element)) none) (hfuel : es.length < fuel) :
    s.matchLoop data fuel p = some (decide (∃ e ∈ es, e.data = data)) := by
  induction fuel generalizing es p with
  | zero => omega
  | succ fuel ih =>
    cases es with
    | nil =>
      obtain rfl : p = none := hpath
      simp [LinkList.matchLoop]
    | cons e es =>
      obtain ⟨rfl, hpath⟩ := hpath
      rw [LinkList.matchLoop, LinkList.node_of_content (hcontents e List.mem_cons_self)]
      have hrest := ih (fun c hc => hcontents c (List.mem_cons_of_mem _ hc)) hpath
        (Nat.lt_of_succ_lt_succ hfuel)
      by_cases hdata : e.data = data
      · simp [hdata]
      · simpa [hdata] using hrest

/-- `NULL` is never found, and other data when an entry has it. -/
theorem linkListMatch [DecidableEq α] (h : Represents s q) (null : α)
    (hfuel : q.entries.length < fuel) : s.linkListMatch null data fuel =
      some (decide (data ≠ null ∧ ∃ e ∈ q.entries, e.data = data)) := by
  have hloop : s.matchLoop data fuel s.list = some (decide (∃ e ∈ q.entries, e.data = data)) :=
    matchLoop h.contents h.linked.path hfuel
  unfold LinkList.linkListMatch
  by_cases hnull : data = null
  · simp [hnull]
  · cases hlist : s.list with
    | none =>
      have hnil := h.entries_eq_nil hlist
      simp [hnil]
    | some first => simpa [hnull, hlist] using hloop

/-- A call on the linked list is one on the sequence. -/
theorem step [DecidableEq α] {op : Op α δ} (h : Represents s q) (hop : q.Admits op)
    (hfuel : q.entries.length < fuel) :
    ∃ t, s.step fuel op = some t ∧ Represents t (q.step op) := by
  cases op with
  | append e => exact h.append hop hfuel
  | prepend e => exact h.prepend hop
  | deleteElement element =>
    obtain ⟨e, he, rfl⟩ := List.mem_map.mp hop
    obtain ⟨before, after, hentries⟩ := List.append_of_mem he
    obtain ⟨entries, deleted⟩ := q
    -- The addresses are different, so the entry is the first one with its address.
    subst hentries
    refine h.deleteFirst (fun c hc => ?_) (by simp)
    have hnodup := h.linked.nodup
    simp only [Sequence.elements, List.map_append, List.map_cons] at hnodup
    rw [List.nodup_middle, List.nodup_cons, List.mem_append] at hnodup
    have hne : c.element ≠ e.element := fun heq =>
      hnodup.1 (.inl (heq ▸ List.mem_map_of_mem hc))
    simpa using hne
  | deleteFirstEntryMatchingData data =>
    have hall : Represents s ⟨[] ++ q.entries, q.deleted⟩ := h
    exact hall.deleteFirstLoop (by simp) h.linked.path hfuel
  | clear => exact h.clear hfuel

end Represents

/-! ### Runs -/

theorem Represents.run [DecidableEq α] {s : LinkList α δ} {q : Sequence α δ}
    {ops : List (Op α δ)} {fuel : ℕ} (h : Represents s q) (hops : q.AdmitsAll ops)
    (hfuel : q.entries.length + ops.length < fuel) :
    ∃ t, s.run fuel ops = some t ∧ Represents t (q.run ops) := by
  induction ops generalizing s q with
  | nil => exact ⟨s, rfl, h⟩
  | cons op ops ih =>
    rw [List.length_cons] at hfuel
    obtain ⟨t, ht, hrep⟩ := h.step hops.1 (by omega : q.entries.length < fuel)
    have hlength := q.length_step_le op
    obtain ⟨t', ht', hrep'⟩ := ih hrep hops.2 (by omega)
    refine ⟨t', ?_, hrep'⟩
    rw [LinkList.run, List.foldlM_cons, ht]
    exact ht'

/-- In every run of calls that are meant, the linked list has the entries of the sequence, its
nodes lead back where a call will look, no node that was freed is read, and an entry that is
taken out is disposed of once. -/
theorem run_represents [DecidableEq α] (ops : List (Op α δ)) (fuel : ℕ)
    (hops : Sequence.empty.AdmitsAll ops) (hfuel : ops.length < fuel) :
    ∃ s, LinkList.empty.run fuel ops = some s ∧ Represents s (Sequence.empty.run ops) ∧
      (Sequence.empty.run ops).DisposesOnce (ops.filterMap Op.entry) := by
  obtain ⟨s, hs, hrep⟩ := Represents.empty.run hops (by simpa [Sequence.empty] using hfuel)
  exact ⟨s, hs, hrep, Sequence.disposesOnce_empty.run ops⟩

/-- The first entry is deleted, one gets in front of the next at the same address, and this one
and the last are deleted through the `prev` fields. -/
theorem run_represents_example :
    let ops : List (Op ℕ String) :=
      [.append ⟨1, 10, some "free"⟩, .append ⟨2, 20, none⟩, .append ⟨3, 30, some "free"⟩,
        .deleteElement 1, .prepend ⟨1, 40, some "destroy"⟩, .deleteElement 2,
        .deleteFirstEntryMatchingData 30, .clear]
    ∃ s, LinkList.empty.run 9 ops = some s ∧ Represents s (Sequence.empty.run ops) ∧
      (Sequence.empty.run ops).DisposesOnce (ops.filterMap Op.entry) := by
  refine run_represents _ 9 ?_ (by decide)
  simp [Sequence.AdmitsAll, Sequence.Admits, Sequence.step, Sequence.deleteFirst,
    Sequence.elements, Sequence.empty]

end GpuProxy.Lists
