import GpuProxy.Math.TwoWayList

/-!
# The lists of `types_private.c`

Displays, surfaces, contexts, states, programs and names are kept in lists of `link_list_t`. A
node has a `prev` field, which the deletion of a node follows; the deletion of the first one does
not repair it in the next.

An address is that of a block of memory. Where no node is allocated, or the node was freed, there
is nothing to read, and an access has no result. `malloc` may return any address at which nothing
is allocated, also one that was freed before. The loops have a bound on their rounds.

## Main definitions

* `Node`, `LinkList` — a node, and the memory with one list in it
* `linkListAppend`, `linkListPrepend`, `linkListDeleteElement`,
  `linkListDeleteFirstEntryMatchingData`, `linkListClear`, `linkListMatch` — the functions
* `Op`, `LinkList.step` — one call
-/

namespace GpuProxy.Lists

/-- `link_list_t`. -/
structure Node (α δ : Type) where
  data : α
  next : Option ℕ
  prev : Option ℕ
  deleteFunction : Option δ

/-- A variable `list` with the nodes in memory, and the calls of delete functions so far. -/
structure LinkList (α δ : Type) where
  list : Option ℕ
  node : ℕ → Option (Node α δ)
  deleted : List (δ × α)

variable {α δ : Type}

namespace LinkList

/-- No list and no nodes. -/
def empty : LinkList α δ := ⟨none, fun _ => none, []⟩

variable (s : LinkList α δ)

/-- `malloc` returns an address, and the fields are set. -/
def malloc (element : ℕ) (node : Node α δ) : LinkList α δ :=
  { s with node := Function.update s.node element (some node) }

/-- `element->next = next`. -/
def setNext (element : ℕ) (next : Option ℕ) : Option (LinkList α δ) := do
  let node ← s.node element
  return { s with node := Function.update s.node element (some { node with next := next }) }

/-- `element->prev = prev`. -/
def setPrev (element : ℕ) (prev : Option ℕ) : Option (LinkList α δ) := do
  let node ← s.node element
  return { s with node := Function.update s.node element (some { node with prev := prev }) }

/-- The end of an element: its delete function is called, if it has one, and it is freed. -/
def dispose (element : ℕ) : Option (LinkList α δ) := do
  let node ← s.node element
  return { s with
    node := Function.update s.node element none
    deleted := s.deleted ++ (node.deleteFunction.map (·, node.data)).toList }

/-- `while (current->next != NULL) current = current->next;` -/
def lastElement : ℕ → ℕ → Option ℕ
  | 0, _ => none
  | fuel + 1, current => do
    let node ← s.node current
    match node.next with
    | none => return current
    | some next => lastElement fuel next

/-- `link_list_append`. -/
def linkListAppend (newElement : ℕ) (data : α) (deleteFunction : Option δ) (fuel : ℕ) :
    Option (LinkList α δ) :=
  let s := s.malloc newElement ⟨data, none, none, deleteFunction⟩
  match s.list with
  | none => some { s with list := some newElement }
  | some first => do
    let current ← s.lastElement fuel first
    let s ← s.setPrev newElement (some current)
    s.setNext current (some newElement)

/-- `link_list_prepend`. -/
def linkListPrepend (newList : ℕ) (data : α) (deleteFunction : Option δ) :
    Option (LinkList α δ) := do
  match s.list with
  | some first =>
    let s := s.malloc newList ⟨data, some first, none, deleteFunction⟩
    let s ← s.setPrev first (some newList)
    return { s with list := some newList }
  | none =>
    let s := s.malloc newList ⟨data, none, none, deleteFunction⟩
    return { s with list := some newList }

/-- The two lines of `link_list_delete_element` for an element that is not the first. -/
def unlink (element : ℕ) : Option (LinkList α δ) := do
  let node ← s.node element
  let prev ← node.prev
  let s ← s.setNext prev node.next
  let node ← s.node element
  match node.next with
  | none => return s
  | some next => s.setPrev next node.prev

/-- `link_list_delete_element`. -/
def linkListDeleteElement (element : ℕ) : Option (LinkList α δ) := do
  let s ←
    if s.list = some element then do
      let node ← s.node element
      pure { s with list := node.next }
    else s.unlink element
  s.dispose element

section Data

variable [DecidableEq α]

/-- The loop of `link_list_delete_first_entry_matching_data`. -/
def deleteFirstLoop (data : α) : ℕ → Option ℕ → Option (LinkList α δ)
  | 0, _ => none
  | _ + 1, none => some s
  | fuel + 1, some current => do
    let node ← s.node current
    if node.data = data then s.linkListDeleteElement current
    else deleteFirstLoop data fuel node.next

/-- `link_list_delete_first_entry_matching_data`. -/
def linkListDeleteFirstEntryMatchingData (data : α) (fuel : ℕ) : Option (LinkList α δ) :=
  s.deleteFirstLoop data fuel s.list

/-- The loop of `link_list_match`. -/
def matchLoop (data : α) : ℕ → Option ℕ → Option Bool
  | 0, _ => none
  | _ + 1, none => some false
  | fuel + 1, some current => do
    let node ← s.node current
    if node.data = data then return true
    else matchLoop data fuel node.next

/-- `link_list_match`; `null` is the pointer that matches nothing. -/
def linkListMatch (null data : α) (fuel : ℕ) : Option Bool :=
  if s.list = none ∨ data = null then some false else s.matchLoop data fuel s.list

end Data

/-- The loop of `link_list_clear`. -/
def clearLoop : ℕ → Option ℕ → LinkList α δ → Option (LinkList α δ)
  | 0, _, _ => none
  | _ + 1, none, s => some s
  | fuel + 1, some current, s => do
    let node ← s.node current
    let s ← s.dispose current
    clearLoop fuel node.next s

/-- `link_list_clear`. -/
def linkListClear (fuel : ℕ) : Option (LinkList α δ) :=
  if s.list = none then some s
  else do
    let s ← clearLoop fuel s.list s
    return { s with list := none }

end LinkList

/-- An element of a list: the address of its node, and what the caller gave. -/
structure Entry (α δ : Type) where
  element : ℕ
  data : α
  deleteFunction : Option δ

/-- The calls on one list. An entry comes with the address that `malloc` returns for it. -/
inductive Op (α δ : Type)
  | append (entry : Entry α δ)
  | prepend (entry : Entry α δ)
  | deleteElement (element : ℕ)
  | deleteFirstEntryMatchingData (data : α)
  | clear

/-- One call. -/
def LinkList.step [DecidableEq α] (fuel : ℕ) (s : LinkList α δ) :
    Op α δ → Option (LinkList α δ)
  | .append e => s.linkListAppend e.element e.data e.deleteFunction fuel
  | .prepend e => s.linkListPrepend e.element e.data e.deleteFunction
  | .deleteElement element => s.linkListDeleteElement element
  | .deleteFirstEntryMatchingData data => s.linkListDeleteFirstEntryMatchingData data fuel
  | .clear => s.linkListClear fuel

/-- One call after the other. -/
def LinkList.run [DecidableEq α] (fuel : ℕ) (s : LinkList α δ) (ops : List (Op α δ)) :
    Option (LinkList α δ) :=
  ops.foldlM (LinkList.step fuel) s

end GpuProxy.Lists
