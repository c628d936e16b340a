import GpuProxy.VertexAttribs.Links

/-!
# Insertion into the list of enabled attributes

The list should have one node more after `_add_to_enabled_attrib_list`. When the new attribute
goes in front, its `next_enabled` is set to the previous node, of which there is none, and all
nodes that were listed are lost.

## Main definitions

* `InsertsOneNode` — the call returns, and the new attribute has joined the old ones

## Main results

* `exists_addToEnabledAttribList` — the loops come to an end
* `insertsOneNode_iff` — nothing is lost, unless the attribute goes in front
* `exists_dropped_node` — two attributes at one address
-/

namespace GpuProxy.VertexAttribs

open Math

/-- The call returns, and leaves a list without cycles: the old nodes in their order, and one
more. -/
def InsertsOneNode (list : AttribList) (ls : List Loc) (new : Loc) : Prop :=
  ∃ fuel list' ls', addToEnabledAttribList list new fuel = some list' ∧ Listed list' ls' ∧
    ls'.Nodup ∧ new ∈ ls' ∧ ls'.erase new = ls

variable {list : AttribList} {heap : Loc → VertexAttrib} {ls rest : List Loc} {new : Loc}
  {fuel : ℕ} {enabled : Option Loc}

/-! ### The end of the loops -/

/-- One step for each node, and one to see that there is no other. -/
theorem exists_skipChunk (new : Loc) (chunk : ℕ) (previous : Option Loc)
    (hpath : Math.Path (nextOf heap) enabled rest none) (hfuel : rest.length < fuel) :
    ∃ previous', skipChunk new heap chunk fuel enabled previous = some previous' := by
  induction fuel generalizing enabled previous rest with
  | zero => omega
  | succ fuel ih =>
    cases enabled with
    | none => exact ⟨previous, rfl⟩
    | some e =>
      obtain ⟨rest, rfl, hrest⟩ := hpath.exists_eq_cons
      rw [skipChunk]
      split_ifs
      · apply ih (some e) hrest
        rw [List.length_cons] at hfuel
        omega
      · exact ⟨previous, rfl⟩

theorem exists_addLoop (new : Loc) (chunk : ℕ) (previous : Option Loc)
    (hpath : Math.Path (nextOf heap) enabled rest none) (hfuel : rest.length + 1 < fuel) :
    ∃ result, addLoop new fuel heap enabled previous chunk = some result := by
  induction fuel generalizing heap enabled previous chunk rest with
  | zero => omega
  | succ fuel ih =>
    cases enabled with
    | none => exact ⟨_, rfl⟩
    | some e =>
      obtain ⟨rest, rfl, hrest⟩ := hpath.exists_eq_cons
      rw [List.length_cons] at hfuel
      rw [addLoop]
      split_ifs
      · have hlength : (e :: rest).length < fuel := by
          rw [List.length_cons]
          omega
        obtain ⟨previous', hskip⟩ := exists_skipChunk new (heap e).chunk previous hpath hlength
        rw [hskip]
        exact ⟨_, rfl⟩
      -- The chunks that are counted up are not what the loop follows.
      · have hlinks : SameLinks heap
            (Function.update heap e { heap e with chunk := uint ((heap e).chunk + 1) }) :=
          SameLinks.update rfl rfl
        apply ih (heap e).chunk (some e) (hrest.congr fun x _ => hlinks.next x)
        omega

/-- On a list without cycles the call returns. -/
theorem exists_addToEnabledAttribList (new : Loc) (hlisted : Listed list ls) :
    ∃ fuel list', addToEnabledAttribList list new fuel = some list' := by
  refine ⟨ls.length + 2, ?_⟩
  unfold addToEnabledAttribList
  split
  next => exact ⟨_, rfl⟩
  next e hhead =>
    have hpath : Math.Path (nextOf list.heap) (some e) ls none := hhead ▸ hlisted
    obtain ⟨result, hloop⟩ := exists_addLoop new 0 none hpath (Nat.lt_succ_self _)
    rw [hloop]
    exact ⟨_, rfl⟩

/-! ### Main result -/

theorem not_insertsInFront_of_insertsOneNode (hlisted : Listed list ls)
    (h : InsertsOneNode list ls new) : ¬InsertsInFront list.heap new ls := by
  obtain ⟨fuel, list', ls', hrun, hlisted', -, -, herase⟩ := h
  intro hfront
  obtain ⟨-, -, -, -, ⟨-, halone⟩ | ⟨hnot, -⟩⟩ := addToEnabledAttribList_spec hlisted hrun
  · obtain rfl : ls' = [new] := hlisted'.eq_of_none halone
    obtain ⟨n, rest, rfl, -⟩ := hfront
    simp at herase
  · exact hnot hfront

/-- An attribute that is not listed joins the list, if and only if it does not overlap the first
node, or that node has the lower address. -/
theorem insertsOneNode_iff (hlisted : Listed list ls) (hnew : new ∉ ls) :
    InsertsOneNode list ls new ↔ ¬InsertsInFront list.heap new ls := by
  constructor
  · exact not_insertsInFront_of_insertsOneNode hlisted
  · intro hfront
    obtain ⟨fuel, list', hrun⟩ := exists_addToEnabledAttribList new hlisted
    obtain ⟨-, -, -, -, ⟨hempty, halone⟩ | ⟨-, hjoins, -⟩⟩ :=
      addToEnabledAttribList_spec hlisted hrun
    · obtain rfl := hempty.resolve_right hfront
      exact ⟨fuel, list', [new], hrun, halone, List.nodup_singleton new,
        List.mem_singleton_self new, List.erase_cons_head new []⟩
    · obtain ⟨xs, x, ys, rfl, hlisted'⟩ := hjoins hnew
      exact ⟨fuel, list', _, hrun, hlisted', hlisted'.nodup, by simp,
        erase_middle hlisted'.nodup⟩

/-- A list of one attribute, with others that are at the given addresses. -/
def singleNode (pointer : Loc → ℕ) : AttribList where
  heap x := { freshAttrib x.idx 0 true with pointer := pointer x }
  freed := []
  nextBlock := 1
  count := 2
  enabledCount := 1
  attribs := 0
  enabledAttribs := some ⟨0, 0⟩

theorem listed_singleNode (pointer : Loc → ℕ) : Listed (singleNode pointer) [⟨0, 0⟩] :=
  ⟨rfl, rfl⟩

theorem insertsOneNode_behind :
    InsertsOneNode (singleNode fun x => 16 * x.idx) [⟨0, 0⟩] ⟨0, 1⟩ := by
  apply (insertsOneNode_iff (listed_singleNode _) (by decide)).2
  rintro ⟨n, rest, heq, -, hbefore⟩
  cases heq
  exact hbefore (by decide)

/-- An attribute is added that is where the only one is that is enabled. -/
theorem exists_dropped_node : ∃ list ls new, Listed list ls ∧ new ∉ ls ∧
    ¬InsertsOneNode list ls new := by
  refine ⟨singleNode fun _ => 16, [⟨0, 0⟩], ⟨0, 1⟩, listed_singleNode _, by decide, fun h => ?_⟩
  apply not_insertsInFront_of_insertsOneNode (listed_singleNode _) h
  exact ⟨⟨0, 0⟩, [], rfl, rfl, by decide⟩

end GpuProxy.VertexAttribs
