import GpuProxy.VertexAttribs.Chunks

/-!
# Groups of one chunk number

The chunk numbers describe a list of enabled attributes that is sorted: the numbers go down, so
that the attributes with one number are behind each other, and among these the addresses go up.
The setup of a draw call takes the attributes with the number of the first one at a time. It
takes whole groups, and the first and the last attribute of each have the lowest and the highest
address.

## Main definitions

* `helperSystem` — the runs of the two list helpers
* `SortedGroups` — the order of a list, and what it says of the groups

## Main results

* `run_eq_filter` — the setup takes whole groups
* `sortedGroups_of_reachable` — lists that are built by fewer than `2 ^ 32` calls
-/

namespace GpuProxy.VertexAttribs

open Math

/-- The calls of the helpers. Between them attributes are rewritten in any way, but the pointers
and the strides of those in the list, and what the helpers themselves write there, stay. -/
def helperSystem : System BuiltList ListOp where
  Init s := s.list.enabledAttribs = none ∧ s.calls = 0
  Step s op t := ∃ ls, Listed s.list ls ∧ match op with
    | .add new => new ∉ ls ∧ t.calls = s.calls + 1 ∧
      ∃ fuel, addToEnabledAttribList s.list new fuel = some t.list
    | .remove a => a ∈ ls ∧ t.calls = s.calls + 1 ∧
      ∃ fuel, removeFromEnabledAttribList s.list a fuel = some t.list
    | .write a attrib => t.calls = s.calls ∧
      t.list = { s.list with heap := Function.update s.list.heap a attrib } ∧
      (a ∈ ls → attrib.pointer = (s.list.heap a).pointer ∧
        attrib.stride = (s.list.heap a).stride ∧ attrib.chunk = (s.list.heap a).chunk ∧
        attrib.nextEnabled = (s.list.heap a).nextEnabled)

/-- What the chunk numbers of a list say. -/
structure SortedGroups (heap : Loc → VertexAttrib) (ls : List Loc) : Prop where
  chunk_le : ls.Pairwise fun x y => (heap y).chunk ≤ (heap x).chunk
  /-- Attributes with one number are behind each other. -/
  contiguous : ∀ before x between y after, ls = before ++ x :: (between ++ y :: after) →
    (heap x).chunk = (heap y).chunk → ∀ z ∈ between, (heap z).chunk = (heap x).chunk
  pointer_le : ls.Pairwise fun x y =>
    (heap x).chunk = (heap y).chunk → (heap x).pointer ≤ (heap y).pointer
  /-- What is copied together are all attributes with one number. -/
  wholeGroup : ∀ run ∈ chunkRuns (ls.map heap),
    run.1 :: run.2 = (ls.map heap).filter fun a => a.chunk = run.1.chunk
  firstLast : ∀ run ∈ chunkRuns (ls.map heap), ∀ a ∈ run.1 :: run.2,
    run.1.pointer ≤ a.pointer ∧ a.pointer ≤ (lastOf run).pointer
  difference : ∀ run ∈ chunkRuns (ls.map heap), 0 ≤ ((lastOf run).pointer - run.1.pointer : ℤ)

variable {heap : Loc → VertexAttrib} {ls : List Loc} {as : List VertexAttrib} {a : VertexAttrib}
  {run : VertexAttrib × List VertexAttrib}

/-! ### The runs of a list -/

/-- The first run starts with the first attribute. -/
theorem exists_chunkRuns_cons (a : VertexAttrib) (as : List VertexAttrib) :
    ∃ others runs, chunkRuns (a :: as) = (a, others) :: runs := by
  rw [chunkRuns]
  split
  next => exact ⟨[], [], rfl⟩
  next b others runs hruns =>
    split_ifs
    · exact ⟨b :: others, runs, rfl⟩
    · exact ⟨[], (b, others) :: runs, rfl⟩

theorem chunkRuns_eq_nil_iff : chunkRuns as = [] ↔ as = [] := by
  cases as with
  | nil => exact iff_of_true rfl rfl
  | cons a as =>
    obtain ⟨others, runs, heq⟩ := exists_chunkRuns_cons a as
    simp [heq]

/-- Where the numbers go down, no number is above that of the first run. -/
theorem chunk_le_of_chunkRuns {b : VertexAttrib} {others : List VertexAttrib}
    {runs : List (VertexAttrib × List VertexAttrib)}
    (h : as.Pairwise fun a b => b.chunk ≤ a.chunk) (hruns : chunkRuns as = (b, others) :: runs) :
    ∀ a ∈ as, a.chunk ≤ b.chunk := by
  cases as with
  | nil => cases hruns
  | cons c as =>
    obtain ⟨others', runs', heq⟩ := exists_chunkRuns_cons c as
    obtain rfl : c = b := congrArg Prod.fst (List.head_eq_of_cons_eq (heq.symm.trans hruns))
    intro a ha
    obtain rfl | ha := List.mem_cons.1 ha
    · exact le_rfl
    · exact (List.pairwise_cons.1 h).1 a ha

/-- Where the numbers go down, those of the runs do strictly. -/
theorem chunkRuns_sorted (h : as.Pairwise fun a b => b.chunk ≤ a.chunk) :
    (chunkRuns as).Pairwise fun run run' => run'.1.chunk < run.1.chunk := by
  induction as with
  | nil => exact List.Pairwise.nil
  | cons a as ih =>
    obtain ⟨hle, hrest⟩ := List.pairwise_cons.1 h
    have hsorted := ih hrest
    rw [chunkRuns]
    split
    next => exact List.pairwise_singleton _ _
    next b others runs hruns =>
      rw [hruns] at hsorted
      obtain ⟨hbelow, hruns'⟩ := List.pairwise_cons.1 hsorted
      split_ifs with hchunk
      · exact List.pairwise_cons.2 ⟨fun run hrun => hchunk ▸ hbelow run hrun, hruns'⟩
      · have hb : b ∈ as := by
          obtain ⟨hsub, -⟩ := chunkRuns_spec (hruns ▸ List.mem_cons_self : (b, others) ∈ _)
          exact hsub.subset List.mem_cons_self
        have hlt : b.chunk < a.chunk := lt_of_le_of_ne (hle b hb) (Ne.symm hchunk)
        refine List.pairwise_cons.2 ⟨fun run hrun => ?_, hsorted⟩
        obtain rfl | hrun := List.mem_cons.1 hrun
        · exact hlt
        · exact (hbelow run hrun).trans hlt

/-- Where the numbers go down, a run has all attributes with its number. -/
theorem run_eq_filter (h : as.Pairwise fun a b => b.chunk ≤ a.chunk) (hrun : run ∈ chunkRuns as) :
    run.1 :: run.2 = as.filter fun a => a.chunk = run.1.chunk := by
  induction as generalizing run with
  | nil => cases hrun
  | cons a as ih =>
    obtain ⟨-, hrest⟩ := List.pairwise_cons.1 h
    have hsorted := chunkRuns_sorted h
    rw [chunkRuns] at hrun hsorted
    split at hrun
    next hnil =>
      obtain rfl := chunkRuns_eq_nil_iff.1 hnil
      obtain rfl := List.mem_singleton.1 hrun
      simp
    next b others runs hruns =>
      rw [hruns] at hsorted
      dsimp only at hsorted
      have hmem : (b, others) ∈ chunkRuns as := hruns ▸ List.mem_cons_self
      have hb := ih hrest hmem
      split_ifs at hrun hsorted with hchunk
      · obtain rfl | hrun := List.mem_cons.1 hrun
        · rw [List.filter_cons_of_pos (by simp), hchunk, ← hb]
        · have hlt := (List.pairwise_cons.1 hsorted).1 run hrun
          rw [List.filter_cons_of_neg (by simpa using hlt.ne')]
          exact ih hrest (hruns ▸ List.mem_cons_of_mem _ hrun)
      · obtain rfl | hrun := List.mem_cons.1 hrun
        · have hlt := (List.pairwise_cons.1 hsorted).1 (b, others) List.mem_cons_self
          have hnone : as.filter (fun c => c.chunk = a.chunk) = [] := by
            rw [List.filter_eq_nil_iff]
            intro c hc
            have hle := chunk_le_of_chunkRuns hrest hruns c hc
            simpa using (hle.trans_lt hlt).ne
          rw [List.filter_cons_of_pos (by simp), hnone]
        · have hlt := (List.pairwise_cons.1 hsorted).1 run hrun
          rw [List.filter_cons_of_neg (by simpa using hlt.ne')]
          exact ih hrest (hruns ▸ hrun)

/-! ### Ordered lists -/

/-- In an ordered list the last attribute of a run has the highest address. -/
theorem pointer_le_lastOf (hordered : as.Pairwise MayPrecede) (hrun : run ∈ chunkRuns as) :
    ∀ a ∈ run.1 :: run.2, a.pointer ≤ (lastOf run).pointer := by
  obtain ⟨hsub, hchunk⟩ := chunkRuns_spec hrun
  have hequal : ∀ a ∈ run.1 :: run.2, a.chunk = run.1.chunk := by
    intro a ha
    obtain rfl | ha := List.mem_cons.1 ha
    · rfl
    · exact hchunk a ha
  have hpointers : (run.1 :: run.2).Pairwise fun a b => a.pointer ≤ b.pointer := by
    refine (hordered.sublist hsub).imp_of_mem fun {a b} ha hb hab => ?_
    obtain hlt | ⟨-, hle⟩ := hab
    · exact absurd ((hequal b hb).trans (hequal a ha).symm) hlt.ne
    · exact hle
  have hlast : (run.1 :: run.2).getLast (List.cons_ne_nil _ _) = lastOf run :=
    List.getLast_eq_getLastD _
  intro a ha
  rw [← hlast]
  exact hpointers.rel_getLast_of_rel_getLast_getLast ha le_rfl

theorem InGroups.sortedGroups (h : InGroups heap ls) : SortedGroups heap ls := by
  have hordered : ls.Pairwise fun x y => MayPrecede (heap x) (heap y) := List.pairwise_map.1 h
  have hchunk : ls.Pairwise fun x y => (heap y).chunk ≤ (heap x).chunk :=
    hordered.imp fun hxy => hxy.chunk_le
  have hfirstLast : ∀ run ∈ chunkRuns (ls.map heap), ∀ a ∈ run.1 :: run.2,
      run.1.pointer ≤ a.pointer ∧ a.pointer ≤ (lastOf run).pointer := by
    intro run hrun a ha
    refine ⟨?_, pointer_le_lastOf h hrun a ha⟩
    obtain rfl | ha := List.mem_cons.1 ha
    · exact le_rfl
    · exact pointer_le_of_mem_run h hrun a ha
  exact
    { chunk_le := hchunk
      -- Between two attributes with one number the numbers cannot go down.
      contiguous := by
        rintro before x between y after rfl hequal z hz
        obtain ⟨-, hbehind, -⟩ := List.pairwise_append.1 hchunk
        obtain ⟨hx, hbetween⟩ := List.pairwise_cons.1 hbehind
        have hzx := hx z (List.mem_append_left _ hz)
        have hyz := (List.pairwise_append.1 hbetween).2.2 z hz y List.mem_cons_self
        omega
      pointer_le := hordered.imp fun hxy hequal => by
        obtain hlt | ⟨-, hle⟩ := hxy
        · exact absurd hequal.symm hlt.ne
        · exact hle
      wholeGroup := fun run hrun => run_eq_filter (List.pairwise_map.2 hchunk) hrun
      firstLast := hfirstLast
      difference := fun run hrun => by
        obtain ⟨hle, -⟩ := hfirstLast run hrun _ lastOf_mem
        omega }

/-! ### Whole runs -/

theorem helperSystem_ordered : helperSystem.Invariant Ordered where
  init s hs := ordered_init hs.1
  step := by
    rintro s op t - hordered ⟨ls, hlisted, hstep⟩
    cases op with
    | add new =>
      obtain ⟨hnew, hcalls, fuel, hrun⟩ := hstep
      exact hordered.add hlisted hnew hcalls hrun
    | remove a =>
      obtain ⟨-, hcalls, fuel, hrun⟩ := hstep
      exact hordered.remove hcalls hrun
    | write a attrib =>
      obtain ⟨hcalls, hlist, hsame⟩ := hstep
      refine hordered.write hlisted hcalls (by rw [hlist]) fun x hx => ?_
      rw [hlist]
      rcases eq_or_ne x a with rfl | hne
      · obtain ⟨hpointer, -, hchunk, hnext⟩ := hsame hx
        simp only [Function.update_self]
        exact ⟨hnext, hchunk, hpointer⟩
      · simp only [Function.update_of_ne hne, and_self]

/-- After fewer than `2 ^ 32` calls from the empty list on, the enabled attributes are in sorted
groups. -/
theorem sortedGroups_of_reachable {s : BuiltList} (hs : helperSystem.Reachable s)
    (hcalls : s.calls < 2 ^ 32) : ∃ ls, Listed s.list ls ∧ SortedGroups s.list.heap ls := by
  obtain ⟨ls, hlisted, hordered⟩ := helperSystem_ordered.holds hs
  exact ⟨ls, hlisted, (hordered hcalls).1.sortedGroups⟩

/-- Two attributes that are added one after the other. -/
theorem sortedGroups_both :
    ∃ ls, Listed (bothArrays 4) ls ∧ SortedGroups (bothArrays 4).heap ls := by
  have hempty : helperSystem.Reachable ⟨twoArrays 4, 0⟩ := .init ⟨rfl, rfl⟩
  have hfirst : helperSystem.Reachable ⟨oneArray 4, 1⟩ :=
    hempty.step (a := .add ⟨0, 0⟩) ⟨[], rfl, by simp, rfl, 3, rfl⟩
  have hboth : helperSystem.Reachable ⟨bothArrays 4, 2⟩ :=
    hfirst.step (a := .add ⟨0, 1⟩) ⟨[⟨0, 0⟩], ⟨rfl, rfl⟩, by decide, rfl, 3, rfl⟩
  exact sortedGroups_of_reachable hboth (by decide)

end GpuProxy.VertexAttribs
