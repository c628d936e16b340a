import GpuProxy.Generator.Commands

/-!
# What is packed into a command

A command has a copy of everything that the driver will read for an argument, in a block of its
own. The commands of synchronous calls have no blocks.

## Main definitions

* `Arguments.Valid` — the application has what the arguments tell of
* `Packed` — what holds after some of the arguments were packed

## Main results

* `arraySize_le` — there is room for the array in the block
* `init_copied`, `init_passed` — what a command has
-/

namespace GpuProxy.Generator

open Math

/-- The application has what the driver will read, and the numbers are values of their types. -/
structure Arguments.Valid (m : DataModel) (f : Function) (args : Arguments) (memory : Memory) :
    Prop where
  inRange : ∀ arg ∈ f.pointerArgs, f.ValuesInRange m arg args.values
  fits : ∀ arg ∈ f.pointerArgs, f.arraySize m arg args.values < m.sizeCount
  contents : (f.contents m args.values memory args.pointers).isSome

namespace Function

variable {m : DataModel} {f : Function} {arg : Argument} {values : Values}
  {memory memory' : Memory} {p : ℕ} {c : Content} {source : List UInt8} {field : CommandField}

/-! ### What the driver finds -/

theorem content_zero : f.content m values memory arg 0 = some .null := by
  rw [content, if_pos rfl]

theorem content_string (hp : p ≠ 0) (hstring : arg.type.isString = true)
    (hmemory : memory p = some source) : f.content m values memory arg p =
      (strlen 0 source).map fun length => .bytes (source.take length) := by
  rw [content, if_neg hp, if_pos hstring, hmemory, Option.getD_some]

theorem content_array (hp : p ≠ 0) (hstring : arg.type.isString = false)
    (hsize : f.hasSize arg = true) (hmemory : memory p = some source) :
    f.content m values memory arg p =
      (memcpy (f.arraySize m arg values) source (f.arraySize m arg values)).map .bytes := by
  rw [content, if_neg hp, if_neg (by simp [hstring]), if_pos hsize, hmemory, Option.getD_some]

/-- What was found is also found with more memory. -/
theorem content_mono (hle : ∀ q bytes, memory q = some bytes → memory' q = some bytes)
    (h : f.content m values memory arg p = some c) : f.content m values memory' arg p = some c := by
  cases hp : memory p with
  | some bytes =>
    rw [content, hle p bytes hp, ← hp]
    exact h
  | none =>
    rw [content, hp, Option.getD_none] at h
    rw [content]
    split_ifs at h ⊢ with hzero hstring hsize
    · exact h
    · cases h
    · -- Nothing was read.
      obtain ⟨bytes, hcopy, rfl⟩ := Option.map_eq_some_iff.mp h
      rw [memcpy] at hcopy
      split_ifs at hcopy with hroom
      have hsize : f.arraySize m arg values = 0 := Nat.le_zero.mp hroom.2
      rw [← Option.some.inj hcopy, hsize, memcpy_eq le_rfl (Nat.zero_le _)]
      simp
    · exact h

/-! ### The copies -/

theorem hasCharPointer_of_isString (h : arg.type.isString = true) :
    arg.type.hasCharPointer = true := by
  simp only [TypeText.isString, decide_eq_true_eq] at h
  obtain ⟨hword, hsuffix, hstars⟩ := h
  simp [TypeText.hasCharPointer, hword, hsuffix, hstars]

/-- There is room for the array, and there may be more. -/
theorem arraySize_le {size : ℕ} (hsized : f.Sized arg)
    (hentry : (f.sizeArgument arg).isSome ∨ (f.elementCount arg).isSome)
    (hin : f.ValuesInRange m arg values) (hfits : f.arraySize m arg values < m.sizeCount)
    (hsize : f.productSize m values (f.sizeComponents arg) = some size) :
    f.arraySize m arg values ≤ size := by
  cases hvoid : arg.type.hasVoidPointer with
  | true =>
    obtain ⟨count, hcount, hproduct⟩ := productSize_of_void hsized hvoid hin
    have harray : f.arraySize m arg values = count := by
      simp [arraySize, hcount, elementSize, hvoid]
    rw [harray] at hfits ⊢
    rw [hproduct, DataModel.sizeT_natCast hfits] at hsize
    exact (Option.some.inj hsize).le
  | false =>
    obtain ⟨hilp32, hlp64, -⟩ := hsized.array hvoid
    have harray : f.arraySize m arg values = f.elements arg values * 4 := by
      cases m <;> simp [arraySize, hilp32, hlp64]
    rw [productSize_of_array hsized hvoid hentry hin] at hsize
    rw [harray] at hfits ⊢
    split_ifs at hsize with hrange
    obtain rfl := Option.some.inj hsize
    have hpointer : (f.elements arg values : ℤ) * m.pointerSize =
        (f.elements arg values * m.pointerSize : ℕ) := by push_cast; rfl
    rw [hpointer]
    cases m with
    | ilp32 => exact (DataModel.sizeT_natCast hfits).ge
    | lp64 =>
      have hlt : f.elements arg values * 8 < DataModel.sizeCount .lp64 := by
        have hint := hrange.2
        rw [DataModel.sizeCount_lp64]
        omega
      have hsizeT : DataModel.lp64.sizeT (f.elements arg values * 8 : ℕ) = _ :=
        DataModel.sizeT_natCast hlt
      change _ ≤ DataModel.lp64.sizeT (f.elements arg values * 8 : ℕ)
      rw [hsizeT]
      omega

/-- The copy of an array or of a string has what the driver will read. -/
theorem content_copy (hasync : f.isSynchronous = false)
    (hcopied : arg.type.isString = true ∨
      f.Sized arg ∧ ((f.sizeArgument arg).isSome ∨ (f.elementCount arg).isSome))
    (hin : f.ValuesInRange m arg values) (hfits : f.arraySize m arg values < m.sizeCount)
    (hp : p ≠ 0) (hcontent : f.content m values memory arg p = some c)
    (hinit : f.commandInit m arg values (some ((memory p).getD [])) = some field) :
    ∃ bytes, field = .block bytes ∧ ∀ memory' q, q ≠ 0 → memory' q = some bytes →
      f.content m values memory' arg q = some c := by
  generalize hsource : (memory p).getD [] = source at hinit
  rw [content, if_neg hp, hsource] at hcontent
  obtain hstring | ⟨hsized, hentry⟩ := hcopied
  · rw [if_pos hstring] at hcontent
    obtain ⟨length, hlength, rfl⟩ := Option.map_eq_some_iff.mp hcontent
    have hchar := hasCharPointer_of_isString hstring
    have hcode : f.writeCommandInitArgumentCopy arg = .strdup := by
      rw [writeCommandInitArgumentCopy, if_neg (by simp [hasync]), if_pos hchar]
    have hroom := strlen_lt hlength
    simp only [commandInit, hcode, Option.bind_eq_bind, Option.bind_some, hlength,
      memcpy_eq le_rfl hroom] at hinit
    obtain rfl := Option.some.inj hinit
    refine ⟨_, rfl, fun memory' q hq hmemory => ?_⟩
    rw [content_string hq hstring hmemory, strlen_take hlength, Option.map_some,
      List.take_take, Nat.min_eq_left (Nat.le_succ _)]
  · have hchar : arg.type.hasCharPointer = false := hsized.1
    have hstring : arg.type.isString = false := by
      rw [Bool.eq_false_iff]
      intro hstring
      rw [hasCharPointer_of_isString hstring] at hchar
      cases hchar
    have hsize : f.hasSize arg = true := by
      obtain h | h := hentry <;> simp [hasSize, h]
    rw [if_neg (by simp [hstring]), if_pos hsize] at hcontent
    rw [commandInit_eq hasync hsized hentry] at hinit
    obtain ⟨size, hproduct, hinit⟩ := Option.bind_eq_some_iff.mp hinit
    have hle := arraySize_le hsized hentry hin hfits hproduct
    obtain ⟨bytes, hcopy, rfl⟩ := Option.map_eq_some_iff.mp hinit
    obtain ⟨array, harray, rfl⟩ := Option.map_eq_some_iff.mp hcontent
    refine ⟨bytes, rfl, fun memory' q hq hmemory => ?_⟩
    rw [content_array hq hstring hsize hmemory]
    rw [memcpy] at hcopy harray
    split_ifs at hcopy harray with hroom harrayRoom
    obtain rfl := Option.some.inj hcopy
    have hlength : f.arraySize m arg values ≤ (source.take size).length := by
      rw [List.length_take]
      exact le_min hle harrayRoom.2
    rw [memcpy_eq le_rfl hlength, List.take_take, Nat.min_eq_left hle, Option.some.inj harray]
    rfl

/-! ### The loop over the arguments -/

/-- There is a copy to be made of what the driver will read for a pointer. -/
structure Copyable (m : DataModel) (f : Function) (args : Arguments) (memory : Memory)
    (arg : Argument) : Prop where
  copied : arg.type.isString = true ∨
    f.Sized arg ∧ ((f.sizeArgument arg).isSome ∨ (f.elementCount arg).isSome)
  inRange : f.ValuesInRange m arg args.values
  fits : f.arraySize m arg args.values < m.sizeCount
  content : (f.content m args.values memory arg (args.pointers arg.name)).isSome

/-- The blocks that the pointers for some arguments point to. -/
def blocksOf (done : List Argument) (pointers : String → ℕ) : List ℕ :=
  ((done.filter (·.type.isPointer)).map fun arg => pointers arg.name).filter (· ≠ 0)

/-- Some arguments were packed. Their blocks are new, and what the driver will read is there. -/
structure Packed (m : DataModel) (f : Function) (args : Arguments) (heap : Heap)
    (done : List Argument) (s : Heap × (String → ℕ)) : Prop where
  rest : s.1.rest = heap.rest
  memory : ∀ p bytes, heap.memory p = some bytes → s.1.memory p = some bytes
  blocks : s.1.blocks = heap.blocks ∪ (blocksOf done s.2).toFinset
  nodup : (blocksOf done s.2).Nodup
  fresh : ∀ p ∈ blocksOf done s.2, p ∉ heap.blocks
  content : ∀ arg ∈ done, arg.type.isPointer = true → ∀ c,
    f.content m args.values heap.rest arg (args.pointers arg.name) = some c →
      f.content m args.values s.1.memory arg (s.2 arg.name) = some c

variable {args : Arguments} {addresses : String → ℕ} {heap : Heap} {done : List Argument}
  {s s' : Heap × (String → ℕ)} {pointers : String → ℕ}

theorem blocksOf_append_update (pointers : String → ℕ) (q : ℕ)
    (hname : ∀ arg' ∈ done, arg'.name ≠ arg.name) :
    blocksOf (done ++ [arg]) (Function.update pointers arg.name q) =
      blocksOf done pointers ++ if arg.type.isPointer = true ∧ q ≠ 0 then [q] else [] := by
  have hdone : (done.filter (·.type.isPointer)).map
      (fun arg' => Function.update pointers arg.name q arg'.name) =
      (done.filter (·.type.isPointer)).map fun arg' => pointers arg'.name := by
    refine List.map_congr_left fun arg' harg' => ?_
    exact Function.update_of_ne (hname arg' (List.mem_of_mem_filter harg')) ..
  rw [blocksOf, List.filter_append, List.map_append, List.filter_append, hdone, blocksOf]
  congr 1
  cases hpointer : arg.type.isPointer with
  | false => simp [hpointer]
  | true =>
    by_cases hq : q = 0 <;> simp [hpointer, hq]

/-- What one statement does, where there is a copy to be made. -/
theorem initArgument_spec (hasync : f.isSynchronous = false)
    (hpointer : arg.type.isPointer = true) (hcopy : Copyable m f args memory arg)
    (hcontent : f.content m args.values s.1.memory arg (args.pointers arg.name) = some c)
    (h : f.initArgument m args addresses s arg = some s') :
    ∃ q, s'.2 = Function.update s.2 arg.name q ∧
      f.content m args.values s'.1.memory arg q = some c ∧
      (q = 0 ∧ s'.1 = s.1 ∨ ∃ bytes, s.1.malloc q bytes = some s'.1) := by
  rw [initArgument, if_pos hpointer] at h
  obtain ⟨field, hinit, h⟩ := Option.bind_eq_some_iff.mp h
  by_cases hp : args.pointers arg.name = 0
  · -- There is no string to be copied, and nothing is for an array.
    rw [if_pos hp] at hinit
    rw [hp, content_zero] at hcontent
    obtain hstring | ⟨hsized, hentry⟩ := hcopy.copied
    · have hcode : f.writeCommandInitArgumentCopy arg = .strdup := by
        rw [writeCommandInitArgumentCopy, if_neg (by simp [hasync]),
          if_pos (hasCharPointer_of_isString hstring)]
      rw [commandInit, hcode] at hinit
      cases hinit
    · rw [commandInit_null hasync hsized hentry] at hinit
      obtain rfl := Option.some.inj hinit
      obtain rfl := Option.some.inj h
      exact ⟨0, rfl, content_zero.trans hcontent, .inl ⟨rfl, rfl⟩⟩
  · rw [if_neg hp] at hinit
    obtain ⟨bytes, rfl, hblock⟩ :=
      content_copy hasync hcopy.copied hcopy.inRange hcopy.fits hp hcontent hinit
    obtain ⟨heap', hmalloc, h⟩ := Option.bind_eq_some_iff.mp h
    obtain rfl := Option.some.inj h
    obtain ⟨hq, -, -, hmemory, -⟩ := OwnedHeap.malloc_spec hmalloc
    exact ⟨_, rfl, hblock _ _ hq hmemory, .inr ⟨bytes, hmalloc⟩⟩

theorem initArgument_number (hpointer : arg.type.isPointer = false) :
    f.initArgument m args addresses s arg = some s := by
  rw [initArgument, if_neg (by simp [hpointer])]

namespace Packed

theorem nil : Packed m f args heap [] (heap, pointers) where
  rest := rfl
  memory _ _ h := h
  blocks := by simp [blocksOf]
  nodup := List.nodup_nil
  fresh p hp := by cases hp
  content arg harg := by cases harg

/-- What the driver finds behind the pointers of earlier arguments, it finds there later. -/
theorem content_update {memory : Memory} {q : ℕ} (h : Packed m f args heap done s)
    (hname : ∀ arg' ∈ done, arg'.name ≠ arg.name)
    (hle : ∀ p bytes, s.1.memory p = some bytes → memory p = some bytes) :
    ∀ arg' ∈ done, arg'.type.isPointer = true → ∀ c,
      f.content m args.values heap.rest arg' (args.pointers arg'.name) = some c →
        f.content m args.values memory arg' (Function.update s.2 arg.name q arg'.name) =
          some c := by
  intro arg' harg' hpointer' c' hcontent'
  rw [Function.update_of_ne (hname arg' harg')]
  exact content_mono hle (h.content arg' harg' hpointer' c' hcontent')

/-- One more argument is packed. -/
theorem step (h : Packed m f args heap done s) (hasync : f.isSynchronous = false)
    (hname : ∀ arg' ∈ done, arg'.name ≠ arg.name)
    (hcopy : arg.type.isPointer = true → Copyable m f args heap.rest arg)
    (hinit : f.initArgument m args addresses s arg = some s') :
    Packed m f args heap (done ++ [arg]) s' := by
  have hrestMemory : ∀ q bytes, heap.rest q = some bytes → s.1.memory q = some bytes := by
    intro q bytes hq
    rw [← h.rest] at hq
    exact OwnedHeap.memory_of_rest hq
  cases hpointer : arg.type.isPointer with
  | false =>
    rw [initArgument_number hpointer] at hinit
    obtain rfl := Option.some.inj hinit
    have hblocks : blocksOf (done ++ [arg]) s.2 = blocksOf done s.2 := by
      simp [blocksOf, hpointer]
    refine ⟨h.rest, h.memory, hblocks ▸ h.blocks, hblocks ▸ h.nodup, hblocks ▸ h.fresh, ?_⟩
    intro arg' harg' hpointer'
    obtain harg' | harg' := List.mem_append.mp harg'
    · exact h.content arg' harg' hpointer'
    · rw [List.mem_singleton.mp harg', hpointer] at hpointer'
      cases hpointer'
  | true =>
    have hcopy := hcopy hpointer
    obtain ⟨c, hc⟩ := Option.isSome_iff_exists.mp hcopy.content
    obtain ⟨q, hpointers, hfound, hheap⟩ :=
      initArgument_spec hasync hpointer hcopy (content_mono hrestMemory hc) hinit
    have hblocks := blocksOf_append_update s.2 q hname
    have hnew : ∀ arg' ∈ [arg], arg'.type.isPointer = true → ∀ c',
        f.content m args.values heap.rest arg' (args.pointers arg'.name) = some c' →
          f.content m args.values s'.1.memory arg' (s'.2 arg'.name) = some c' := by
      intro arg' harg' _ c' hc'
      rw [List.mem_singleton.mp harg'] at hc' ⊢
      rw [hpointers, Function.update_self, hfound, ← hc, hc']
    rw [← hpointers] at hblocks
    obtain ⟨rfl, hsame⟩ | ⟨bytes, hmalloc⟩ := hheap
    · rw [if_neg (by simp), List.append_nil] at hblocks
      have hold := h.content_update (q := 0) hname fun _ _ hp => hp
      rw [← hpointers, ← hsame] at hold
      refine ⟨hsame ▸ h.rest, hsame ▸ h.memory, by rw [hblocks, hsame, h.blocks],
        hblocks ▸ h.nodup, hblocks ▸ h.fresh, ?_⟩
      exact fun arg' harg' => (List.mem_append.mp harg').elim (hold arg') (hnew arg')
    · obtain ⟨hq, hnone, hmallocBlocks, -⟩ := OwnedHeap.malloc_spec hmalloc
      have hmemory := fun p bytes => OwnedHeap.memory_malloc (q := p) (b := bytes) hmalloc
      have hqFresh := OwnedHeap.notMem_of_memory_eq_none hnone
      rw [h.blocks, Finset.mem_union, List.mem_toFinset, not_or] at hqFresh
      rw [if_pos ⟨hpointer, hq⟩] at hblocks
      have hold := h.content_update (q := q) hname hmemory
      rw [← hpointers] at hold
      refine ⟨(OwnedHeap.rest_malloc hmalloc).trans h.rest,
        fun p bytes hp => hmemory p bytes (h.memory p bytes hp), ?_, ?_, ?_, ?_⟩
      · rw [hblocks, hmallocBlocks, h.blocks]
        ext p
        simp only [Finset.mem_insert, Finset.mem_union, List.mem_toFinset, List.mem_append,
          List.mem_singleton]
        tauto
      · rw [hblocks, List.nodup_append]
        refine ⟨h.nodup, List.nodup_singleton q, fun p hp p' hp' => ?_⟩
        rw [List.mem_singleton.mp hp']
        rintro rfl
        exact hqFresh.2 hp
      · intro p hp
        rw [hblocks] at hp
        obtain hp | hp := List.mem_append.mp hp
        · exact h.fresh p hp
        · rw [List.mem_singleton.mp hp]
          exact hqFresh.1
      · exact fun arg' harg' => (List.mem_append.mp harg').elim (hold arg') (hnew arg')

/-- All the arguments that are left are packed. -/
theorem run (hasync : f.isSynchronous = false) {left : List Argument}
    (h : Packed m f args heap done s)
    (hnodup : ((done ++ left).map (·.name)).Nodup)
    (hcopy : ∀ arg ∈ left, arg.type.isPointer = true → Copyable m f args heap.rest arg)
    (hinit : left.foldlM (f.initArgument m args addresses) s = some s') :
    Packed m f args heap (done ++ left) s' := by
  induction left generalizing done s with
  | nil =>
    obtain rfl := Option.some.inj hinit
    rwa [List.append_nil]
  | cons arg left ih =>
    rw [List.foldlM_cons] at hinit
    obtain ⟨s₁, hfirst, hrest⟩ := Option.bind_eq_some_iff.mp hinit
    have harg : arg ∈ arg :: left := List.mem_cons_self
    have hleft : ∀ arg' ∈ left, arg' ∈ arg :: left := fun _ => List.mem_cons_of_mem _
    have hname : ∀ arg' ∈ done, arg'.name ≠ arg.name := by
      intro arg' harg'
      rw [List.map_append, List.nodup_append] at hnodup
      exact hnodup.2.2 _ (List.mem_map_of_mem harg') _ (List.mem_map_of_mem harg)
    have hstep := h.step hasync hname (hcopy arg harg) hfirst
    rw [List.append_cons] at hnodup ⊢
    exact ih hstep hnodup (fun arg' harg' => hcopy arg' (hleft arg' harg')) hrest

end Packed

/-! ### Whole commands -/

section Init

variable {heap' : Heap} {command : Command} {values' : Values} {pointers' : String → ℕ}

theorem mem_pointerArgs : arg ∈ f.pointerArgs ↔ arg ∈ f.args ∧ arg.type.isPointer = true :=
  List.mem_filter

/-- The driver finds the same for all arguments if it does for each. -/
theorem contents_congr (h : ∀ arg ∈ f.pointerArgs,
      f.content m values memory arg (pointers arg.name) =
        f.content m values' memory' arg (pointers' arg.name)) :
    f.contents m values memory pointers = f.contents m values' memory' pointers' := by
  unfold contents
  generalize f.pointerArgs = left at h
  induction left with
  | nil => rfl
  | cons arg left ih =>
    have hleft := ih fun arg' harg' => h arg' (List.mem_cons_of_mem _ harg')
    rw [List.mapM_cons, List.mapM_cons, h arg List.mem_cons_self, hleft]

theorem content_isSome_of_contents (h : (f.contents m values memory pointers).isSome)
    (harg : arg ∈ f.pointerArgs) :
    (f.content m values memory arg (pointers arg.name)).isSome := by
  unfold contents at h
  generalize f.pointerArgs = left at h harg
  induction left with
  | nil => cases harg
  | cons arg' left ih =>
    obtain ⟨all, hall⟩ := Option.isSome_iff_exists.mp h
    rw [List.mapM_cons] at hall
    obtain ⟨first, hfirst, hall⟩ := Option.bind_eq_some_iff.mp hall
    obtain ⟨others, hothers, -⟩ := Option.bind_eq_some_iff.mp hall
    obtain rfl | harg := List.mem_cons.mp harg
    · rw [hfirst]
      rfl
    · exact ih (by rw [hothers]; rfl) harg

theorem init_spec (hinit : f.init m args addresses heap = some (heap', command)) :
    command.function = f ∧ command.values = args.values ∧
      f.args.foldlM (f.initArgument m args addresses) (heap, fun _ => 0) =
        some (heap', command.pointers) := by
  obtain ⟨⟨heap₁, pointers₁⟩, hfold, h⟩ := Option.bind_eq_some_iff.mp hinit
  obtain ⟨rfl, rfl⟩ := Prod.mk.inj (Option.some.inj h)
  exact ⟨rfl, rfl, hfold⟩

/-- A command of its own blocks: they are new, and have what the driver will read. -/
theorem init_copied (hf : f.Generated) (hdestructor : f.needsDestructor = true)
    (hvalid : args.Valid m f heap.rest)
    (hinit : f.init m args addresses heap = some (heap', command)) :
    Packed m f args heap f.args (heap', command.pointers) := by
  obtain ⟨-, -, hfold⟩ := init_spec hinit
  have hasync : f.isSynchronous = false := by
    simp only [needsDestructor, Bool.and_eq_true, Bool.not_eq_true'] at hdestructor
    exact hdestructor.1
  have hnil : Packed m f args heap [] (heap, fun _ => 0) := .nil
  have hrun := hnil.run hasync (by simpa using hf.nodup) ?_ hfold
  · simpa using hrun
  · intro arg harg hpointer
    have harg := mem_pointerArgs.mpr ⟨harg, hpointer⟩
    exact ⟨hf.copied hdestructor arg harg, hvalid.inRange arg harg, hvalid.fits arg harg,
      content_isSome_of_contents hvalid.contents harg⟩

/-- What the driver finds with the command is what it would have found before. -/
theorem contents_of_packed (hvalid : args.Valid m f heap.rest)
    (h : Packed m f args heap f.args (heap', pointers)) :
    f.contents m args.values heap'.memory pointers =
      f.contents m args.values heap.rest args.pointers := by
  refine contents_congr fun arg harg => ?_
  obtain ⟨hmem, hpointer⟩ := mem_pointerArgs.mp harg
  obtain ⟨c, hc⟩ := Option.isSome_iff_exists.mp (content_isSome_of_contents hvalid.contents harg)
  rw [hc]
  exact h.content arg hmem hpointer c hc

/-- Arguments that are assigned. -/
theorem foldlM_initArgument_assign {left : List Argument}
    (hassign : ∀ arg ∈ left, arg.type.isPointer = true →
      f.writeCommandInitArgumentCopy arg = .assign)
    (hnodup : (left.map (·.name)).Nodup)
    (h : left.foldlM (f.initArgument m args addresses) s = some s') : s'.1 = s.1 ∧
      (∀ arg ∈ left, arg.type.isPointer = true → s'.2 arg.name = args.pointers arg.name) ∧
      ∀ name ∉ left.map (·.name), s'.2 name = s.2 name := by
  induction left generalizing s with
  | nil =>
    obtain rfl := Option.some.inj h
    exact ⟨rfl, fun _ harg => (List.not_mem_nil harg).elim, fun _ _ => rfl⟩
  | cons arg left ih =>
    rw [List.foldlM_cons] at h
    obtain ⟨s₁, hfirst, hrest⟩ := Option.bind_eq_some_iff.mp h
    rw [List.map_cons, List.nodup_cons] at hnodup
    obtain ⟨hheap, hpointers, hothers⟩ :=
      ih (fun arg' harg' => hassign arg' (List.mem_cons_of_mem _ harg')) hnodup.2 hrest
    have hs₁ : s₁.1 = s.1 ∧ (arg.type.isPointer = true → s₁.2 arg.name = args.pointers arg.name) ∧
        ∀ name ≠ arg.name, s₁.2 name = s.2 name := by
      cases hpointer : arg.type.isPointer with
      | false =>
        rw [initArgument_number hpointer] at hfirst
        obtain rfl := Option.some.inj hfirst
        exact ⟨rfl, fun hfalse => absurd hfalse Bool.false_ne_true, fun _ _ => rfl⟩
      | true =>
        have hcode := hassign arg List.mem_cons_self hpointer
        simp only [initArgument, hpointer, if_true, commandInit, hcode, Option.bind_eq_bind,
          Option.bind_some, Option.pure_def, Option.some.injEq] at hfirst
        subst hfirst
        exact ⟨rfl, fun _ => Function.update_self ..,
          fun _ hname => Function.update_of_ne hname ..⟩
    refine ⟨hheap.trans hs₁.1, fun arg' harg' hpointer => ?_, fun name hname => ?_⟩
    · obtain rfl | harg' := List.mem_cons.mp harg'
      · rw [hothers _ hnodup.1, hs₁.2.1 hpointer]
      · exact hpointers arg' harg' hpointer
    · rw [List.map_cons, List.mem_cons, not_or] at hname
      rw [hothers name hname.2, hs₁.2.2 name hname.1]

/-- Without copies, the command has the application's pointers. -/
theorem init_passed (hf : f.Generated) (hdestructor : f.needsDestructor = false)
    (hinit : f.init m args addresses heap = some (heap', command)) :
    heap' = heap ∧ ∀ arg ∈ f.pointerArgs, command.pointers arg.name = args.pointers arg.name := by
  obtain ⟨-, -, hfold⟩ := init_spec hinit
  have hcode : ∀ arg ∈ f.pointerArgs, f.writeCommandInitArgumentCopy arg = .assign := by
    intro arg harg
    cases hsync : f.isSynchronous with
    | true => rw [writeCommandInitArgumentCopy, if_pos hsync]
    | false =>
      have htype : f.info.type = "Passthrough" := by
        simpa [needsDestructor, hsync] using hdestructor
      obtain ⟨hchar, hsize⟩ := hf.passed htype arg harg
      simp only [hasSize, Bool.or_eq_false_iff] at hsize
      rw [writeCommandInitArgumentCopy, if_neg (by simp [hsync]), if_neg (by simp [hchar]),
        if_neg (by simp [hsize])]
  have hpassed : ∀ arg ∈ f.args, arg.type.isPointer = true →
      f.writeCommandInitArgumentCopy arg = .assign :=
    fun arg harg hpointer => hcode arg (mem_pointerArgs.mpr ⟨harg, hpointer⟩)
  obtain ⟨hheap, hpointers, -⟩ := foldlM_initArgument_assign hpassed hf.nodup hfold
  refine ⟨hheap, fun arg harg => ?_⟩
  obtain ⟨hmem, hpointer⟩ := mem_pointerArgs.mp harg
  exact hpointers arg hmem hpointer

/-- What `command_*_init` does. -/
structure Initialised (m : DataModel) (f : Function) (args : Arguments) (heap heap' : Heap)
    (command : Command) : Prop where
  function : command.function = f
  values : command.values = args.values
  rest : heap'.rest = heap.rest
  memory : ∀ p bytes, heap.memory p = some bytes → heap'.memory p = some bytes
  blocks : heap'.blocks = heap.blocks ∪ command.owned.toFinset
  nodup : command.owned.Nodup
  fresh : ∀ p ∈ command.owned, p ∉ heap.blocks
  contents : f.isSynchronous = false → f.contents m args.values heap'.memory command.pointers =
    f.contents m args.values heap.rest args.pointers
  pointers : f.isSynchronous = true → f.pointerList command.pointers = f.pointerList args.pointers

theorem init_initialised (hf : f.Generated)
    (hvalid : f.isSynchronous = false → args.Valid m f heap.rest)
    (hinit : f.init m args addresses heap = some (heap', command)) :
    Initialised m f args heap heap' command := by
  obtain ⟨rfl, hvalues, -⟩ := init_spec hinit
  cases hdestructor : command.function.needsDestructor with
  | true =>
    have hasync : command.function.isSynchronous = false := by
      simp only [needsDestructor, Bool.and_eq_true, Bool.not_eq_true'] at hdestructor
      exact hdestructor.1
    have hvalid := hvalid hasync
    have hpacked := init_copied hf hdestructor hvalid hinit
    have howned : command.owned = blocksOf command.function.args command.pointers :=
      if_pos hdestructor
    exact
      { function := rfl
        values := hvalues
        rest := hpacked.rest
        memory := hpacked.memory
        blocks := howned ▸ hpacked.blocks
        nodup := howned ▸ hpacked.nodup
        fresh := howned ▸ hpacked.fresh
        contents := fun _ => contents_of_packed hvalid hpacked
        pointers := fun hsync => absurd hsync (by simp [hasync]) }
  | false =>
    obtain ⟨rfl, hpointers⟩ := init_passed hf hdestructor hinit
    have howned : command.owned = [] := by simp [Command.owned, hdestructor]
    exact
      { function := rfl
        values := hvalues
        rest := rfl
        memory := fun _ _ hp => hp
        blocks := by simp [howned]
        nodup := by simp [howned]
        fresh := by simp [howned]
        contents := by
          intro hasync
          refine contents_congr fun arg harg => ?_
          obtain ⟨c, hc⟩ := Option.isSome_iff_exists.mp
            (content_isSome_of_contents (hvalid hasync).contents harg)
          rw [hpointers arg harg, hc]
          exact content_mono (fun _ _ => OwnedHeap.memory_of_rest) hc
        pointers := fun _ => List.map_congr_left hpointers }

end Init

end Function

end GpuProxy.Generator
