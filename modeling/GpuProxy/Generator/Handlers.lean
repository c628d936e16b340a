import GpuProxy.Generator.Packing

/-!
# What the generated handlers do

A handler of a command that nobody waits for reads nothing but the command's own blocks. It frees
them, unless a name is missing, and leaves all other memory alone.

## Main definitions

* `Function.lookUp` — the names of a command, with the name mapping as a partial map
* `Command.numbers?` — the numbers that the driver gets

## Main results

* `contents_eq_of_owned` — what the driver finds is in these blocks
* `handle_of_async`, `handle_of_sync` — the handlers
-/

namespace GpuProxy.Generator

open Math Names

/-! ### Names -/

/-- The loop over the mapped names, over a partial map. -/
def Function.lookUp (f : Function) : List String → (ℕ → Option ℕ) → (String → ℤ) →
    (ℕ → Option ℕ) × Option (String → ℤ)
  | [], mapping, numbers => (mapping, some numbers)
  | name :: names, mapping, numbers =>
    let key := (numbers name).toNat
    if key = 0 then f.lookUp names mapping numbers
    else
      match mapping key with
      | some entry => f.lookUp names mapping (Function.update numbers name entry)
      | none =>
        if f.needsCreateMappedName name then
          f.lookUp names (Function.update mapping key (some key)) numbers
        else (mapping, none)

namespace Function

variable {f : Function} {names : List String} {numbers : String → ℤ}

/-- The table is the partial map that is looked up in it. -/
theorem mapNames_eq (f : Function) (names : List String) (mapping : HashTable ℕ)
    (numbers : String → ℤ) : ∃ mapping',
    f.mapNames names mapping numbers =
        some (mapping', (f.lookUp names (hashLookup mapping) numbers).2) ∧
      hashLookup mapping' = (f.lookUp names (hashLookup mapping) numbers).1 := by
  induction names generalizing mapping numbers with
  | nil => exact ⟨mapping, rfl, rfl⟩
  | cons name names ih =>
    rw [mapNames, lookUp]
    by_cases hkey : (numbers name).toNat = 0
    · simp only [if_pos hkey]
      exact ih ..
    · simp only [if_neg hkey]
      cases hlookup : hashLookup mapping (numbers name).toNat with
      | some entry => exact ih ..
      | none =>
        cases hcreate : f.needsCreateMappedName name with
        | false => exact ⟨mapping, rfl, rfl⟩
        | true =>
          obtain ⟨mapping₁, hinsert⟩ :
              ∃ mapping₁, hashInsert mapping (numbers name).toNat (numbers name).toNat =
                some mapping₁ := by
            rw [hashInsert, if_neg hkey]
            exact ⟨_, rfl⟩
          simp only [hinsert, if_true, Option.bind_eq_bind, Option.bind_some,
            ← hashLookup_hashInsert hinsert]
          exact ih ..

/-- Numbers that are no names stay as they are. -/
theorem lookUp_of_notMem {mapping : ℕ → Option ℕ} {numbers' : String → ℤ}
    (h : (f.lookUp names mapping numbers).2 = some numbers') {name : String}
    (hname : name ∉ names) : numbers' name = numbers name := by
  induction names generalizing mapping numbers with
  | nil =>
    obtain rfl := Option.some.inj h
    rfl
  | cons first names ih =>
    rw [List.mem_cons, not_or] at hname
    rw [lookUp] at h
    by_cases hkey : (numbers first).toNat = 0
    · simp only [if_pos hkey] at h
      exact ih h hname.2
    · simp only [if_neg hkey] at h
      cases hlookup : mapping (numbers first).toNat with
      | some entry =>
        rw [hlookup] at h
        rw [ih h hname.2, Function.update_of_ne hname.1]
      | none =>
        simp only [hlookup] at h
        split_ifs at h with hcreate
        exact ih h hname.2

end Function

/-! ### What a handler reads -/

variable {m : DataModel} {f : Function} {arg : Argument} {values : Values} {numbers : String → ℤ}
  {memory memory' : Memory} {pointers : String → ℕ}

/-- The sizes that the driver goes by are no names. -/
theorem contents_numbers (hf : f.Generated)
    (h : ∀ name ∉ f.getMappedNameAttributes, numbers name = values.argument name) :
    f.contents m { values with argument := numbers } memory pointers =
      f.contents m values memory pointers := by
  refine Function.contents_congr fun arg harg => ?_
  have hsize : f.arraySize m arg { values with argument := numbers } =
      f.arraySize m arg values := by
    rw [Function.arraySize, Function.arraySize, Function.elements, Function.elements]
    cases hname : f.sizeArgument arg with
    | none => rfl
    | some name =>
      have hnumber := h name (hf.sizes arg harg name hname)
      rw [Option.elim_some, Option.elim_some]
      simp only [hnumber]
  rw [Function.content, Function.content, hsize]

namespace Command

/-- The numbers that the driver gets, if no name is missing. -/
def numbers? (command : Command) (mapping : ℕ → Option ℕ) : Option (String → ℤ) :=
  (command.function.lookUp command.function.getMappedNameAttributes mapping
    command.values.argument).2

/-- The name mapping after the names of a command were looked up. -/
def mappingAfter (command : Command) (mapping : ℕ → Option ℕ) : ℕ → Option ℕ :=
  (command.function.lookUp command.function.getMappedNameAttributes mapping
    command.values.argument).1

variable {command : Command}

/-- The driver reads the command's own blocks, and no other memory. -/
theorem contents_eq_of_owned (hf : command.function.Generated)
    (hasync : command.function.isSynchronous = false)
    (h : ∀ p ∈ command.owned, memory p = memory' p) :
    command.function.contents m values memory command.pointers =
      command.function.contents m values memory' command.pointers := by
  refine Function.contents_congr fun arg harg => ?_
  by_cases hzero : command.pointers arg.name = 0
  · rw [hzero, Function.content_zero, Function.content_zero]
  · cases hdestructor : command.function.needsDestructor with
    | true =>
      have hmem : command.pointers arg.name ∈ command.owned := by
        rw [owned, if_pos hdestructor, blocks, List.mem_filter, decide_eq_true_eq]
        exact ⟨List.mem_map_of_mem harg, hzero⟩
      rw [Function.content, Function.content, h _ hmem]
    | false =>
      -- The pointer is passed on as it is.
      have htype : command.function.info.type = "Passthrough" := by
        simpa [Function.needsDestructor, hasync] using hdestructor
      obtain ⟨hchar, hsize⟩ := hf.passed htype arg harg
      have hstring : ¬arg.type.isString = true := by
        intro hstring
        rw [Function.hasCharPointer_of_isString hstring] at hchar
        cases hchar
      rw [Function.content, Function.content, if_neg hzero, if_neg hzero, if_neg hstring,
        if_neg hstring, if_neg (by simp [hsize]), if_neg (by simp [hsize])]

/-! ### The handlers -/

variable {D : Type} {driver : Driver D} {heap : Heap} {server : Server D}

/-- A handler that nobody waits for. -/
theorem handle_of_async (driver : Driver D) (server : Server D)
    (hf : command.function.Generated) (hasync : command.function.isSynchronous = false)
    (hblocks : ∀ p ∈ command.owned, p ∈ heap.blocks) (hnodup : command.owned.Nodup)
    {contents : List Content} (hcontents : command.function.contents m command.values heap.memory
      command.pointers = some contents) :
    ∃ heap' mapping, command.handle m driver heap server =
        some (heap', ⟨mapping, (command.numbers? (hashLookup server.nameMapping)).elim
          server.driver fun numbers =>
            driver.async command.function.name numbers contents server.driver⟩, 0) ∧
      hashLookup mapping = command.mappingAfter (hashLookup server.nameMapping) ∧
      heap'.rest = heap.rest ∧ (∀ q ∉ command.owned, heap'.memory q = heap.memory q) ∧
      heap'.blocks = if (command.numbers? (hashLookup server.nameMapping)).isSome then
        heap.blocks \ command.owned.toFinset else heap.blocks := by
  obtain ⟨mapping, hmap, hmapping⟩ := command.function.mapNames_eq
    command.function.getMappedNameAttributes server.nameMapping command.values.argument
  rw [handle]
  simp only [hmap, Option.bind_eq_bind, Option.bind_some]
  cases hnumbers : command.numbers? (hashLookup server.nameMapping) with
  | none =>
    rw [numbers?] at hnumbers
    rw [hnumbers]
    exact ⟨heap, mapping, rfl, hmapping, rfl, fun _ _ => rfl, by simp⟩
  | some numbers =>
    have hother : ∀ name ∉ command.function.getMappedNameAttributes,
        numbers name = command.values.argument name :=
      fun _ => Function.lookUp_of_notMem hnumbers
    rw [numbers?] at hnumbers
    simp only [hnumbers, hasync, Bool.false_eq_true, if_false,
      contents_numbers hf hother, hcontents, Option.bind_some,
      Option.elim_some, Option.isSome_some, if_true]
    cases hdestructor : command.function.needsDestructor with
    | false =>
      have howned : command.owned = [] := by simp [owned, hdestructor]
      rw [howned]
      exact ⟨heap, mapping, rfl, hmapping, rfl, fun _ _ => rfl, by simp⟩
    | true =>
      have howned : command.owned = command.blocks := if_pos hdestructor
      rw [howned] at hblocks hnodup ⊢
      obtain ⟨heap', hfree, hblocks', hmemory', hrest'⟩ := OwnedHeap.freeAll_spec hnodup hblocks
      refine ⟨heap', mapping, ?_, hmapping, hrest', hmemory', hblocks'⟩
      rw [if_pos rfl, destroyArguments, hfree]
      rfl

/-- A handler that the application waits for: the driver has the application's memory. -/
theorem handle_of_sync (m : DataModel) (driver : Driver D) (heap : Heap) (server : Server D)
    (hsync : command.function.isSynchronous = true) :
    ∃ mapping, command.handle m driver heap server = some
        ((command.numbers? (hashLookup server.nameMapping)).elim
          (heap, ⟨mapping, server.driver⟩, 0) fun numbers =>
            let (memory, d, result) := driver.sync command.function.name numbers
              (command.function.pointerList command.pointers) (heap.rest, server.driver)
            (heap.setRest memory, ⟨mapping, d⟩, result)) ∧
      hashLookup mapping = command.mappingAfter (hashLookup server.nameMapping) := by
  obtain ⟨mapping, hmap, hmapping⟩ := command.function.mapNames_eq
    command.function.getMappedNameAttributes server.nameMapping command.values.argument
  refine ⟨mapping, ?_, hmapping⟩
  rw [handle]
  simp only [hmap, Option.bind_eq_bind, Option.bind_some, hsync, if_true]
  cases hnumbers : command.numbers? (hashLookup server.nameMapping) with
  | none =>
    rw [numbers?] at hnumbers
    rw [hnumbers]
    rfl
  | some numbers =>
    rw [numbers?] at hnumbers
    rw [hnumbers]
    rfl

end Command

end GpuProxy.Generator
