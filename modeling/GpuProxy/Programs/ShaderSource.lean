import GpuProxy.GlState.Entry
import GpuProxy.Math.CMemory
import GpuProxy.Objects.State

/-!
# Copies of shader sources

`caching_client_glShaderSource` copies the strings of the application and the array of their
lengths, and the command keeps the copies. The size of the copied array is that of as many
pointers, not of as many numbers, and the test for a negative length is made on a value without a
sign, so that a negative length is taken as a size.

A pointer is the list of the values in memory from there to the end of the block. `malloc` returns
a block of the size asked for; the blocks are named after what they are for.

## Main definitions

* `ShaderSource` — the arguments
* `copyString`, `copyLoop`, `ShaderSource.glShaderSource` — the copies
* `CommandGlShaderSource.destroyArguments` — what is freed with the command
* `CopiesFaithfully` — the copies are of the same text, and nothing else was read

## Main results

* `copiesFaithfully_iff` — when they are
* `freed_perm_allocated` — a call that fails frees its blocks
-/

namespace GpuProxy.Programs

open GlState Math Objects

/-- The arguments of `glShaderSource`. -/
structure ShaderSource where
  shader : ℕ
  count : ℤ
  string : Option (List (Option (List UInt8)))
  length : Option (List ℤ)

/-! ### `caching_client_glShaderSource` -/

/-- A copy of a string, and how much of the string was read. -/
structure CopiedString where
  bytes : List UInt8
  read : ℕ

/-- The variable `null_terminated`, from `length` and `length[i]`. -/
def nullTerminated : Option ℤ → Bool
  | none => true
  | some length => length < 0

/-- The copy of a string in a round of the loop. -/
def copyString (m : DataModel) (string : List UInt8) (length : Option ℤ) :
    Option CopiedString := do
  let stringLength ←
    match length with
    | some length => some (m.sizeT length)
    | none => strlen 0 string
  -- A `size_t` is never negative.
  let stringLength ← if (stringLength : ℤ) < 0 then strlen 0 string else some stringLength
  let searched := if length.isNone then stringLength + 1 else 0
  if nullTerminated length then
    let copy ← memcpy (m.sizeT (stringLength + 1)) string stringLength
    return ⟨copy ++ [0], max searched stringLength⟩
  else
    let copy ← memcpy stringLength string stringLength
    return ⟨copy, max searched stringLength⟩

/-- The loop, where a round has the copy of a string, or finds `NULL`; then it ends with the
copies so far. -/
def copyLoop (round : ℕ → Option (Option CopiedString)) :
    ℕ → List CopiedString → Option (Except (List CopiedString) (List CopiedString))
  | 0, copies => some (.ok copies)
  | rounds + 1, copies => do
    match ← round copies.length with
    | none => return .error copies
    | some copy => copyLoop round rounds (copies ++ [copy])

/-- The blocks that are allocated. -/
inductive SourceBlock
  | length
  | string
  | copy (i : ℕ)
  deriving DecidableEq

/-- `command_glshadersource_t`. -/
structure CommandGlShaderSource where
  shader : ℕ
  count : ℤ
  string : List (List UInt8)
  length : Option (List ℤ)

/-- What `caching_client_glShaderSource` does. -/
inductive ShaderSourceResult
  | ignored
  | error (error : ℕ) (allocated freed : List SourceBlock)
  /-- The command; with the bytes of the array `length` that were copied, and of each string. -/
  | forward (command : CommandGlShaderSource) (allocated : List SourceBlock) (lengthRead : ℕ)
      (stringRead : List ℕ)

namespace ShaderSource

variable (m : DataModel) (a : ShaderSource)

/-- A round of the loop. The copy is written to a block of `sizeof (GLchar *) * count` bytes. -/
def round (string : List (Option (List UInt8))) (i : ℕ) : Option (Option CopiedString) := do
  match ← string[i]? with
  | none => return none
  | some memory =>
    let length ←
      match a.length with
      | none => some none
      | some length => length[i]?.map some
    let copy ← copyString m memory length
    if m.pointerSize * (i + 1) ≤ m.sizeT (m.pointerSize * a.count) then return some copy else none

/-- The block of the copied lengths. -/
def lengthBlock : List SourceBlock := if a.length.isSome then [.length] else []

/-- The blocks of a number of strings. -/
def copyBlocks (n : ℕ) : List SourceBlock := (List.range n).map .copy

/-- The variable `lengths_size`. -/
def lengthsSize : ℕ := m.sizeT (m.pointerSize * a.count)

/-- The variable `caching_client_length`, with the numbers in the bytes that are copied. -/
def cachingClientLength : Option (Option (List ℤ)) :=
  match a.length with
  | none => some none
  | some length => (memcpy (a.lengthsSize m / 4) length (a.lengthsSize m / 4)).map some

/-- `caching_client_glShaderSource`. -/
def glShaderSource (hasState : Bool) : Option ShaderSourceResult :=
  if ¬hasState then some .ignored
  else match a.string with
    | none => some (.error glInvalidValue [] [])
    | some string =>
      if a.count ≤ 0 then some (.error glInvalidValue [] [])
      else do
        let cachingClientLength ← a.cachingClientLength m
        match ← copyLoop (a.round m string) a.count.toNat [] with
        | .error copies =>
          return .error glInvalidOperation
            (a.lengthBlock ++ .string :: copyBlocks copies.length)
            (a.lengthBlock ++ copyBlocks copies.length ++ [.string])
        | .ok copies =>
          return .forward ⟨a.shader, a.count, copies.map (·.bytes), cachingClientLength⟩
            (a.lengthBlock ++ .string :: copyBlocks copies.length)
            (if a.length.isSome then a.lengthsSize m else 0) (copies.map (·.read))

end ShaderSource

/-- `command_glshadersource_destroy_arguments`: the blocks that are freed. -/
def CommandGlShaderSource.destroyArguments (command : CommandGlShaderSource) :
    List SourceBlock :=
  if command.count ≤ 0 then []
  else ShaderSource.copyBlocks command.count.toNat ++ [.string]

/-! ### What a source means -/

/-- How much of a string is meant, by its length or up to the zero behind it. -/
def sourceLength (string : List UInt8) (length : Option ℤ) : Option ℕ :=
  if nullTerminated length then strlen 0 string else some (length.getD 0).toNat

/-- The text that a string and its length stand for. -/
def sourceText (string : List UInt8) (length : Option ℤ) : Option (List UInt8) :=
  (sourceLength string length).map string.take

/-- How much of a string may be read, with the zero where it is looked for. -/
def sourceExtent (string : List UInt8) (length : Option ℤ) : Option ℕ :=
  (sourceLength string length).map fun n => if nullTerminated length then n + 1 else n

/-- A string in memory, of which the meant part is there. -/
structure ValidString (m : DataModel) (string : List UInt8) (length : Option ℤ) : Prop where
  fits : string.length + 1 < m.sizeCount
  int : ∀ n ∈ length, -2 ^ 31 ≤ n ∧ n < 2 ^ 31
  present : ∃ n, sourceLength string length = some n ∧ n ≤ string.length

namespace ShaderSource

variable (m : DataModel) (a : ShaderSource)

/-- `string[i]`. -/
def stringAt (i : ℕ) : Option (List UInt8) := do ← (← a.string)[i]?

/-- `length[i]`, if there are lengths. -/
def lengthAt (i : ℕ) : Option ℤ := do (← a.length)[i]?

/-- The arrays are in memory, with strings that are not `NULL`. -/
structure Valid : Prop where
  count_pos : 0 < a.count
  count_lt : a.count < 2 ^ 31
  strings : ∃ string, a.string = some string ∧
    m.pointerSize * string.length < m.sizeCount
  string : ∀ i < a.count.toNat, ∃ string, a.stringAt i = some string ∧
    ValidString m string (a.lengthAt i)
  lengths : ∀ length ∈ a.length, a.count.toNat ≤ length.length

/-- The command has strings and lengths for the same texts, and of the arguments nothing was read
that is not a part of these. -/
def CopiesFaithfully : Prop :=
  ∃ command allocated lengthRead stringRead,
    a.glShaderSource m true = some (.forward command allocated lengthRead stringRead) ∧
    command.shader = a.shader ∧ command.count = a.count ∧ lengthRead ≤ 4 * a.count.toNat ∧
    ∀ i < a.count.toNat, ∀ string, a.stringAt i = some string →
      ∃ copy read extent, command.string[i]? = some copy ∧
        sourceText copy (command.length.bind (·[i]?)) = sourceText string (a.lengthAt i) ∧
        stringRead[i]? = some read ∧ sourceExtent string (a.lengthAt i) = some extent ∧
        read ≤ extent

end ShaderSource

/-! ### The copy of one string -/

section CopyString

variable {m : DataModel} {string : List UInt8} {length : Option ℤ} {n : ℤ} {k : ℕ}

/-- The copy of a string is of its text, and nothing else was read. -/
def CopiesString (m : DataModel) (string : List UInt8) (length : Option ℤ) : Prop :=
  ∃ copy extent, copyString m string length = some copy ∧
    sourceText copy.bytes length = sourceText string length ∧
    sourceExtent string length = some extent ∧ copy.read ≤ extent

/-- A length that is not negative; or one that, as a size, is that of the string without its zero
or with it. -/
def SafeLength (m : DataModel) (string : List UInt8) (n : ℤ) : Prop :=
  0 ≤ n ∨ ∃ k, strlen 0 string = some k ∧ (m.sizeT n = k ∨ m.sizeT n = k + 1)

/-- A copy that ends with a zero. -/
theorem copyString_none (h : strlen 0 string = some k) (hfits : string.length + 1 < m.sizeCount) :
    copyString m string none = some ⟨string.take k ++ [0], k + 1⟩ := by
  have hk := strlen_lt h
  have hsize : m.sizeT (k + 1) = k + 1 := by
    exact_mod_cast DataModel.sizeT_natCast (by omega : k + 1 < m.sizeCount)
  simp [copyString, h, nullTerminated, hsize, memcpy_eq (Nat.le_succ k) hk.le]

theorem copyString_of_nonneg (hn : 0 ≤ n) (hk : n.toNat ≤ string.length)
    (hfits : string.length + 1 < m.sizeCount) :
    copyString m string (some n) = some ⟨string.take n.toNat, n.toNat⟩ := by
  have hsize : m.sizeT n = n.toNat := by
    conv_lhs => rw [← Int.toNat_of_nonneg hn]
    exact DataModel.sizeT_natCast (by omega)
  simp [copyString, nullTerminated, hsize, hn.not_gt, memcpy_eq le_rfl hk]

/-- A negative length is a size like any other. -/
theorem copyString_of_neg (hn : n < 0) : copyString m string (some n) =
    (memcpy (m.sizeT (m.sizeT n + 1)) string (m.sizeT n)).map fun copy =>
      ⟨copy ++ [0], m.sizeT n⟩ := by
  have hsize : ¬(m.sizeT n : ℤ) < 0 := by omega
  rw [copyString]
  simp only [nullTerminated, hn, hsize, Option.bind_eq_bind, Option.bind_some, decide_true,
    Option.isNone_some, Bool.false_eq_true, if_false, if_true, Nat.zero_max]
  cases memcpy (m.sizeT (m.sizeT n + 1)) string (m.sizeT n) <;> rfl

/-! A source that ends with a zero. -/

theorem sourceText_of_strlen (h : strlen 0 string = some k) (hlength : nullTerminated length) :
    sourceText string length = some (string.take k) := by
  rw [sourceText, sourceLength, if_pos hlength, h, Option.map_some]

theorem sourceExtent_of_strlen (h : strlen 0 string = some k) (hlength : nullTerminated length) :
    sourceExtent string length = some (k + 1) := by
  rw [sourceExtent, sourceLength, if_pos hlength, h, Option.map_some, if_pos hlength]

/-- A copy may be cut off. -/
theorem sourceText_take_append (h : strlen 0 string = some k) (hlength : nullTerminated length)
    {size : ℕ} (hsize : size ≤ string.length) :
    sourceText (string.take size ++ [0]) length = some (string.take (min size k)) := by
  rw [sourceText_of_strlen (strlen_take_append h size) hlength,
    List.take_append_of_le_length (by simp [hsize]), List.take_take,
    min_eq_left (min_le_left size k)]

theorem copiesString_none (h : strlen 0 string = some k)
    (hfits : string.length + 1 < m.sizeCount) : CopiesString m string none := by
  refine ⟨_, k + 1, copyString_none h hfits, ?_, sourceExtent_of_strlen h rfl, le_rfl⟩
  rw [sourceText_take_append h rfl (strlen_lt h).le, min_self, sourceText_of_strlen h rfl]

theorem copiesString_of_nonneg (hn : 0 ≤ n) (hk : n.toNat ≤ string.length)
    (hfits : string.length + 1 < m.sizeCount) : CopiesString m string (some n) := by
  have hlength : ¬nullTerminated (some n) := by simpa [nullTerminated] using hn
  refine ⟨_, n.toNat, copyString_of_nonneg hn hk hfits, ?_, ?_, le_rfl⟩
  · simp [sourceText, sourceLength, hlength, List.take_take]
  · simp [sourceExtent, sourceLength, hlength]

/-- A negative length: as a size, it must end the copy at the zero or behind it. -/
theorem copiesString_of_neg (hn : n < 0) (h : strlen 0 string = some k)
    (hfits : string.length + 1 < m.sizeCount) :
    CopiesString m string (some n) ↔ m.sizeT n = k ∨ m.sizeT n = k + 1 := by
  have hlength : nullTerminated (some n) := by simpa [nullTerminated] using hn
  have hlt := strlen_lt h
  constructor
  · rintro ⟨copy, extent, hcopy, htext, hextent, hread⟩
    rw [copyString_of_neg hn] at hcopy
    obtain ⟨bytes, hbytes, rfl⟩ := Option.map_eq_some_iff.mp hcopy
    rw [memcpy] at hbytes
    split_ifs at hbytes with hroom
    obtain rfl := Option.some.inj hbytes
    obtain rfl := Option.some.inj ((sourceExtent_of_strlen h hlength).symm.trans hextent)
    rw [sourceText_take_append h hlength hroom.2, sourceText_of_strlen h hlength] at htext
    have hmin := congrArg List.length (Option.some.inj htext)
    simp only [List.length_take] at hmin
    dsimp only at hread
    omega
  · intro hsize
    have hroom : m.sizeT n ≤ m.sizeT (m.sizeT n + 1) := by
      have hfits' : m.sizeT n + 1 < m.sizeCount := by omega
      have heq := DataModel.sizeT_natCast hfits'
      push_cast at heq
      omega
    have hcopy : copyString m string (some n) =
        some ⟨string.take (m.sizeT n) ++ [0], m.sizeT n⟩ := by
      rw [copyString_of_neg hn, memcpy_eq hroom (by omega)]
      rfl
    refine ⟨_, k + 1, hcopy, ?_, sourceExtent_of_strlen h hlength, ?_⟩
    · have hmin : min (m.sizeT n) k = k := by omega
      rw [sourceText_take_append h hlength (by omega), hmin, sourceText_of_strlen h hlength]
    · dsimp only
      omega

theorem copiesString_iff (hvalid : ValidString m string length) :
    CopiesString m string length ↔ ∀ n ∈ length, SafeLength m string n := by
  obtain ⟨k, hk, hle⟩ := hvalid.present
  cases length with
  | none => exact iff_of_true (copiesString_none hk hvalid.fits) (by simp)
  | some n =>
    simp only [Option.mem_def, Option.some.injEq, forall_eq']
    obtain hn | hn := le_or_gt 0 n
    · have hlength : ¬nullTerminated (some n) := by simpa [nullTerminated] using hn
      rw [sourceLength, if_neg hlength] at hk
      obtain rfl := Option.some.inj hk
      exact iff_of_true (copiesString_of_nonneg hn hle hvalid.fits) (.inl hn)
    · have hlength : nullTerminated (some n) := by simpa [nullTerminated] using hn
      rw [sourceLength, if_pos hlength] at hk
      rw [copiesString_of_neg hn hk hvalid.fits, SafeLength, or_iff_right hn.not_ge]
      constructor
      · exact fun hsize => ⟨k, hk, hsize⟩
      · rintro ⟨k', hk', hsize⟩
        obtain rfl := Option.some.inj (hk.symm.trans hk')
        exact hsize

end CopyString

/-! ### The loop -/

section Loop

variable {round : ℕ → Option (Option CopiedString)} {rounds : ℕ}
  {copies all : List CopiedString}

/-- The loop goes on behind a round that has a copy. -/
theorem copyLoop_succ_eq_ok_iff : copyLoop round (rounds + 1) copies = some (.ok all) ↔
    ∃ copy, round copies.length = some (some copy) ∧
      copyLoop round rounds (copies ++ [copy]) = some (.ok all) := by
  rw [copyLoop]
  cases round copies.length with
  | none => simp
  | some result => cases result <;> simp

/-- The loop comes to its end when every round has a copy. -/
theorem copyLoop_eq_ok_iff : copyLoop round rounds copies = some (.ok all) ↔
    ∃ new, all = copies ++ new ∧ new.length = rounds ∧
      ∀ i < rounds, (new[i]?).map some = round (copies.length + i) := by
  induction rounds generalizing copies with
  | zero => simp [copyLoop, eq_comm]
  | succ rounds ih =>
    have hshift : ∀ (copy : CopiedString) i,
        (copies ++ [copy]).length + i = copies.length + (i + 1) := fun copy i => by
      rw [List.length_append, List.length_singleton]
      omega
    rw [copyLoop_succ_eq_ok_iff]
    constructor
    · rintro ⟨copy, hround, hrest⟩
      obtain ⟨rest, rfl, hlength, hall⟩ := ih.mp hrest
      refine ⟨copy :: rest, by simp, by simp [hlength], fun i hi => ?_⟩
      cases i with
      | zero => simpa using hround.symm
      | succ i =>
        have hnext := hall i (Nat.lt_of_succ_lt_succ hi)
        rw [hshift] at hnext
        simpa using hnext
    · rintro ⟨new, rfl, hlength, hall⟩
      obtain ⟨copy, rest, rfl⟩ := List.exists_cons_of_length_eq_add_one hlength
      have hround : round copies.length = some (some copy) := by
        simpa using (hall 0 (Nat.succ_pos _)).symm
      refine ⟨copy, hround, ih.mpr ⟨rest, by simp, Nat.succ.inj hlength, fun i hi => ?_⟩⟩
      rw [hshift]
      simpa using hall (i + 1) (Nat.succ_lt_succ hi)

end Loop

/-! ### The whole call -/

namespace ShaderSource

variable {m : DataModel} {a : ShaderSource} {command : CommandGlShaderSource}
  {allocated : List SourceBlock} {lengthRead : ℕ} {stringRead : List ℕ}

theorem glShaderSource_eq_forward_iff : a.glShaderSource m true =
      some (.forward command allocated lengthRead stringRead) ↔
    ∃ string cachingClientLength copies, a.string = some string ∧ 0 < a.count ∧
      a.cachingClientLength m = some cachingClientLength ∧
      copyLoop (a.round m string) a.count.toNat [] = some (.ok copies) ∧
      command = ⟨a.shader, a.count, copies.map (·.bytes), cachingClientLength⟩ ∧
      allocated = a.lengthBlock ++ .string :: copyBlocks copies.length ∧
      lengthRead = (if a.length.isSome then a.lengthsSize m else 0) ∧
      stringRead = copies.map (·.read) := by
  unfold glShaderSource
  cases hstring : a.string with
  | none => simp
  | some string =>
    by_cases hcount : a.count ≤ 0
    · simp [hcount, hcount.not_gt]
    · cases hcached : a.cachingClientLength m with
      | none => simp [hcount]
      | some cachingClientLength =>
        cases hloop : copyLoop (a.round m string) a.count.toNat [] with
        | none => simp [hcount, hloop]
        | some result =>
          cases result with
          | error copies => simp [hcount, hloop]
          | ok copies =>
            simp only [if_neg hcount, Option.bind_eq_bind, Option.bind_some, hloop]
            constructor
            · intro h
              cases h
              exact ⟨_, _, copies, rfl, not_le.mp hcount, rfl, hloop, rfl, rfl, rfl, rfl⟩
            · rintro ⟨_, _, _, hstring', -, hcached', hloop', rfl, rfl, rfl, rfl⟩
              cases hstring'
              cases hcached'
              rw [hloop] at hloop'
              cases hloop'
              rfl

theorem stringAt_eq {string : List (Option (List UInt8))} (hstring : a.string = some string)
    (i : ℕ) : a.stringAt i = string[i]?.join := by
  rw [stringAt, hstring]
  cases h : string[i]? <;> simp [h]

theorem Valid.count_le_length (hvalid : a.Valid m) {string : List (Option (List UInt8))}
    (hstring : a.string = some string) : a.count.toNat ≤ string.length := by
  have hpos := hvalid.count_pos
  obtain ⟨memory, hmemory, -⟩ := hvalid.string (a.count.toNat - 1) (by omega)
  rw [stringAt_eq hstring, Option.join_eq_some_iff] at hmemory
  have hlt := (List.getElem?_eq_some_iff.mp hmemory).1
  omega

/-- The sizes computed from `count` do not wrap around. -/
theorem Valid.lengthsSize_eq (hvalid : a.Valid m) :
    a.lengthsSize m = m.pointerSize * a.count.toNat := by
  obtain ⟨string, hstring, hfits⟩ := hvalid.strings
  have hle := Nat.mul_le_mul_left m.pointerSize (hvalid.count_le_length hstring)
  have hsize := DataModel.sizeT_natCast (hle.trans_lt hfits)
  rw [lengthsSize, ← Int.toNat_of_nonneg hvalid.count_pos.le]
  exact_mod_cast hsize

theorem Valid.round_eq (hvalid : a.Valid m) {string : List (Option (List UInt8))}
    {memory : List UInt8} {i : ℕ} (hstring : a.string = some string) (hi : i < a.count.toNat)
    (hmemory : a.stringAt i = some memory) :
    a.round m string i = (copyString m memory (a.lengthAt i)).map some := by
  have hroom : m.pointerSize * (i + 1) ≤ m.sizeT (m.pointerSize * a.count) := by
    have hsize := hvalid.lengthsSize_eq
    rw [lengthsSize] at hsize
    rw [hsize]
    exact Nat.mul_le_mul_left _ hi
  rw [stringAt_eq hstring, Option.join_eq_some_iff] at hmemory
  rw [round, hmemory, lengthAt]
  cases hlength : a.length with
  | none =>
    simp only [Option.bind_eq_bind, Option.bind_some, Option.bind_none, if_pos hroom]
    cases copyString m memory none <;> rfl
  | some length =>
    have hlt : i < length.length := hi.trans_le (hvalid.lengths length hlength)
    simp only [List.getElem?_eq_getElem hlt, Option.bind_eq_bind, Option.bind_some,
      Option.map_some, if_pos hroom]
    cases copyString m memory (some length[i]) <;> rfl

/-- The copied array has the lengths of all strings, and no more of it is read if pointers are as
large as numbers. -/
theorem Valid.cachingClientLength_spec (hvalid : a.Valid m) {cached : Option (List ℤ)}
    (h : a.cachingClientLength m = some cached) {i : ℕ} (hi : i < a.count.toNat) :
    cached.bind (·[i]?) = a.lengthAt i := by
  rw [cachingClientLength] at h
  rw [lengthAt]
  cases hlength : a.length with
  | none =>
    rw [hlength] at h
    cases h
    rfl
  | some length =>
    rw [hlength] at h
    obtain ⟨copy, hcopy, rfl⟩ := Option.map_eq_some_iff.mp h
    rw [memcpy] at hcopy
    split_ifs at hcopy
    rw [← Option.some.inj hcopy]
    -- A pointer is not smaller than a number, so no length is left out.
    have hle : i < a.lengthsSize m / 4 := by
      rw [hvalid.lengthsSize_eq]
      cases m <;> simp only [DataModel.pointerSize] <;> omega
    simp [hle]

theorem Valid.lengthsSize_le_iff (hvalid : a.Valid m) :
    a.lengthsSize m ≤ 4 * a.count.toNat ↔ m = .ilp32 := by
  have hpos := hvalid.count_pos
  rw [hvalid.lengthsSize_eq]
  cases m with
  | ilp32 => simp [DataModel.pointerSize]
  | lp64 =>
    simp only [DataModel.pointerSize, reduceCtorEq, iff_false, not_le]
    omega

/-- The loop has the copies of all strings. -/
theorem Valid.copyLoop_eq_ok_iff (hvalid : a.Valid m) {string : List (Option (List UInt8))}
    (hstring : a.string = some string) {copies : List CopiedString} :
    copyLoop (a.round m string) a.count.toNat [] = some (.ok copies) ↔
      copies.length = a.count.toNat ∧ ∀ i < a.count.toNat, ∀ memory,
        a.stringAt i = some memory → copies[i]? = copyString m memory (a.lengthAt i) := by
  rw [Programs.copyLoop_eq_ok_iff]
  constructor
  · rintro ⟨new, rfl, hlength, hrounds⟩
    refine ⟨hlength, fun i hi memory hmemory => ?_⟩
    have hround := hrounds i hi
    rw [List.length_nil, Nat.zero_add, hvalid.round_eq hstring hi hmemory] at hround
    exact Option.map_injective (Option.some_injective _) hround
  · rintro ⟨hlength, hcopies⟩
    refine ⟨copies, rfl, hlength, fun i hi => ?_⟩
    obtain ⟨memory, hmemory, -⟩ := hvalid.string i hi
    rw [List.length_nil, Nat.zero_add, hvalid.round_eq hstring hi hmemory,
      hcopies i hi memory hmemory]

theorem Valid.exists_cachingClientLength (hvalid : a.Valid m)
    (hmodel : ∀ length ∈ a.length, m = .ilp32) :
    ∃ cached, a.cachingClientLength m = some cached := by
  rw [cachingClientLength]
  cases hlength : a.length with
  | none => exact ⟨none, rfl⟩
  | some length =>
    have hle := hvalid.lengths length hlength
    have hsize := hvalid.lengthsSize_le_iff.mpr (hmodel length hlength)
    dsimp only
    rw [memcpy_eq le_rfl (by omega)]
    exact ⟨_, rfl⟩

theorem Valid.exists_copies (hvalid : a.Valid m) (hstrings : ∀ i < a.count.toNat, ∀ string,
    a.stringAt i = some string → CopiesString m string (a.lengthAt i)) :
    ∃ copies : List CopiedString, copies.length = a.count.toNat ∧
      ∀ i < a.count.toNat, ∀ memory, a.stringAt i = some memory →
        copies[i]? = copyString m memory (a.lengthAt i) := by
  have hcopies : ∀ i : Fin a.count.toNat, ∃ copy, ∀ memory, a.stringAt i = some memory →
      copyString m memory (a.lengthAt i) = some copy := by
    intro i
    obtain ⟨memory, hmemory, -⟩ := hvalid.string i i.isLt
    obtain ⟨copy, -, hcopy, -⟩ := hstrings i i.isLt memory hmemory
    refine ⟨copy, fun memory' hmemory' => ?_⟩
    obtain rfl := Option.some.inj (hmemory.symm.trans hmemory')
    exact hcopy
  -- One copy for each round, and the loop comes to the list of them.
  choose copy hcopy using hcopies
  refine ⟨List.ofFn copy, List.length_ofFn, fun i hi memory hmemory => ?_⟩
  rw [hcopy ⟨i, hi⟩ memory hmemory, List.getElem?_ofFn, dif_pos hi]

/-- Every string must be copied as it should, and the lengths too. -/
theorem copiesFaithfully_iff_strings (hvalid : a.Valid m) : a.CopiesFaithfully m ↔
    (∀ length ∈ a.length, m = .ilp32) ∧
      ∀ i < a.count.toNat, ∀ string, a.stringAt i = some string →
        CopiesString m string (a.lengthAt i) := by
  constructor
  · rintro ⟨command, allocated, lengthRead, stringRead, hresult, -, -, hread, hall⟩
    obtain ⟨string, cached, copies, hstring, -, hcached, hloop, rfl, rfl, rfl, rfl⟩ :=
      glShaderSource_eq_forward_iff.mp hresult
    refine ⟨fun length hlength => ?_, fun i hi memory hmemory => ?_⟩
    · rw [hlength] at hread
      exact hvalid.lengthsSize_le_iff.mp hread
    · have hcopy := ((hvalid.copyLoop_eq_ok_iff hstring).mp hloop).2 i hi memory hmemory
      obtain ⟨bytes, read, extent, hbytes, htext, hread, hextent, hle⟩ := hall i hi memory hmemory
      obtain ⟨copy, hat, rfl⟩ := Option.map_eq_some_iff.mp (List.getElem?_map .. ▸ hbytes)
      rw [List.getElem?_map, hat] at hread
      dsimp only at htext
      rw [hvalid.cachingClientLength_spec hcached hi] at htext
      have heq : copy.read = read := Option.some.inj hread
      exact ⟨copy, extent, hcopy ▸ hat, htext, hextent, heq.trans_le hle⟩
  · rintro ⟨hmodel, hstrings⟩
    obtain ⟨string, hstring, -⟩ := hvalid.strings
    obtain ⟨cached, hcached⟩ := hvalid.exists_cachingClientLength hmodel
    obtain ⟨copies, hlength, hcopies⟩ := hvalid.exists_copies hstrings
    have hloop := (hvalid.copyLoop_eq_ok_iff hstring).mpr ⟨hlength, hcopies⟩
    refine ⟨_, _, _, _, glShaderSource_eq_forward_iff.mpr ⟨string, cached, copies, hstring,
      hvalid.count_pos, hcached, hloop, rfl, rfl, rfl, rfl⟩, rfl, rfl, ?_,
      fun i hi memory hmemory => ?_⟩
    · split_ifs with hlengths
      · obtain ⟨length, hlength⟩ := Option.isSome_iff_exists.mp hlengths
        exact hvalid.lengthsSize_le_iff.mpr (hmodel length hlength)
      · exact Nat.zero_le _
    · obtain ⟨copy, extent, hcopy, htext, hextent, hle⟩ := hstrings i hi memory hmemory
      have hat := (hcopies i hi memory hmemory).trans hcopy
      refine ⟨copy.bytes, copy.read, extent, ?_, ?_, ?_, hextent, hle⟩
      · simp [hat]
      · dsimp only
        rw [hvalid.cachingClientLength_spec hcached hi]
        exact htext
      · simp [hat]

/-- Without lengths all is well. With them, pointers must be of the size of the numbers, and no
length negative, unless it ends the copy at the zero of the string by chance. -/
theorem copiesFaithfully_iff (m : DataModel) (a : ShaderSource) (hvalid : a.Valid m) :
    a.CopiesFaithfully m ↔ ∀ length ∈ a.length, m = .ilp32 ∧
      ∀ i < a.count.toNat, ∀ string n, a.stringAt i = some string → length[i]? = some n →
        SafeLength m string n := by
  rw [copiesFaithfully_iff_strings hvalid]
  have hsafe : ∀ i < a.count.toNat, ∀ string, a.stringAt i = some string →
      (CopiesString m string (a.lengthAt i) ↔ ∀ n ∈ a.lengthAt i, SafeLength m string n) := by
    intro i hi string hstring
    obtain ⟨string', hstring', hvalid'⟩ := hvalid.string i hi
    obtain rfl := Option.some.inj (hstring.symm.trans hstring')
    exact copiesString_iff hvalid'
  cases hlength : a.length with
  | none =>
    refine iff_of_true ⟨by simp, fun i hi string hstring => ?_⟩ (by simp)
    rw [hsafe i hi string hstring, lengthAt, hlength]
    simp
  | some length =>
    have hat : ∀ i, a.lengthAt i = length[i]? := fun i => by
      rw [lengthAt, hlength]
      rfl
    simp only [Option.mem_def, Option.some.injEq, forall_eq']
    refine and_congr_right fun _ => forall₂_congr fun i hi => ?_
    constructor
    · intro h string n hstring hn
      exact (hsafe i hi string hstring).mp (h string hstring) n (by rw [hat, hn]; rfl)
    · intro h string hstring
      rw [hsafe i hi string hstring, hat]
      exact fun n hn => h string n hstring hn

theorem copiesFaithfully_two_lengths : CopiesFaithfully .ilp32
    ⟨7, 2, some [some [118, 0], some [119, 120]], some [1, 2]⟩ := by
  refine (copiesFaithfully_iff .ilp32 _ ⟨by decide, by decide, ?_, ?_, by simp⟩).mpr ?_
  · exact ⟨_, rfl, by decide⟩
  · intro i hi
    have hi : i < 2 := hi
    obtain _ | _ | i := i
    · exact ⟨[118, 0], rfl, by decide, by simp [lengthAt], 1, rfl, by decide⟩
    · exact ⟨[119, 120], rfl, by decide, by simp [lengthAt], 2, rfl, by decide⟩
    · omega
  · intro length hlength
    obtain rfl := Option.some.inj hlength
    refine ⟨rfl, fun i hi string n hstring hn => .inl ?_⟩
    have hmem := List.mem_of_getElem? hn
    simp only [List.mem_cons, List.not_mem_nil, or_false] at hmem
    omega

/-- With pointers of eight bytes, the array of one length is read past its end. -/
theorem exists_long_read : ¬∀ m a, Valid m a → a.CopiesFaithfully m := by
  intro h
  have hvalid : Valid .lp64 ⟨7, 1, some [some [118, 0]], some [1]⟩ := by
    refine ⟨by decide, by decide, ⟨_, rfl, by decide⟩, fun i hi => ?_, by simp⟩
    have hi : i < 1 := hi
    obtain rfl : i = 0 := by omega
    exact ⟨[118, 0], rfl, by decide, by simp [lengthAt], 1, rfl, by decide⟩
  have hmodel := ((copiesFaithfully_iff_strings hvalid).mp (h _ _ hvalid)).1 [1] rfl
  cases hmodel

/-! ### Blocks -/

/-- A call that fails frees what it allocated. -/
theorem freed_perm_allocated {hasState : Bool} {error : ℕ} {freed : List SourceBlock}
    (h : a.glShaderSource m hasState = some (.error error allocated freed)) :
    freed.Perm allocated := by
  cases hasState with
  | false => simp [glShaderSource] at h
  | true =>
    unfold glShaderSource at h
    rw [if_neg (by simp)] at h
    cases hstring : a.string with
    | none =>
      rw [hstring] at h
      cases h
      exact List.Perm.refl _
    | some string =>
      rw [hstring] at h
      dsimp only at h
      by_cases hcount : a.count ≤ 0
      · rw [if_pos hcount] at h
        cases h
        exact List.Perm.refl _
      · rw [if_neg hcount] at h
        obtain ⟨cached, -, h⟩ := Option.bind_eq_some_iff.mp h
        obtain ⟨copies | copies, -, h⟩ := Option.bind_eq_some_iff.mp h
        · cases h
          rw [List.append_assoc]
          exact (List.perm_append_singleton _ _).append_left _
        · cases h

/-- With the command all blocks are freed but that of the lengths. -/
theorem allocated_perm_destroyArguments (h : a.glShaderSource m true =
      some (.forward command allocated lengthRead stringRead)) :
    allocated.Perm (a.lengthBlock ++ command.destroyArguments) := by
  obtain ⟨string, cached, copies, -, hcount, -, hloop, rfl, rfl, -, -⟩ :=
    glShaderSource_eq_forward_iff.mp h
  obtain ⟨new, rfl, hlength, -⟩ := Programs.copyLoop_eq_ok_iff.mp hloop
  rw [CommandGlShaderSource.destroyArguments, if_neg hcount.not_ge, hlength]
  exact (List.perm_append_singleton _ _).symm.append_left _

end ShaderSource

end GpuProxy.Programs
