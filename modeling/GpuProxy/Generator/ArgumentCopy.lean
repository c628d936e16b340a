import GpuProxy.Generator.Table
import GpuProxy.Math.CMemory

/-!
# The copies of arrays in commands

The functions `command_*_init` of asynchronous commands copy the arrays of the application, with
a size that `WriteCommandInitArgumentCopy` puts together: an argument, a number and the size of
the type of the argument. This is the type of a pointer, which has the size of an element only by
chance.

The product of the components has a value by the rules of C, where a product of numbers with a
sign may have none. Memory is the list of its bytes.

## Main definitions

* `writeCommandInitArgumentCopy` — the code for an argument
* `IntType`, `CValue.mul`, `Function.productSize` — the value of a product
* `Function.commandInit` — what the code does
* `CopiesExactly` — the command has the application's array, and nothing else was read

## Main results

* `sized_of_mem` — what the table and the declarations have in common
* `copiesExactly_iff` — which arrays are copied as they should be
-/

namespace GpuProxy.Generator

open Math

/-! ### The code for an argument -/

/-- A component of a size. -/
inductive SizeComponent
  | argument (name : String)
  | literal (value : ℕ)
  | call (function argument : String)
  | sizeOf (type : TypeText)

/-- `arg.type.find ("void*") != -1`. -/
def TypeText.hasVoidPointer (type : TypeText) : Bool :=
  (type.word = .void ∨ type.word = .glVoid) ∧ type.suffix = "" ∧ 0 < type.stars

/-- `arg.type.find ("char*") != -1`. -/
def TypeText.hasCharPointer (type : TypeText) : Bool :=
  (type.word = .char ∨ type.word = .glChar) ∧ type.suffix = "" ∧ 0 < type.stars

/-- The code for an argument: it is assigned, or copied as a string, or copied with a size that is
a product. -/
inductive InitCode
  | assign
  | strdup
  | copy (components : List SizeComponent)

namespace Function

variable (f : Function) (arg : Argument)

/-- `argument_has_size`, for an argument. -/
def sizeArgument : Option String := f.info.argumentHasSize.lookup arg.name

/-- `argument_element_size`, for an argument. -/
def elementCount : Option ℕ := f.info.argumentElementSize.lookup arg.name

/-- `argument_size_from_function`, for an argument. -/
def sizeFunction : Option String := f.info.argumentSizeFromFunction.lookup arg.name

/-- The variable `components`. -/
def sizeComponents : List SizeComponent :=
  ((f.sizeArgument arg).map .argument).toList ++
    ((f.elementCount arg).map .literal).toList ++
    ((f.sizeFunction arg).map (.call · arg.name)).toList ++
    if arg.type.hasVoidPointer then [] else [.sizeOf arg.type]

/-- `WriteCommandInitArgumentCopy`. -/
def writeCommandInitArgumentCopy : InitCode :=
  if f.isSynchronous then .assign
  else if arg.type.hasCharPointer then .strdup
  else if (f.sizeArgument arg).isSome ∨ (f.elementCount arg).isSome ∨
      (f.sizeFunction arg).isSome then
    .copy (f.sizeComponents arg)
  else .assign

end Function

/-! ### The value of a size -/

/-- The types of integers in a size: `int`, `ptrdiff_t` and `size_t`. -/
inductive IntType
  | int
  | ptrdiff
  | size
  deriving DecidableEq

/-- The values of a type. -/
def IntType.InRange (m : DataModel) : IntType → ℤ → Prop
  | int, z => -2 ^ 31 ≤ z ∧ z < 2 ^ 31
  | ptrdiff, z => -m.sizeCount ≤ 2 * z ∧ 2 * z < m.sizeCount
  | size, z => 0 ≤ z ∧ z < m.sizeCount

instance (m : DataModel) : ∀ (type : IntType) (z : ℤ), Decidable (type.InRange m z)
  | .int, z => inferInstanceAs (Decidable (-2 ^ 31 ≤ z ∧ z < 2 ^ 31))
  | .ptrdiff, z => inferInstanceAs (Decidable (-m.sizeCount ≤ 2 * z ∧ 2 * z < m.sizeCount))
  | .size, z => inferInstanceAs (Decidable (0 ≤ z ∧ z < m.sizeCount))

/-- A value with its type. -/
structure CValue where
  type : IntType
  value : ℤ

/-- The product of two values. A `size_t` wraps around, and the other types must not. -/
def CValue.mul (m : DataModel) (x y : CValue) : Option CValue :=
  if x.type = .size ∨ y.type = .size then some ⟨.size, m.sizeT (x.value * y.value)⟩
  else
    let type := if x.type = .ptrdiff ∨ y.type = .ptrdiff then .ptrdiff else .int
    if type.InRange m (x.value * y.value) then some ⟨type, x.value * y.value⟩ else none

/-- The types of arguments that are numbers with a sign. -/
def intType (type : TypeText) : Option IntType :=
  if 0 < type.stars ∨ type.suffix ≠ "" then none
  else match type.word with
    | .glInt | .glSizei => some .int
    | .glIntptr | .glSizeiptr => some .ptrdiff
    | _ => none

/-- `sizeof (type)`, for the types that there are. -/
def sizeofType (m : DataModel) (type : TypeText) : Option ℕ :=
  if 0 < type.stars then some m.pointerSize
  else if type.suffix ≠ "" then none
  else match type.word with
    | .char | .glChar | .glBoolean => some 1
    | .glBitfield | .glEnum | .glInt | .glSizei | .glUint | .glFloat | .glClampf => some 4
    | .glIntptr | .glSizeiptr | .glEglImageOes => some m.pointerSize
    | .void | .glVoid | .glId => none

/-- The arguments of a call that are numbers, and what functions return. -/
structure Values where
  argument : String → ℤ
  call : String → String → ℕ

namespace Function

variable (m : DataModel) (f : Function) (arg : Argument) (values : Values)

/-- The type of the argument with a name. -/
def argumentType (name : String) : Option IntType :=
  (f.args.find? fun arg => arg.name = name).bind fun arg => intType arg.type

def componentValue : SizeComponent → Option CValue
  | .argument name => (f.argumentType name).map (⟨·, values.argument name⟩)
  | .literal value => some ⟨.int, value⟩
  | .call function argument => some ⟨.size, values.call function argument⟩
  | .sizeOf type => (sizeofType m type).map (⟨.size, ·⟩)

/-- The value of the product of components, as the size of `malloc` and `memcpy`. -/
def productSize : List SizeComponent → Option ℕ
  | [] => none
  | component :: components => do
    let first ← f.componentValue m values component
    let product ← components.foldlM
      (fun x component => do x.mul m (← f.componentValue m values component)) first
    return m.sizeT product.value

end Function

/-! ### What the code does -/

/-- A field of a command after its initialisation. -/
inductive CommandField
  | assigned
  | null
  | block (bytes : List UInt8)

/-- `command_*_init` for a pointer argument, which may be `NULL`. -/
def Function.commandInit (m : DataModel) (f : Function) (arg : Argument) (values : Values)
    (pointer : Option (List UInt8)) : Option CommandField :=
  match f.writeCommandInitArgumentCopy arg with
  | .assign => some .assigned
  | .strdup => do
    let string ← pointer
    let length ← strlen 0 string
    return .block (← memcpy (length + 1) string (length + 1))
  | .copy components =>
    match pointer with
    | none => some .null
    | some source => do
      let size ← f.productSize m values components
      return .block (← memcpy size source size)

/-! ### The application's array -/

/-- The size of an element of an array; behind a pointer to `void` there are bytes. -/
def elementSize (m : DataModel) (type : TypeText) : Option ℕ :=
  if type.hasVoidPointer then some 1 else sizeofType m { type with stars := type.stars - 1 }

namespace Function

variable (m : DataModel) (f : Function) (arg : Argument) (values : Values)

/-- The number of elements: the argument that says it, times the elements of each. -/
def elements : ℕ :=
  (f.sizeArgument arg).elim 1 (fun name => (values.argument name).toNat) *
    (f.elementCount arg).getD 1

/-- The bytes of the application's array. -/
def arraySize : ℕ := f.elements arg values * (elementSize m arg.type).getD 0

/-- Of every array in memory, with what is behind it, the command has the array. -/
def CopiesExactly : Prop :=
  ∀ source : List UInt8, source.length < m.sizeCount → f.arraySize m arg values ≤ source.length →
    f.commandInit m arg values (some source) =
      some (.block (source.take (f.arraySize m arg values)))

/-- The arguments are values of their types, and the number of elements is not negative. -/
structure ValuesInRange : Prop where
  inRange : ∀ name type, f.argumentType name = some type →
    type.InRange m (values.argument name)
  nonneg : ∀ name ∈ f.sizeArgument arg, 0 ≤ values.argument name

end Function

/-! ### The table and the declarations -/

/-- What the sizes of an argument fit: bytes, counted by an argument; or elements of four bytes,
counted by an `int`, by a small number, or both. -/
def Function.Sized (f : Function) (arg : Argument) : Prop :=
  arg.type.hasCharPointer = false ∧ f.sizeFunction arg = none ∧ 0 < arg.type.stars ∧
    (arg.type.hasVoidPointer = true ∧ f.elementCount arg = none ∧
        ((f.sizeArgument arg).bind f.argumentType).isSome ∨
      arg.type.hasVoidPointer = false ∧ elementSize .ilp32 arg.type = some 4 ∧
        elementSize .lp64 arg.type = some 4 ∧
        (∀ name ∈ f.sizeArgument arg, f.argumentType name = some .int) ∧
        ∀ count ∈ f.elementCount arg, 0 < count ∧ count ≤ 16)

instance (f : Function) (arg : Argument) : Decidable (f.Sized arg) :=
  inferInstanceAs (Decidable (_ ∧ _))

theorem sized_of_mem : ∀ f ∈ sizedFunctions, ∀ arg ∈ f.args, 0 < arg.type.stars →
    f.Sized arg := by
  decide +kernel

/-! ### The size that is copied -/

namespace Function

variable {m : DataModel} {f : Function} {arg : Argument} {values : Values}

/-- The elements of an array that is not one of bytes. -/
theorem Sized.array (hsized : f.Sized arg) (hvoid : arg.type.hasVoidPointer = false) :
    elementSize .ilp32 arg.type = some 4 ∧ elementSize .lp64 arg.type = some 4 ∧
      (∀ name ∈ f.sizeArgument arg, f.argumentType name = some .int) ∧
      ∀ count ∈ f.elementCount arg, 0 < count ∧ count ≤ 16 := by
  obtain ⟨-, -, -, ⟨hnot, -⟩ | ⟨-, harray⟩⟩ := hsized
  · rw [hvoid] at hnot
    cases hnot
  · exact harray

/-- An argument with a size is copied, if the function is not synchronous. -/
theorem commandInit_eq (hasync : f.isSynchronous = false) (hsized : f.Sized arg)
    (hentry : (f.sizeArgument arg).isSome ∨ (f.elementCount arg).isSome)
    (source : List UInt8) : f.commandInit m arg values (some source) =
      (f.productSize m values (f.sizeComponents arg)).bind fun size =>
        (memcpy size source size).map .block := by
  have hcode : f.writeCommandInitArgumentCopy arg = .copy (f.sizeComponents arg) := by
    rw [writeCommandInitArgumentCopy, if_neg (by simp [hasync]), if_neg (by simp [hsized.1]),
      if_pos (by tauto)]
  rw [commandInit, hcode]
  simp only [Option.map_eq_bind]
  rfl

/-- Behind a pointer to `void`, the argument is the size. -/
theorem productSize_of_void (hsized : f.Sized arg) (hvoid : arg.type.hasVoidPointer = true)
    (hin : f.ValuesInRange m arg values) :
    ∃ count : ℕ, f.elements arg values = count ∧
      f.productSize m values (f.sizeComponents arg) = some (m.sizeT count) := by
  obtain ⟨-, hfunction, -, ⟨-, hcount, htype⟩ | ⟨hnot, -⟩⟩ := hsized
  · obtain ⟨type, htype⟩ := Option.isSome_iff_exists.mp htype
    obtain ⟨name, hname, htype⟩ := Option.bind_eq_some_iff.mp htype
    have hnonneg := hin.nonneg name hname
    refine ⟨(values.argument name).toNat, ?_, ?_⟩
    · rw [elements, hname, hcount]
      simp
    · rw [sizeComponents, hname, hcount, hfunction, if_pos hvoid]
      simp [productSize, componentValue, htype, hnonneg]
  · rw [hvoid] at hnot
    cases hnot

theorem mul_sizeOf (x : CValue) (size : ℕ) :
    x.mul m ⟨.size, size⟩ = some ⟨.size, m.sizeT (x.value * size)⟩ := if_pos (.inr rfl)

theorem mul_int (a b : ℤ) : (⟨.int, a⟩ : CValue).mul m ⟨.int, b⟩ =
    if IntType.InRange m .int (a * b) then some ⟨.int, a * b⟩ else none := by
  simp only [CValue.mul, reduceCtorEq, or_self, if_false]

/-- The numbers have a product, and then the size of a pointer is a factor. -/
theorem productSize_of_array (hsized : f.Sized arg) (hvoid : arg.type.hasVoidPointer = false)
    (hentry : (f.sizeArgument arg).isSome ∨ (f.elementCount arg).isSome)
    (hin : f.ValuesInRange m arg values) :
    f.productSize m values (f.sizeComponents arg) =
      if IntType.InRange m .int (f.elements arg values) then
        some (m.sizeT (f.elements arg values * m.pointerSize))
      else none := by
  obtain ⟨-, -, htype, hcount⟩ := hsized.array hvoid
  obtain ⟨-, hfunction, hstars, -⟩ := hsized
  -- The argument is a pointer itself, and this is what `sizeof` is taken of.
  have hsizeof : sizeofType m arg.type = some m.pointerSize := if_pos hstars
  rw [sizeComponents, hfunction, if_neg (by simp [hvoid])]
  cases hname : f.sizeArgument arg with
  | none =>
    cases hk : f.elementCount arg with
    | none => simp [hname, hk] at hentry
    | some k =>
      have helements : f.elements arg values = k := by simp [elements, hname, hk]
      have hrange : IntType.InRange m .int (k : ℤ) := by
        have hle := (hcount k hk).2
        exact ⟨by omega, by omega⟩
      rw [helements, if_pos hrange]
      simp [productSize, componentValue, hsizeof, mul_sizeOf]
  | some name =>
    have hint := htype name hname
    have hrange := hin.inRange name .int hint
    have hcast := Int.toNat_of_nonneg (hin.nonneg name hname)
    cases hk : f.elementCount arg with
    | none =>
      have helements : (f.elements arg values : ℤ) = values.argument name := by
        simp [elements, hname, hk, hcast]
      rw [helements, if_pos hrange]
      simp [productSize, componentValue, hsizeof, mul_sizeOf, hint]
    | some k =>
      have helements : (f.elements arg values : ℤ) = values.argument name * k := by
        simp [elements, hname, hk, hcast]
      rw [helements]
      simp only [productSize, componentValue, hint, Option.map_some, Option.toList_some,
        Option.map_none, Option.toList_none, List.append_nil, List.cons_append, List.nil_append,
        Option.bind_eq_bind, Option.bind_some, List.foldlM_cons, List.foldlM_nil, mul_int]
      -- Two numbers of type `int`: their product is taken before `sizeof` makes it a `size_t`.
      by_cases hproduct : IntType.InRange m .int (values.argument name * k)
      · rw [if_pos hproduct, if_pos hproduct]
        simp [hsizeof, mul_sizeOf]
      · rw [if_neg hproduct, if_neg hproduct]
        rfl

/-- The size must be that of the array, if there can be such an array in memory. -/
theorem copiesExactly_iff_productSize (hasync : f.isSynchronous = false) (hsized : f.Sized arg)
    (hentry : (f.sizeArgument arg).isSome ∨ (f.elementCount arg).isSome) :
    f.CopiesExactly m arg values ↔ (f.arraySize m arg values < m.sizeCount →
      f.productSize m values (f.sizeComponents arg) = some (f.arraySize m arg values)) := by
  have hcopy : ∀ source : List UInt8, f.arraySize m arg values ≤ source.length →
      (f.commandInit m arg values (some source) =
          some (.block (source.take (f.arraySize m arg values))) ↔
        f.productSize m values (f.sizeComponents arg) = some (f.arraySize m arg values)) := by
    intro source hsource
    rw [commandInit_eq hasync hsized hentry]
    cases f.productSize m values (f.sizeComponents arg) with
    | none => simp
    | some size =>
      rw [Option.bind_some, Option.some.injEq, ← memcpy_eq_take_iff hsource]
      cases memcpy size source size <;> simp
  constructor
  -- An array with nothing behind it shows that not more than its size is read.
  · intro h hfits
    have hlength : (List.replicate (f.arraySize m arg values) (0 : UInt8)).length =
        f.arraySize m arg values := List.length_replicate
    exact (hcopy _ hlength.ge).mp (h _ (hlength.trans_lt hfits) hlength.ge)
  · intro h source hfits hsource
    exact (hcopy source hsource).mpr (h (hsource.trans_lt hfits))

theorem elements_lt (hvoid : arg.type.hasVoidPointer = false) (hsized : f.Sized arg)
    (hin : f.ValuesInRange m arg values) : f.elements arg values < 2 ^ 35 := by
  obtain ⟨-, -, htype, hcount⟩ := hsized.array hvoid
  have hn : (f.sizeArgument arg).elim 1 (fun name => (values.argument name).toNat) < 2 ^ 31 := by
    cases hname : f.sizeArgument arg with
    | none => exact Nat.one_lt_two_pow (by decide)
    | some name =>
      have hrange := (hin.inRange name .int (htype name hname)).2
      have hnonneg := hin.nonneg name hname
      simp only [Option.elim_some]
      omega
  have hk : (f.elementCount arg).getD 1 ≤ 16 := by
    cases hk : f.elementCount arg with
    | none => decide
    | some k => exact (hcount k hk).2
  calc f.elements arg values ≤ (2 ^ 31 - 1) * 16 := Nat.mul_le_mul (Nat.le_sub_one_of_lt hn) hk
    _ < 2 ^ 35 := by decide

/-- Bytes are copied as they should be. -/
theorem copiesExactly_of_void (hasync : f.isSynchronous = false) (hsized : f.Sized arg)
    (hentry : (f.sizeArgument arg).isSome ∨ (f.elementCount arg).isSome)
    (hin : f.ValuesInRange m arg values) (hvoid : arg.type.hasVoidPointer = true) :
    f.CopiesExactly m arg values := by
  rw [copiesExactly_iff_productSize hasync hsized hentry]
  intro hfits
  obtain ⟨count, hcount, hsize⟩ := productSize_of_void hsized hvoid hin
  have harray : f.arraySize m arg values = count := by
    simp [arraySize, hcount, elementSize, hvoid]
  rw [harray] at hfits ⊢
  rw [hsize, DataModel.sizeT_natCast hfits]

/-- Elements are, when a pointer has the size of an element, or there are none. -/
theorem copiesExactly_iff_of_array (hasync : f.isSynchronous = false) (hsized : f.Sized arg)
    (hentry : (f.sizeArgument arg).isSome ∨ (f.elementCount arg).isSome)
    (hin : f.ValuesInRange m arg values) (hvoid : arg.type.hasVoidPointer = false) :
    f.CopiesExactly m arg values ↔ f.elements arg values = 0 ∨ m = .ilp32 := by
  have hlt := elements_lt hvoid hsized hin
  have harray : f.arraySize m arg values = f.elements arg values * 4 := by
    obtain ⟨hilp32, hlp64, -⟩ := hsized.array hvoid
    cases m <;> simp [arraySize, hilp32, hlp64]
  rw [copiesExactly_iff_productSize hasync hsized hentry, harray,
    productSize_of_array hsized hvoid hentry hin]
  generalize f.elements arg values = e at hlt
  have hsizeT : ∀ k : ℕ, e * k < m.sizeCount → m.sizeT ((e : ℤ) * k) = e * k := fun k hk => by
    exact_mod_cast DataModel.sizeT_natCast hk
  cases m with
  | ilp32 =>
    refine iff_of_true (fun hfits => ?_) (.inr rfl)
    rw [DataModel.sizeCount_ilp32] at hfits
    have hrange : IntType.InRange .ilp32 .int (e : ℤ) := ⟨by omega, by omega⟩
    rw [if_pos hrange]
    exact congrArg some (hsizeT 4 hfits)
  | lp64 =>
    -- Even twice the array is far from the end of the address space, so nothing wraps around.
    have hfits : ∀ k ≤ 8, e * k < DataModel.sizeCount .lp64 := fun k hk => by
      have hle := Nat.mul_le_mul_left e hk
      rw [DataModel.sizeCount_lp64]
      omega
    simp only [hfits 4 (by decide), forall_const, reduceCtorEq, or_false]
    constructor
    · intro h
      split_ifs at h
      have heq := (hsizeT 8 (hfits 8 le_rfl)).symm.trans (Option.some.inj h)
      omega
    · rintro rfl
      have hrange : IntType.InRange .lp64 .int ((0 : ℕ) : ℤ) := ⟨by decide, by decide⟩
      rw [if_pos hrange]
      exact congrArg some (hsizeT 8 (hfits 8 le_rfl))

/-- Nothing is read through `NULL`. -/
theorem commandInit_null (hasync : f.isSynchronous = false) (hsized : f.Sized arg)
    (hentry : (f.sizeArgument arg).isSome ∨ (f.elementCount arg).isSome) :
    f.commandInit m arg values none = some .null := by
  rw [commandInit, writeCommandInitArgumentCopy, if_neg (by simp [hasync]),
    if_neg (by simp [hsized.1]), if_pos (by tauto)]

/-- Of the functions with sizes, those are right that copy bytes, or no elements at all. The
others need pointers that are as large as an element. -/
theorem copiesExactly_iff (m : DataModel) (f : Function) (arg : Argument) (values : Values)
    (hf : f ∈ sizedFunctions) (harg : arg ∈ f.args) (hpointer : 0 < arg.type.stars)
    (hentry : (f.sizeArgument arg).isSome ∨ (f.elementCount arg).isSome)
    (hasync : f.isSynchronous = false) (hin : f.ValuesInRange m arg values) :
    f.CopiesExactly m arg values ↔
      arg.type.hasVoidPointer = true ∨ f.elements arg values = 0 ∨ m = .ilp32 := by
  have hsized := sized_of_mem f hf arg harg hpointer
  cases hvoid : arg.type.hasVoidPointer with
  | true =>
    exact iff_of_true (copiesExactly_of_void hasync hsized hentry hin hvoid) (.inl rfl)
  | false =>
    rw [copiesExactly_iff_of_array hasync hsized hentry hin hvoid]
    simp

end Function

/-- `glDeleteTextures`, as it is read. -/
def glDeleteTextures : Function where
  name := "glDeleteTextures"
  info := getFunctionInfo "glDeleteTextures"
  returnType := .void
  args := [.value .glSizei "" "n", .constPointer .glUint "textures"]

theorem glDeleteTextures_mem : glDeleteTextures ∈ sizedFunctions := by
  refine List.mem_map.mpr ⟨("glDeleteTextures", .void,
    [.value .glSizei "NotNegative" "n", .constPointer .glUint "textures"]), ?_, rfl⟩
  decide

/-- A small number is a value of every type. -/
theorem valuesInRange_const {m : DataModel} {f : Function} {arg : Argument}
    {call : String → String → ℕ} : f.ValuesInRange m arg ⟨fun _ => 1, call⟩ where
  inRange name type _ := by
    have hone : type.InRange m 1 := by
      cases m <;> cases type <;> exact ⟨by decide, by decide⟩
    exact hone
  nonneg _ _ := Int.one_nonneg

theorem copiesExactly_glDeleteTextures :
    glDeleteTextures.CopiesExactly .ilp32 (.constPointer .glUint "textures")
      ⟨fun _ => 1, fun _ _ => 0⟩ :=
  (Function.copiesExactly_iff .ilp32 glDeleteTextures _ _ glDeleteTextures_mem (by decide)
    (by decide) (.inl (by decide)) (by decide) valuesInRange_const).mpr (.inr (.inr rfl))

/-- With pointers of eight bytes, the four bytes behind the name of a texture are read too. -/
theorem exists_long_copy : ¬∀ m f arg values, f ∈ sizedFunctions → arg ∈ f.args →
    0 < arg.type.stars → (f.sizeArgument arg).isSome ∨ (f.elementCount arg).isSome →
    f.isSynchronous = false → f.ValuesInRange m arg values → f.CopiesExactly m arg values := by
  intro h
  have hcopies := h .lp64 glDeleteTextures (.constPointer .glUint "textures")
    ⟨fun _ => 1, fun _ _ => 0⟩ glDeleteTextures_mem (by decide) (by decide) (.inl (by decide))
    (by decide) valuesInRange_const
  have hnone := hcopies [7, 0, 0, 0] (by decide) (by decide)
  cases hnone

end GpuProxy.Generator
