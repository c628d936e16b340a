import GpuProxy.Generator.ArgumentCopy
import GpuProxy.Math.OwnedHeap
import GpuProxy.Names.HashTable

/-!
# Commands from the call to the driver

The generated functions `command_*_init` pack a call: numbers are assigned, arrays and strings of
the application are copied, and a pointer is passed on as it is where the application waits. The
generated handlers have names looked up, call the driver and free the copies. A handler that does
not find a name returns before that.

## Main definitions

* `Function.knowHowToPassArguments`, `Function.needsDestructor` — what the generator decides
* `Command`, `Function.init`, `Command.destroyArguments` — packing, and freeing the copies
* `Content`, `Driver` — what the driver gets to see, and what it does
* `Command.handle` — `server_handle_*`
* `Function.Generated` — the functions this is about

## Main results

* `generated_of_mem`, `generated_of_knowHow` — the functions with sizes, and those without
-/

namespace GpuProxy.Generator

open Math Names

/-! ### The table and what is decided with it -/

/-- `mapped_names`. -/
structure MappedNames where
  attribList : List String
  createAttribIfNeeded : List String := []

/-- The functions of `_FUNCTION_INFO` with `mapped_names`. -/
def mappedNames : List (String × MappedNames) := [
  ("glGetUniformLocation", { attribList := ["program"] }),
  ("glGetAttribLocation", { attribList := ["program"] }),
  ("glGetActiveAttrib", { attribList := ["program"] }),
  ("glGetActiveUniform", { attribList := ["program"] }),
  ("glGetAttachedShaders", { attribList := ["program"] }),
  ("glGetProgramInfoLog", { attribList := ["program"] }),
  ("glGetProgramiv", { attribList := ["program"] }),
  ("glGetShaderInfoLog", { attribList := ["shader"] }),
  ("glGetShaderSource", { attribList := ["shader"] }),
  ("glGetShaderiv", { attribList := ["shader"] }),
  ("glGetUniformiv", { attribList := ["program"] }),
  ("glGetUniformfv", { attribList := ["program"] }),
  ("glBindBuffer", { attribList := ["buffer"], createAttribIfNeeded := ["buffer"] }),
  ("glIsBuffer", { attribList := ["buffer"] }),
  ("glBindFramebuffer", { attribList := ["framebuffer"] }),
  ("glIsFramebuffer", { attribList := ["framebuffer"] }),
  ("glBindTexture", { attribList := ["texture"], createAttribIfNeeded := ["texture"] }),
  ("glIsTexture", { attribList := ["texture"] }),
  ("glFramebufferTexture2D", { attribList := ["texture"], createAttribIfNeeded := ["texture"] }),
  ("glBindRenderbuffer",
    { attribList := ["renderbuffer"], createAttribIfNeeded := ["renderbuffer"] }),
  ("glIsRenderbuffer", { attribList := ["renderbuffer"] }),
  ("glFramebufferRenderbuffer", { attribList := ["renderbuffer"] }),
  ("glFramebufferTexture2DMultisampleEXT", { attribList := ["texture"] }),
  ("glFramebufferTexture2DMultisampleIMG", { attribList := ["texture"] }),
  ("glAttachShader", { attribList := ["program", "shader"] }),
  ("glBindAttribLocation", { attribList := ["program"] }),
  ("glDetachShader", { attribList := ["program", "shader"] }),
  ("glIsProgram", { attribList := ["program"] }),
  ("glLinkProgram", { attribList := ["program"] }),
  ("glUseProgram", { attribList := ["program"] }),
  ("glValidateProgram", { attribList := ["program"] }),
  ("glCompileShader", { attribList := ["shader"] }),
  ("glDeleteShader", { attribList := ["shader"] }),
  ("glIsShader", { attribList := ["shader"] }),
  ("glShaderSource", { attribList := ["shader"] })]

/-- `IsPointer`. -/
def TypeText.isPointer (type : TypeText) : Bool := 0 < type.stars

/-- `IsString`. -/
def TypeText.isString (type : TypeText) : Bool :=
  (type.word = .char ∨ type.word = .glChar) ∧ type.suffix = "" ∧ type.stars = 1

namespace Function

variable (f : Function) (arg : Argument)

/-- `IsOutArgument`. -/
def isOutArgument : Bool := arg.name ∈ f.info.outArguments

/-- One of the tables of sizes has the argument. -/
def hasSize : Bool :=
  (f.sizeArgument arg).isSome || (f.elementCount arg).isSome || (f.sizeFunction arg).isSome

/-- `KnowHowToPassArguments`. -/
def knowHowToPassArguments : Bool :=
  f.isSynchronous || f.info.type = "Passthrough" ||
    f.args.all fun arg =>
      f.isOutArgument arg || f.hasSize arg || arg.type.isString || !arg.type.isPointer

/-- `NeedsDestructor`. -/
def needsDestructor : Bool := !f.isSynchronous && f.info.type ≠ "Passthrough"

/-- `GetMappedNameAttributes`. -/
def getMappedNameAttributes : List String :=
  ((mappedNames.lookup f.name).map (·.attribList)).getD []

/-- `NeedsCreateMappedName`. -/
def needsCreateMappedName (name : String) : Bool :=
  (mappedNames.lookup f.name).any fun names => name ∈ names.createAttribIfNeeded

/-- The arguments that are pointers. -/
def pointerArgs : List Argument := f.args.filter (·.type.isPointer)

def pointerList (pointers : String → ℕ) : List ℕ := f.pointerArgs.map fun arg => pointers arg.name

end Function

/-! ### Packing -/

/-- What is behind each pointer. -/
abbrev Memory := ℕ → Option (List UInt8)

/-- Memory in which commands have their copies. Its blocks are those of the copies only. -/
abbrev Heap := OwnedHeap (List UInt8)

/-- The arguments of a call. The pointer 0 is `NULL`. -/
structure Arguments where
  values : Values
  pointers : String → ℕ

/-- `command_*_t`. -/
structure Command where
  function : Function
  values : Values
  pointers : String → ℕ

namespace Function

variable (m : DataModel) (f : Function) (args : Arguments) (addresses : String → ℕ)

/-- The statement of `command_*_init` for an argument, where `malloc` returns some address. -/
def initArgument (s : Heap × (String → ℕ)) (arg : Argument) : Option (Heap × (String → ℕ)) :=
  if arg.type.isPointer then do
    let p := args.pointers arg.name
    let source := if p = 0 then none else some ((s.1.memory p).getD [])
    match ← f.commandInit m arg args.values source with
    | .assigned => return (s.1, Function.update s.2 arg.name p)
    | .null => return (s.1, Function.update s.2 arg.name 0)
    | .block bytes =>
      let heap ← s.1.malloc (addresses arg.name) bytes
      return (heap, Function.update s.2 arg.name (addresses arg.name))
  else some s

/-- `command_*_init`. -/
def init (heap : Heap) : Option (Heap × Command) := do
  let (heap, pointers) ← f.args.foldlM (f.initArgument m args addresses) (heap, fun _ => 0)
  return (heap, ⟨f, args.values, pointers⟩)

end Function

namespace Command

variable (command : Command)

/-- The pointers of a command, without `NULL`. -/
def blocks : List ℕ := (command.function.pointerList command.pointers).filter (· ≠ 0)

/-- The blocks that a handler has to free. -/
def owned : List ℕ := if command.function.needsDestructor then command.blocks else []

/-- `command_*_destroy_arguments`. -/
def destroyArguments (heap : Heap) : Option Heap := heap.freeAll command.blocks

end Command

/-! ### The driver -/

/-- What the driver finds behind a pointer: the array that the arguments tell it of, or the bytes
of a string. Other pointers it takes as they are. -/
inductive Content
  | null
  | bytes (bytes : List UInt8)
  | pointer (p : ℕ)

namespace Function

variable (m : DataModel) (f : Function) (values : Values) (memory : Memory)

/-- What the driver finds behind the pointer `p` for an argument. There is no result where it
would read past the end. Strings are read up to their end, those of `glInsertEventMarkerEXT` and
`glPushGroupMarkerEXT` too, whatever the argument `length` says. -/
def content (arg : Argument) (p : ℕ) : Option Content :=
  let source := (memory p).getD []
  if p = 0 then some .null
  else if arg.type.isString then (strlen 0 source).map fun length => .bytes (source.take length)
  else if f.hasSize arg then
    (memcpy (f.arraySize m arg values) source (f.arraySize m arg values)).map .bytes
  else some (.pointer p)

def contents (pointers : String → ℕ) : Option (List Content) :=
  f.pointerArgs.mapM fun arg => f.content m values memory arg (pointers arg.name)

end Function

/-- A driver. A function that nobody waits for gets numbers and what is behind the pointers. A
function that somebody waits for may use the application's memory, and writes where there is
some. -/
structure Driver (D : Type) where
  async : String → (String → ℤ) → List Content → D → D
  sync : String → (String → ℤ) → List ℕ → Memory × D → Memory × D × ℤ
  sync_eq_none : ∀ name numbers pointers memory d p, memory p = none →
    (sync name numbers pointers (memory, d)).1 p = none

/-- What the handlers share: `name_mapping`, and what the driver has. -/
structure Server (D : Type) where
  nameMapping : HashTable ℕ
  driver : D

/-- The loop of a handler over the mapped names: the numbers with the driver's names, if none is
missing. A name that is created gets a cell, which `malloc` makes for `name_mapping` to keep; it is
an entry here, and not one of the blocks. -/
def Function.mapNames (f : Function) : List String → HashTable ℕ → (String → ℤ) →
    Option (HashTable ℕ × Option (String → ℤ))
  | [], mapping, numbers => some (mapping, some numbers)
  | name :: names, mapping, numbers =>
    let key := (numbers name).toNat
    if key = 0 then f.mapNames names mapping numbers
    else
      match hashLookup mapping key with
      | some entry => f.mapNames names mapping (Function.update numbers name entry)
      | none =>
        if f.needsCreateMappedName name then do
          let mapping ← hashInsert mapping key key
          f.mapNames names mapping numbers
        else some (mapping, none)

section Handle

variable {D : Type} (m : DataModel) (driver : Driver D) (command : Command)

/-- `server_handle_*`, as `WriteBaseServer` writes it, with the value of `result`. -/
def Command.handle (heap : Heap) (server : Server D) : Option (Heap × Server D × ℤ) := do
  let f := command.function
  let (mapping, numbers) ← f.mapNames f.getMappedNameAttributes server.nameMapping
    command.values.argument
  match numbers with
  | none => return (heap, { server with nameMapping := mapping }, 0)
  | some numbers =>
    if f.isSynchronous then
      let (memory, d, result) :=
        driver.sync f.name numbers (f.pointerList command.pointers) (heap.rest, server.driver)
      return (heap.setRest memory, ⟨mapping, d⟩, result)
    else
      let contents ← f.contents m { command.values with argument := numbers } heap.memory
        command.pointers
      let d := driver.async f.name numbers contents server.driver
      let heap ← if f.needsDestructor then command.destroyArguments heap else some heap
      return (heap, ⟨mapping, d⟩, 0)

end Handle

/-! ### The functions -/

/-- The functions with a function or a handler of their own in `command_custom.c` or `server.c`. -/
def customised : List String := ["glTexImage2D", "glTexSubImage2D", "glShaderSource",
  "glTexParameteriv", "glTexParameterfv", "glVertexAttribPointer", "glGenBuffers",
  "glDeleteBuffers", "glGenFramebuffers", "glDeleteFramebuffers", "glGenTextures",
  "glDeleteTextures", "glGenRenderbuffers", "glDeleteRenderbuffers", "glCreateProgram",
  "glDeleteProgram", "glCreateShader", "glDeleteShader"]

/-- What the generator writes for a function is all there is, and it copies what it must. -/
structure Function.Generated (f : Function) : Prop where
  name : f.name ∉ customised
  nodup : (f.args.map (·.name)).Nodup
  copied : f.needsDestructor = true → ∀ arg ∈ f.pointerArgs, arg.type.isString = true ∨
    f.Sized arg ∧ ((f.sizeArgument arg).isSome ∨ (f.elementCount arg).isSome)
  passed : f.info.type = "Passthrough" → ∀ arg ∈ f.pointerArgs,
    arg.type.hasCharPointer = false ∧ f.hasSize arg = false
  returnType : f.isSynchronous = false → f.returnType = .void
  sizes : ∀ arg ∈ f.pointerArgs, ∀ name ∈ f.sizeArgument arg, name ∉ f.getMappedNameAttributes

theorem generated_of_mem : ∀ f ∈ sizedFunctions, f.name ∉ customised → f.Generated := by
  intro f hf hname
  have hsized : ∀ f ∈ sizedFunctions, f.info.type ≠ "Passthrough" ∧ f.returnType = .void ∧
      f.getMappedNameAttributes = [] ∧ (f.args.map (·.name)).Nodup ∧
      ∀ arg ∈ f.args, arg.type.isPointer = true →
        (f.sizeArgument arg).isSome ∨ (f.elementCount arg).isSome := by
    decide +kernel
  obtain ⟨htype, hreturn, hmapped, hnodup, hentry⟩ := hsized f hf
  refine ⟨hname, hnodup, fun _ arg harg => ?_, fun h => absurd h htype, fun _ => hreturn, ?_⟩
  · obtain ⟨harg, hpointer⟩ := List.mem_filter.mp harg
    exact .inr ⟨sized_of_mem f hf arg harg (of_decide_eq_true hpointer), hentry arg harg hpointer⟩
  · rw [hmapped]
    exact fun _ _ _ _ => List.not_mem_nil

/-- For functions without sizes, the generator knows by itself. -/
theorem generated_of_knowHow {f : Function} (hname : f.name ∉ customised)
    (hknow : f.knowHowToPassArguments = true) (hnodup : (f.args.map (·.name)).Nodup)
    (hsize : ∀ arg ∈ f.pointerArgs, f.hasSize arg = false)
    (hout : f.isSynchronous = false → f.info.outArguments = [])
    (hreturn : f.isSynchronous = false → f.returnType = .void)
    (hpassed : f.info.type = "Passthrough" → ∀ arg ∈ f.pointerArgs,
      arg.type.hasCharPointer = false) : f.Generated where
  name := hname
  nodup := hnodup
  copied := by
    intro hdestructor arg harg
    simp only [Function.needsDestructor, Bool.and_eq_true, Bool.not_eq_true',
      decide_eq_true_eq] at hdestructor
    simp only [Function.knowHowToPassArguments, hdestructor.1, hdestructor.2, decide_false,
      Bool.or_self, Bool.false_or, List.all_eq_true] at hknow
    obtain ⟨hmem, hpointer⟩ := List.mem_filter.mp harg
    have hstring := hknow arg hmem
    simp only [Function.isOutArgument, hout hdestructor.1, List.not_mem_nil, decide_false,
      hsize arg harg, Bool.false_or, hpointer, Bool.not_true, Bool.or_false] at hstring
    exact .inl hstring
  passed h arg harg := ⟨hpassed h arg harg, hsize arg harg⟩
  returnType := hreturn
  sizes arg harg name hname := by
    have hnone := hsize arg harg
    simp [Function.hasSize, Option.mem_def.mp hname] at hnone

/-- A function whose handler may not find a name. -/
def glBindAttribLocation : Function where
  name := "glBindAttribLocation"
  info := getFunctionInfo "glBindAttribLocation"
  returnType := .void
  args := [.value .glUint "" "program", .value .glUint "" "index", .constPointer .char "name"]

/-- A function without names. -/
def glPushGroupMarkerEXT : Function where
  name := "glPushGroupMarkerEXT"
  info := getFunctionInfo "glPushGroupMarkerEXT"
  returnType := .void
  args := [.value .glSizei "" "length", .constPointer .glChar "marker"]

theorem glBindAttribLocation_generated : glBindAttribLocation.Generated :=
  generated_of_knowHow (by decide) (by decide) (by decide) (by decide) (fun _ => by decide)
    (fun _ => by decide) (by decide)

theorem glPushGroupMarkerEXT_generated : glPushGroupMarkerEXT.Generated :=
  generated_of_knowHow (by decide) (by decide) (by decide) (by decide) (fun _ => by decide)
    (fun _ => by decide) (by decide)

end GpuProxy.Generator
