import GpuProxy.Generator.Commands
import GpuProxy.Math.StructLayout
import Mathlib.Tactic.Positivity
import GpuProxy.Protocol.Progress

/-!
# The fields of commands in the ring

`WriteStruct` declares a structure for each function: the header, the arguments, and the result if
there is one. The functions are numbered in the order of the declarations, which gives a command
its type, the handler it gets and the size it takes. The init function stores the fields into
whatever the ring had at the place, and the handler loads them.

This is for pointers of eight bytes. A `GLfloat` is the number that its bits say.

## Main definitions

* `Function.fields`, `sizeofCommand` — the layout
* `Command.call` — the function of a command and its fields
* `Encodes` — the bytes of a request are those of a call
* `handlerCall` — the call that a handler finds

## Main results

* `offsets_fields` — the fields lie behind the header, aligned and apart
* `handlerCall_of_encodes` — a handler finds the call that was encoded
* `ran_isPrefix_commands` — over the ring, in any order of steps of both threads
-/

namespace GpuProxy.Generator

open Math

/-! ### Numbers -/

/-- The size of a number or of a pointer is its alignment. -/
def fieldOf (type : TypeText) : StructField :=
  let size := (sizeofType .lp64 type).getD 1
  ⟨size, max size 1, by omega⟩

/-- Numbers with a sign. -/
def TypeText.isSigned (type : TypeText) : Bool := (intType type).isSome

/-- The number of values of a field. -/
def TypeText.count (type : TypeText) : ℤ := 256 ^ (fieldOf type).size

/-- The numbers that a field can have. -/
def TypeText.Represents (type : TypeText) (z : ℤ) : Prop :=
  if type.isSigned then -type.count ≤ 2 * z ∧ 2 * z < type.count else 0 ≤ z ∧ z < type.count

instance (type : TypeText) (z : ℤ) : Decidable (type.Represents z) :=
  inferInstanceAs (Decidable (if type.isSigned then -type.count ≤ 2 * z ∧ 2 * z < type.count
    else 0 ≤ z ∧ z < type.count))

/-- The bits of a number. -/
def fieldValue (type : TypeText) (z : ℤ) : ℕ := (z % type.count).toNat

/-- The number that the bits of a field say. -/
def numberOf (type : TypeText) (value : ℕ) : ℤ :=
  if type.isSigned ∧ type.count ≤ 2 * value then value - type.count else value

theorem TypeText.count_pos (type : TypeText) : 0 < type.count := by
  unfold count
  positivity

theorem fieldValue_lt (type : TypeText) (z : ℤ) :
    fieldValue type z < 256 ^ (fieldOf type).size := by
  have hlt := Int.emod_lt_of_pos z type.count_pos
  have hnonneg := Int.emod_nonneg z type.count_pos.ne'
  have hcast : ((256 ^ (fieldOf type).size : ℕ) : ℤ) = type.count := by
    rw [TypeText.count]
    push_cast
    rfl
  unfold fieldValue
  omega

theorem TypeText.represents_zero (type : TypeText) : type.Represents 0 := by
  have hpos := type.count_pos
  unfold Represents
  split_ifs
  · constructor <;> omega
  · exact ⟨le_rfl, hpos⟩

/-- A number is loaded as it was stored. -/
theorem numberOf_fieldValue {type : TypeText} {z : ℤ} (h : type.Represents z) :
    numberOf type (fieldValue type z) = z := by
  have hpos := type.count_pos
  unfold TypeText.Represents at h
  unfold numberOf fieldValue
  generalize type.count = count at *
  cases hsigned : type.isSigned with
  | false =>
    simp only [hsigned, Bool.false_eq_true, if_false, false_and] at h ⊢
    rw [Int.emod_eq_of_lt h.1 h.2, Int.toNat_of_nonneg h.1]
  | true =>
    simp only [hsigned, if_true, true_and] at h ⊢
    rcases lt_or_ge z 0 with hz | hz
    · -- The bits of a negative number are those of the number one round up.
      have hmod : z % count = z + count := by
        rw [← Int.add_emod_right]
        exact Int.emod_eq_of_lt (by omega) (by omega)
      rw [hmod, if_pos (by omega)]
      omega
    · rw [Int.emod_eq_of_lt hz (by omega), if_neg (by omega)]
      omega

/-! ### Layout -/

def Function.argumentTypes (f : Function) : List TypeText := f.args.map (·.type)

/-- The fields of a command behind the header. -/
def Function.fieldTypes (f : Function) : List TypeText :=
  f.argumentTypes ++ if f.returnType = .void then [] else [⟨false, f.returnType, "", 0⟩]

/-- `WriteStruct`, without the header. -/
def Function.fields (f : Function) : List StructField := f.fieldTypes.map fieldOf

/-- `sizeof (command_*_t)`. The header is aligned to eight bytes. -/
def sizeofCommand (f : Function) : ℕ := roundUp (layoutEnd Protocol.headerSize f.fields) 8

/-- `COMMAND_*`, behind `COMMAND_NO_OP` and `COMMAND_SHUTDOWN`. -/
def commandType (index : ℕ) : ℕ := index + 2

theorem align_fieldOf (type : TypeText) : (fieldOf type).align ∣ 8 := by
  obtain ⟨isConst, word, suffix, stars⟩ := type
  simp only [fieldOf, sizeofType]
  split_ifs
  · decide
  · decide
  · cases word <;> decide

theorem align_fields (f : Function) : ∀ field ∈ f.fields, field.align ∣ 8 := by
  intro field hfield
  obtain ⟨type, -, rfl⟩ := List.mem_map.mp hfield
  exact align_fieldOf type

/-- The fields lie behind the header and inside of the structure, aligned, and each ends before the
next one begins. In the payload they are laid out as they are behind the header. -/
theorem offsets_fields (f : Function) :
    (offsets Protocol.headerSize f.fields =
        (offsets 0 f.fields).map (Protocol.headerSize + ·)) ∧
      List.Forall₂ (fun offset field => field.align ∣ offset ∧ Protocol.headerSize ≤ offset ∧
        offset + field.size ≤ sizeofCommand f) (offsets Protocol.headerSize f.fields) f.fields ∧
      ((offsets Protocol.headerSize f.fields).zip f.fields).Pairwise
        fun p q => p.1 + p.2.size ≤ q.1 := by
  obtain ⟨hplaced, hapart⟩ := offsets_spec Protocol.headerSize f.fields
  have hheader : ∀ field ∈ f.fields, field.align ∣ Protocol.headerSize := fun field hfield =>
    (align_fields f field hfield).trans (by decide)
  have hend : layoutEnd Protocol.headerSize f.fields ≤ sizeofCommand f := le_roundUp (by decide)
  refine ⟨(offsets_add 0 hheader).1, hplaced.imp ?_, hapart⟩
  rintro offset field ⟨halign, hstart, hfield⟩
  exact ⟨halign, hstart, hfield.trans hend⟩

theorem layoutEnd_fields_le (f : Function) :
    layoutEnd 0 f.fields ≤ sizeofCommand f - Protocol.headerSize := by
  have hend := (offsets_add 0 fun field hfield =>
    (align_fields f field hfield).trans (by decide : 8 ∣ Protocol.headerSize)).2
  have hle : layoutEnd (Protocol.headerSize + 0) f.fields ≤ sizeofCommand f :=
    le_roundUp (by decide)
  omega

/-- The statements of `command_*_init` store the fields at their places in the ring. What is in
between stays. -/
theorem load_storeEach {b : RingBuffer.Buffer UInt8} {a start n : ℕ} {fields : List StructField}
    {bytes : List (List UInt8)}
    (hbytes : List.Forall₂ (fun bytes field => bytes.length = field.size) bytes fields)
    (hend : layoutEnd start fields ≤ n) (hn : n ≤ b.length) :
    (((offsets start fields).zip bytes).foldl (fun b p => b.store (a + p.1) p.2) b).load a n =
      storeFields (b.load a n) start fields bytes := by
  induction hbytes generalizing b start with
  | nil => rfl
  | @cons first field bytes fields hfirst _ ih =>
    rw [layoutEnd] at hend
    have hfits : roundUp start field.align + first.length ≤ n := by
      rw [hfirst]
      exact (le_layoutEnd ..).trans hend
    have hstore : (b.store (a + roundUp start field.align) first).load a n =
        storeAt (b.load a n) (roundUp start field.align) first := by
      have hload : b.load a n = Mirror.read b.length b.memory a n := rfl
      rw [storeAt, hload, Mirror.take_read (by omega), Mirror.drop_read hfits, ← Nat.add_assoc]
      exact Mirror.read_write_within hfits hn
    have hrest := ih (b := b.store (a + roundUp start field.align) first) hend hn
    rw [offsets, List.zip_cons_cons, List.foldl_cons, hrest, hstore]
    rfl

/-! ### Calls in the ring -/

/-- A function that is called, with the fields of the command that are arguments. -/
abbrev EncodedCall := Function × List ℤ

def Command.call (command : Command) : EncodedCall :=
  (command.function, command.function.args.map fun arg =>
    if arg.type.isPointer then (command.pointers arg.name : ℤ)
    else command.values.argument arg.name)

/-- What `command_*_init` stores. The result is 0 at first, but for a function without arguments
there is no statement at all. -/
def Function.initFields (f : Function) (numbers : List ℤ) : List ℤ :=
  numbers ++ if f.returnType = .void ∨ f.args = [] then [] else [0]

/-- The bytes of the fields. -/
def fieldBytes (types : List TypeText) (values : List ℤ) : List (List UInt8) :=
  List.zipWith (fun z type => LittleEndian.toBytes (fieldOf type).size (fieldValue type z))
    values types

/-- The numbers that the bytes of the fields say. -/
def numbersOf (types : List TypeText) (bytes : List (List UInt8)) : List ℤ :=
  List.zipWith (fun bytes type => numberOf type (LittleEndian.ofBytes bytes)) bytes types

/-- `client_dispatch_*` makes the request: `command_get_size` and the type of the function, and
fields that were stored into what was in the ring. -/
structure Encodes (functions : List Function) (call : EncodedCall) (r : Protocol.Request) :
    Prop where
  type : ∃ index, functions[index]? = some call.1 ∧ r.type = commandType index
  size : r.size = sizeofCommand call.1
  values : List.Forall₂ (fun z type => type.Represents z) call.2 call.1.argumentTypes
  payload : ∃ ring : List UInt8, ring.length = r.payload.length ∧
    r.payload = storeFields ring 0 call.1.fields
      (fieldBytes call.1.fieldTypes (call.1.initFields call.2))
  sync : r.sync = call.1.isSynchronous

/-- The call that the handler for a command finds, if the type is that of a function. -/
def handlerCall (functions : List Function) (type : ℕ) (payload : List UInt8) :
    Option EncodedCall :=
  if type < commandType 0 then none
  else functions[type - commandType 0]?.map fun f =>
    (f, numbersOf f.argumentTypes (loadFields payload 0 (f.argumentTypes.map fieldOf)))

variable {functions : List Function} {call : EncodedCall} {r : Protocol.Request}
  {types : List TypeText} {values : List ℤ}

theorem fieldBytes_spec (h : List.Forall₂ (fun z type => type.Represents z) values types) :
    List.Forall₂ (fun bytes field => bytes.length = field.size) (fieldBytes types values)
        (types.map fieldOf) ∧
      numbersOf types (fieldBytes types values) = values := by
  induction h with
  | nil => exact ⟨.nil, rfl⟩
  | @cons z type values types hz _ ih =>
    obtain ⟨hlengths, hvalues⟩ := ih
    refine ⟨.cons (LittleEndian.length_toBytes ..) hlengths, ?_⟩
    have hfirst := numberOf_fieldValue hz
    rw [fieldBytes, List.zipWith_cons_cons, numbersOf, List.zipWith_cons_cons,
      LittleEndian.ofBytes_toBytes (fieldValue_lt type z), hfirst, ← fieldBytes, ← numbersOf,
      hvalues]

/-- The arguments are loaded as they were stored, whatever the ring had at the place before. -/
theorem numbersOf_storeFields {f : Function} {numbers : List ℤ} {ring : List UInt8}
    (hvalues : List.Forall₂ (fun z type => type.Represents z) numbers f.argumentTypes)
    (hring : layoutEnd 0 f.fields ≤ ring.length) :
    numbersOf f.argumentTypes (loadFields
      (storeFields ring 0 f.fields (fieldBytes f.fieldTypes (f.initFields numbers))) 0
      (f.argumentTypes.map fieldOf)) = numbers := by
  by_cases hargs : f.args = []
  · have htypes : f.argumentTypes = [] := by rw [Function.argumentTypes, hargs, List.map_nil]
    rw [htypes] at hvalues ⊢
    cases hvalues
    rfl
  · obtain ⟨others, behind, hothers, htypes, hfields⟩ : ∃ others behind,
        List.Forall₂ (fun z type => type.Represents z) others behind ∧
          f.fieldTypes = f.argumentTypes ++ behind ∧ f.initFields numbers = numbers ++ others := by
      by_cases hreturn : f.returnType = .void
      · exact ⟨[], [], .nil, by simp [Function.fieldTypes, hreturn],
          by simp [Function.initFields, hreturn]⟩
      · exact ⟨[0], _, .cons (TypeText.represents_zero _) .nil,
          by rw [Function.fieldTypes, if_neg hreturn],
          by rw [Function.initFields, if_neg (by simp [hreturn, hargs])]⟩
    obtain ⟨hlengths, hnumbers⟩ := fieldBytes_spec hvalues
    have hbytes : fieldBytes f.fieldTypes (f.initFields numbers) =
        fieldBytes f.argumentTypes numbers ++ fieldBytes behind others := by
      rw [htypes, hfields, fieldBytes, List.zipWith_append hvalues.length_eq, ← fieldBytes,
        ← fieldBytes]
    rw [Function.fields, htypes, List.map_append] at hring
    have hload := loadFields_storeFields_append hlengths (fieldBytes_spec hothers).1 hring
    rw [hbytes, Function.fields, htypes, List.map_append, hload, hnumbers]

/-- A handler finds the function that was called and its arguments. -/
theorem handlerCall_of_encodes (h : Encodes functions call r) :
    handlerCall functions r.type r.payload = some call := by
  obtain ⟨index, hindex, htype⟩ := h.type
  obtain ⟨ring, hring, hpayload⟩ := h.payload
  have hblock : layoutEnd 0 call.1.fields ≤ ring.length := by
    have hend := layoutEnd_fields_le call.1
    have hsize := h.size
    rw [Protocol.Request.size] at hsize
    omega
  have hload := numbersOf_storeFields h.values hblock
  rw [← hpayload] at hload
  have hnot : ¬index + 2 < 0 + 2 := by omega
  rw [handlerCall, htype, commandType, commandType, if_neg hnot, Nat.zero_add,
    Nat.add_sub_cancel, hindex, Option.map_some, hload]

theorem map_handlerCall {calls : List EncodedCall} {requests : List Protocol.Request}
    (h : List.Forall₂ (Encodes functions) calls requests) :
    (requests.map Protocol.Request.kind).map
      (fun kind => handlerCall functions kind.type kind.payload) = calls.map some := by
  induction h with
  | nil => rfl
  | @cons call r calls requests hfirst _ ih =>
    rw [List.map_cons, List.map_cons, List.map_cons, ih]
    exact congrArg (· :: _) (handlerCall_of_encodes hfirst)

/-- Whatever the order of the steps of both threads, the handlers that ran found the functions and
the fields of the commands that the client packed, one after the other. -/
theorem ran_isPrefix_commands {length : ℕ} {commands : List Command}
    {requests : List Protocol.Request} {s : Protocol.State}
    (hcalls : List.Forall₂ (Encodes functions) (commands.map Command.call) requests)
    (hs : (Protocol.system length requests).Reachable s) :
    s.ran.map (fun c => handlerCall functions c.type c.payload) <+:
      commands.map fun command => some command.call := by
  have hran : s.ran.map Protocol.Command.kind <+: requests.map Protocol.Request.kind := by
    rw [← (Protocol.progress_invariant.holds hs).requests]
    exact ((Protocol.ran_isPrefix_issued hs).map _).trans (List.prefix_append _ _)
  have hfound := hran.map fun kind => handlerCall functions kind.type kind.payload
  rw [map_handlerCall hcalls, List.map_map, List.map_map] at hfound
  exact hfound

/-- A marker of four bytes, in a ring that had other bytes before. -/
def pushedMarker : Command where
  function := glPushGroupMarkerEXT
  values := ⟨fun _ => -1, fun _ _ => 0⟩
  pointers := fun _ => 0x1000

def pushedRequest : Protocol.Request where
  type := commandType 1
  payload := [255, 255, 255, 255, 7, 7, 7, 7, 0, 16, 0, 0, 0, 0, 0, 0]
  sync := false
  type_lt := by decide
  size_lt := by decide

theorem pushedMarker_encodes :
    Encodes [glBindAttribLocation, glPushGroupMarkerEXT] pushedMarker.call pushedRequest where
  type := ⟨1, rfl, rfl⟩
  size := by decide
  values := by
    refine .cons ?_ (.cons ?_ .nil) <;> decide
  payload := ⟨List.replicate 16 7, rfl, by decide⟩
  sync := rfl

/-- The client hands the command over, and the server handles it. -/
def pushingRun : List Protocol.Thread := List.replicate 5 .client ++ List.replicate 3 .server

theorem ran_isPrefix_pushedMarker : ∃ s : Protocol.State,
    pushingRun.foldlM Protocol.step (Protocol.initial 64 (fun _ => 0) [pushedRequest]) = some s ∧
    s.ran.length = 1 ∧
    s.ran.map (fun c => handlerCall [glBindAttribLocation, glPushGroupMarkerEXT] c.type c.payload)
      <+: [pushedMarker].map fun command => some command.call := by
  have hrun : (pushingRun.foldlM Protocol.step
      (Protocol.initial 64 (fun _ => 0) [pushedRequest])).map (fun s => s.ran.length) = some 1 := by
    decide +kernel
  obtain ⟨s, hs, hran⟩ := Option.map_eq_some_iff.mp hrun
  exact ⟨s, hs, hran, ran_isPrefix_commands (.cons pushedMarker_encodes .nil)
    (System.reachable_of_foldlM (.init ⟨_, rfl⟩) hs)⟩

end GpuProxy.Generator
