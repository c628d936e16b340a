import GpuProxy.Math.TransitionSystem
import GpuProxy.VertexAttribs.Attrib
import Mathlib.Logic.Function.Basic

/-!
# The list of enabled attributes

`vertex_attrib_list_t` and the entry points that change it: `glBindBuffer`,
`glEnableVertexAttribArray`, `glDisableVertexAttribArray` and `glVertexAttribPointer` of
`caching_client.c`. The attributes live in a block of memory, first the embedded one and
from the 33rd attribute on one that is allocated anew for every attribute; the enabled ones
are linked through `next_enabled`.

A list may be made cyclic by these functions, so every walk along it takes a bound on the
number of its steps and has no result when that is reached. A call that returns has a
result for some bound.

## Main definitions

* `AttribList`, `ClientState` — `vertex_attrib_list_t`, and the parts of `egl_state_t` used
* `removeFromEnabledAttribList`, `addToEnabledAttribList` — the two list helpers
* `Op`, `runOp` — the entry points
* `system` — all sequences of calls from `egl_state_init` on
-/

namespace GpuProxy.VertexAttribs

open Math

/-- `NUM_EMBEDDED`. -/
def numEmbedded : ℕ := 32

/-- `vertex_attrib_list_t`, with the memory its attributes are in. Freed blocks keep their
contents; nothing may be concluded from reading them. -/
structure AttribList where
  heap : Loc → VertexAttrib
  freed : List ℕ
  /-- The block the next `malloc` returns. -/
  nextBlock : ℕ
  count : ℕ
  enabledCount : ℤ
  /-- The block `attribs` points to. -/
  attribs : ℕ
  enabledAttribs : Option Loc

section Helpers

variable (list : AttribList) (new : Loc)

def setNext (heap : Loc → VertexAttrib) (x : Loc) (next : Option Loc) : Loc → VertexAttrib :=
  Function.update heap x { heap x with nextEnabled := next }

/-- The loop of `_remove_from_enabled_attrib_list`. -/
def removeLoop : ℕ → (Loc → VertexAttrib) → Loc → Option Loc → Option (Loc → VertexAttrib)
  | 0, _, _, _ => none
  | _ + 1, heap, _, none => some heap
  | fuel + 1, heap, previous, some e =>
    if e = new then some (setNext heap previous (heap e).nextEnabled)
    else removeLoop fuel heap e (heap e).nextEnabled

/-- `_remove_from_enabled_attrib_list`. -/
def removeFromEnabledAttribList (fuel : ℕ) : Option AttribList :=
  match list.enabledAttribs with
  | none => some list
  | some e =>
    if e = new then
      some { list with
        enabledCount := list.enabledCount - 1
        enabledAttribs := (list.heap e).nextEnabled
        heap := setNext list.heap e none }
    else
      (removeLoop new fuel list.heap e (list.heap e).nextEnabled).map fun heap =>
        { list with enabledCount := list.enabledCount - 1, heap := heap }

/-- The inner loop of `_add_to_enabled_attrib_list`, which passes the attributes of the
chunk that lie before the new one. -/
def skipChunk (heap : Loc → VertexAttrib) (chunk : ℕ) :
    ℕ → Option Loc → Option Loc → Option (Option Loc)
  | 0, _, _ => none
  | _ + 1, none, previous => some previous
  | fuel + 1, some e, previous =>
    if (heap e).chunk = chunk ∧ (heap e).pointer < (heap new).pointer then
      skipChunk heap chunk fuel (heap e).nextEnabled (some e)
    else some previous

/-- The loop of `_add_to_enabled_attrib_list`: the memory, `chunk` and `previous_attrib`
after it. -/
def addLoop : ℕ → (Loc → VertexAttrib) → Option Loc → Option Loc → ℕ →
    Option ((Loc → VertexAttrib) × ℕ × Option Loc)
  | 0, _, _, _, _ => none
  | _ + 1, heap, none, previous, chunk => some (heap, chunk, previous)
  | fuel + 1, heap, some e, previous, _ =>
    if attribsMemoryOverlap (heap new) (heap e) then
      (skipChunk new heap (heap e).chunk fuel (some e) previous).map
        fun previous => (heap, (heap e).chunk, previous)
    else
      -- `chunk = previous_attrib->chunk++`
      addLoop fuel (Function.update heap e { heap e with chunk := uint ((heap e).chunk + 1) })
        (heap e).nextEnabled (some e) (heap e).chunk

/-- `_add_to_enabled_attrib_list`. -/
def addToEnabledAttribList (fuel : ℕ) : Option AttribList :=
  match list.enabledAttribs with
  | none => some { list with
      enabledCount := list.enabledCount + 1
      enabledAttribs := some new
      heap := Function.update list.heap new { list.heap new with chunk := 1, nextEnabled := none } }
  | some e =>
    (addLoop new fuel list.heap (some e) none 0).map fun (heap, chunk, previous) =>
      let heap := Function.update heap new { heap new with chunk := chunk }
      match previous with
      | none => { list with
          enabledCount := list.enabledCount + 1
          enabledAttribs := some new
          heap := setNext heap new none }
      | some p => { list with
          enabledCount := list.enabledCount + 1
          heap := setNext (setNext heap new (heap p).nextEnabled) p (some new) }

/-- The first attribute of the block with the given index. -/
def findIndex (index : ℕ) : Option Loc :=
  ((List.range list.count).find? fun i => (list.heap ⟨list.attribs, i⟩).index == index).map
    fun i => ⟨list.attribs, i⟩

/-- A new attribute at the end of the block, which is first moved when it is full. `memcpy`
takes along one attribute more than there is. -/
def appendAttrib (attrib : VertexAttrib) : AttribList :=
  if list.count < numEmbedded then
    { list with
      heap := Function.update list.heap ⟨list.attribs, list.count⟩ attrib
      count := list.count + 1 }
  else
    let copied : Loc → VertexAttrib := fun l =>
      if l.block = list.nextBlock ∧ l.idx ≤ list.count then list.heap ⟨list.attribs, l.idx⟩
      else list.heap l
    { list with
      heap := Function.update copied ⟨list.nextBlock, list.count⟩ attrib
      freed := if list.attribs ≠ 0 then list.attribs :: list.freed else list.freed
      nextBlock := list.nextBlock + 1
      attribs := list.nextBlock
      count := list.count + 1 }

end Helpers

/-- The calls forwarded to the server. -/
inductive DriverCall
  | bindBuffer (target buffer : ℕ)
  | enableVertexAttribArray (index : ℕ)
  | disableVertexAttribArray (index : ℕ)
  | vertexAttribPointer (index : ℕ) (size : ℤ) (type : ℕ) (normalized : Bool) (stride : ℤ)
      (pointer : ℕ)
  | getMaxVertexAttribs
  deriving DecidableEq, Repr

/-- The fields of `egl_state_t` these entry points use. -/
structure ClientState where
  vertexAttribs : AttribList
  vertexArrayBinding : ℕ
  arrayBufferBinding : ℕ
  elementArrayBufferBinding : ℕ
  maxVertexAttribsQueried : Bool
  maxVertexAttribs : ℤ
  active : Bool
  error : ℕ
  calls : List DriverCall

def glNoError : ℕ := 0
def glInvalidEnum : ℕ := 0x0500
def glInvalidValue : ℕ := 0x0501
def glArrayBuffer : ℕ := 0x8892
def glElementArrayBuffer : ℕ := 0x8893

section EntryPoints

-- `driverMax` is what the driver answers for `GL_MAX_VERTEX_ATTRIBS`.
variable (driverMax : ℤ) (s : ClientState)

/-- `caching_client_glSetError`. -/
def setError (error : ℕ) : ClientState :=
  if s.active ∧ s.error = glNoError then { s with error := error } else s

def forward (call : DriverCall) : ClientState := { s with calls := s.calls ++ [call] }

/-- The query of `caching_client_does_index_overflow`, made once. -/
def queryMaxVertexAttribs : ClientState :=
  if s.maxVertexAttribsQueried then s
  else { forward s .getMaxVertexAttribs with
    maxVertexAttribs := driverMax, maxVertexAttribsQueried := true }

/-- `caching_client_does_index_overflow`. The comparison is unsigned. -/
def doesIndexOverflow (index : ℕ) : ClientState × Bool :=
  let s := queryMaxVertexAttribs driverMax s
  if index ≤ uint s.maxVertexAttribs then (s, false) else (setError s glInvalidValue, true)

/-- `caching_client_glBindBuffer`. -/
def bindBuffer (target buffer : ℕ) : ClientState :=
  if target = glArrayBuffer then
    if s.arrayBufferBinding = buffer then s
    else { forward s (.bindBuffer target buffer) with arrayBufferBinding := buffer }
  else if target = glElementArrayBuffer then
    if s.elementArrayBufferBinding = buffer then s
    else { forward s (.bindBuffer target buffer) with elementArrayBufferBinding := buffer }
  else setError s glInvalidEnum

/-- The attribute a first enable or disable of an index makes. -/
def freshAttrib (index bound : ℕ) (enable : Bool) : VertexAttrib where
  index := index
  arrayBufferBinding := bound
  arrayEnabled := enable
  size := 0
  stride := 0
  type := glFloat
  pointer := 0
  arrayNormalized := false
  nextEnabled := none
  chunk := 0

def setArrayEnabled (list : AttribList) (a : Loc) (enable : Bool) : AttribList :=
  { list with heap := Function.update list.heap a { list.heap a with arrayEnabled := enable } }

def enableCall (index : ℕ) (enable : Bool) : DriverCall :=
  if enable then .enableVertexAttribArray index else .disableVertexAttribArray index

/-- `caching_client_glSetVertexAttribArray`. The attribute found is marked before the
index is checked. -/
def setVertexAttribArray (fuel index : ℕ) (enable : Bool) : Option ClientState :=
  if s.vertexArrayBinding ≠ 0 then some (forward s (enableCall index enable))
  else
    match findIndex s.vertexAttribs index with
    | some a =>
      if (s.vertexAttribs.heap a).arrayEnabled = enable then some s
      else
        let s := { s with vertexAttribs := setArrayEnabled s.vertexAttribs a enable }
        let (s, overflow) := doesIndexOverflow driverMax s index
        if overflow then some s
        else
          let s := forward s (enableCall index enable)
          if s.arrayBufferBinding ≠ 0 then some s
          else
            (if enable then addToEnabledAttribList s.vertexAttribs a fuel
              else removeFromEnabledAttribList s.vertexAttribs a fuel).map
                fun list => { s with vertexAttribs := list }
    | none =>
      let (s, overflow) := doesIndexOverflow driverMax s index
      if overflow then some s
      else
        let s := forward s (enableCall index enable)
        some { s with
          vertexAttribs :=
            appendAttrib s.vertexAttribs (freshAttrib index s.arrayBufferBinding enable) }

/-- The arguments of `glVertexAttribPointer` behind the index. -/
structure PointerArgs where
  size : ℤ
  type : ℕ
  normalized : Bool
  stride : ℤ
  pointer : ℕ
  deriving DecidableEq, Repr

/-- The attribute with the arguments and the bound buffer stored. -/
def PointerArgs.store (args : PointerArgs) (bound : ℕ) (attrib : VertexAttrib) : VertexAttrib :=
  { attrib with
    size := args.size
    stride := args.stride
    type := args.type
    arrayNormalized := args.normalized
    arrayBufferBinding := bound
    pointer := args.pointer }

/-- `caching_client_glVertexAttribPointer`. -/
def vertexAttribPointer (fuel index : ℕ) (args : PointerArgs) : Option ClientState :=
  if ¬(args.type = glByte ∨ args.type = glUnsignedByte ∨ args.type = glShort ∨
      args.type = glUnsignedShort ∨ args.type = glFloat ∨ args.type = glFixed) then
    some (setError s glInvalidEnum)
  else if args.size > 4 ∨ args.size < 1 ∨ args.stride < 0 then some (setError s glInvalidValue)
  else
    let (s, overflow) := doesIndexOverflow driverMax s index
    let call : DriverCall :=
      .vertexAttribPointer index args.size args.type args.normalized args.stride args.pointer
    if overflow then some s
    else if s.vertexArrayBinding ≠ 0 then some (forward s call)
    else
      let bound := s.arrayBufferBinding
      let list := s.vertexAttribs
      match findIndex list index with
      | some a =>
        if args.store bound (list.heap a) = list.heap a then some s
        else
          let s := if bound ≠ 0 then forward s call else s
          let list := { list with
            heap := Function.update list.heap a (args.store bound (list.heap a)) }
          if (list.heap a).arrayEnabled then do
            let list ← removeFromEnabledAttribList list a fuel
            let list ← addToEnabledAttribList list a fuel
            return { s with vertexAttribs := list }
          else some { s with vertexAttribs := list }
      | none =>
        let s := if bound ≠ 0 then forward s call else s
        some { s with
          vertexAttribs := appendAttrib list (args.store bound (freshAttrib index bound false)) }

end EntryPoints

/-- The calls of an application. -/
inductive Op
  | bindBuffer (target buffer : ℕ)
  | enableVertexAttribArray (index : ℕ)
  | disableVertexAttribArray (index : ℕ)
  | vertexAttribPointer (index : ℕ) (args : PointerArgs)

def runOp (driverMax : ℤ) (fuel : ℕ) (s : ClientState) : Op → Option ClientState
  | .bindBuffer target buffer => some (bindBuffer s target buffer)
  | .enableVertexAttribArray index => setVertexAttribArray driverMax s fuel index true
  | .disableVertexAttribArray index => setVertexAttribArray driverMax s fuel index false
  | .vertexAttribPointer index args => vertexAttribPointer driverMax s fuel index args

/-- `egl_state_init`, over embedded attributes of any content, for a current context. -/
def initial (heap : Loc → VertexAttrib) : ClientState where
  vertexAttribs := ⟨heap, [], 1, 0, 0, 0, none⟩
  vertexArrayBinding := 0
  arrayBufferBinding := 0
  elementArrayBufferBinding := 0
  maxVertexAttribsQueried := false
  maxVertexAttribs := 8
  active := true
  error := glNoError
  calls := []

/-- All sequences of calls that return, from `egl_state_init` on. -/
def system (driverMax : ℤ) : System ClientState Op where
  Init s := ∃ heap, s = initial heap
  Step s op t := ∃ fuel, runOp driverMax fuel s op = some t

end GpuProxy.VertexAttribs
