import GpuProxy.Math.MachineInt

/-!
# Vertex attributes

`vertex_attrib_t` of `egl_state.h`, and the functions of `caching_client.c` that look
at one attribute or at a pair. An attribute is known by its address, its index in the
block it was allocated in.

## Main definitions

* `VertexAttrib` — `vertex_attrib_t`
* `getDataSize`, `vertexChunkSize` — the bytes an attribute, or a chunk of them, spans
* `attribsMemoryOverlap` — whether two attributes are put in one chunk
-/

namespace GpuProxy.VertexAttribs

open Math

/-- The address of a `vertex_attrib_t`: a block of them, and the position in it. Block 0
is `embedded_attribs`, the others come from `malloc`. -/
structure Loc where
  block : ℕ
  idx : ℕ
  deriving DecidableEq, Repr

/-- `vertex_attrib_t`. The current value and the `data` pointer, which only the draw
calls use and set anew each time, are left out. -/
structure VertexAttrib where
  index : ℕ
  arrayBufferBinding : ℕ
  arrayEnabled : Bool
  size : ℤ
  stride : ℤ
  type : ℕ
  pointer : ℕ
  arrayNormalized : Bool
  nextEnabled : Option Loc
  chunk : ℕ
  deriving DecidableEq, Repr

def glByte : ℕ := 0x1400
def glUnsignedByte : ℕ := 0x1401
def glShort : ℕ := 0x1402
def glUnsignedShort : ℕ := 0x1403
def glUnsignedInt : ℕ := 0x1405
def glFloat : ℕ := 0x1406
def glFixed : ℕ := 0x140C

/-- `_get_data_size`. -/
def getDataSize (type : ℕ) : ℕ :=
  if type = glByte ∨ type = glUnsignedByte then 1
  else if type = glShort ∨ type = glUnsignedShort then 2
  else if type = glFloat then 4
  else if type = glFixed then 4
  else 0

/-- `caching_client_vertex_chunk_size`. -/
def vertexChunkSize (first last : VertexAttrib) (count : ℕ) : ℕ :=
  let dataSize := getDataSize last.type
  if dataSize = 0 then 0
  else
    let stride := if last.stride ≠ 0 then uint last.stride else uint (last.size * dataSize)
    sizeT (stride * count + last.pointer - first.pointer)

/-- `_attribs_memory_overlap`. -/
def attribsMemoryOverlap (attrib1 attrib2 : VertexAttrib) : Bool :=
  let (first, second) :=
    if attrib1.pointer < attrib2.pointer then (attrib1, attrib2) else (attrib2, attrib1)
  decide ((second.pointer : ℤ) ≤ first.pointer + first.stride)

end GpuProxy.VertexAttribs
