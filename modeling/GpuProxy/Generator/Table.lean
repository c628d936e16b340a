import Mathlib.Data.List.Basic

/-!
# The table of the generator

`build_gles2_cmd_buffer.py` writes the functions that initialise the commands. It takes the
declarations of the functions from a file, and what else is to be known from a table: here, how
many elements there are behind a pointer.

A type in a declaration is a word with a suffix, as `GLsizei` with `NotNegative`, and stars.

## Main definitions

* `FunctionInfo`, `functionInfo` — the table, with the functions that have sizes
* `TypeText`, `Argument`, `createArg` — an argument, and how it is read
* `Function`, `parseApiFile` — a function, and how the declarations are read
-/

namespace GpuProxy.Generator

/-! ### The table -/

/-- `FunctionInfo`: the sizes for the names of arguments, and what makes a function synchronous. -/
structure FunctionInfo where
  type : String := ""
  argumentHasSize : List (String × String) := []
  argumentElementSize : List (String × ℕ) := []
  argumentSizeFromFunction : List (String × String) := []
  outArguments : List String := []

/-- The functions of `_FUNCTION_INFO` that have sizes. -/
def functionInfo : List (String × FunctionInfo) := [
  ("glBufferData", { argumentHasSize := [("data", "size")] }),
  ("glBufferSubData", { argumentHasSize := [("data", "size")] }),
  ("glCompressedTexImage2D", { argumentHasSize := [("data", "imageSize")] }),
  ("glCompressedTexSubImage2D", { argumentHasSize := [("data", "imageSize")] }),
  ("glCompressedTexImage3DOES", { argumentHasSize := [("data", "imageSize")] }),
  ("glCompressedTexSubImage3DOES", { argumentHasSize := [("data", "imageSize")] }),
  ("glDeleteBuffers", { argumentHasSize := [("buffers", "n")] }),
  ("glDeleteFramebuffers", { argumentHasSize := [("framebuffers", "n")] }),
  ("glDeleteRenderbuffers", { argumentHasSize := [("renderbuffers", "n")] }),
  ("glDeleteTextures", { argumentHasSize := [("textures", "n")] }),
  ("glDeleteVertexArraysOES", { argumentHasSize := [("arrays", "n")] }),
  ("glDiscardFramebufferEXT", { argumentHasSize := [("attachments", "numAttachments")] }),
  ("glDeleteFencesNV", { argumentHasSize := [("fences", "count")] }),
  ("glDeleteQueriesEXT", { argumentHasSize := [("queries", "n")] }),
  ("glShaderBinary", { argumentHasSize := [("shaders", "n"), ("binary", "length")] }),
  ("glUniform1fv", { argumentHasSize := [("v", "count")], argumentElementSize := [("v", 1)] }),
  ("glUniform2fv", { argumentHasSize := [("v", "count")], argumentElementSize := [("v", 2)] }),
  ("glUniform3fv", { argumentHasSize := [("v", "count")], argumentElementSize := [("v", 3)] }),
  ("glUniform4fv", { argumentHasSize := [("v", "count")], argumentElementSize := [("v", 4)] }),
  ("glUniform1iv", { argumentHasSize := [("v", "count")], argumentElementSize := [("v", 1)] }),
  ("glUniform2iv", { argumentHasSize := [("v", "count")], argumentElementSize := [("v", 2)] }),
  ("glUniform3iv", { argumentHasSize := [("v", "count")], argumentElementSize := [("v", 3)] }),
  ("glUniform4iv", { argumentHasSize := [("v", "count")], argumentElementSize := [("v", 4)] }),
  ("glUniformMatrix2fv",
    { argumentHasSize := [("value", "count")], argumentElementSize := [("value", 4)] }),
  ("glUniformMatrix3fv",
    { argumentHasSize := [("value", "count")], argumentElementSize := [("value", 9)] }),
  ("glUniformMatrix4fv",
    { argumentHasSize := [("value", "count")], argumentElementSize := [("value", 16)] }),
  ("glVertexAttrib1fv", { argumentElementSize := [("values", 1)] }),
  ("glVertexAttrib2fv", { argumentElementSize := [("values", 2)] }),
  ("glVertexAttrib3fv", { argumentElementSize := [("values", 3)] }),
  ("glVertexAttrib4fv", { argumentElementSize := [("values", 4)] }),
  ("glProgramBinaryOES", { argumentHasSize := [("binary", "length")] }),
  ("glDeletePerfMonitorsAMD", { argumentHasSize := [("monitors", "n")] }),
  ("glSelectPerfMonitorCountersAMD", { argumentHasSize := [("countersList", "numCounters")] })]

/-- `GetFunctionInfo`. -/
def getFunctionInfo (name : String) : FunctionInfo := (functionInfo.lookup name).getD {}

/-! ### Arguments -/

/-- The words that types start with. Those of EGL are not among them. -/
inductive TypeWord
  | void
  | char
  | glVoid
  | glChar
  | glBoolean
  | glBitfield
  | glEnum
  | glInt
  | glIntptr
  | glSizei
  | glSizeiptr
  | glUint
  | glFloat
  | glClampf
  | glEglImageOes
  | glId
  deriving DecidableEq

/-- The text of a type. -/
structure TypeText where
  isConst : Bool
  word : TypeWord
  suffix : String
  stars : ℕ
  deriving DecidableEq

/-- `Argument`. -/
structure Argument where
  name : String
  type : TypeText
  deriving DecidableEq

/-- Arguments as they are declared. -/
def Argument.value (word : TypeWord) (suffix name : String) : Argument :=
  ⟨name, false, word, suffix, 0⟩

def Argument.pointer (word : TypeWord) (name : String) : Argument := ⟨name, false, word, "", 1⟩

def Argument.constPointer (word : TypeWord) (name : String) : Argument := ⟨name, true, word, "", 1⟩

/-- `CreateArg`, and `Argument.__init__` for the suffix `Optional`. -/
def createArg (arg : Argument) : Argument :=
  let type := arg.type
  if 0 < type.stars then
    if type.suffix = "Optional" ∧ type.stars = 1 then
      { arg with type := { type with suffix := "" } }
    else arg
  else match type.word with
    | .glId => { arg with type := { type with word := .glUint, suffix := "" } }
    | .glEnum | .glBoolean | .glInt => { arg with type := { type with suffix := "" } }
    | .glSizei | .glIntptr =>
      if type.suffix = "NotNegative" then { arg with type := { type with suffix := "" } } else arg
    | _ => arg

/-! ### Functions -/

/-- `Function`. It returns nothing or a number: `glGetString` and `glMapBufferOES`, which
return pointers, are left out. -/
structure Function where
  name : String
  info : FunctionInfo
  returnType : TypeWord
  args : List Argument

/-- `IsSynchronous`. -/
def Function.isSynchronous (f : Function) : Bool :=
  if f.info.type = "Asynchronous" then false
  else f.info.type = "Synchronous" ∨ f.returnType ≠ .void ∨ 0 < f.info.outArguments.length

/-- The declarations in `gles2_functions.txt` of the functions that have sizes. -/
def gles2Functions : List (String × TypeWord × List Argument) := [
  ("glBufferData", .void, [.value .glEnum "BufferTarget" "target", .value .glSizeiptr "" "size",
      .constPointer .void "data", .value .glEnum "BufferUsage" "usage"]),
  ("glBufferSubData", .void, [.value .glEnum "BufferTarget" "target",
      .value .glIntptr "NotNegative" "offset", .value .glSizeiptr "" "size",
      .constPointer .void "data"]),
  ("glCompressedTexImage2D", .void, [.value .glEnum "TextureTarget" "target",
      .value .glInt "" "level", .value .glEnum "" "internalformat", .value .glSizei "" "width",
      .value .glSizei "" "height", .value .glInt "TextureBorder" "border",
      .value .glSizei "" "imageSize", .constPointer .void "data"]),
  ("glCompressedTexSubImage2D", .void, [.value .glEnum "TextureTarget" "target",
      .value .glInt "" "level", .value .glInt "" "xoffset", .value .glInt "" "yoffset",
      .value .glSizei "" "width", .value .glSizei "" "height", .value .glEnum "" "format",
      .value .glSizei "" "imageSize", .constPointer .void "data"]),
  ("glDeleteBuffers", .void, [.value .glSizei "NotNegative" "n", .constPointer .glUint "buffers"]),
  ("glDeleteFramebuffers", .void, [.value .glSizei "NotNegative" "n",
      .constPointer .glUint "framebuffers"]),
  ("glDeleteRenderbuffers", .void, [.value .glSizei "NotNegative" "n",
      .constPointer .glUint "renderbuffers"]),
  ("glDeleteTextures", .void, [.value .glSizei "NotNegative" "n",
      .constPointer .glUint "textures"]),
  ("glShaderBinary", .void, [.value .glSizei "NotNegative" "n", .constPointer .glUint "shaders",
      .value .glEnum "" "binaryformat", .constPointer .void "binary",
      .value .glSizei "NotNegative" "length"]),
  ("glUniform1fv", .void, [.value .glInt "UniformLocation" "location",
      .value .glSizei "NotNegative" "count", .constPointer .glFloat "v"]),
  ("glUniform1iv", .void, [.value .glInt "UniformLocation" "location",
      .value .glSizei "NotNegative" "count", .constPointer .glInt "v"]),
  ("glUniform2fv", .void, [.value .glInt "UniformLocation" "location",
      .value .glSizei "NotNegative" "count", .constPointer .glFloat "v"]),
  ("glUniform2iv", .void, [.value .glInt "UniformLocation" "location",
      .value .glSizei "NotNegative" "count", .constPointer .glInt "v"]),
  ("glUniform3fv", .void, [.value .glInt "UniformLocation" "location",
      .value .glSizei "NotNegative" "count", .constPointer .glFloat "v"]),
  ("glUniform3iv", .void, [.value .glInt "UniformLocation" "location",
      .value .glSizei "NotNegative" "count", .constPointer .glInt "v"]),
  ("glUniform4fv", .void, [.value .glInt "UniformLocation" "location",
      .value .glSizei "NotNegative" "count", .constPointer .glFloat "v"]),
  ("glUniform4iv", .void, [.value .glInt "UniformLocation" "location",
      .value .glSizei "NotNegative" "count", .constPointer .glInt "v"]),
  ("glUniformMatrix2fv", .void, [.value .glInt "UniformLocation" "location",
      .value .glSizei "NotNegative" "count", .value .glBoolean "FalseOnly" "transpose",
      .constPointer .glFloat "value"]),
  ("glUniformMatrix3fv", .void, [.value .glInt "UniformLocation" "location",
      .value .glSizei "NotNegative" "count", .value .glBoolean "FalseOnly" "transpose",
      .constPointer .glFloat "value"]),
  ("glUniformMatrix4fv", .void, [.value .glInt "UniformLocation" "location",
      .value .glSizei "NotNegative" "count", .value .glBoolean "FalseOnly" "transpose",
      .constPointer .glFloat "value"]),
  ("glVertexAttrib1fv", .void, [.value .glUint "" "indx", .constPointer .glFloat "values"]),
  ("glVertexAttrib2fv", .void, [.value .glUint "" "indx", .constPointer .glFloat "values"]),
  ("glVertexAttrib3fv", .void, [.value .glUint "" "indx", .constPointer .glFloat "values"]),
  ("glVertexAttrib4fv", .void, [.value .glUint "" "indx", .constPointer .glFloat "values"]),
  ("glDeleteQueriesEXT", .void, [.value .glSizei "NotNegative" "n",
      .constPointer .glUint "queries"]),
  ("glProgramBinaryOES", .void, [.value .glUint "" "program", .value .glEnum "" "binaryFormat",
      .constPointer .glVoid "binary", .value .glInt "" "length"]),
  ("glCompressedTexImage3DOES", .void, [.value .glEnum "" "target", .value .glInt "" "level",
      .value .glEnum "" "internalformat", .value .glSizei "" "width", .value .glSizei "" "height",
      .value .glSizei "" "depth", .value .glInt "" "border", .value .glSizei "" "imageSize",
      .constPointer .glVoid "data"]),
  ("glCompressedTexSubImage3DOES", .void, [.value .glEnum "" "target", .value .glInt "" "level",
      .value .glInt "" "xoffset", .value .glInt "" "yoffset", .value .glInt "" "zoffset",
      .value .glSizei "" "width", .value .glSizei "" "height", .value .glSizei "" "depth",
      .value .glEnum "" "format", .value .glSizei "" "imageSize", .constPointer .glVoid "data"]),
  ("glDeleteVertexArraysOES", .void, [.value .glSizei "" "n", .constPointer .glUint "arrays"]),
  ("glDeletePerfMonitorsAMD", .void, [.value .glSizei "" "n", .pointer .glUint "monitors"]),
  ("glSelectPerfMonitorCountersAMD", .void, [.value .glUint "" "monitor",
      .value .glBoolean "" "enable", .value .glUint "" "group", .value .glInt "" "numCounters",
      .pointer .glUint "countersList"]),
  ("glDiscardFramebufferEXT", .void, [.value .glEnum "" "target",
      .value .glSizei "" "numAttachments", .constPointer .glEnum "attachments"]),
  ("glDeleteFencesNV", .void, [.value .glSizei "" "count", .constPointer .glUint "fences"])]

/-- `ParseAPIFile`. -/
def parseApiFile (declarations : List (String × TypeWord × List Argument)) : List Function :=
  (declarations.filter fun (name, _) => (getFunctionInfo name).type ≠ "Noop").map
    fun (name, returnType, args) => ⟨name, getFunctionInfo name, returnType, args.map createArg⟩

/-- The functions that have sizes. -/
def sizedFunctions : List Function := parseApiFile gles2Functions

end GpuProxy.Generator
