import GpuProxy.Math.MachineInt
import GpuProxy.Math.PartialMap
import GpuProxy.Math.TransitionSystem
import GpuProxy.Names.HashTable

/-!
# Names of GL objects

The client numbers the objects of a context itself, with one `name_handler_t` for each kind
of object, programs and shaders sharing one. The server has the driver make the objects and
keeps the driver's names in `name_mapping`, one hash table for all kinds; the handlers of
the other commands look the names up in it. A step of the system is a command with the
client's part of the call before it is sent and the server's handling of it. Calls that the
client answers itself send no command and are no steps.

## Main definitions

* `NameHandler`, `allocNames`, `allocName`, `deleteNames` — `name_handler.c`
* `Server` — the name mapping, and the calls made to the driver
* `handleGen`, `handleDelete`, `handleMapped`, … — the handlers
* `MappedCommand`, `attribList` — the commands whose names are looked up
* `Call`, `runCall`, `system` — the commands of a client, with the names the driver returns
-/

namespace GpuProxy.Names

open Math

/-! ### The client's names -/

/-- `name_handler_t`. -/
structure NameHandler where
  lastName : ℕ
  reusableNames : List ℕ
  deriving DecidableEq, Repr

/-- `name_handler_create`. -/
def nameHandlerCreate : NameHandler := ⟨0, []⟩

/-- `UINT_MAX`. -/
def uintMax : ℕ := 2 ^ 32 - 1

/-- One round of the loop of `name_handler_alloc_names`. There is no result when its
assertion fails. -/
def nextName (handler : NameHandler) : Option (ℕ × NameHandler) :=
  match handler.reusableNames with
  | name :: names => some (name, { handler with reusableNames := names })
  | [] =>
    let name := uint (handler.lastName + 1)
    if name = uintMax then none else some (name, { handler with lastName := name })

/-- `name_handler_alloc_names`. -/
def allocNames (handler : NameHandler) : ℕ → Option (List ℕ × NameHandler)
  | 0 => some ([], handler)
  | n + 1 => do
    let (name, handler) ← nextName handler
    let (names, handler) ← allocNames handler n
    return (name :: names, handler)

theorem allocNames_succ {handler : NameHandler} {n : ℕ} : allocNames handler (n + 1) =
    (nextName handler).bind fun first =>
      (allocNames first.2 n).map fun rest => (first.1 :: rest.1, rest.2) := by
  cases hnext : nextName handler with
  | none => simp [allocNames, hnext]
  | some first =>
    cases hrest : allocNames first.2 n <;> simp [allocNames, hnext, hrest]

theorem length_allocNames {handler handler' : NameHandler} {names : List ℕ} {n : ℕ}
    (h : allocNames handler n = some (names, handler')) :
    names.length = n := by
  induction n generalizing handler names with
  | zero =>
    cases h
    rfl
  | succ n ih =>
    rw [allocNames_succ] at h
    obtain ⟨⟨first, next⟩, -, hrest⟩ := Option.bind_eq_some_iff.mp h
    obtain ⟨⟨rest, last⟩, halloc, heq⟩ := Option.map_eq_some_iff.mp hrest
    cases heq
    rw [List.length_cons, ih halloc]

/-- `name_handler_alloc_name`. -/
def allocName (handler : NameHandler) (buffer : ℕ) : NameHandler :=
  if buffer ≥ handler.lastName then { handler with lastName := uint (handler.lastName + 1) }
  else { handler with reusableNames := handler.reusableNames.erase buffer }

/-- `name_handler_delete_names`. -/
def deleteNames (handler : NameHandler) (buffers : List ℕ) : NameHandler :=
  { handler with reusableNames := handler.reusableNames ++ buffers.filter (· ≠ 0) }

/-- The kinds of objects that have names. -/
inductive Kind
  | buffer
  | framebuffer
  | texture
  | renderbuffer
  | program
  | shader
  deriving DecidableEq, Repr

/-- The name handlers of `egl_state_t`. -/
inductive Handler
  | buffer
  | framebuffer
  | texture
  | renderbuffer
  | shaderObjects
  deriving DecidableEq, Repr

/-- The handler that numbers the objects of a kind. -/
def Kind.handler : Kind → Handler
  | .buffer => .buffer
  | .framebuffer => .framebuffer
  | .texture => .texture
  | .renderbuffer => .renderbuffer
  | .program => .shaderObjects
  | .shader => .shaderObjects

/-! ### The server -/

/-- The commands with `mapped_names`, apart from those the server has its own handlers for. -/
inductive MappedCommand
  | glGetUniformLocation
  | glGetAttribLocation
  | glGetActiveAttrib
  | glGetActiveUniform
  | glGetAttachedShaders
  | glGetProgramInfoLog
  | glGetProgramiv
  | glGetShaderInfoLog
  | glGetShaderSource
  | glGetShaderiv
  | glGetUniformiv
  | glGetUniformfv
  | glBindBuffer
  | glIsBuffer
  | glBindFramebuffer
  | glIsFramebuffer
  | glBindTexture
  | glIsTexture
  | glFramebufferTexture2D
  | glBindRenderbuffer
  | glIsRenderbuffer
  | glFramebufferRenderbuffer
  | glFramebufferTexture2DMultisampleEXT
  | glFramebufferTexture2DMultisampleIMG
  | glAttachShader
  | glBindAttribLocation
  | glDetachShader
  | glIsProgram
  | glLinkProgram
  | glUseProgram
  | glValidateProgram
  | glCompileShader
  | glIsShader
  | glShaderSource
  deriving DecidableEq, Repr

/-- `attrib_list`, with the kinds of the names. -/
def attribList : MappedCommand → List Kind
  | .glBindBuffer | .glIsBuffer => [.buffer]
  | .glBindFramebuffer | .glIsFramebuffer => [.framebuffer]
  | .glBindTexture | .glIsTexture | .glFramebufferTexture2D
  | .glFramebufferTexture2DMultisampleEXT | .glFramebufferTexture2DMultisampleIMG => [.texture]
  | .glBindRenderbuffer | .glIsRenderbuffer | .glFramebufferRenderbuffer => [.renderbuffer]
  | .glAttachShader | .glDetachShader => [.program, .shader]
  | .glGetShaderInfoLog | .glGetShaderSource | .glGetShaderiv | .glCompileShader | .glIsShader
  | .glShaderSource => [.shader]
  | .glGetUniformLocation | .glGetAttribLocation | .glGetActiveAttrib | .glGetActiveUniform
  | .glGetAttachedShaders | .glGetProgramInfoLog | .glGetProgramiv | .glGetUniformiv
  | .glGetUniformfv | .glBindAttribLocation | .glIsProgram | .glLinkProgram | .glUseProgram
  | .glValidateProgram => [.program]

/-- `create_attrib_if_needed`. -/
def createAttribIfNeeded : MappedCommand → Bool
  | .glBindBuffer | .glBindTexture | .glFramebufferTexture2D | .glBindRenderbuffer => true
  | _ => false

/-- The calls made to the driver, with the names they pass. -/
inductive DriverCall
  | gen (kind : Kind) (n : ℕ)
  | delete (kind : Kind) (names : List ℕ)
  | createProgram
  | createShader (type : ℕ)
  | deleteProgram (program : ℕ)
  | deleteShader (shader : ℕ)
  | mapped (command : MappedCommand) (names : List ℕ)
  deriving DecidableEq, Repr

/-- `name_mapping`, and the calls made to the driver so far. -/
structure Server where
  nameMapping : HashTable ℕ
  driverCalls : List DriverCall

namespace Server

variable (server : Server)

def dispatch (call : DriverCall) : Server :=
  { server with driverCalls := server.driverCalls ++ [call] }

/-- The loop of the `server_handle_glgen*` functions. -/
def insertNames (mapping : HashTable ℕ) (pairs : List (ℕ × ℕ)) : Option (HashTable ℕ) :=
  pairs.foldlM (fun mapping p => hashInsert mapping p.1 p.2) mapping

/-- `server_handle_glgen*`. -/
def handleGen (kind : Kind) (names serverNames : List ℕ) : Option Server := do
  let server := server.dispatch (.gen kind names.length)
  let mapping ← insertNames server.nameMapping (names.zip serverNames)
  return { server with nameMapping := mapping }

def handleGlGenBuffers := server.handleGen .buffer
def handleGlGenFramebuffers := server.handleGen .framebuffer
def handleGlGenTextures := server.handleGen .texture
def handleGlGenRenderbuffers := server.handleGen .renderbuffer

/-- The loop of the `server_handle_gldelete*` functions: the names, replaced by the
driver's where there is an entry. -/
def takeNames (mapping : HashTable ℕ) : List ℕ → List ℕ × HashTable ℕ
  | [] => ([], mapping)
  | name :: names =>
    let (entry, mapping) := hashTake mapping name
    let (names, mapping) := takeNames mapping names
    (entry.getD name :: names, mapping)

/-- `server_handle_gldelete*`, with the kind of objects the driver is told to delete. -/
def handleDelete (kind : Kind) (names : List ℕ) : Server :=
  let (names, mapping) := takeNames server.nameMapping names
  { server with nameMapping := mapping }.dispatch (.delete kind names)

def handleGlDeleteBuffers := server.handleDelete .buffer
def handleGlDeleteFramebuffers := server.handleDelete .framebuffer
def handleGlDeleteTextures := server.handleDelete .texture
-- It is `glDeleteBuffers` that is called.
def handleGlDeleteRenderbuffers := server.handleDelete .buffer

/-- `server_handle_glcreateprogram`. -/
def handleGlCreateProgram (result program : ℕ) : Option Server := do
  let server := server.dispatch .createProgram
  let mapping ← hashInsert server.nameMapping result program
  return { server with nameMapping := mapping }

/-- `server_handle_glcreateshader`. -/
def handleGlCreateShader (type result shader : ℕ) : Option Server := do
  let server := server.dispatch (.createShader type)
  let mapping ← hashInsert server.nameMapping result shader
  return { server with nameMapping := mapping }

/-- `server_handle_gldeleteprogram`. -/
def handleGlDeleteProgram (program : ℕ) : Server :=
  let (entry, mapping) := hashTake server.nameMapping program
  let server := { server with nameMapping := mapping }
  match entry with
  | some program => server.dispatch (.deleteProgram program)
  | none => server

/-- `server_handle_gldeleteshader`. -/
def handleGlDeleteShader (shader : ℕ) : Server :=
  let (entry, mapping) := hashTake server.nameMapping shader
  let server := { server with nameMapping := mapping }
  match entry with
  | some shader => server.dispatch (.deleteShader shader)
  | none => server.dispatch (.deleteShader 0xffffffff)

/-- The mapped names of a generated handler: the table, and the driver's names if none is
missing. -/
def mapNames (create : Bool) (mapping : HashTable ℕ) :
    List ℕ → Option (HashTable ℕ × Option (List ℕ))
  | [] => some (mapping, some [])
  | name :: names => do
    if name = 0 then
      let (mapping, rest) ← mapNames create mapping names
      return (mapping, rest.map (name :: ·))
    else
      match hashLookup mapping name with
      | some entry =>
        let (mapping, rest) ← mapNames create mapping names
        return (mapping, rest.map (entry :: ·))
      | none =>
        if create then
          let mapping ← hashInsert mapping name name
          let (mapping, rest) ← mapNames create mapping names
          return (mapping, rest.map (name :: ·))
        else return (mapping, none)

/-- A generated handler. -/
def handleMapped (command : MappedCommand) (names : List ℕ) : Option Server := do
  let (mapping, mapped) ← mapNames (createAttribIfNeeded command) server.nameMapping names
  let server := { server with nameMapping := mapping }
  match mapped with
  | some names => return server.dispatch (.mapped command names)
  | none => return server

end Server

/-! ### The calls of an application -/

/-- The names of a context, with the server. -/
structure State where
  nameHandlers : Handler → NameHandler
  /-- The keys of `texture_cache`. -/
  textureCache : List ℕ
  server : Server
  /-- The driver's name for each name generated as a kind, and not deleted as it since. -/
  live : Kind → ℕ → Option ℕ

/-- The commands a client sends, with the names the driver returns. -/
inductive Call
  | glGenBuffers (serverBuffers : List ℕ)
  | glGenFramebuffers (serverFramebuffers : List ℕ)
  | glGenTextures (serverTextures : List ℕ)
  | glGenRenderbuffers (serverRenderbuffers : List ℕ)
  | glCreateProgram (program : ℕ)
  | glCreateShader (type shader : ℕ)
  | glDeleteBuffers (buffers : List ℕ)
  | glDeleteFramebuffers (framebuffers : List ℕ)
  | glDeleteTextures (textures : List ℕ)
  | glDeleteRenderbuffers (renderbuffers : List ℕ)
  | glDeleteProgram (program : ℕ)
  | glDeleteShader (shader : ℕ)
  | mapped (command : MappedCommand) (names : List ℕ)
  deriving DecidableEq, Repr

namespace State

variable (s : State)

/-- New names of a kind: the client takes them from its handler, the server has the driver
make the objects. -/
def gen (kind : Kind) (serverNames : List ℕ)
    (handle : Server → List ℕ → List ℕ → Option Server) : Option (List ℕ × State) := do
  let (names, handler) ← allocNames (s.nameHandlers kind.handler) serverNames.length
  let server ← handle s.server names serverNames
  return (names, { s with
    nameHandlers := Function.update s.nameHandlers kind.handler handler
    server := server
    live := Function.update s.live kind (assign (s.live kind) (names.zip serverNames)) })

/-- The server's part of deleting names. -/
def delete (kind : Kind) (names : List ℕ) (server : Server) : State :=
  { s with
    server := server
    live := Function.update s.live kind (without (s.live kind) names) }

/-- The client's part of deleting names, where they are given back. -/
def reuse (handler : Handler) (names : List ℕ) : State :=
  { s with
    nameHandlers :=
      Function.update s.nameHandlers handler (deleteNames (s.nameHandlers handler) names) }

/-- `caching_client_glBindTexture` takes a texture it does not know for a name the
application has chosen. -/
def nameUnknownTexture (command : MappedCommand) (names : List ℕ) : State :=
  match command, names with
  | .glBindTexture, [texture] =>
    if texture ≠ 0 ∧ texture ∉ s.textureCache then
      { s with
        nameHandlers :=
          Function.update s.nameHandlers .texture (allocName (s.nameHandlers .texture) texture)
        textureCache := texture :: s.textureCache }
    else s
  | _, _ => s

end State

/-- One command, from the client's call to the server's handling of it. -/
def runCall (s : State) : Call → Option State
  | .glGenBuffers names => do
    let (_, s) ← s.gen .buffer names Server.handleGlGenBuffers
    return s
  | .glGenFramebuffers names => do
    let (_, s) ← s.gen .framebuffer names Server.handleGlGenFramebuffers
    return s
  | .glGenTextures names => do
    let (textures, s) ← s.gen .texture names Server.handleGlGenTextures
    return { s with textureCache := textures ++ s.textureCache }
  | .glGenRenderbuffers names => do
    let (_, s) ← s.gen .renderbuffer names Server.handleGlGenRenderbuffers
    return s
  | .glCreateProgram program => do
    let (_, s) ← s.gen .program [program] fun server names _ =>
      server.handleGlCreateProgram (names.headD 0) program
    return s
  | .glCreateShader type shader => do
    let (_, s) ← s.gen .shader [shader] fun server names _ =>
      server.handleGlCreateShader type (names.headD 0) shader
    return s
  | .glDeleteBuffers buffers =>
    some ((s.delete .buffer buffers (s.server.handleGlDeleteBuffers buffers)).reuse
      .buffer buffers)
  | .glDeleteFramebuffers framebuffers =>
    some ((s.delete .framebuffer framebuffers
      (s.server.handleGlDeleteFramebuffers framebuffers)).reuse .framebuffer framebuffers)
  | .glDeleteTextures textures =>
    some { s.delete .texture textures (s.server.handleGlDeleteTextures textures) with
      textureCache := s.textureCache.filter (· ∉ textures) }
  | .glDeleteRenderbuffers renderbuffers =>
    some ((s.delete .renderbuffer renderbuffers
      (s.server.handleGlDeleteRenderbuffers renderbuffers)).reuse .renderbuffer renderbuffers)
  | .glDeleteProgram program =>
    some (s.delete .program [program] (s.server.handleGlDeleteProgram program))
  | .glDeleteShader shader =>
    some (s.delete .shader [shader] (s.server.handleGlDeleteShader shader))
  | .mapped command names => do
    let s := s.nameUnknownTexture command names
    let server ← s.server.handleMapped command names
    return { s with server := server }

/-- The name handlers of `egl_state_init`, and the table of `server_init`. -/
def initial : State where
  nameHandlers _ := nameHandlerCreate
  textureCache := []
  server := ⟨newHashTable, []⟩
  live _ _ := none

/-- All sequences of commands, with every choice of names by the driver. -/
def system : System State Call := System.ofStep (· = initial) runCall

end GpuProxy.Names
