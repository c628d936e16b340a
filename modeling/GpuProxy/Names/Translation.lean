import GpuProxy.Names.Server

/-!
# When the server translates names correctly

All kinds of objects share the server's name mapping, but each has names of its own on the
client's side. Generating a name that an object of another kind has replaces that object's
entry, and deleting it takes the entry away. Commands that avoid both keep the mapping
right for every kind, and one that does not breaks it at once.

## Main definitions

* `Translates` — every live name is looked up to the driver's name
* `KeepsNames` — no live object of another kind has a name that is generated or deleted

## Main results

* `runCall_cases` — what a command does to the live names and to the mapping
* `translates_iff_keepsNames` — one command, from a state with a right mapping
* `translates_of_keepsNames` — whole runs
* `handleMapped_of_translates` — the driver is called with its own names
* `exists_mistranslated` — a buffer and a texture
-/

namespace GpuProxy.Names

open Math

variable {s t : State} {call : Call} {kind : Kind} {handler handler' : NameHandler}
  {names serverNames values : List ℕ} {mapping mapping' : HashTable ℕ} {pairs : List (ℕ × ℕ)}

/-- Every name generated as an object of a kind, and not deleted as one since, is looked up
to the name the driver returned for it. -/
def Translates (s : State) : Prop :=
  ∀ kind n v, s.live kind n = some v → hashLookup s.server.nameMapping n = some v

/-- The kind of objects a command makes, and the driver's names for them. -/
def Call.generates : Call → Option (Kind × List ℕ)
  | .glGenBuffers serverNames => some (.buffer, serverNames)
  | .glGenFramebuffers serverNames => some (.framebuffer, serverNames)
  | .glGenTextures serverNames => some (.texture, serverNames)
  | .glGenRenderbuffers serverNames => some (.renderbuffer, serverNames)
  | .glCreateProgram program => some (.program, [program])
  | .glCreateShader _ shader => some (.shader, [shader])
  | _ => none

/-- The kind of objects a command deletes, and the client's names of them. -/
def Call.deletes : Call → Option (Kind × List ℕ)
  | .glDeleteBuffers names => some (.buffer, names)
  | .glDeleteFramebuffers names => some (.framebuffer, names)
  | .glDeleteTextures names => some (.texture, names)
  | .glDeleteRenderbuffers names => some (.renderbuffer, names)
  | .glDeleteProgram program => some (.program, [program])
  | .glDeleteShader shader => some (.shader, [shader])
  | _ => none

/-- No object of another kind has a name the command generates, unless the driver names
both alike, or one the command deletes. -/
structure KeepsNames (s : State) (call : Call) : Prop where
  gen : ∀ kind serverNames, call.generates = some (kind, serverNames) → ∀ names handler,
    allocNames (s.nameHandlers kind.handler) serverNames.length = some (names, handler) →
    ∀ n v, assign (fun _ => none) (names.zip serverNames) n = some v →
    ∀ other w, other ≠ kind → s.live other n = some w → w = v
  delete : ∀ kind names, call.deletes = some (kind, names) →
    ∀ n ∈ names, ∀ other, other ≠ kind → s.live other n = none

/-! ### The loops of the handlers -/

theorem hashLookup_insertNames (h : Server.insertNames mapping pairs = some mapping') :
    hashLookup mapping' = assign (hashLookup mapping) pairs := by
  induction pairs generalizing mapping with
  | nil =>
    cases h
    rfl
  | cons p pairs ih =>
    rw [Server.insertNames, List.foldlM_cons] at h
    obtain ⟨next, hinsert, hrest⟩ := Option.bind_eq_some_iff.mp h
    rw [ih hrest, hashLookup_hashInsert hinsert]
    rfl

theorem hashLookup_takeNames :
    hashLookup (Server.takeNames mapping names).2 = without (hashLookup mapping) names := by
  induction names generalizing mapping with
  | nil => rfl
  | cons name names ih =>
    simp only [Server.takeNames]
    rw [ih, hashLookup_hashTake]
    rfl

/-- Looking names up may add entries, and leaves the others. -/
theorem hashLookup_mapNames {create : Bool} {mapped : Option (List ℕ)} {n v : ℕ}
    (h : Server.mapNames create mapping names = some (mapping', mapped))
    (hn : hashLookup mapping n = some v) : hashLookup mapping' n = some v := by
  induction names generalizing mapping mapped with
  | nil =>
    cases h
    exact hn
  | cons name names ih =>
    rw [Server.mapNames] at h
    split at h
    next =>
      obtain ⟨⟨_, _⟩, hrest, heq⟩ := Option.bind_eq_some_iff.mp h
      cases heq
      exact ih hrest hn
    next =>
      split at h
      next =>
        obtain ⟨⟨_, _⟩, hrest, heq⟩ := Option.bind_eq_some_iff.mp h
        cases heq
        exact ih hrest hn
      next hmissing =>
        split at h
        next =>
          obtain ⟨next, hinsert, h⟩ := Option.bind_eq_some_iff.mp h
          obtain ⟨⟨_, _⟩, hrest, heq⟩ := Option.bind_eq_some_iff.mp h
          cases heq
          refine ih hrest ?_
          -- A name that is entered had no entry, so it is not `n`.
          have hne : n ≠ name := by
            rintro rfl
            rw [hmissing] at hn
            cases hn
          rw [hashLookup_hashInsert hinsert, Function.update_of_ne hne]
          exact hn
        next =>
          cases h
          exact hn

/-- Names that all have an entry are replaced by the entries. -/
theorem mapNames_of_hashLookup {create : Bool}
    (h : names.map (hashLookup mapping) = values.map some) :
    Server.mapNames create mapping names = some (mapping, some values) := by
  induction names generalizing values with
  | nil =>
    obtain rfl : values = [] := by simpa using h.symm
    rfl
  | cons name names ih =>
    cases values with
    | nil => cases h
    | cons value values =>
      rw [List.map_cons, List.map_cons, List.cons.injEq] at h
      have hne : name ≠ 0 := by
        rintro rfl
        cases h.1
      simp [Server.mapNames, hne, h.1, ih h.2]

/-! ### One command -/

/-- What generating names does, given what the handler does to the mapping. -/
theorem gen_spec {handle : Server → List ℕ → List ℕ → Option Server}
    (hhandle : ∀ server names server', names.length = serverNames.length →
      handle server names serverNames = some server' →
      hashLookup server'.nameMapping =
        assign (hashLookup server.nameMapping) (names.zip serverNames))
    (h : s.gen kind serverNames handle = some (names, t)) :
    (∃ handler, allocNames (s.nameHandlers kind.handler) serverNames.length =
        some (names, handler)) ∧
      t.live = Function.update s.live kind (assign (s.live kind) (names.zip serverNames)) ∧
      hashLookup t.server.nameMapping =
        assign (hashLookup s.server.nameMapping) (names.zip serverNames) := by
  obtain ⟨⟨_, handler⟩, halloc, h⟩ := Option.bind_eq_some_iff.mp h
  obtain ⟨server, hserver, heq⟩ := Option.bind_eq_some_iff.mp h
  cases heq
  exact ⟨⟨handler, halloc⟩, rfl, hhandle _ _ _ (length_allocNames halloc) hserver⟩

theorem handleGen_spec {server server' : Server}
    (h : server.handleGen kind names serverNames = some server') :
    hashLookup server'.nameMapping =
      assign (hashLookup server.nameMapping) (names.zip serverNames) := by
  obtain ⟨mapping, hinsert, heq⟩ := Option.bind_eq_some_iff.mp h
  cases heq
  exact hashLookup_insertNames hinsert

/-- `glCreateProgram` and `glCreateShader` make one object. -/
theorem create_spec {server : Server} {driverCall : DriverCall} {value : ℕ} {server' : Server}
    (hlength : names.length = [value].length)
    (h : (do
      let mapping ← hashInsert (server.dispatch driverCall).nameMapping (names.headD 0) value
      return { server.dispatch driverCall with nameMapping := mapping }) = some server') :
    hashLookup server'.nameMapping =
      assign (hashLookup server.nameMapping) (names.zip [value]) := by
  obtain ⟨name, rfl⟩ := List.length_eq_one_iff.mp hlength
  obtain ⟨mapping, hinsert, heq⟩ := Option.bind_eq_some_iff.mp h
  cases heq
  exact hashLookup_hashInsert hinsert

@[simp] theorem nameUnknownTexture_server {command : MappedCommand} :
    (s.nameUnknownTexture command names).server = s.server := by
  unfold State.nameUnknownTexture
  split
  · split <;> rfl
  · rfl

@[simp] theorem nameUnknownTexture_live {command : MappedCommand} :
    (s.nameUnknownTexture command names).live = s.live := by
  unfold State.nameUnknownTexture
  split
  · split <;> rfl
  · rfl

/-- What a command does to the names in use and to the mapping. -/
theorem runCall_cases (h : runCall s call = some t) :
    (∃ kind serverNames names handler,
      call.generates = some (kind, serverNames) ∧ call.deletes = none ∧
      allocNames (s.nameHandlers kind.handler) serverNames.length = some (names, handler) ∧
      t.live = Function.update s.live kind (assign (s.live kind) (names.zip serverNames)) ∧
      hashLookup t.server.nameMapping =
        assign (hashLookup s.server.nameMapping) (names.zip serverNames)) ∨
    (∃ kind names, call.generates = none ∧ call.deletes = some (kind, names) ∧
      t.live = Function.update s.live kind (without (s.live kind) names) ∧
      hashLookup t.server.nameMapping = without (hashLookup s.server.nameMapping) names) ∨
    (call.generates = none ∧ call.deletes = none ∧ t.live = s.live ∧
      ∀ n v, hashLookup s.server.nameMapping n = some v →
        hashLookup t.server.nameMapping n = some v) := by
  cases call with
  | glGenBuffers serverNames | glGenFramebuffers serverNames | glGenTextures serverNames
  | glGenRenderbuffers serverNames =>
    obtain ⟨⟨names, u⟩, hgen, heq⟩ := Option.bind_eq_some_iff.mp h
    cases heq
    obtain ⟨⟨handler, halloc⟩, hlive, hlookup⟩ :=
      gen_spec (fun _ _ _ _ hhandle => handleGen_spec hhandle) hgen
    exact .inl ⟨_, serverNames, names, handler, rfl, rfl, halloc, hlive, hlookup⟩
  | glCreateProgram program =>
    obtain ⟨⟨names, u⟩, hgen, heq⟩ := Option.bind_eq_some_iff.mp h
    cases heq
    obtain ⟨⟨handler, halloc⟩, hlive, hlookup⟩ := gen_spec (fun server names server' hlen hhandle =>
      create_spec hlen hhandle) hgen
    exact .inl ⟨_, [program], names, handler, rfl, rfl, halloc, hlive, hlookup⟩
  | glCreateShader type shader =>
    obtain ⟨⟨names, u⟩, hgen, heq⟩ := Option.bind_eq_some_iff.mp h
    cases heq
    obtain ⟨⟨handler, halloc⟩, hlive, hlookup⟩ := gen_spec (fun server names server' hlen hhandle =>
      create_spec hlen hhandle) hgen
    exact .inl ⟨_, [shader], names, handler, rfl, rfl, halloc, hlive, hlookup⟩
  | glDeleteBuffers names | glDeleteFramebuffers names | glDeleteTextures names
  | glDeleteRenderbuffers names =>
    cases h
    exact .inr (.inl ⟨_, names, rfl, rfl, rfl, hashLookup_takeNames⟩)
  -- The name is taken whether it has an entry or not.
  | glDeleteProgram program =>
    cases h
    refine .inr (.inl ⟨_, [program], rfl, rfl, rfl, ?_⟩)
    rw [← hashLookup_takeNames]
    simp only [State.delete, Server.handleGlDeleteProgram]
    split <;> rfl
  | glDeleteShader shader =>
    cases h
    refine .inr (.inl ⟨_, [shader], rfl, rfl, rfl, ?_⟩)
    rw [← hashLookup_takeNames]
    simp only [State.delete, Server.handleGlDeleteShader]
    split <;> rfl
  | mapped command names =>
    obtain ⟨server, hhandle, heq⟩ := Option.bind_eq_some_iff.mp h
    cases heq
    obtain ⟨⟨mapping, mapped⟩, hmap, heq⟩ := Option.bind_eq_some_iff.mp hhandle
    refine .inr (.inr ⟨rfl, rfl, nameUnknownTexture_live, fun n v hn => ?_⟩)
    rw [nameUnknownTexture_server] at hmap
    have hnext := hashLookup_mapNames hmap hn
    cases mapped with
    | some _ =>
      cases heq
      exact hnext
    | none =>
      cases heq
      exact hnext

/-- Names given to objects of one kind must not be live, with another driver name, in
any other kind. -/
theorem translates_iff_of_assign {pairs : List (ℕ × ℕ)} (hs : Translates s)
    (hlive : t.live = Function.update s.live kind (assign (s.live kind) pairs))
    (hlookup : hashLookup t.server.nameMapping = assign (hashLookup s.server.nameMapping) pairs) :
    Translates t ↔ ∀ n v, assign (fun _ => none) pairs n = some v →
      ∀ other w, other ≠ kind → s.live other n = some w → w = v := by
  constructor
  · intro ht n v hv other w hother hw
    have htw := ht other n w (by rw [hlive, Function.update_of_ne hother]; exact hw)
    rw [hlookup, assign_apply, hv] at htw
    exact (Option.some.inj htw).symm
  · intro hkeeps other n w hw
    rw [hlookup, assign_apply]
    by_cases hother : other = kind
    · subst hother
      rw [hlive, Function.update_self, assign_apply] at hw
      rcases hnew : assign (fun _ => none) pairs n with _ | v
      · rw [hnew] at hw
        exact hs other n w hw
      · rw [hnew] at hw
        exact hw
    · rw [hlive, Function.update_of_ne hother] at hw
      rcases hnew : assign (fun _ => none) pairs n with _ | v
      · exact hs other n w hw
      · rw [hkeeps n v hnew other w hother hw]
        rfl

/-- Names taken from objects of one kind must not be live in any other kind. -/
theorem translates_iff_of_without (hs : Translates s)
    (hlive : t.live = Function.update s.live kind (without (s.live kind) names))
    (hlookup : hashLookup t.server.nameMapping = without (hashLookup s.server.nameMapping) names) :
    Translates t ↔ ∀ n ∈ names, ∀ other, other ≠ kind → s.live other n = none := by
  constructor
  · intro ht n hn other hother
    by_contra hsome
    obtain ⟨w, hw⟩ := Option.ne_none_iff_exists'.mp hsome
    have htw := ht other n w (by rw [hlive, Function.update_of_ne hother]; exact hw)
    rw [hlookup, without_apply, if_pos hn] at htw
    cases htw
  · intro hkeeps other n w hw
    rw [hlookup, without_apply]
    by_cases hother : other = kind
    · subst hother
      rw [hlive, Function.update_self, without_apply] at hw
      split at hw
      · cases hw
      next hn =>
        rw [if_neg hn]
        exact hs other n w hw
    · rw [hlive, Function.update_of_ne hother] at hw
      have hn : n ∉ names := by
        intro hn
        rw [hkeeps n hn other hother] at hw
        cases hw
      rw [if_neg hn]
      exact hs other n w hw

/-- One command from a state with a right mapping leaves a right mapping exactly if it
neither generates nor deletes a name of a live object of another kind. -/
theorem translates_iff_keepsNames (hs : Translates s) (h : runCall s call = some t) :
    Translates t ↔ KeepsNames s call := by
  rcases runCall_cases h with
    ⟨kind, serverNames, names, handler, hgen, hdel, halloc, hlive, hlookup⟩
    | ⟨kind, names, hgen, hdel, hlive, hlookup⟩ | ⟨hgen, hdel, hlive, hlookup⟩
  · rw [translates_iff_of_assign hs hlive hlookup]
    constructor
    · refine fun hkeeps => ⟨?_, by simp [hdel]⟩
      intro kind' serverNames' hgen' names' handler' halloc'
      obtain ⟨rfl, rfl⟩ : kind = kind' ∧ serverNames = serverNames' := by
        simpa [hgen] using hgen'
      obtain ⟨rfl, -⟩ : names = names' ∧ handler = handler' := by simpa [halloc] using halloc'
      exact hkeeps
    · exact fun hkeeps => hkeeps.gen kind serverNames hgen names handler halloc
  · rw [translates_iff_of_without hs hlive hlookup]
    constructor
    · refine fun hkeeps => ⟨by simp [hgen], ?_⟩
      intro kind' names' hdel'
      obtain ⟨rfl, rfl⟩ : kind = kind' ∧ names = names' := by simpa [hdel] using hdel'
      exact hkeeps
    · exact fun hkeeps => hkeeps.delete kind names hdel
  · refine iff_of_true (fun kind n v hv => hlookup n v (hs kind n v ?_))
      ⟨by simp [hgen], by simp [hdel]⟩
    rw [← hlive]
    exact hv

theorem Translates.map_hashLookup {kinds : List Kind} (hs : Translates s)
    (hlength : names.length = kinds.length)
    (hlive : List.zipWith s.live kinds names = values.map some) :
    names.map (hashLookup s.server.nameMapping) = values.map some := by
  induction kinds generalizing names values with
  | nil =>
    obtain rfl : names = [] := List.length_eq_zero_iff.mp hlength
    exact hlive
  | cons kind kinds ih =>
    obtain ⟨name, names, rfl⟩ := List.exists_cons_of_length_eq_add_one hlength
    cases values with
    | nil => cases hlive
    | cons value values =>
      rw [List.zipWith_cons_cons, List.map_cons, List.cons.injEq] at hlive
      rw [List.map_cons, List.map_cons, hs kind name value hlive.1,
        ih (Nat.succ.inj hlength) hlive.2]

/-- A command whose names are all live has the driver called with its own names for them. -/
theorem handleMapped_of_translates {command : MappedCommand} (hs : Translates s)
    (hlength : names.length = (attribList command).length)
    (hlive : List.zipWith s.live (attribList command) names = values.map some) :
    s.server.handleMapped command names = some (s.server.dispatch (.mapped command values)) := by
  rw [Server.handleMapped, mapNames_of_hashLookup (hs.map_hashLookup hlength hlive)]
  rfl

/-! ### Whole runs -/

theorem translates_invariant : (system.guarded KeepsNames).Invariant Translates where
  init := by
    rintro _ rfl kind n v h
    cases h
  step _ _ _ _ hs := by
    rintro ⟨hkeeps, hstep⟩
    exact (translates_iff_keepsNames hs hstep).mpr hkeeps

/-- In every run of commands that neither generate nor delete a name of a live object of
another kind, every live name is looked up to the driver's name. -/
theorem translates_of_keepsNames (hs : (system.guarded KeepsNames).Reachable s) :
    Translates s :=
  translates_invariant.holds hs

/-- The first command of a run cannot clash with another, and one that only uses names
never does. -/
theorem keepsNames_initial : KeepsNames initial call := by
  constructor
  · intro _ _ _ _ _ _ _ _ _ other w _ hw
    cases hw
  · intro _ _ _ _ _ _ _
    rfl

theorem keepsNames_mapped {command : MappedCommand} : KeepsNames s (.mapped command names) :=
  ⟨nofun, nofun⟩

/-- Two buffers are made, and one is bound. -/
theorem translates_of_keepsNames_buffers : ∃ s,
    [Call.glGenBuffers [7, 8], .mapped .glBindBuffer [2]].foldlM runCall initial = some s ∧
      s.server.driverCalls = [.gen .buffer 2, .mapped .glBindBuffer [8]] ∧
      s.live .buffer 2 = some 8 ∧ Translates s := by
  have hrun : ([Call.glGenBuffers [7, 8], .mapped .glBindBuffer [2]].foldlM runCall initial).map
      (fun s => (s.server.driverCalls, s.live .buffer 2)) =
        some ([.gen .buffer 2, .mapped .glBindBuffer [8]], some 8) := by
    decide +kernel
  obtain ⟨s, hs, hobserved⟩ := Option.map_eq_some_iff.mp hrun
  simp only [Prod.mk.injEq] at hobserved
  refine ⟨s, hs, hobserved.1, hobserved.2, ?_⟩
  rw [List.foldlM_cons] at hs
  obtain ⟨u, hgen, hrest⟩ := Option.bind_eq_some_iff.mp hs
  rw [List.foldlM_cons] at hrest
  obtain ⟨t, hbind, heq⟩ := Option.bind_eq_some_iff.mp hrest
  cases heq
  exact translates_of_keepsNames
    (.step (.step (.init rfl) ⟨keepsNames_initial, hgen⟩) ⟨keepsNames_mapped, hbind⟩)

/-- A buffer and a texture are made; both have the name 1, and the texture's entry replaces
the buffer's. -/
theorem exists_mistranslated : ∃ s,
    [Call.glGenBuffers [7], .glGenTextures [9]].foldlM runCall initial = some s ∧
      system.Reachable s ∧ s.live .buffer 1 = some 7 ∧
      hashLookup s.server.nameMapping 1 = some 9 ∧ ¬Translates s := by
  have hrun : ([Call.glGenBuffers [7], .glGenTextures [9]].foldlM runCall initial).map
      (fun s => (s.live .buffer 1, hashLookup s.server.nameMapping 1)) = some (some 7, some 9) := by
    decide +kernel
  obtain ⟨s, hs, hobserved⟩ := Option.map_eq_some_iff.mp hrun
  simp only [Prod.mk.injEq] at hobserved
  obtain ⟨hlive, hlookup⟩ := hobserved
  refine ⟨s, hs, System.reachable_of_foldlM (.init rfl) hs, hlive, hlookup, fun htranslates => ?_⟩
  rw [htranslates .buffer 1 7 hlive] at hlookup
  cases hlookup

end GpuProxy.Names
