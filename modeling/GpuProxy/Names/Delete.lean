import GpuProxy.Names.Translation
import Mathlib.Data.Finset.SDiff

/-!
# What deleting names deletes

The handlers that delete objects replace the client's names by the driver's, and then have
the driver delete what they have. A name without an entry in the mapping, and a name that
is repeated, is passed as it is, and may be the driver's name of something else. For
renderbuffers it is `glDeleteBuffers` that is called.

## Main definitions

* `Driver` — the objects of the driver
* `Asked` — the objects that were to be deleted
* `DeletesExactly` — these are deleted and no others
* `Aimed` — the states and names for which the handlers do that

## Main results

* `mem_takeNames` — what the loop of the handlers passes on
* `deletesExactly_iff` — a handler deletes exactly what was asked if and only if it is aimed
* `aimed_of_translates` — a right mapping, and names that are live and not repeated, will do,
  but for renderbuffers
-/

namespace GpuProxy.Names

open Math

/-! ### The driver -/

/-- The objects of the driver. None has the name 0. -/
structure Driver where
  live : Kind → Finset ℕ
  zero_notMem : ∀ kind, 0 ∉ live kind

/-- The names of objects of a kind that a call tells the driver to delete. -/
def DriverCall.deletes : DriverCall → Kind → List ℕ
  | .delete kind names, other => if other = kind then names else []
  | .deleteProgram program, .program => [program]
  | .deleteShader shader, .shader => [shader]
  | _, _ => []

/-- The objects after a call that deletes some. Names that no object of the kind has are
ignored. -/
def Driver.execute (driver : Driver) (call : DriverCall) : Driver where
  live kind := driver.live kind \ (call.deletes kind).toFinset
  zero_notMem kind h := driver.zero_notMem kind (Finset.mem_sdiff.mp h).1

/-- The calls made to the driver since the state `before`. -/
def Server.callsSince (server before : Server) : List DriverCall :=
  server.driverCalls.drop before.driverCalls.length

/-- The driver's objects after a command that leads from `s` to `t`. -/
def Driver.after (driver : Driver) (s t : State) : Driver :=
  (t.server.callsSince s.server).foldl Driver.execute driver

variable {s t : State} {call : Call} {driver : Driver} {kind other : Kind}
  {mapping : HashTable ℕ} {names : List ℕ} {n v : ℕ}

/-! ### What is asked, and what is passed -/

/-- An object of the driver that a named object of the client was mapped to. -/
def Asked (s : State) (kind : Kind) (names : List ℕ) (v : ℕ) : Prop :=
  ∃ n ∈ names, s.live kind n = some v

/-- A command removes from the driver exactly the objects of its kind that it was asked to
delete, and nothing that belongs to another name of the client or is of another kind. -/
structure DeletesExactly (s : State) (driver : Driver) (kind : Kind) (names : List ℕ)
    (t : State) : Prop where
  mem_live : ∀ other v, v ∈ (driver.after s t).live other ↔
    v ∈ driver.live other ∧ ¬ (other = kind ∧ Asked s kind names v)
  others : ∀ other n v, s.live other n = some v → ¬ (other = kind ∧ n ∈ names) →
    v ∈ driver.live other → v ∈ (driver.after s t).live other

/-- The kind of objects the driver is told to delete. -/
def Kind.deletedAs : Kind → Kind
  | .renderbuffer => .buffer
  | kind => kind

/-- What is passed to the driver though it is not in the mapping: names without an entry,
also those whose entry was just taken, and for a shader without an entry a name that is
hoped to be no shader's. -/
def Stray (mapping : HashTable ℕ) (names : List ℕ) (v : ℕ) : Kind → Prop
  | .program => False
  | .shader => v = 0xffffffff ∧ ∃ n ∈ names, hashLookup mapping n = none
  | _ => v ∈ names ∧ (hashLookup mapping v = none ∨ 2 ≤ names.count v)

/-- The names passed to the driver. -/
def Passed (mapping : HashTable ℕ) (kind : Kind) (names : List ℕ) (v : ℕ) : Prop :=
  (∃ n ∈ names, hashLookup mapping n = some v) ∨ Stray mapping names v kind

/-- The objects that the named entries are of are asked for, as are those that happen to
have a name that is passed without an entry. The objects asked for are found, and do not
belong to other names. -/
structure Aimed (s : State) (driver : Driver) (kind : Kind) (names : List ℕ) : Prop where
  entries : ∀ n ∈ names, ∀ v ∈ driver.live kind.deletedAs,
    hashLookup s.server.nameMapping n = some v → kind.deletedAs = kind ∧ Asked s kind names v
  strays : ∀ v ∈ driver.live kind.deletedAs, Stray s.server.nameMapping names v kind →
    kind.deletedAs = kind ∧ Asked s kind names v
  found : ∀ v ∈ driver.live kind, Asked s kind names v →
    kind.deletedAs = kind ∧ Passed s.server.nameMapping kind names v
  alone : ∀ v ∈ driver.live kind, Asked s kind names v → ∀ n, s.live kind n = some v → n ∈ names

/-! ### The handlers -/

/-- The first occurrence of a name with an entry is replaced by it; all others are passed
as they are. -/
theorem mem_takeNames : v ∈ (Server.takeNames mapping names).1 ↔
    (∃ n ∈ names, hashLookup mapping n = some v) ∨
      v ∈ names ∧ (hashLookup mapping v = none ∨ 2 ≤ names.count v) := by
  induction names generalizing mapping with
  | nil => simp [Server.takeNames]
  | cons name names ih =>
    have htake : (Server.takeNames mapping (name :: names)).1 =
        (hashLookup mapping name).getD name ::
          (Server.takeNames (hashTake mapping name).2 names).1 := rfl
    rw [htake, List.mem_cons, ih, hashLookup_hashTake]
    -- The entry of `name` is taken, so that `name` is passed as it is from here on.
    have hrest : (∃ n ∈ names, Function.update (hashLookup mapping) name none n = some v) ↔
        ∃ n ∈ names, n ≠ name ∧ hashLookup mapping n = some v := by
      apply exists_congr
      intro n
      by_cases hn : n = name <;> simp [hn]
    rw [hrest]
    by_cases hv : v = name
    · subst hv
      have htwice : 2 ≤ (v :: names).count v ↔ v ∈ names := by
        rw [List.count_cons_self, ← List.one_le_count_iff]
        omega
      rw [htwice]
      cases hentry : hashLookup mapping v with
      | none => simp [hentry]
      | some w =>
        simp only [Option.getD_some, Function.update_self]
        grind
    · have hcount : (name :: names).count v = names.count v :=
        List.count_cons_of_ne (Ne.symm hv)
      rw [hcount, Function.update_of_ne hv]
      cases hentry : hashLookup mapping name with
      | none => grind
      | some w => grind

theorem mem_live_foldl {calls : List DriverCall} :
    v ∈ (calls.foldl Driver.execute driver).live other ↔
      v ∈ driver.live other ∧ ∀ call ∈ calls, v ∉ call.deletes other := by
  induction calls generalizing driver with
  | nil => simp
  | cons call calls ih =>
    have hexecute : v ∈ (driver.execute call).live other ↔
        v ∈ driver.live other ∧ v ∉ call.deletes other := by
      simp [Driver.execute]
    rw [List.foldl_cons, ih, hexecute, List.forall_mem_cons, and_assoc]

theorem callsSince_dispatch {server : Server} {driverCall : DriverCall} :
    ({ server with nameMapping := mapping }.dispatch driverCall).callsSince server =
      [driverCall] := by
  simp [Server.callsSince, Server.dispatch]

theorem callsSince_handleDelete {server : Server} :
    (server.handleDelete kind names).callsSince server =
      [.delete kind (Server.takeNames server.nameMapping names).1] :=
  callsSince_dispatch

/-- What the calls of a handler tell the driver to delete. -/
theorem exists_deletes_iff (hcall : call.deletes = some (kind, names))
    (h : runCall s call = some t) :
    (∃ driverCall ∈ t.server.callsSince s.server, v ∈ driverCall.deletes other) ↔
      other = kind.deletedAs ∧ Passed s.server.nameMapping kind names v := by
  cases call with
  | glDeleteBuffers _ | glDeleteFramebuffers _ | glDeleteTextures _ | glDeleteRenderbuffers _ =>
    cases hcall
    cases h
    simp only [State.reuse, State.delete, Server.handleGlDeleteBuffers,
      Server.handleGlDeleteFramebuffers, Server.handleGlDeleteTextures,
      Server.handleGlDeleteRenderbuffers, callsSince_handleDelete, List.mem_singleton,
      exists_eq_left, DriverCall.deletes, List.mem_ite_nil_right, mem_takeNames]
    rfl
  | glDeleteProgram program =>
    cases hcall
    cases h
    cases hentry : hashLookup s.server.nameMapping program with
    | none =>
      simp [State.delete, Server.handleGlDeleteProgram, hashTake, hentry, Server.callsSince,
        Passed, Stray]
    | some entry =>
      simp only [State.delete, Server.handleGlDeleteProgram, hashTake, hentry,
        callsSince_dispatch]
      cases other <;> simp [DriverCall.deletes, Kind.deletedAs, Passed, Stray, hentry, eq_comm]
  | glDeleteShader shader =>
    cases hcall
    cases h
    cases hentry : hashLookup s.server.nameMapping shader with
    | none =>
      simp only [State.delete, Server.handleGlDeleteShader, hashTake, hentry,
        callsSince_dispatch]
      cases other <;> simp [DriverCall.deletes, Kind.deletedAs, Passed, Stray, hentry]
    | some entry =>
      simp only [State.delete, Server.handleGlDeleteShader, hashTake, hentry,
        callsSince_dispatch]
      cases other <;> simp [DriverCall.deletes, Kind.deletedAs, Passed, Stray, hentry, eq_comm]
  | _ => cases hcall

/-- A handler removes from the driver what it passes, as the kind it calls the driver for. -/
theorem mem_live_after (hcall : call.deletes = some (kind, names))
    (h : runCall s call = some t) :
    v ∈ (driver.after s t).live other ↔ v ∈ driver.live other ∧
      ¬ (other = kind.deletedAs ∧ Passed s.server.nameMapping kind names v) := by
  rw [Driver.after, mem_live_foldl, ← exists_deletes_iff hcall h]
  simp

/-! ### Deleting exactly what is asked -/

/-- A command deletes exactly what was asked if and only if it is aimed. -/
theorem deletesExactly_iff (hcall : call.deletes = some (kind, names))
    (h : runCall s call = some t) :
    DeletesExactly s driver kind names t ↔ Aimed s driver kind names := by
  constructor
  · intro hexactly
    -- What the driver still has decides what was passed, and has to agree with what was asked.
    have hagree : ∀ other v, v ∈ driver.live other →
        ((other = kind.deletedAs ∧ Passed s.server.nameMapping kind names v) ↔
          (other = kind ∧ Asked s kind names v)) := by
      intro other v hv
      have hafter := hexactly.mem_live other v
      rw [mem_live_after hcall h] at hafter
      exact not_iff_not.mp (and_congr_right_iff.mp hafter hv)
    constructor
    · intro n hn v hv hentry
      have hasked := (hagree kind.deletedAs v hv).mp ⟨rfl, .inl ⟨n, hn, hentry⟩⟩
      exact hasked
    · intro v hv hstray
      exact (hagree kind.deletedAs v hv).mp ⟨rfl, .inr hstray⟩
    · intro v hv hasked
      obtain ⟨heq, hpassed⟩ := (hagree kind v hv).mpr ⟨rfl, hasked⟩
      exact ⟨heq.symm, hpassed⟩
    · intro v hv hasked n hlive
      by_contra hn
      have hafter := hexactly.others kind n v hlive (fun hnamed => hn hnamed.2) hv
      exact ((hexactly.mem_live kind v).mp hafter).2 ⟨rfl, hasked⟩
  · intro haimed
    have hmem : ∀ other v, v ∈ (driver.after s t).live other ↔
        v ∈ driver.live other ∧ ¬ (other = kind ∧ Asked s kind names v) := by
      intro other v
      rw [mem_live_after hcall h]
      apply and_congr_right
      intro hv
      apply not_congr
      constructor
      · rintro ⟨rfl, ⟨n, hn, hentry⟩ | hstray⟩
        · exact haimed.entries n hn v hv hentry
        · exact haimed.strays v hv hstray
      · rintro ⟨rfl, hasked⟩
        obtain ⟨heq, hpassed⟩ := haimed.found v hv hasked
        exact ⟨heq.symm, hpassed⟩
    refine ⟨hmem, fun other n v hlive hother hv => (hmem other v).mpr ⟨hv, ?_⟩⟩
    rintro ⟨rfl, hasked⟩
    exact hother ⟨rfl, haimed.alone v hv hasked n hlive⟩

/-- With a right mapping, and driver objects that belong to one name each, names that are
live and not repeated are aimed. The name 0 does no harm. -/
theorem aimed_of_translates (hs : Translates s) (hkind : kind ≠ .renderbuffer)
    (hshader : 0xffffffff ∉ driver.live .shader)
    (hlive : ∀ n ∈ names, n ≠ 0 → s.live kind n ≠ none)
    (honce : ∀ n, n ≠ 0 → names.count n ≤ 1)
    (halone : ∀ n m v, s.live kind n = some v → s.live kind m = some v → n = m) :
    Aimed s driver kind names := by
  have hsame : kind.deletedAs = kind := by
    cases kind <;> first | rfl | exact absurd rfl hkind
  have hentry : ∀ n ∈ names, n ≠ 0 → ∃ v, s.live kind n = some v ∧
      hashLookup s.server.nameMapping n = some v := by
    intro n hn hzero
    obtain ⟨v, hv⟩ := Option.ne_none_iff_exists'.mp (hlive n hn hzero)
    exact ⟨v, hv, hs kind n v hv⟩
  constructor
  · intro n hn v _ hv
    have hzero : n ≠ 0 := by
      rintro rfl
      simp [hashLookup] at hv
    obtain ⟨w, hw, hlookup⟩ := hentry n hn hzero
    rw [hv, Option.some.injEq] at hlookup
    exact ⟨hsame, n, hn, hlookup ▸ hw⟩
  · intro v hv hstray
    rw [hsame] at hv
    have hzero : v ≠ 0 := by
      rintro rfl
      exact driver.zero_notMem kind hv
    -- A name with an entry that occurs once is passed as its entry only.
    have hnamed : ¬ (v ∈ names ∧ (hashLookup s.server.nameMapping v = none ∨
        2 ≤ names.count v)) := by
      rintro ⟨hmem, hmissing | htwice⟩
      · obtain ⟨w, -, hlookup⟩ := hentry v hmem hzero
        rw [hmissing] at hlookup
        cases hlookup
      · have hcount := honce v hzero
        omega
    cases kind with
    | program => exact hstray.elim
    | shader => exact absurd (hstray.1 ▸ hv) hshader
    | _ => exact absurd hstray hnamed
  · rintro v _ ⟨n, hn, hv⟩
    exact ⟨hsame, .inl ⟨n, hn, hs kind n v hv⟩⟩
  · rintro v _ ⟨m, hm, hv⟩ n hn
    rw [halone n m v hn hv]
    exact hm

/-- Objects of one kind. -/
def driverWith (kind : Kind) (objects : Finset ℕ) (h : 0 ∉ objects) : Driver where
  live other := if other = kind then objects else ∅
  zero_notMem other := by
    split
    · exact h
    · exact Finset.notMem_empty 0

/-- One of two buffers is deleted, and the name 0 is. -/
theorem deletesExactly_iff_buffers : ∃ s t,
    runCall initial (.glGenBuffers [7, 8]) = some s ∧
      runCall s (.glDeleteBuffers [1, 0]) = some t ∧
      DeletesExactly s (driverWith .buffer {7, 8} (by decide)) .buffer [1, 0] t := by
  obtain ⟨s, hs⟩ : ∃ s, runCall initial (.glGenBuffers [7, 8]) = some s :=
    Option.isSome_iff_exists.mp (by decide +kernel)
  have hlive : s.live .buffer = assign (fun _ => none) [(1, 7), (2, 8)] := by
    have hrun : (runCall initial (.glGenBuffers [7, 8])).map (·.live) =
        some (Function.update (fun _ _ => none) .buffer
          (assign (fun _ => none) [(1, 7), (2, 8)])) := rfl
    rw [hs] at hrun
    have hall : s.live = Function.update (fun _ _ => none) .buffer
        (assign (fun _ => none) [(1, 7), (2, 8)]) := Option.some.inj hrun
    rw [hall, Function.update_self]
  have htranslates : Translates s :=
    translates_invariant.holds (.step (.init rfl) ⟨keepsNames_initial, hs⟩)
  obtain ⟨t, ht⟩ : ∃ t, runCall s (.glDeleteBuffers [1, 0]) = some t := ⟨_, rfl⟩
  refine ⟨s, t, hs, ht, (deletesExactly_iff rfl ht).mpr ?_⟩
  apply aimed_of_translates htranslates (by decide) (by decide)
  · intro n hn hzero
    obtain rfl : n = 1 := by simpa [hzero] using hn
    rw [hlive]
    decide
  · intro n hzero
    by_cases hn : n = 1
    · simp [hn]
    · simp [Ne.symm hn, Ne.symm hzero]
  · intro n m v hn hm
    rw [hlive] at hn hm
    simp only [assign, List.foldl_cons, List.foldl_nil, Function.update_apply] at hn hm
    grind

/-- A renderbuffer is deleted, and the driver still has it. -/
theorem exists_kept_renderbuffer : ∃ s t,
    runCall initial (.glGenRenderbuffers [5]) = some s ∧
      runCall s (.glDeleteRenderbuffers [1]) = some t ∧
      ¬ DeletesExactly s (driverWith .renderbuffer {5} (by decide)) .renderbuffer [1] t := by
  obtain ⟨s, hs⟩ : ∃ s, runCall initial (.glGenRenderbuffers [5]) = some s :=
    Option.isSome_iff_exists.mp (by decide +kernel)
  have hlive : s.live .renderbuffer 1 = some 5 := by
    have hrun : (runCall initial (.glGenRenderbuffers [5])).map (·.live .renderbuffer 1) =
        some (some 5) := by
      decide +kernel
    rw [hs] at hrun
    exact Option.some.inj hrun
  obtain ⟨t, ht⟩ : ∃ t, runCall s (.glDeleteRenderbuffers [1]) = some t := ⟨_, rfl⟩
  refine ⟨s, t, hs, ht, fun hexactly => ?_⟩
  have hkept : 5 ∈ ((driverWith .renderbuffer {5} (by decide)).after s t).live .renderbuffer := by
    rw [mem_live_after rfl ht]
    exact ⟨by decide, fun hbuffer => by simp [Kind.deletedAs] at hbuffer⟩
  exact ((hexactly.mem_live .renderbuffer 5).mp hkept).2 ⟨rfl, 1, by simp, hlive⟩

end GpuProxy.Names
