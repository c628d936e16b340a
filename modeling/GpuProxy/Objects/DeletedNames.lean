import GpuProxy.Objects.State

/-!
# Lists of deleted names

The loops that delete textures and renderbuffers look up a record and then the framebuffer in it.
The variable of the framebuffer is declared before the loop: for a name without a record it has
the value of an earlier round, and if that is not `NULL` the missing record is read.

## Main definitions

* `DeletesSafely` — a call returns, and changes the framebuffers in the records only
* `NeverStale` — the lists in which no name meets the framebuffer of another

## Main results

* `deletesSafely_iff` — the calls are safe for these lists only
* `exists_null_read` — a texture without a record behind one that is attached
-/

namespace GpuProxy.Objects

open Math Names GlState State

/-- The objects whose records have a framebuffer. -/
inductive AttachedKind
  | texture
  | renderbuffer
  deriving DecidableEq, Repr

/-- The loop bodies. -/
def deleteRound : AttachedKind → State × Option ℕ → ℕ → Option (State × Option ℕ)
  | .texture => deleteTexture
  | .renderbuffer => deleteRenderbuffer

/-- `caching_client_glDeleteTextures` and `caching_client_glDeleteRenderbuffers`. -/
def deleteObjects (s : State) (names : List ℕ) : AttachedKind → Option (State × Effects)
  | .texture => s.glDeleteTextures names
  | .renderbuffer => s.glDeleteRenderbuffers names

/-- The `framebuffer_id` in the record of an object, if there is a record. -/
def recordedFramebuffer (s : State) (name : ℕ) : AttachedKind → Option ℕ
  | .texture => (s.lookupCachedTexture name).map (·.framebufferId)
  | .renderbuffer => (s.lookupCachedRenderbuffer name).map (·.framebufferId)

/-- No record is read through a null pointer, and a framebuffer that is changed is in the record
of a listed object. -/
def DeletesSafely (s : State) (names : List ℕ) (kind : AttachedKind) : Prop :=
  ∃ t effects, deleteObjects s names kind = some (t, effects) ∧
    ∀ k, t.lookupCachedFramebuffer k ≠ s.lookupCachedFramebuffer k →
      ∃ name ∈ names, recordedFramebuffer s name kind = some k

/-- The `framebuffer_id` that is found after other names are deleted. Only textures lose their
records. -/
def remainingFramebuffer (s : State) (before : List ℕ) (name : ℕ) (kind : AttachedKind) :
    Option ℕ :=
  if kind = .texture ∧ name ∈ before then none else recordedFramebuffer s name kind

/-- A name that sets the variable to a framebuffer. -/
def LeavesFramebuffer (s : State) (before : List ℕ) (name : ℕ) (kind : AttachedKind) : Prop :=
  ∃ id, remainingFramebuffer s before name kind = some id ∧ s.lookupCachedFramebuffer id ≠ none

/-- Behind a name that leaves a framebuffer comes no name without a record. -/
def StaleFree (s : State) (names : List ℕ) (kind : AttachedKind) : Prop :=
  ∀ before a b after, names = before ++ a :: b :: after → LeavesFramebuffer s before a kind →
    remainingFramebuffer s (before ++ [a]) b kind ≠ none

/-- The zeros of a list do not matter. -/
def NeverStale (s : State) (names : List ℕ) (kind : AttachedKind) : Prop :=
  StaleFree s (names.filter (· ≠ 0)) kind

variable {s t : State} {names before : List ℕ} {name k : ℕ} {kind : AttachedKind}
  {framebuffer : Option ℕ}

/-! ### One round -/

theorem deleteRound_zero : deleteRound kind (t, framebuffer) 0 = some (t, framebuffer) := by
  cases kind <;> rfl

/-- The record of a texture is removed. -/
def Removes (t u : State) (name : ℕ) (kind : AttachedKind) : Prop :=
  ∀ k, recordedFramebuffer u k kind =
    if kind = .texture ∧ k = name then none else recordedFramebuffer t k kind

theorem deleteTexture_eq_none_iff :
    deleteTexture (t, framebuffer) name = none ↔
      name ≠ 0 ∧ t.lookupCachedTexture name = none ∧ framebuffer ≠ none := by
  simp only [deleteTexture]
  by_cases hzero : name = 0
  · simp [hzero]
  rw [if_neg hzero]
  cases htex : t.lookupCachedTexture name with
  | none =>
    cases framebuffer <;> simp [hzero]
  | some tex =>
    cases hfb : t.lookupCachedFramebuffer tex.framebufferId with
    | none => simp [hfb]
    | some fb =>
      have hid := ne_zero_of_lookupCachedFramebuffer hfb
      simp [hfb, hid]

theorem deleteRenderbuffer_eq_none_iff :
    deleteRenderbuffer (t, framebuffer) name = none ↔
      name ≠ 0 ∧ t.lookupCachedRenderbuffer name = none ∧ framebuffer ≠ none := by
  simp only [deleteRenderbuffer]
  by_cases hzero : name = 0
  · simp [hzero]
  rw [if_neg hzero]
  cases hrb : t.lookupCachedRenderbuffer name with
  | none =>
    cases framebuffer <;> simp [hzero]
  | some rb =>
    cases hfb : t.lookupCachedFramebuffer rb.framebufferId with
    | none => simp [hfb]
    | some fb =>
      have hid := ne_zero_of_lookupCachedFramebuffer hfb
      simp [hfb, hid]

/-- The record is missed only if there is a framebuffer. -/
theorem deleteRound_eq_none_iff :
    deleteRound kind (t, framebuffer) name = none ↔
      name ≠ 0 ∧ recordedFramebuffer t name kind = none ∧ framebuffer ≠ none := by
  cases kind with
  | texture =>
    have hrecord : recordedFramebuffer t name .texture = none ↔
        t.lookupCachedTexture name = none := Option.map_eq_none_iff
    rw [hrecord]
    exact deleteTexture_eq_none_iff
  | renderbuffer =>
    have hrecord : recordedFramebuffer t name .renderbuffer = none ↔
        t.lookupCachedRenderbuffer name = none := Option.map_eq_none_iff
    rw [hrecord]
    exact deleteRenderbuffer_eq_none_iff

/-- A round that is not over at once. -/
theorem deleteRound_cases {u : State} {framebuffer' : Option ℕ} (hne : name ≠ 0)
    (h : deleteRound kind (t, framebuffer) name = some (u, framebuffer')) :
    Removes t u name kind ∧
    ((recordedFramebuffer t name kind = none ∧ framebuffer' = none ∧
        u.lookupCachedFramebuffer = t.lookupCachedFramebuffer) ∨
      ∃ id f, recordedFramebuffer t name kind = some id ∧
        framebuffer' = (t.lookupCachedFramebuffer id).map (fun _ => id) ∧
        u.lookupCachedFramebuffer = Function.update t.lookupCachedFramebuffer id
          ((t.lookupCachedFramebuffer id).map f)) := by
  cases kind with
  | texture =>
    obtain ⟨hzero, -⟩ | ⟨-, hnone, -, hleft, rfl⟩ | ⟨tex, -, htex, hleft, rfl⟩ :=
      deleteTexture_cases h
    · exact absurd hzero hne
    · obtain ⟨htexture, hframebuffer, -⟩ := lookup_removeTexture t name
      refine ⟨fun k => ?_, .inl ⟨?_, hleft, hframebuffer⟩⟩
      · simp only [recordedFramebuffer, htexture, Function.update_apply, true_and]
        split_ifs <;> rfl
      · simp [recordedFramebuffer, hnone]
    · obtain ⟨htexture, hframebuffer, -⟩ :=
        lookup_removeTexture (t.modifyFramebuffer tex.framebufferId clearImage) name
      refine ⟨fun k => ?_, .inr ⟨tex.framebufferId, clearImage, ?_, hleft, ?_⟩⟩
      · simp only [recordedFramebuffer, htexture, Function.update_apply, true_and]
        split_ifs <;> rfl
      · simp [recordedFramebuffer, htex]
      · rw [hframebuffer, lookup_modifyFramebuffer]
  | renderbuffer =>
    obtain ⟨hzero, -⟩ | ⟨-, hnone, -, hleft, rfl⟩ | ⟨rb, -, hrb, hleft, rfl⟩ :=
      deleteRenderbuffer_cases h
    · exact absurd hzero hne
    · refine ⟨fun k => ?_, .inl ⟨?_, hleft, lookup_unbindRenderbuffer.2.1⟩⟩
      · simp [recordedFramebuffer]
      · simp [recordedFramebuffer, hnone]
    · refine ⟨fun k => ?_, .inr ⟨rb.framebufferId, detachRenderbuffer name, ?_, hleft, ?_⟩⟩
      · simp only [recordedFramebuffer, lookup_unbindRenderbuffer.2.2, reduceCtorEq, false_and,
          if_false]
        rfl
      · simp [recordedFramebuffer, hrb]
      · rw [lookup_unbindRenderbuffer.2.1, lookup_modifyFramebuffer]

/-! ### The loop -/

/-- The state after some names, none of them 0. -/
structure AfterNames (s : State) (names : List ℕ) (kind : AttachedKind) (t : State)
    (framebuffer : Option ℕ) : Prop where
  recorded : ∀ k, recordedFramebuffer t k kind = remainingFramebuffer s names k kind
  cached : ∀ k, t.lookupCachedFramebuffer k = none ↔ s.lookupCachedFramebuffer k = none
  left : framebuffer ≠ none ↔ ∃ before a, names = before ++ [a] ∧ LeavesFramebuffer s before a kind
  changed : ∀ k, t.lookupCachedFramebuffer k ≠ s.lookupCachedFramebuffer k →
    ∃ name ∈ names, recordedFramebuffer s name kind = some k

theorem recordedFramebuffer_of_remaining {id : ℕ}
    (h : remainingFramebuffer s before name kind = some id) :
    recordedFramebuffer s name kind = some id := by
  unfold remainingFramebuffer at h
  split_ifs at h
  exact h

theorem AfterNames.nil : AfterNames s [] kind s none where
  recorded k := by simp [remainingFramebuffer]
  cached _ := Iff.rfl
  left := by simp
  changed _ h := absurd rfl h

theorem remainingFramebuffer_append_singleton :
    remainingFramebuffer s (names ++ [name]) k kind =
      if kind = .texture ∧ k = name then none else remainingFramebuffer s names k kind := by
  unfold remainingFramebuffer
  by_cases hkind : kind = .texture
  · by_cases hk : k = name
    · simp [hkind, hk]
    · simp [hkind, hk]
  · simp [hkind]

theorem exists_append_singleton_iff {P : List ℕ → ℕ → Prop} :
    (∃ before a, names ++ [name] = before ++ [a] ∧ P before a) ↔ P names name := by
  constructor
  · rintro ⟨before, a, heq, hP⟩
    obtain ⟨rfl, hlast⟩ := List.append_inj' heq rfl
    cases hlast
    exact hP
  · exact fun hP => ⟨names, name, rfl, hP⟩

/-- A round keeps what is known of the rounds before. -/
theorem AfterNames.snoc {u : State} {framebuffer' : Option ℕ}
    (ht : AfterNames s names kind t framebuffer) (hne : name ≠ 0)
    (h : deleteRound kind (t, framebuffer) name = some (u, framebuffer')) :
    AfterNames s (names ++ [name]) kind u framebuffer' := by
  obtain ⟨hremoves, hcases⟩ := deleteRound_cases hne h
  have hrecorded : ∀ k, recordedFramebuffer u k kind =
      remainingFramebuffer s (names ++ [name]) k kind := by
    intro k
    rw [hremoves, ht.recorded, remainingFramebuffer_append_singleton]
  have hearlier : ∀ {k}, t.lookupCachedFramebuffer k ≠ s.lookupCachedFramebuffer k →
      ∃ n ∈ names ++ [name], recordedFramebuffer s n kind = some k := by
    intro k hk
    obtain ⟨n, hn, hid⟩ := ht.changed k hk
    exact ⟨n, List.mem_append_left _ hn, hid⟩
  obtain ⟨hnone, rfl, hkept⟩ | ⟨id, f, hid, rfl, hwritten⟩ := hcases
  · refine ⟨hrecorded, fun k => by rw [hkept, ht.cached], ?_, fun k hk => hearlier (hkept ▸ hk)⟩
    rw [exists_append_singleton_iff]
    refine iff_of_false (fun hne => hne rfl) ?_
    rintro ⟨id, hremaining, -⟩
    rw [← ht.recorded, hnone] at hremaining
    cases hremaining
  · have hremaining := (ht.recorded name).symm.trans hid
    refine ⟨hrecorded, fun k => ?_, ?_, fun k hk => ?_⟩
    · rw [hwritten, ← ht.cached k, Function.update_apply]
      split_ifs with hk
      · rw [hk, Option.map_eq_none_iff]
      · exact Iff.rfl
    · rw [exists_append_singleton_iff, ne_eq, Option.map_eq_none_iff, ht.cached]
      constructor
      · exact fun hcached => ⟨id, hremaining, hcached⟩
      · rintro ⟨id', hremaining', hcached⟩
        rwa [Option.some.inj (hremaining.symm.trans hremaining')]
    · by_cases hk' : k = id
      · refine ⟨name, by simp, ?_⟩
        rw [hk']
        exact recordedFramebuffer_of_remaining hremaining
      · rw [hwritten, Function.update_of_ne hk'] at hk
        exact hearlier hk

theorem staleFree_append_singleton_iff :
    StaleFree s (names ++ [name]) kind ↔ StaleFree s names kind ∧
      ((∃ before a, names = before ++ [a] ∧ LeavesFramebuffer s before a kind) →
        remainingFramebuffer s names name kind ≠ none) := by
  constructor
  · refine fun h => ⟨fun before a b after hnames => ?_, ?_⟩
    · apply h before a b (after ++ [name])
      simp [hnames]
    · rintro ⟨before, a, rfl, hleaves⟩
      exact h before a name [] (by simp) hleaves
  · rintro ⟨hfree, hlast⟩ before a b after hnames hleaves
    obtain rfl | ⟨after, c, rfl⟩ := List.eq_nil_or_concat after
    · have heq : names ++ [name] = (before ++ [a]) ++ [b] := by simp [hnames]
      obtain ⟨rfl, hb⟩ := List.append_inj' heq rfl
      cases hb
      exact hlast ⟨before, a, rfl, hleaves⟩
    · have heq : names ++ [name] = (before ++ a :: b :: after) ++ [c] := by simp [hnames]
      exact hfree before a b after (List.append_inj' heq rfl).1 hleaves

/-- The loop runs through if and only if no name meets a framebuffer that is not its own. -/
theorem foldlM_deleteRound (s : State) (kind : AttachedKind) (hnames : ∀ name ∈ names, name ≠ 0) :
    (StaleFree s names kind → ∃ t framebuffer,
      names.foldlM (deleteRound kind) (s, none) = some (t, framebuffer) ∧
        AfterNames s names kind t framebuffer) ∧
    (¬StaleFree s names kind → names.foldlM (deleteRound kind) (s, none) = none) := by
  induction names using List.reverseRecOn with
  | nil =>
    refine ⟨fun _ => ⟨s, none, rfl, .nil⟩, fun hstale => absurd ?_ hstale⟩
    intro before a b after heq
    simp at heq
  | append_singleton names name ih =>
    have hne : name ≠ 0 := hnames name (by simp)
    obtain ⟨hfree, hstale⟩ := ih fun n hn => hnames n (List.mem_append_left _ hn)
    rw [staleFree_append_singleton_iff, List.foldlM_append]
    by_cases hbefore : StaleFree s names kind
    · obtain ⟨t, framebuffer, hloop, hafter⟩ := hfree hbefore
      have hround : List.foldlM (deleteRound kind) (t, framebuffer) [name] =
          deleteRound kind (t, framebuffer) name := by simp
      have hread : deleteRound kind (t, framebuffer) name = none ↔
          ¬((∃ before a, names = before ++ [a] ∧ LeavesFramebuffer s before a kind) →
            remainingFramebuffer s names name kind ≠ none) := by
        rw [deleteRound_eq_none_iff, hafter.recorded, hafter.left, Classical.not_imp, not_not]
        exact ⟨fun ⟨_, hnone, hleft⟩ => ⟨hleft, hnone⟩, fun ⟨hleft, hnone⟩ => ⟨hne, hnone, hleft⟩⟩
      rw [hloop, Option.bind_eq_bind, Option.bind_some, hround]
      refine ⟨fun h => ?_, fun h => hread.2 fun hlast => h ⟨hbefore, hlast⟩⟩
      cases hresult : deleteRound kind (t, framebuffer) name with
      | none => exact absurd h.2 (hread.1 hresult)
      | some result =>
        obtain ⟨u, framebuffer'⟩ := result
        exact ⟨u, framebuffer', rfl, hafter.snoc hne hresult⟩
    · rw [hstale hbefore]
      exact ⟨fun h => absurd h.1 hbefore, fun _ => rfl⟩

theorem foldlM_deleteRound_filter {st : State × Option ℕ} :
    (names.filter (· ≠ 0)).foldlM (deleteRound kind) st = names.foldlM (deleteRound kind) st := by
  induction names generalizing st with
  | nil => rfl
  | cons name names ih =>
    by_cases hzero : name = 0
    · obtain ⟨t, framebuffer⟩ := st
      have hround : deleteRound kind (t, framebuffer) name = some (t, framebuffer) :=
        hzero ▸ deleteRound_zero
      rw [List.filter_cons_of_neg (by simpa using hzero), List.foldlM_cons, hround, ih]
      rfl
    · rw [List.filter_cons_of_pos (by simpa using hzero), List.foldlM_cons, List.foldlM_cons]
      exact congrArg _ (funext fun _ => ih)

/-! ### Main result -/

/-- The state of the loop. The names of renderbuffers are given back first. -/
def loopStart (s : State) (names : List ℕ) : AttachedKind → State
  | .texture => s
  | .renderbuffer =>
    { s with renderbufferNameHandler := deleteNames s.renderbufferNameHandler names }

/-- The call that is passed on. -/
def deleteCall (names : List ℕ) : AttachedKind → Call
  | .texture => .glDeleteTextures names
  | .renderbuffer => .glDeleteRenderbuffers names

theorem deleteObjects_eq : deleteObjects s names kind =
    (names.foldlM (deleteRound kind) (loopStart s names kind, none)).map fun result =>
      (result.1, [.forward (deleteCall names kind)]) := by
  cases kind with
  | texture =>
    change (names.foldlM deleteTexture (s, none)).bind _ =
      (names.foldlM deleteTexture (s, none)).map _
    cases names.foldlM deleteTexture (s, none) <;> rfl
  | renderbuffer =>
    change (names.foldlM deleteRenderbuffer (loopStart s names .renderbuffer, none)).bind _ =
      (names.foldlM deleteRenderbuffer (loopStart s names .renderbuffer, none)).map _
    cases names.foldlM deleteRenderbuffer (loopStart s names .renderbuffer, none) <;> rfl

theorem neverStale_loopStart_iff :
    NeverStale (loopStart s names kind) names kind ↔ NeverStale s names kind := by
  cases kind <;> exact Iff.rfl

theorem recordedFramebuffer_loopStart :
    recordedFramebuffer (loopStart s names kind) name kind = recordedFramebuffer s name kind := by
  cases kind <;> rfl

theorem lookupCachedFramebuffer_loopStart :
    (loopStart s names kind).lookupCachedFramebuffer = s.lookupCachedFramebuffer := by
  cases kind <;> rfl

/-- A list is deleted safely, if and only if no name without a record comes behind one whose
framebuffer has one. -/
theorem deletesSafely_iff : DeletesSafely s names kind ↔ NeverStale s names kind := by
  rw [← neverStale_loopStart_iff]
  have hnames : ∀ name ∈ names.filter (· ≠ 0), name ≠ 0 := by
    intro name hname
    simpa using (List.mem_filter.1 hname).2
  obtain ⟨hfree, hstale⟩ := foldlM_deleteRound (loopStart s names kind) kind hnames
  rw [foldlM_deleteRound_filter] at hfree hstale
  constructor
  · rintro ⟨t, effects, hreturns, -⟩
    by_contra hnever
    rw [deleteObjects_eq, hstale hnever] at hreturns
    cases hreturns
  · intro hnever
    obtain ⟨t, framebuffer, hloop, hafter⟩ := hfree hnever
    rw [DeletesSafely, deleteObjects_eq, hloop]
    refine ⟨t, _, rfl, fun k hk => ?_⟩
    have hchanged : t.lookupCachedFramebuffer k ≠
        (loopStart s names kind).lookupCachedFramebuffer k := by
      rwa [lookupCachedFramebuffer_loopStart]
    obtain ⟨name, hname, hid⟩ := hafter.changed k hchanged
    exact ⟨name, (List.mem_filter.1 hname).1, recordedFramebuffer_loopStart ▸ hid⟩

/-- A texture that is attached is deleted, and behind it one that there is not. -/
theorem exists_null_read : ∃ (calls : List Call) (s : State),
    calls.foldlM (fun s call => (runCall s call).map Prod.fst) (.init 0) = some s ∧
      ¬DeletesSafely s [1, 2] .texture := by
  let calls : List Call := [.glGenTextures 1, .glGenFramebuffers 1,
    .glBindFramebuffer glFramebuffer 1,
    .glFramebufferTexture2D glFramebuffer glColorAttachment0 glTexture2D 1 0]
  have hrun : (calls.foldlM (fun s call => (runCall s call).map Prod.fst) (.init 0)).map
      (fun s => (s.glDeleteTextures [1, 2]).isNone) = some true := by
    decide +kernel
  obtain ⟨s, hs, hnone⟩ := Option.map_eq_some_iff.1 hrun
  refine ⟨calls, s, hs, ?_⟩
  rintro ⟨t, effects, hreturns, -⟩
  have hnull : deleteObjects s [1, 2] .texture = none := Option.isNone_iff_eq_none.1 hnone
  cases hnull.symm.trans hreturns

end GpuProxy.Objects
