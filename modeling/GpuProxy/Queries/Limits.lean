import GpuProxy.Queries.Bindings

/-!
# Memoised limits

A limit is asked for once, in whatever type the first query has, and its answer is converted
for every query after that. The check of the indices of attributes is such a query, too. Here
is when all of them get the limit of the driver, all along a run.

## Main definitions

* `driverAnswer` — what the driver answers to a query
* `LimitOp` — the queries and the calls with an index
* `RightLimits` — the next query for a limit, or check of an index, gets the right answer
* `AskedWell`, `InitialWell` — what is stored reads back as the limit

## Main results

* `rightLimits_along_iff` — when the answers are right all along
* `exists_wrong_limit` — a limit that was first asked for as a boolean
-/

namespace GpuProxy.Queries

open GlState Math Objects Textures VertexAttribs

variable {F : Type} (format : FloatFormat F) (driver : Limit → ℤ)

/-- What the driver stores for a limit. -/
def driverAnswer (limit : ℤ) : GetFunc → Value F
  | .glGetBooleanv => .boolean (if limit = 0 then 0 else 1)
  | .glGetFloatv => .float (format.ofInt limit)
  | .glGetIntegerv => .int limit

/-- The queries, and the calls with the index of an attribute. What those that set or get a
current value do with the limit is the check. The driver's answer to a query counts if it is
not for a limit. -/
inductive LimitOp (F : Type)
  | query (func : GetFunc) (pname : Pname) (answer : Value F)
  | attrib (op : Op)
  | check (index : ℕ)

/-- The answer to a query. -/
def queryAnswer (func : GetFunc) (pname : Pname) (answer : Value F) : Value F :=
  match pname with
  | .limit limit => driverAnswer format (driver limit) func
  | _ => answer

/-- One operation. -/
def LimitOp.run (fuel : ℕ) (s : GetState F) : LimitOp F → Option (GetState F)
  | .query func pname answer =>
    some (s.glGet format func pname (queryAnswer format driver func pname answer)).1
  | .attrib op =>
    (runOp (driver .maxVertexAttribs) fuel s.client op).map fun client =>
      { s with client := client }
  | .check index =>
    some { s with client := (doesIndexOverflow (driver .maxVertexAttribs) s.client index).1 }

/-- Every query for a limit as an integer gets that of the driver, and an index is accepted if
it is no greater. -/
structure RightLimits (s : GetState F) : Prop where
  answers : ∀ limit,
    (s.glGet format .glGetIntegerv (.limit limit) (.int (driver limit))).2 =
      .stored [.int (driver limit)]
  accepts : ∀ index, (doesIndexOverflow (driver .maxVertexAttribs) s.client index).2 = false ↔
    index ≤ uint (driver .maxVertexAttribs)

/-- What is stored for a limit, if it is first asked for by a function, reads back as it. One
limit is stored as a `GLfloat`. -/
def AskedWell (func : GetFunc) (limit : Limit) : Prop :=
  match func with
  | .glGetBooleanv => driver limit = 0 ∨ driver limit = 1
  | .glGetFloatv => format.toInt (format.ofInt (driver limit)) = driver limit
  | .glGetIntegerv => limit = .maxTextureMaxAnisotropy →
      format.toInt (format.ofInt (driver limit)) = driver limit

/-- A limit is asked for well, if it was not asked for before. -/
def KeepsLimits (s : GetState F) : LimitOp F → Prop
  | .query func (.limit limit) _ =>
    (s.cell limit).queried = false → AskedWell format driver func limit
  | _ => True

/-- The limits that count as asked for from the beginning are those of `egl_state_init`. -/
def InitialWell (memory : Limit → Bool) : Prop :=
  ∀ limit : Limit, limit.initQueried memory = true → (limit.init format).toInt format = driver limit

/-- What a query for a limit as an integer gets. -/
def memoised (s : GetState F) (limit : Limit) : ℤ :=
  if (s.cell limit).queried then (s.cell limit).value.toInt format else driver limit

section

variable {format : FloatFormat F} {driver : Limit → ℤ} {s t : GetState F} {limit limit' : Limit}
  {answer : Value F} {fuel : ℕ} {op : LimitOp F}

/-! ### Cells -/

theorem cell_congr (hlimits : t.limits = s.limits)
    (hqueried : t.client.maxVertexAttribsQueried = s.client.maxVertexAttribsQueried)
    (hmax : t.client.maxVertexAttribs = s.client.maxVertexAttribs) (limit : Limit) :
    t.cell limit = s.cell limit := by
  unfold GetState.cell
  split
  · rw [hqueried, hmax]
  · rw [hlimits]

theorem cell_memoise_self : (s.memoise format answer limit).cell limit =
    ⟨if limit = .maxTextureMaxAnisotropy then .float (answer.toFloat format)
      else .int (answer.toInt format), true⟩ := by
  cases limit <;> simp [GetState.memoise, GetState.cell]

theorem cell_memoise_of_ne (h : limit' ≠ limit) :
    (s.memoise format answer limit).cell limit' = s.cell limit' := by
  cases limit <;> cases limit' <;>
    first | exact absurd rfl h | simp [GetState.memoise, GetState.cell]

/-- A query that is not for a limit leaves the limits. -/
theorem cell_glGet_of_ne {func : GetFunc} {pname : Pname} (h : ∀ l, pname ≠ .limit l)
    (limit : Limit) : (s.glGet format func pname answer).1.cell limit = s.cell limit := by
  cases pname with
  | limit l => exact absurd rfl (h l)
  | glArrayBufferBinding | glElementArrayBufferBinding | glVertexArrayBindingOes =>
    exact cell_congr rfl rfl rfl limit
  | _ => rfl

/-! ### The next query -/

theorem memoised_congr (h : t.cell limit = s.cell limit) :
    memoised format driver t limit = memoised format driver s limit := by
  rw [memoised, memoised, h]

theorem glGet_limit : (s.glGet format .glGetIntegerv (.limit limit) (.int (driver limit))).2 =
    .stored [.int (memoised format driver s limit)] := by
  simp only [GetState.glGet, getTypeInfo, GetState.answerRow, memoised]
  split <;> simp [GetFunc.convert, *]

theorem memoised_maxVertexAttribs : memoised format driver s .maxVertexAttribs =
    indexLimit (driver .maxVertexAttribs) s.client := rfl

theorem rightLimits_iff : RightLimits format driver s ↔
    ∀ limit, memoised format driver s limit = driver limit := by
  constructor
  · intro h limit
    have hanswer := h.answers limit
    rw [glGet_limit] at hanswer
    simpa using hanswer
  · intro h
    refine ⟨fun limit => by rw [glGet_limit, h], fun index => ?_⟩
    have hmax := h .maxVertexAttribs
    rw [memoised_maxVertexAttribs] at hmax
    simp only [doesIndexOverflow, maxVertexAttribs_query, hmax]
    split
    next hle => simpa using hle
    next hlt => simpa using hlt

/-! ### What changes the next query -/

theorem toInt_cell_memoise_self : ((s.memoise format answer limit).cell limit).value.toInt format =
    if limit = .maxTextureMaxAnisotropy then format.toInt (answer.toFloat format)
    else answer.toInt format := by
  rw [cell_memoise_self]
  split <;> rfl

/-- What is stored for a limit that is asked for reads back as it exactly if it was asked for
well. -/
theorem toInt_cell_iff {format : SingleFormat F} (func : GetFunc) (limit : Limit) :
    ((s.memoise format.toFloatFormat
        (driverAnswer format.toFloatFormat (driver limit) func) limit).cell limit).value.toInt
      format.toFloatFormat = driver limit ↔ AskedWell format.toFloatFormat driver func limit := by
  rw [toInt_cell_memoise_self]
  cases func with
  | glGetBooleanv =>
    have hzero : format.toInt (format.ofInt 0) = 0 := format.toInt_ofInt 0 (by decide)
    have hone : format.toInt (format.ofInt 1) = 1 := format.toInt_ofInt 1 (by decide)
    have hanswer : (if limit = .maxTextureMaxAnisotropy then
          format.toInt ((driverAnswer format.toFloatFormat (driver limit) .glGetBooleanv).toFloat
            format.toFloatFormat)
        else (driverAnswer format.toFloatFormat (driver limit) .glGetBooleanv).toInt
          format.toFloatFormat) = if driver limit = 0 then 0 else 1 := by
      by_cases hdriver : driver limit = 0 <;>
        simp [driverAnswer, Value.toFloat, Value.toInt, hdriver, hzero, hone]
    rw [hanswer, AskedWell]
    split <;> omega
  | glGetFloatv =>
    simp only [driverAnswer, AskedWell, Value.toFloat, Value.toInt, ite_self]
  | glGetIntegerv =>
    simp only [driverAnswer, AskedWell, Value.toFloat, Value.toInt]
    split
    next hlimit => exact ⟨fun h _ => h, fun h => h hlimit⟩
    next hlimit => exact iff_of_true rfl fun h => absurd h hlimit

section Calls

variable {driverMax : ℤ} {c c' : ClientState} {index : ℕ} {enable : Bool} {args : PointerArgs}

@[simp] theorem indexLimit_setError (driverMax : ℤ) (c : ClientState) (error : ℕ) :
    indexLimit driverMax (setError c error) = indexLimit driverMax c := by
  unfold setError
  split <;> rfl

@[simp] theorem indexLimit_queryMaxVertexAttribs (driverMax : ℤ) (c : ClientState) :
    indexLimit driverMax (queryMaxVertexAttribs driverMax c) = indexLimit driverMax c :=
  (Alike.query driverMax c).limit

@[simp] theorem indexLimit_doesIndexOverflow (driverMax : ℤ) (c : ClientState) (index : ℕ) :
    indexLimit driverMax (doesIndexOverflow driverMax c index).1 = indexLimit driverMax c := by
  simp only [doesIndexOverflow]
  split <;> simp

theorem indexLimit_bindBuffer (driverMax : ℤ) (c : ClientState) (target buffer : ℕ) :
    indexLimit driverMax (bindBuffer c target buffer) = indexLimit driverMax c := by
  unfold bindBuffer
  split_ifs
  · rfl
  · rfl
  · rfl
  · rfl
  · exact indexLimit_setError driverMax c _

theorem indexLimit_setVertexAttribArray
    (hrun : setVertexAttribArray driverMax c fuel index enable = some c') :
    indexLimit driverMax c' = indexLimit driverMax c := by
  have hcheck : ∀ d : ClientState, d.maxVertexAttribsQueried = c.maxVertexAttribsQueried →
      d.maxVertexAttribs = c.maxVertexAttribs →
      indexLimit driverMax (doesIndexOverflow driverMax d index).1 = indexLimit driverMax c := by
    intro d hqueried hmax
    rw [indexLimit_doesIndexOverflow, indexLimit, indexLimit, hqueried, hmax]
  unfold setVertexAttribArray at hrun
  grind [forward, indexLimit, Option.map_eq_some_iff]

theorem indexLimit_vertexAttribPointer
    (hrun : vertexAttribPointer driverMax c fuel index args = some c') :
    indexLimit driverMax c' = indexLimit driverMax c := by
  have hcheck := indexLimit_doesIndexOverflow driverMax c index
  have herror := indexLimit_setError driverMax c
  unfold vertexAttribPointer at hrun
  grind [forward, indexLimit, Option.bind_eq_some_iff]

theorem indexLimit_runOp {op : Op} (hrun : runOp driverMax fuel c op = some c') :
    indexLimit driverMax c' = indexLimit driverMax c := by
  cases op with
  | bindBuffer target buffer =>
    cases hrun
    exact indexLimit_bindBuffer driverMax c target buffer
  | enableVertexAttribArray index => exact indexLimit_setVertexAttribArray hrun
  | disableVertexAttribArray index => exact indexLimit_setVertexAttribArray hrun
  | vertexAttribPointer index args => exact indexLimit_vertexAttribPointer hrun

/-- A client that compares indices with the same limit. -/
theorem RightLimits.withClient (h : RightLimits format driver s)
    (hclient : indexLimit (driver .maxVertexAttribs) c =
      indexLimit (driver .maxVertexAttribs) s.client) :
    RightLimits format driver { s with client := c } := by
  rw [rightLimits_iff] at h ⊢
  intro limit
  rcases eq_or_ne limit .maxVertexAttribs with rfl | hne
  · exact hclient.trans (h .maxVertexAttribs)
  · have hcell : ({ s with client := c } : GetState F).cell limit = s.cell limit := by
      cases limit <;> first | rfl | exact absurd rfl hne
    rw [memoised_congr hcell, h]

end Calls

/-! ### Runs -/

/-- The answers stay right over an operation exactly if it asks for no limit badly. -/
theorem RightLimits.run_iff {format : SingleFormat F}
    (h : RightLimits format.toFloatFormat driver s)
    (hrun : op.run format.toFloatFormat driver fuel s = some t) :
    RightLimits format.toFloatFormat driver t ↔ KeepsLimits format.toFloatFormat driver s op := by
  cases op with
  | query func pname answer =>
    cases hrun
    by_cases hpname : ∃ limit, pname = .limit limit
    · obtain ⟨limit, rfl⟩ := hpname
      simp only [GetState.glGet, getTypeInfo, GetState.answerRow, reduceCtorEq, if_false,
        queryAnswer, KeepsLimits]
      by_cases hqueried : (s.cell limit).queried = true
      · rw [if_pos hqueried, hqueried]
        exact iff_of_true h (by simp)
      rw [if_neg hqueried, ← toInt_cell_iff (s := s), rightLimits_iff]
      rw [rightLimits_iff] at h
      constructor
      · intro h' _
        have hlimit := h' limit
        rwa [memoised, if_pos (by rw [cell_memoise_self])] at hlimit
      · intro hwell limit'
        by_cases hne : limit' = limit
        · subst hne
          rw [memoised, if_pos (by rw [cell_memoise_self])]
          exact hwell (by simpa using hqueried)
        · rw [memoised_congr (cell_memoise_of_ne hne), h]
    · have hpname : ∀ limit, pname ≠ .limit limit := fun limit heq => hpname ⟨limit, heq⟩
      refine iff_of_true ?_ ?_
      · rw [rightLimits_iff] at h ⊢
        intro limit
        rw [memoised_congr (cell_glGet_of_ne hpname limit), h]
      · cases pname with
        | limit limit => exact absurd rfl (hpname limit)
        | _ => trivial
  | attrib op =>
    obtain ⟨client, hclient, rfl⟩ := Option.map_eq_some_iff.mp hrun
    exact iff_of_true (h.withClient (indexLimit_runOp hclient)) trivial
  | check index =>
    cases hrun
    exact iff_of_true (h.withClient (indexLimit_doesIndexOverflow _ _ _)) trivial

/-- The answers are right in a new context exactly if no limit counts as asked for that is not
that of `egl_state_init`. -/
theorem rightLimits_init_iff [Zero F] [One F] (heap : Loc → VertexAttrib)
    {memory : Limit → Bool} (textures : ℕ → ℕ) :
    RightLimits format driver (.init format heap memory textures) ↔
      InitialWell format driver memory := by
  rw [rightLimits_iff]
  refine forall_congr' fun limit => ?_
  have hcell : (GetState.init format heap memory textures).cell limit =
      ⟨limit.init format, limit.initQueried memory⟩ := by
    cases limit <;> rfl
  rw [memoised, hcell]
  split
  next hqueried => exact ⟨fun h _ => h, fun h => h hqueried⟩
  next hqueried => exact iff_of_true rfl fun h => absurd h hqueried

end

/-- From a new context on, all answers are right all along a list of operations exactly if no
limit counts as asked for wrongly, and none is first asked for so that it does not read back. -/
theorem rightLimits_along_iff [Zero F] [One F] (format : SingleFormat F) (driver : Limit → ℤ)
    (fuel : ℕ) (heap : Loc → VertexAttrib) (memory : Limit → Bool) (textures : ℕ → ℕ)
    (ops : List (LimitOp F)) :
    System.AlwaysAlong (LimitOp.run format.toFloatFormat driver fuel)
        (RightLimits format.toFloatFormat driver)
        (.init format.toFloatFormat heap memory textures) ops ↔
      InitialWell format.toFloatFormat driver memory ∧
        System.MeetsAlong (LimitOp.run format.toFloatFormat driver fuel)
          (KeepsLimits format.toFloatFormat driver)
          (.init format.toFloatFormat heap memory textures) ops := by
  rw [← rightLimits_init_iff heap textures]
  exact System.alwaysAlong_iff (J := fun _ => True) (fun _ _ _ _ _ => trivial)
    (fun _ _ _ _ h hrun => h.run_iff hrun) trivial

/-- Rational numbers in place of floats. -/
def rationalSingle : SingleFormat ℚ where
  toFloatFormat := rationalFormat
  toInt_ofInt i _ := by
    change (if 0 ≤ (i : ℚ) then (i : ℚ).floor else (i : ℚ).ceil) = i
    split
    · exact Rat.floor_intCast i
    · exact Rat.ceil_intCast i

/-- The number of attributes is first asked for as a boolean. All later queries then answer 1. -/
theorem exists_wrong_limit :
    InitialWell rationalFormat (fun _ => 16) (fun _ => false) ∧
    ¬System.AlwaysAlong (LimitOp.run rationalFormat (fun _ => 16) 1)
      (RightLimits rationalFormat fun _ => 16)
      (.init rationalFormat (fun _ => freshAttrib 0 0 false) (fun _ => false) fun _ => 0)
      [.query .glGetBooleanv (.limit .maxVertexAttribs) (.boolean 1)] := by
  constructor
  · intro limit hqueried
    cases limit <;> cases hqueried
  · rintro ⟨-, hlater⟩
    exact absurd ((hlater _ rfl).answers .maxVertexAttribs) (by decide)

end GpuProxy.Queries
