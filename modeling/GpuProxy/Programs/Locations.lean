import GpuProxy.Math.Memo
import GpuProxy.Names.HashTable

/-!
# Cached locations

A program keeps the locations of its uniforms and attributes that the driver has given, each
under the hash of its name. Linking the program again does not clear the caches, and names
with the same hash have one entry, so that a cached location may be one the driver would not
give. Here is when it is.

## Main definitions

* `hashStr` — the key of a name
* `ProgramCaches` — the two caches of a program, with the entry points that use them
* `LinkedProgram.run` — linking and asking, in front of any driver

## Main results

* `locations_agree_iff` — all locations are the driver's if and only if they are steady
* `exists_stale_location` — a program that is linked again
-/

namespace GpuProxy.Programs

open Math Names

/-- A string: the bytes before the terminating zero. -/
structure CString where
  bytes : List UInt8
  ne_zero : ∀ b ∈ bytes, b ≠ 0
  deriving DecidableEq

/-- One round of `hash_str`, which reads the bytes as signed. -/
def hashByte (h : BitVec 32) (c : UInt8) : BitVec 32 :=
  (h <<< 5) + h + BitVec.ofInt 32 c.toInt8.toInt

/-- `hash_str`. -/
def hashStr (v : CString) : ℕ := (v.bytes.foldl hashByte 5381#32).toNat

/-! ### The caches of a program -/

/-- The caches of a `program_t`. A location is kept as a `GLuint` and returned as a `GLint`. -/
structure ProgramCaches where
  uniformLocationCache : HashTable ℤ
  attribLocationCache : HashTable ℤ

/-- What an entry point that asks for a location does. -/
structure LocationResult where
  location : ℤ
  /-- Whether `caching_client_set_needs_get_error` is called. -/
  needsGetError : Bool
  deriving DecidableEq, Repr

/-- The location of a name in a cache, or else the one that the driver answers with, which is
then kept. There is no result when the assertion of `hash_insert` fails. -/
def cachedLocation (cache : HashTable ℤ) (name : CString) (answer : ℤ) :
    Option (HashTable ℤ × LocationResult) :=
  match hashLookup cache (hashStr name) with
  | some location => some (cache, ⟨location, false⟩)
  | none =>
    if answer = -1 then some (cache, ⟨-1, true⟩)
    else do
      let cache ← hashInsert cache (hashStr name) answer
      return (cache, ⟨answer, false⟩)

namespace ProgramCaches

/-- `program_new`. -/
def new : ProgramCaches := ⟨newHashTable, newHashTable⟩

variable (p : ProgramCaches) (name : CString) (answer : ℤ)

/-- `caching_client_glGetUniformLocation`, once the program is found. -/
def glGetUniformLocation : Option (ProgramCaches × LocationResult) := do
  let (cache, result) ← cachedLocation p.uniformLocationCache name answer
  return ({ p with uniformLocationCache := cache }, result)

/-- `caching_client_glGetAttribLocation`, once the program is found. -/
def glGetAttribLocation : Option (ProgramCaches × LocationResult) := do
  let (cache, result) ← cachedLocation p.attribLocationCache name answer
  return ({ p with attribLocationCache := cache }, result)

end ProgramCaches

/-! ### Linking and asking -/

/-- The calls on a program. -/
inductive LocationCall
  | glLinkProgram
  | glGetUniformLocation (name : CString)
  | glGetAttribLocation (name : CString)
  deriving DecidableEq

/-- The locations that a driver gives to the names in a program, by the number of times the
program was linked. -/
structure LocationDriver where
  uniformLocation : ℕ → CString → ℤ
  attribLocation : ℕ → CString → ℤ

/-- A program, with the number of times it was linked. -/
structure LinkedProgram where
  caches : ProgramCaches
  link : ℕ

/-- `program_new`. -/
def LinkedProgram.new : LinkedProgram := ⟨.new, 0⟩

/-- A call on a program, and the location that it returns. -/
def LinkedProgram.call (driver : LocationDriver) (p : LinkedProgram) :
    LocationCall → Option (LinkedProgram × List ℤ)
  | .glLinkProgram => some ({ p with link := p.link + 1 }, [])
  | .glGetUniformLocation name => do
    let (caches, result) ←
      p.caches.glGetUniformLocation name (driver.uniformLocation p.link name)
    return ({ p with caches := caches }, [result.location])
  | .glGetAttribLocation name => do
    let (caches, result) ← p.caches.glGetAttribLocation name (driver.attribLocation p.link name)
    return ({ p with caches := caches }, [result.location])

/-- The locations that a sequence of calls returns. -/
def LinkedProgram.run (driver : LocationDriver) (p : LinkedProgram) :
    List LocationCall → Option (List ℤ)
  | [] => some []
  | call :: calls => do
    let (p, locations) ← p.call driver call
    let rest ← p.run driver calls
    return locations ++ rest

/-- The locations that the driver gives. -/
def driverLocations (driver : LocationDriver) (link : ℕ) : List LocationCall → List ℤ
  | [] => []
  | .glLinkProgram :: calls => driverLocations driver (link + 1) calls
  | .glGetUniformLocation name :: calls =>
    driver.uniformLocation link name :: driverLocations driver link calls
  | .glGetAttribLocation name :: calls =>
    driver.attribLocation link name :: driverLocations driver link calls

/-- The cache that a query uses, and its key there. -/
inductive LocationKey
  | uniform (key : ℕ)
  | attrib (key : ℕ)
  deriving DecidableEq, Repr

/-- The hash of the name that is asked for. -/
def LocationKey.hash : LocationKey → ℕ
  | .uniform key | .attrib key => key

/-- A location that the driver knows. -/
def known (location : ℤ) : Option ℤ := if location = -1 then none else some location

/-- The queries, with the locations that the driver gives. -/
def locationQueries (driver : LocationDriver) (link : ℕ) :
    List LocationCall → List (LocationKey × Option ℤ)
  | [] => []
  | .glLinkProgram :: calls => locationQueries driver (link + 1) calls
  | .glGetUniformLocation name :: calls =>
    (.uniform (hashStr name), known (driver.uniformLocation link name)) ::
      locationQueries driver link calls
  | .glGetAttribLocation name :: calls =>
    (.attrib (hashStr name), known (driver.attribLocation link name)) ::
      locationQueries driver link calls

variable {driver : LocationDriver} {cache cache' : HashTable ℤ} {name : CString} {answer : ℤ}
  {result : LocationResult} {p : LinkedProgram} {call : LocationCall} {calls : List LocationCall}
  {key : LocationKey} {link : ℕ}

/-! ### A query is a query of a memo table -/

/-- The locations in a cache are known ones. -/
def KnownOnly (cache : HashTable ℤ) : Prop :=
  ∀ key location, hashLookup cache key = some location → location ≠ -1

theorem known_injective : Function.Injective known := by
  intro a b h
  unfold known at h
  split_ifs at h with ha hb hb
  · rw [ha, hb]
  · exact Option.some.inj h

theorem known_of_ne {location : ℤ} (h : location ≠ -1) : known location = some location := if_neg h

/-- The assertion fails for a location whose name has the hash 0. -/
theorem cachedLocation_eq_none_iff :
    cachedLocation cache name answer = none ↔ hashStr name = 0 ∧ answer ≠ -1 := by
  unfold cachedLocation
  cases hlookup : hashLookup cache (hashStr name) with
  | some location =>
    have hne : hashStr name ≠ 0 := by
      intro hzero
      rw [hzero] at hlookup
      cases hlookup
    simp [hne]
  | none =>
    by_cases hanswer : answer = -1
    · simp [hanswer]
    · by_cases hzero : hashStr name = 0 <;> simp [hanswer, hzero, hashInsert]

theorem cachedLocation_spec (hcache : KnownOnly cache)
    (h : cachedLocation cache name answer = some (cache', result)) :
    known result.location = (hashLookup cache (hashStr name)).or (known answer) ∧
      hashLookup cache' =
        Function.update (hashLookup cache) (hashStr name) (known result.location) := by
  unfold cachedLocation at h
  cases hlookup : hashLookup cache (hashStr name) with
  | some location =>
    rw [hlookup] at h
    cases h
    rw [known_of_ne (hcache _ _ hlookup), ← hlookup, Function.update_eq_self, hlookup]
    exact ⟨rfl, rfl⟩
  | none =>
    rw [hlookup] at h
    dsimp only at h
    split_ifs at h with hanswer
    · cases h
      have hnone : known (-1) = none := if_pos rfl
      rw [hanswer, hnone, ← hlookup, Function.update_eq_self, hlookup]
      exact ⟨rfl, rfl⟩
    · obtain ⟨table, hinsert, heq⟩ := Option.bind_eq_some_iff.mp h
      cases heq
      rw [known_of_ne hanswer]
      exact ⟨rfl, hashLookup_hashInsert hinsert⟩

theorem KnownOnly.update (hcache : KnownOnly cache) {location : ℤ} {k : ℕ}
    (h : hashLookup cache' = Function.update (hashLookup cache) k (known location)) :
    KnownOnly cache' := by
  intro key location' hlookup
  rw [h, Function.update_apply] at hlookup
  split_ifs at hlookup with hkey
  · unfold known at hlookup
    split_ifs at hlookup with hlocation
    cases hlookup
    exact hlocation
  · exact hcache key location' hlookup

namespace ProgramCaches

/-- The caches as one partial map. -/
def lookup (caches : ProgramCaches) : LocationKey → Option ℤ
  | .uniform key => hashLookup caches.uniformLocationCache key
  | .attrib key => hashLookup caches.attribLocationCache key

/-- The locations in the caches are known ones. -/
structure Known (caches : ProgramCaches) : Prop where
  uniform : KnownOnly caches.uniformLocationCache
  attrib : KnownOnly caches.attribLocationCache

theorem known_new : new.Known := by
  constructor <;>
  · intro key location h
    change hashLookup newHashTable key = _ at h
    rw [hashLookup_newHashTable] at h
    cases h

end ProgramCaches

/-- A call that is a query of the memo table with the driver's answer, unless an assertion
fails. -/
inductive Queries (driver : LocationDriver) (p : LinkedProgram) (call : LocationCall)
    (key : LocationKey) (answer : ℤ) : Prop
  | failed (hash : key.hash = 0) (known : answer ≠ -1) (call : p.call driver call = none)
  | returned (hash : key.hash = 0 → answer = -1) (p' : LinkedProgram) (location : ℤ)
      (call : p.call driver call = some (p', [location])) (link : p'.link = p.link)
      (caches : p'.caches.Known)
      (told : known location = Memo.answer p.caches.lookup (key, known answer))
      (learn : p'.caches.lookup = Memo.learn p.caches.lookup (key, known answer))

/-- What the two entry points have in common: `cache` is replaced by `put`, and `keyOf` gives the
keys of the names in it. -/
theorem Queries.of_cachedLocation (keyOf : ℕ → LocationKey) (put : HashTable ℤ → ProgramCaches)
    (hcache : KnownOnly cache) (hlookup : ∀ k, p.caches.lookup (keyOf k) = hashLookup cache k)
    (hput : ∀ c k, (put c).lookup (keyOf k) = hashLookup c k)
    (hothers : ∀ c key, (∀ k, key ≠ keyOf k) → (put c).lookup key = p.caches.lookup key)
    (hknown : ∀ c, KnownOnly c → (put c).Known) (hkeyOf : ∀ k, (keyOf k).hash = k)
    (hcall : p.call driver call = (cachedLocation cache name answer).map fun found =>
      (⟨put found.1, p.link⟩, [found.2.location])) :
    Queries driver p call (keyOf (hashStr name)) answer := by
  cases hfound : cachedLocation cache name answer with
  | none =>
    obtain ⟨hzero, hanswer⟩ := cachedLocation_eq_none_iff.mp hfound
    exact .failed ((hkeyOf _).trans hzero) hanswer (by rw [hcall, hfound, Option.map_none])
  | some found =>
    obtain ⟨cache', result⟩ := found
    obtain ⟨hrecall, hlearn⟩ := cachedLocation_spec hcache hfound
    refine .returned (fun hzero => ?_) ⟨put cache', p.link⟩ result.location
      (by rw [hcall, hfound, Option.map_some]) rfl (hknown _ (hcache.update hlearn)) ?_ ?_
    · by_contra hanswer
      rw [cachedLocation_eq_none_iff.mpr ⟨(hkeyOf _).symm.trans hzero, hanswer⟩] at hfound
      cases hfound
    · rw [hrecall, Memo.answer, hlookup]
    · funext key
      unfold Memo.learn Memo.answer
      by_cases hkey : ∃ k, key = keyOf k
      · obtain ⟨k, rfl⟩ := hkey
        rw [hput, hlearn, hrecall, hlookup]
        by_cases hk : k = hashStr name
        · rw [hk, Function.update_self, Function.update_self]
        · have hne : keyOf k ≠ keyOf (hashStr name) := fun h => hk (by rw [← hkeyOf k, h, hkeyOf])
          rw [Function.update_of_ne hk, Function.update_of_ne hne, hlookup]
      · have hne : ∀ k, key ≠ keyOf k := fun k h => hkey ⟨k, h⟩
        rw [hothers cache' key hne, Function.update_of_ne (hne _)]

theorem queries_glGetUniformLocation (hp : p.caches.Known) :
    Queries driver p (.glGetUniformLocation name) (.uniform (hashStr name))
      (driver.uniformLocation p.link name) := by
  refine .of_cachedLocation .uniform
    (fun cache => { p.caches with uniformLocationCache := cache }) hp.uniform (fun _ => rfl)
    (fun _ _ => rfl) ?_ (fun _ hc => ⟨hc, hp.attrib⟩) (fun _ => rfl) ?_
  · rintro c (k | k) hne
    · exact absurd rfl (hne k)
    · rfl
  · simp only [LinkedProgram.call, ProgramCaches.glGetUniformLocation]
    cases cachedLocation p.caches.uniformLocationCache name
      (driver.uniformLocation p.link name) <;> rfl

theorem queries_glGetAttribLocation (hp : p.caches.Known) :
    Queries driver p (.glGetAttribLocation name) (.attrib (hashStr name))
      (driver.attribLocation p.link name) := by
  refine .of_cachedLocation .attrib
    (fun cache => { p.caches with attribLocationCache := cache }) hp.attrib (fun _ => rfl)
    (fun _ _ => rfl) ?_ (fun _ hc => ⟨hp.uniform, hc⟩) (fun _ => rfl) ?_
  · rintro c (k | k) hne
    · rfl
    · exact absurd rfl (hne k)
  · simp only [LinkedProgram.call, ProgramCaches.glGetAttribLocation]
    cases cachedLocation p.caches.attribLocationCache name
      (driver.attribLocation p.link name) <;> rfl

/-! ### Whole runs -/

/-- No name with the hash 0 is given a location. -/
def NoneFails (queries : List (LocationKey × Option ℤ)) : Prop :=
  ∀ q ∈ queries, q.1.hash = 0 → q.2 = none

theorem known_eq_none_iff {location : ℤ} : known location = none ↔ location = -1 := by
  unfold known
  split_ifs with h <;> simp [h]

/-- One query, in front of the others. -/
theorem Queries.run_iff (h : Queries driver p call key answer)
    (hlocations : driverLocations driver p.link (call :: calls) =
      answer :: driverLocations driver p.link calls)
    (hqueries : locationQueries driver p.link (call :: calls) =
      (key, known answer) :: locationQueries driver p.link calls)
    (ih : ∀ {p : LinkedProgram}, p.caches.Known →
      (p.run driver calls = some (driverLocations driver p.link calls) ↔
        NoneFails (locationQueries driver p.link calls) ∧
          Memo.recalled p.caches.lookup (locationQueries driver p.link calls) =
            (locationQueries driver p.link calls).map Prod.snd)) :
    p.run driver (call :: calls) = some (driverLocations driver p.link (call :: calls)) ↔
      NoneFails (locationQueries driver p.link (call :: calls)) ∧
        Memo.recalled p.caches.lookup (locationQueries driver p.link (call :: calls)) =
          (locationQueries driver p.link (call :: calls)).map Prod.snd := by
  rw [hlocations, hqueries, NoneFails, List.forall_mem_cons, known_eq_none_iff]
  cases h with
  | failed hash hanswer hcall =>
    rw [LinkedProgram.run, hcall]
    refine ⟨fun hrun => (by cases hrun), fun hright => absurd (hright.1.1 hash) hanswer⟩
  | returned hash p' location hcall hlink hcaches hrecall hlearn =>
    have hrest := ih hcaches
    rw [hlink, hlearn] at hrest
    have hhead : location = answer ↔
        Memo.answer p.caches.lookup (key, known answer) = known answer := by
      rw [← hrecall]
      exact known_injective.eq_iff.symm
    rw [Memo.recalled, List.map_cons, List.cons.injEq, ← hhead, LinkedProgram.run, hcall]
    have hrun : (do
        let rest ← p'.run driver calls
        return [location] ++ rest) = some (answer :: driverLocations driver p.link calls) ↔
          location = answer ∧ p'.run driver calls = some (driverLocations driver p.link calls) := by
      cases p'.run driver calls with
      | none => simp
      | some rest => simp
    refine hrun.trans ?_
    rw [hrest]
    tauto

/-- The locations that a program returns are the driver's, and no assertion fails, if and only
if the queries are queries of a memo table that agree with it. -/
theorem run_iff (hp : p.caches.Known) :
    p.run driver calls = some (driverLocations driver p.link calls) ↔
      NoneFails (locationQueries driver p.link calls) ∧
        Memo.recalled p.caches.lookup (locationQueries driver p.link calls) =
          (locationQueries driver p.link calls).map Prod.snd := by
  induction calls generalizing p with
  | nil => simp [LinkedProgram.run, driverLocations, locationQueries, NoneFails, Memo.recalled]
  | cons call calls ih =>
    cases call with
    | glLinkProgram =>
      refine Iff.trans ?_ (ih (p := { p with link := p.link + 1 }) hp)
      change (do
        let rest ← ({ p with link := p.link + 1 } : LinkedProgram).run driver calls
        return [] ++ rest) = _ ↔ _
      cases ({ p with link := p.link + 1 } : LinkedProgram).run driver calls <;> rfl
    | glGetUniformLocation name => exact (queries_glGetUniformLocation hp).run_iff rfl rfl ih
    | glGetAttribLocation name => exact (queries_glGetAttribLocation hp).run_iff rfl rfl ih

/-- All locations that a new program returns are those the driver gives under the latest link,
and no assertion fails, if and only if no location is given to a name with the hash 0 and none
differs from one given earlier to a name with the same hash. -/
theorem locations_agree_iff (driver : LocationDriver) (calls : List LocationCall) :
    LinkedProgram.new.run driver calls = some (driverLocations driver 0 calls) ↔
      NoneFails (locationQueries driver 0 calls) ∧
        Memo.Steady (locationQueries driver 0 calls) := by
  refine (run_iff ProgramCaches.known_new).trans (and_congr_right fun _ => ?_)
  rw [Memo.recalled_eq_iff]
  refine and_iff_right fun q _ b hb => ?_
  have hnew : ProgramCaches.new.lookup q.1 = none := by
    cases q.1 <;> exact hashLookup_newHashTable
  rw [LinkedProgram.new, hnew] at hb
  cases hb

/-- The location 0 of the name `a` is asked for, and becomes 1 when the program is linked
again. -/
theorem exists_stale_location :
    let driver : LocationDriver := ⟨fun link _ => link, fun _ _ => -1⟩
    let a : CString := ⟨[97], by simp⟩
    let calls : List LocationCall :=
      [.glGetUniformLocation a, .glLinkProgram, .glGetUniformLocation a]
    LinkedProgram.new.run driver calls = some [0, 0] ∧ driverLocations driver 0 calls = [0, 1] := by
  decide +kernel

end GpuProxy.Programs
