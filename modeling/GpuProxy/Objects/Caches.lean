import GpuProxy.Objects.State
import Mathlib.Data.Finset.SDiff

/-!
# When the caches hold the objects that exist

Records are made when names are generated, and each kind has a helper that removes them.
The helpers of framebuffers and renderbuffers remove from the cache of textures, and
`glDeleteFramebuffers` and `glDeleteRenderbuffers` call none. The caches have the records of
the objects that exist as long as no framebuffer and no renderbuffer is deleted.

## Main definitions

* `ObjectKind`, `History` — a state with the names that were generated and not deleted
* `CacheOp`, `cacheSystem` — the calls that make and delete objects, and the helpers
* `CachesExact`, `LeavesOthers` — what is wanted of the caches
* `Removable` — the operations that do it

## Main results

* `cacheOp_iff` — one operation
* `cachesExact_iff_removable` — whole runs
-/

namespace GpuProxy.Objects

open Math Names GlState State

/-- The kinds of objects that have records. -/
inductive ObjectKind
  | texture
  | framebuffer
  | renderbuffer
  deriving DecidableEq, Repr

/-- A state, with the names that were generated as objects of a kind and not deleted as such
since. -/
structure History where
  state : State
  live : ObjectKind → Finset ℕ

/-- The calls that make and delete objects, and the functions that remove records. -/
inductive CacheOp
  | glGen (kind : ObjectKind) (n : ℕ)
  | glDelete (kind : ObjectKind) (names : List ℕ)
  | deleteCached (kind : ObjectKind) (name : ℕ)
  deriving DecidableEq, Repr

/-- The handler of the names of a kind. -/
def nameHandler (s : State) : ObjectKind → NameHandler
  | .texture => s.textureNameHandler
  | .framebuffer => s.framebufferNameHandler
  | .renderbuffer => s.renderbufferNameHandler

/-- `caching_client_glGen*`. -/
def glGen (s : State) (kind : ObjectKind) (n : ℕ) : Option (State × Effects) :=
  match kind with
  | .texture => s.glGenTextures n
  | .framebuffer => s.glGenFramebuffers n
  | .renderbuffer => s.glGenRenderbuffers n

/-- `caching_client_glDelete*`. -/
def glDelete (s : State) (kind : ObjectKind) (names : List ℕ) : Option (State × Effects) :=
  match kind with
  | .texture => s.glDeleteTextures names
  | .framebuffer => s.glDeleteFramebuffers names
  | .renderbuffer => s.glDeleteRenderbuffers names

/-- `egl_state_delete_cached_*`. -/
def deleteCached (s : State) (kind : ObjectKind) (name : ℕ) : State :=
  match kind with
  | .texture => s.deleteCachedTexture name
  | .framebuffer => s.deleteCachedFramebuffer name
  | .renderbuffer => s.deleteCachedRenderbuffer name

/-- One operation, with what the application makes of it. -/
def History.run (h : History) : CacheOp → Option History
  | .glGen kind n => do
    let (names, _) ← allocNames (nameHandler h.state kind) n
    let (s, _) ← glGen h.state kind n
    return ⟨s, Function.update h.live kind (h.live kind ∪ names.toFinset)⟩
  | .glDelete kind names => do
    let (s, _) ← glDelete h.state kind names
    return ⟨s, Function.update h.live kind (h.live kind \ names.toFinset)⟩
  | .deleteCached kind name =>
    some ⟨deleteCached h.state kind name,
      Function.update h.live kind (h.live kind \ {name})⟩

/-- All runs of a context that shares with no other, over memory of any content. -/
def cacheSystem : System History CacheOp :=
  System.ofStep (fun h => ∃ memory, h = ⟨.init memory, fun _ => ∅⟩) History.run

/-- The kind an operation is on. -/
def CacheOp.kind : CacheOp → ObjectKind
  | .glGen kind _ | .glDelete kind _ | .deleteCached kind _ => kind

/-- There is a record of an object. -/
def Cached (s : State) (name : ℕ) : ObjectKind → Prop
  | .texture => s.lookupCachedTexture name ≠ none
  | .framebuffer => s.lookupCachedFramebuffer name ≠ none
  | .renderbuffer => s.lookupCachedRenderbuffer name ≠ none

/-- The cache of a kind is as it was. -/
def SameCache (s t : State) : ObjectKind → Prop
  | .texture => t.lookupCachedTexture = s.lookupCachedTexture
  | .framebuffer => t.lookupCachedFramebuffer = s.lookupCachedFramebuffer
  | .renderbuffer => t.lookupCachedRenderbuffer = s.lookupCachedRenderbuffer

/-- The caches have records of the objects that exist, and of no others. -/
def CachesExact (h : History) : Prop :=
  ∀ kind name, Cached h.state name kind ↔ name ∈ h.live kind

/-- An operation on one kind leaves the caches of the others. -/
def LeavesOthers (s : State) (op : CacheOp) (t : State) : Prop :=
  ∀ kind, kind ≠ op.kind → SameCache s t kind

/-- No framebuffer and no renderbuffer is deleted, and none of the two helpers that are
wrong gets the name of an object of its kind, or of a texture. -/
def Removable (h : History) : CacheOp → Prop
  | .glGen _ _ | .glDelete .texture _ | .deleteCached .texture _ => True
  | .glDelete .framebuffer names => ∀ name ∈ names, name ∉ h.live .framebuffer
  | .glDelete .renderbuffer names => ∀ name ∈ names, name ∉ h.live .renderbuffer
  | .deleteCached .framebuffer name => name ∉ h.live .framebuffer ∧ name ∉ h.live .texture
  | .deleteCached .renderbuffer name => name ∉ h.live .renderbuffer ∧ name ∉ h.live .texture

/-- Nothing is attached to anything, as there is no call to attach it. -/
structure Unlinked (s : State) : Prop where
  texture : ∀ name tex, s.lookupCachedTexture name = some tex → tex.framebufferId = 0
  framebuffer : ∀ name fb, s.lookupCachedFramebuffer name = some fb →
    fb.attachedStencilBuffer = 0
  renderbuffer : ∀ name rb, s.lookupCachedRenderbuffer name = some rb → rb.framebufferId = 0

variable {s t : State} {h h' : History} {op : CacheOp} {names : List ℕ} {name n k : ℕ}
  {effects : Effects} {kind : ObjectKind} {handler : NameHandler}
  {framebuffer framebuffer' : Option ℕ}

/-! ### What the operations do to the caches -/

theorem SameCache.refl : SameCache s s kind := by
  cases kind <;> rfl

theorem SameCache.trans {u : State} (h : SameCache s t kind) (h' : SameCache t u kind) :
    SameCache s u kind := by
  cases kind <;> exact Eq.trans h' h

theorem sameCache_deleteCachedTexture (hkind : kind ≠ .texture) :
    SameCache s (s.deleteCachedTexture name) kind := by
  cases kind with
  | texture => exact absurd rfl hkind
  | framebuffer => exact lookup_deleteCachedTexture_others.1
  | renderbuffer => exact lookup_deleteCachedTexture_others.2

theorem sameCache_unbindRenderbuffer : SameCache s (s.unbindRenderbuffer name) kind := by
  cases kind with
  | texture => exact lookup_unbindRenderbuffer.1
  | framebuffer => exact lookup_unbindRenderbuffer.2.1
  | renderbuffer => exact lookup_unbindRenderbuffer.2.2

theorem sameCache_unbindFramebuffer : SameCache s (s.unbindFramebuffer name) kind := by
  cases kind with
  | texture => exact lookup_unbindFramebuffer.1
  | framebuffer => exact lookup_unbindFramebuffer.2.1
  | renderbuffer => exact lookup_unbindFramebuffer.2.2

/-- Whichever helper is called, it is a texture that loses its record. -/
theorem deleteCached_eq : deleteCached s kind name = s.deleteCachedTexture name := by
  cases kind <;> rfl

/-- In a round of the loop no framebuffer is found. -/
theorem deleteTexture_unlinked (hs : Unlinked s)
    (h : deleteTexture (s, none) name = some (t, framebuffer')) :
    framebuffer' = none ∧
      t.lookupCachedTexture = Function.update s.lookupCachedTexture name none ∧
      ∀ kind, kind ≠ .texture → SameCache s t kind := by
  have hdelete : ((s.deleteCachedTexture name).unbindTexture name).lookupCachedTexture =
        Function.update s.lookupCachedTexture name none ∧
      ∀ kind, kind ≠ .texture →
        SameCache s ((s.deleteCachedTexture name).unbindTexture name) kind := by
    obtain ⟨htexture, hframebuffer, hrenderbuffer⟩ := lookup_removeTexture s name
    refine ⟨htexture, fun kind hkind => ?_⟩
    cases kind with
    | texture => exact absurd rfl hkind
    | framebuffer => exact hframebuffer
    | renderbuffer => exact hrenderbuffer
  rcases deleteTexture_cases h with ⟨rfl, rfl, rfl⟩ | ⟨-, -, -, rfl, rfl⟩ | ⟨tex, -, htex, rfl, rfl⟩
  · exact ⟨rfl, (Function.update_eq_self 0 _).symm, fun _ _ => .refl⟩
  · exact ⟨rfl, hdelete⟩
  · rw [hs.texture name tex htex]
    -- The record has no framebuffer, and the name 0 is not cached.
    exact ⟨rfl, hdelete⟩

theorem deleteRenderbuffer_unlinked (hs : Unlinked s)
    (h : deleteRenderbuffer (s, none) name = some (t, framebuffer')) :
    framebuffer' = none ∧ ∀ kind, SameCache s t kind := by
  rcases deleteRenderbuffer_cases h with
    ⟨rfl, rfl, rfl⟩ | ⟨-, -, -, rfl, rfl⟩ | ⟨rb, -, hrb, rfl, rfl⟩
  · exact ⟨rfl, fun _ => .refl⟩
  · exact ⟨rfl, fun _ => sameCache_unbindRenderbuffer⟩
  · rw [hs.renderbuffer name rb hrb]
    exact ⟨rfl, fun _ => sameCache_unbindRenderbuffer⟩

theorem deleteFramebuffer_unlinked (hs : Unlinked s) :
    SameCache s (s.deleteFramebuffer name) kind := by
  unfold deleteFramebuffer
  split_ifs
  · exact .refl
  · cases hfb : s.lookupCachedFramebuffer name with
    | none => exact sameCache_unbindFramebuffer
    | some fb =>
      -- Only a stencil buffer is unlinked, and there is none.
      have hunlink : s.unlink fb = s := by
        rw [unlink_eq, if_neg fun h => h.2 (hs.framebuffer name fb hfb)]
      simp only [hunlink]
      exact sameCache_unbindFramebuffer

theorem Unlinked.of_sameCache (hs : Unlinked s)
    (htexture : ∀ name tex, t.lookupCachedTexture name = some tex →
      s.lookupCachedTexture name = some tex ∨ tex.framebufferId = 0)
    (hframebuffer : SameCache s t .framebuffer) (hrenderbuffer : SameCache s t .renderbuffer) :
    Unlinked t := by
  refine ⟨fun name tex htex => ?_, ?_, ?_⟩
  · rcases htexture name tex htex with hold | hzero
    · exact hs.texture name tex hold
    · exact hzero
  · rw [show t.lookupCachedFramebuffer = s.lookupCachedFramebuffer from hframebuffer]
    exact hs.framebuffer
  · rw [show t.lookupCachedRenderbuffer = s.lookupCachedRenderbuffer from hrenderbuffer]
    exact hs.renderbuffer

/-- A record that is removed links nothing. -/
theorem Unlinked.of_removed (hs : Unlinked s)
    (hlookup : t.lookupCachedTexture = Function.update s.lookupCachedTexture name none)
    (hothers : ∀ kind, kind ≠ .texture → SameCache s t kind) : Unlinked t := by
  refine hs.of_sameCache (fun k tex htex => ?_) (hothers _ (by decide)) (hothers _ (by decide))
  rw [hlookup] at htex
  by_cases hk : k = name
  · rw [hk, Function.update_self] at htex
    cases htex
  · rw [Function.update_of_ne hk] at htex
    exact .inl htex

/-! ### The loops -/

theorem foldlM_deleteTexture (hs : Unlinked s)
    (h : names.foldlM deleteTexture (s, none) = some (t, framebuffer')) :
    (∀ k, t.lookupCachedTexture k = if k ∈ names then none else s.lookupCachedTexture k) ∧
      ∀ kind, kind ≠ .texture → SameCache s t kind := by
  -- `none` for the framebuffer is handed on, because no record has a link.
  induction names generalizing s with
  | nil =>
    cases h
    exact ⟨fun k => by simp, fun _ _ => .refl⟩
  | cons name names ih =>
    rw [List.foldlM_cons] at h
    obtain ⟨⟨u, framebuffer⟩, hround, hrest⟩ := Option.bind_eq_some_iff.mp h
    obtain ⟨rfl, hlookup, hothers⟩ := deleteTexture_unlinked hs hround
    obtain ⟨hrestLookup, hrestOthers⟩ := ih (hs.of_removed hlookup hothers) hrest
    refine ⟨fun k => ?_, fun kind hkind => (hothers kind hkind).trans (hrestOthers kind hkind)⟩
    rw [hrestLookup k, hlookup]
    by_cases hk : k = name
    · subst hk
      simp
    · simp [hk]

theorem foldlM_deleteRenderbuffer (hs : Unlinked s)
    (h : names.foldlM deleteRenderbuffer (s, none) = some (t, framebuffer')) :
    ∀ kind, SameCache s t kind := by
  induction names generalizing s with
  | nil =>
    cases h
    exact fun _ => .refl
  | cons name names ih =>
    rw [List.foldlM_cons] at h
    obtain ⟨⟨u, framebuffer⟩, hround, hrest⟩ := Option.bind_eq_some_iff.mp h
    obtain ⟨rfl, hsame⟩ := deleteRenderbuffer_unlinked hs hround
    have htexture : u.lookupCachedTexture = s.lookupCachedTexture := hsame .texture
    have hu : Unlinked u :=
      hs.of_sameCache (fun k tex htex => .inl (by rwa [htexture] at htex)) (hsame _) (hsame _)
    exact fun kind => (hsame kind).trans (ih hu hrest kind)

theorem foldl_deleteFramebuffer (hs : Unlinked s) :
    ∀ kind, SameCache s (names.foldl deleteFramebuffer s) kind := by
  induction names generalizing s with
  | nil => exact fun _ => .refl
  | cons name names ih =>
    have hsame : ∀ kind, SameCache s (s.deleteFramebuffer name) kind :=
      fun _ => deleteFramebuffer_unlinked hs
    have htexture : (s.deleteFramebuffer name).lookupCachedTexture = s.lookupCachedTexture :=
      hsame .texture
    have hu : Unlinked (s.deleteFramebuffer name) :=
      hs.of_sameCache (fun k tex htex => .inl (by rwa [htexture] at htex)) (hsame _) (hsame _)
    exact fun kind => (hsame kind).trans (ih hu kind)

/-! ### One operation -/

theorem SameCache.cached_iff (h : SameCache s t kind) : Cached t k kind ↔ Cached s k kind := by
  cases kind with
  | texture =>
    have htexture : t.lookupCachedTexture = s.lookupCachedTexture := h
    simp only [Cached, htexture]
  | framebuffer =>
    have hframebuffer : t.lookupCachedFramebuffer = s.lookupCachedFramebuffer := h
    simp only [Cached, hframebuffer]
  | renderbuffer =>
    have hrenderbuffer : t.lookupCachedRenderbuffer = s.lookupCachedRenderbuffer := h
    simp only [Cached, hrenderbuffer]

theorem glGen_spec (hs : Unlinked s)
    (halloc : allocNames (nameHandler s kind) n = some (names, handler))
    (h : glGen s kind n = some (t, effects)) :
    Unlinked t ∧ (∀ k, Cached t k kind ↔ k ∈ names ∨ Cached s k kind) ∧
      ∀ other, other ≠ kind → SameCache s t other := by
  cases kind with
  | texture =>
    obtain ⟨cache, rfl, hlookup⟩ := glGenTextures_spec halloc h
    refine ⟨hs.of_sameCache (fun k tex htex => ?_) rfl rfl, fun k => ?_, fun other hother => ?_⟩
    · have htex' : hashLookup cache k = some tex := htex
      rw [hlookup k] at htex'
      split_ifs at htex' with hk
      · cases htex'
        exact .inr rfl
      · exact .inl htex'
    · change hashLookup cache k ≠ none ↔ _
      rw [hlookup k]
      by_cases hk : k ∈ names <;> simp [hk, Cached]
    · cases other <;> first | exact absurd rfl hother | rfl
  | framebuffer =>
    obtain ⟨cache, rfl, hlookup⟩ := glGenFramebuffers_spec halloc h
    refine ⟨⟨hs.texture, fun k fb hfb => ?_, hs.renderbuffer⟩, fun k => ?_,
      fun other hother => ?_⟩
    · have hfb' : hashLookup cache k = some fb := hfb
      rw [hlookup k] at hfb'
      split_ifs at hfb' with hk
      · cases hfb'
        rfl
      · exact hs.framebuffer k fb hfb'
    · change hashLookup cache k ≠ none ↔ _
      rw [hlookup k]
      by_cases hk : k ∈ names <;> simp [hk, Cached]
    · cases other <;> first | exact absurd rfl hother | rfl
  | renderbuffer =>
    obtain ⟨cache, rfl, hlookup⟩ := glGenRenderbuffers_spec halloc h
    refine ⟨⟨hs.texture, hs.framebuffer, fun k rb hrb => ?_⟩, fun k => ?_,
      fun other hother => ?_⟩
    · have hrb' : hashLookup cache k = some rb := hrb
      rw [hlookup k] at hrb'
      split_ifs at hrb' with hk
      · cases hrb'
        rfl
      · exact hs.renderbuffer k rb hrb'
    · change hashLookup cache k ≠ none ↔ _
      rw [hlookup k]
      by_cases hk : k ∈ names <;> simp [hk, Cached]
    · cases other <;> first | exact absurd rfl hother | rfl

theorem glDeleteTextures_spec (hs : Unlinked s) (h : s.glDeleteTextures names = some (t, effects)) :
    (∀ k, t.lookupCachedTexture k = if k ∈ names then none else s.lookupCachedTexture k) ∧
      ∀ kind, kind ≠ .texture → SameCache s t kind := by
  obtain ⟨⟨u, framebuffer⟩, hloop, heq⟩ := Option.bind_eq_some_iff.mp h
  cases heq
  exact foldlM_deleteTexture hs hloop

/-- Deleting framebuffers or renderbuffers leaves all caches. -/
theorem sameCache_glDelete (hs : Unlinked s) (hkind : kind ≠ .texture)
    (h : glDelete s kind names = some (t, effects)) : ∀ other, SameCache s t other := by
  cases kind with
  | texture => exact absurd rfl hkind
  | framebuffer =>
    cases h
    have hs' : Unlinked { s with
      framebufferNameHandler := deleteNames s.framebufferNameHandler names } :=
      ⟨hs.texture, hs.framebuffer, hs.renderbuffer⟩
    intro other
    exact SameCache.trans (by cases other <;> rfl) (foldl_deleteFramebuffer hs' other)
  | renderbuffer =>
    obtain ⟨⟨u, framebuffer⟩, hloop, heq⟩ := Option.bind_eq_some_iff.mp h
    cases heq
    have hs' : Unlinked { s with
      renderbufferNameHandler := deleteNames s.renderbufferNameHandler names } :=
      ⟨hs.texture, hs.framebuffer, hs.renderbuffer⟩
    intro other
    exact SameCache.trans (by cases other <;> rfl) (foldlM_deleteRenderbuffer hs' hloop other)

theorem cached_of_lookup (hlookup : ∀ k, t.lookupCachedTexture k =
    if k ∈ names then none else s.lookupCachedTexture k) :
    Cached t k .texture ↔ k ∉ names ∧ Cached s k .texture := by
  unfold Cached
  rw [hlookup k]
  by_cases hk : k ∈ names <;> simp [hk]

/-- What an operation does to the caches and to the names of one kind decides whether the
caches stay exact. -/
theorem cachesExact_update_iff {live : Finset ℕ} (hexact : CachesExact h)
    (hothers : ∀ other, other ≠ kind → SameCache h.state s other) :
    CachesExact ⟨s, Function.update h.live kind live⟩ ↔ ∀ k, Cached s k kind ↔ k ∈ live := by
  constructor
  · intro h' k
    have hkind : Cached s k kind ↔ k ∈ Function.update h.live kind live kind := h' kind k
    rwa [Function.update_self] at hkind
  · intro hkind other k
    change Cached s k other ↔ k ∈ Function.update h.live kind live other
    by_cases hother : other = kind
    · subst hother
      rw [Function.update_self]
      exact hkind k
    · rw [Function.update_of_ne hother]
      exact (hothers other hother).cached_iff.trans (hexact other k)

theorem run_glGen (hs : Unlinked h.state) (hexact : CachesExact h)
    (hrun : h.run (.glGen kind n) = some h') :
    Unlinked h'.state ∧ CachesExact h' ∧ LeavesOthers h.state (.glGen kind n) h'.state := by
  obtain ⟨⟨names, handler⟩, halloc, hrest⟩ := Option.bind_eq_some_iff.mp hrun
  obtain ⟨⟨t, effects⟩, hgen, heq⟩ := Option.bind_eq_some_iff.mp hrest
  cases heq
  obtain ⟨hunlinked, hcached, hothers⟩ := glGen_spec hs halloc hgen
  refine ⟨hunlinked, (cachesExact_update_iff hexact hothers).mpr fun k => ?_, hothers⟩
  -- What was cached and what is generated now are the names of the kind.
  rw [hcached k, hexact kind k, Finset.mem_union, List.mem_toFinset]
  exact or_comm

theorem run_glDelete_texture (hs : Unlinked h.state) (hexact : CachesExact h)
    (hrun : h.run (.glDelete .texture names) = some h') :
    Unlinked h'.state ∧ CachesExact h' ∧
      LeavesOthers h.state (.glDelete .texture names) h'.state := by
  obtain ⟨⟨t, effects⟩, hdelete, heq⟩ := Option.bind_eq_some_iff.mp hrun
  cases heq
  obtain ⟨hlookup, hothers⟩ := glDeleteTextures_spec hs hdelete
  refine ⟨?_, (cachesExact_update_iff hexact hothers).mpr fun k => ?_, hothers⟩
  · refine hs.of_sameCache (fun k tex htex => ?_) (hothers _ (by decide)) (hothers _ (by decide))
    rw [hlookup k] at htex
    split_ifs at htex
    exact .inl htex
  · rw [cached_of_lookup hlookup, hexact .texture k, Finset.mem_sdiff, List.mem_toFinset]
    exact and_comm

/-- The names are gone, and the records are not. -/
theorem run_glDelete_of_ne (hs : Unlinked h.state) (hexact : CachesExact h)
    (hkind : kind ≠ .texture) (hrun : h.run (.glDelete kind names) = some h') :
    Unlinked h'.state ∧ LeavesOthers h.state (.glDelete kind names) h'.state ∧
      (CachesExact h' ↔ ∀ name ∈ names, name ∉ h.live kind) := by
  obtain ⟨⟨t, effects⟩, hdelete, heq⟩ := Option.bind_eq_some_iff.mp hrun
  cases heq
  have hsame := sameCache_glDelete hs hkind hdelete
  have htexture : t.lookupCachedTexture = h.state.lookupCachedTexture := hsame .texture
  refine ⟨hs.of_sameCache (fun k tex htex => .inl (by rwa [htexture] at htex)) (hsame _) (hsame _),
    fun other _ => hsame other, ?_⟩
  -- No cache changes, and the names that are deleted are no longer live.
  rw [cachesExact_update_iff hexact fun other _ => hsame other]
  simp only [(hsame kind).cached_iff, hexact kind, Finset.mem_sdiff, List.mem_toFinset]
  exact ⟨fun h name hname hlive => ((h name).mp hlive).2 hname,
    fun h name => ⟨fun hlive => ⟨hlive, fun hname => h name hname hlive⟩, And.left⟩⟩

/-- It is a texture that loses its record. -/
theorem run_deleteCached (hs : Unlinked h.state) (hexact : CachesExact h)
    (hrun : h.run (.deleteCached kind name) = some h') :
    Unlinked h'.state ∧
      (CachesExact h' ∧ LeavesOthers h.state (.deleteCached kind name) h'.state ↔
        kind = .texture ∨ name ∉ h.live kind ∧ name ∉ h.live .texture) := by
  cases hrun
  rw [deleteCached_eq]
  have hlookup : (h.state.deleteCachedTexture name).lookupCachedTexture =
      Function.update h.state.lookupCachedTexture name none := lookup_deleteCachedTexture
  have hcached : ∀ k, Cached (h.state.deleteCachedTexture name) k .texture ↔
      k ≠ name ∧ k ∈ h.live .texture := by
    intro k
    rw [← hexact .texture k]
    unfold Cached
    rw [hlookup]
    by_cases hk : k = name <;> simp [hk]
  have hothers : ∀ other, other ≠ .texture →
      SameCache h.state (h.state.deleteCachedTexture name) other :=
    fun _ hother => sameCache_deleteCachedTexture hother
  refine ⟨hs.of_removed hlookup hothers, ?_⟩
  by_cases hkind : kind = .texture
  · subst hkind
    -- For a texture the right helper is called.
    refine iff_of_true ⟨(cachesExact_update_iff hexact hothers).mpr fun k => ?_, hothers⟩ (.inl rfl)
    rw [hcached k, Finset.mem_sdiff, Finset.mem_singleton]
    exact and_comm
  simp only [hkind, false_or]
  constructor
  · rintro ⟨hexact', -⟩
    constructor
    · intro hlive
      -- The record of the object itself is still there.
      have hafter := (hexact' kind name).mp
        ((hothers kind hkind).cached_iff.mpr ((hexact kind name).mpr hlive))
      simp at hafter
    · intro hlive
      have hafter : name ∈ Function.update h.live kind (h.live kind \ {name}) .texture := by
        rwa [Function.update_of_ne (Ne.symm hkind)]
      exact ((hcached name).mp ((hexact' .texture name).mpr hafter)).1 rfl
  · rintro ⟨hlive, htexture⟩
    -- No texture has the name, so that no record is removed.
    have hsame : ∀ other, SameCache h.state (h.state.deleteCachedTexture name) other := by
      intro other
      by_cases hother : other = .texture
      · subst hother
        have hnone : h.state.lookupCachedTexture name = none :=
          not_not.mp fun hcached => htexture ((hexact .texture name).mp hcached)
        change (h.state.deleteCachedTexture name).lookupCachedTexture = h.state.lookupCachedTexture
        rw [hlookup, ← hnone, Function.update_eq_self]
      · exact hothers other hother
    refine ⟨(cachesExact_update_iff hexact fun other _ => hsame other).mpr fun k => ?_,
      fun other _ => hsame other⟩
    rw [(hsame kind).cached_iff, hexact kind k, Finset.mem_sdiff, Finset.mem_singleton]
    exact ⟨fun hk => ⟨hk, fun heq => hlive (heq ▸ hk)⟩, And.left⟩

/-- One operation, from a state with exact caches. -/
theorem cacheOp_iff (hs : Unlinked h.state) (hexact : CachesExact h) (hrun : h.run op = some h') :
    Unlinked h'.state ∧
      (CachesExact h' ∧ LeavesOthers h.state op h'.state ↔ Removable h op) := by
  cases op with
  | glGen kind n =>
    obtain ⟨hunlinked, hrest⟩ := run_glGen hs hexact hrun
    exact ⟨hunlinked, iff_of_true hrest trivial⟩
  | glDelete kind names =>
    by_cases hkind : kind = .texture
    · subst hkind
      obtain ⟨hunlinked, hrest⟩ := run_glDelete_texture hs hexact hrun
      exact ⟨hunlinked, iff_of_true hrest trivial⟩
    · obtain ⟨hunlinked, hothers, hiff⟩ := run_glDelete_of_ne hs hexact hkind hrun
      refine ⟨hunlinked, ?_⟩
      rw [hiff, and_iff_left hothers]
      cases kind <;> first | exact absurd rfl hkind | rfl
  | deleteCached kind name =>
    obtain ⟨hunlinked, hiff⟩ := run_deleteCached hs hexact hrun
    refine ⟨hunlinked, hiff.trans ?_⟩
    cases kind <;> simp [Removable]

theorem cachesExact_init {memory : ℕ} : CachesExact ⟨.init memory, fun _ => ∅⟩ := by
  intro kind name
  cases kind <;> simp [Cached, State.init, lookupCachedTexture, lookupCachedFramebuffer,
    lookupCachedRenderbuffer]

theorem unlinked_init {memory : ℕ} : Unlinked (State.init memory) := by
  constructor <;> intro name record h <;>
    simp [State.init, lookupCachedTexture, lookupCachedFramebuffer, lookupCachedRenderbuffer] at h

/-- As long as no framebuffer or renderbuffer is deleted, the caches are exact and no
operation changes the cache of another kind. The first operation that deletes one breaks
this. -/
theorem cachesExact_iff_removable (h₀ : (cacheSystem.guarded Removable).Reachable h) :
    CachesExact h ∧ ∀ op h', h.run op = some h' →
      (CachesExact h' ∧ LeavesOthers h.state op h'.state ↔ Removable h op) := by
  have hboth : CachesExact h ∧ Unlinked h.state := by
    refine System.Invariant.holds (I := fun h => CachesExact h ∧ Unlinked h.state) ⟨?_, ?_⟩ h₀
    · rintro _ ⟨memory, rfl⟩
      exact ⟨cachesExact_init, unlinked_init⟩
    · rintro h op h' - ⟨hexact, hs⟩ ⟨hremovable, hrun⟩
      obtain ⟨hunlinked, hiff⟩ := cacheOp_iff hs hexact hrun
      exact ⟨(hiff.mpr hremovable).1, hunlinked⟩
  exact ⟨hboth.1, fun op h' hrun => (cacheOp_iff hboth.2 hboth.1 hrun).2⟩

instance : DecidableRel Removable
  | _, .glGen _ _ | _, .glDelete .texture _ | _, .deleteCached .texture _ =>
    inferInstanceAs (Decidable True)
  | h, .glDelete .framebuffer names =>
    inferInstanceAs (Decidable (∀ name ∈ names, name ∉ h.live .framebuffer))
  | h, .glDelete .renderbuffer names =>
    inferInstanceAs (Decidable (∀ name ∈ names, name ∉ h.live .renderbuffer))
  | h, .deleteCached .framebuffer name =>
    inferInstanceAs (Decidable (name ∉ h.live .framebuffer ∧ name ∉ h.live .texture))
  | h, .deleteCached .renderbuffer name =>
    inferInstanceAs (Decidable (name ∉ h.live .renderbuffer ∧ name ∉ h.live .texture))

/-- A texture and a framebuffer of one name, of which the texture is deleted. -/
theorem cachesExact_texture_deleted : ∃ h, (cacheSystem.guarded Removable).Reachable h ∧
    1 ∉ h.live .texture ∧ 1 ∈ h.live .framebuffer ∧ CachesExact h := by
  let ops : List CacheOp := [.glGen .texture 2, .glGen .framebuffer 1,
    .glDelete .texture [1, 0], .glDelete .framebuffer [7]]
  let run := ops.foldlM (fun h op => if decide (Removable h op) then h.run op else none)
    ⟨State.init 0, fun _ => ∅⟩
  have hnames : run.map (fun h =>
      (decide (1 ∈ h.live .texture), decide (1 ∈ h.live .framebuffer))) = some (false, true) := by
    decide +kernel
  obtain ⟨h, hrun, hlive⟩ := Option.map_eq_some_iff.mp hnames
  rw [Prod.mk.injEq, decide_eq_false_iff_not, decide_eq_true_eq] at hlive
  have hreach : (cacheSystem.guarded Removable).Reachable h :=
    System.guarded_of_foldlM (fun _ _ _ h => h) (fun _ _ h => of_decide_eq_true h)
      (.init ⟨0, rfl⟩) hrun
  exact ⟨h, hreach, hlive.1, hlive.2, (cachesExact_iff_removable hreach).1⟩

/-- The record of a framebuffer outlives it. -/
theorem exists_stale_record : ∃ h, cacheSystem.Reachable h ∧ 1 ∉ h.live .framebuffer ∧
    Cached h.state 1 .framebuffer := by
  let ops : List CacheOp := [.glGen .framebuffer 1, .glDelete .framebuffer [1]]
  let run := ops.foldlM History.run ⟨State.init 0, fun _ => ∅⟩
  have hrecord : run.map (fun h => (decide (1 ∈ h.live .framebuffer),
      (h.state.lookupCachedFramebuffer 1).isSome)) = some (false, true) := by
    decide +kernel
  obtain ⟨h, hrun, hrest⟩ := Option.map_eq_some_iff.mp hrecord
  rw [Prod.mk.injEq, decide_eq_false_iff_not] at hrest
  exact ⟨h, System.reachable_of_foldlM (.init ⟨0, rfl⟩) hrun, hrest.1,
    Option.isSome_iff_ne_none.mp hrest.2⟩

end GpuProxy.Objects
