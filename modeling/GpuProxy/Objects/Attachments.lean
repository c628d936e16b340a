import GpuProxy.Names.Supply
import GpuProxy.Objects.Caches

/-!
# When the records of attachments agree

The record of a texture or renderbuffer names the framebuffer it is attached to, and the
record of a framebuffer names what is attached. Attaching writes both sides, but nothing
that was there before is cleared on the other side, and deleting a framebuffer or a
renderbuffer leaves most of the names of it. Here is when the two sides agree throughout a
run.

## Main definitions

* `textureLink`, `framebufferImage`, `renderbufferLink` — the names in the records
* `Links` — the two sides agree, and no record names a framebuffer that was deleted
* `linkSystem`, `LinkCall` — the calls that attach, detach and delete
* `KeepsLinks` — the calls that keep the records in agreement

## Main results

* `links_glFramebufferTexture2D_iff` — attaching a texture
* `links_of_keepsLinks` — whole runs
-/

namespace GpuProxy.Objects

open Math Names GlState State

/-! ### The links -/

/-- A name in a record. The name 0 stands for none. -/
def named (name : ℕ) : Option ℕ := if name = 0 then none else some name

/-- The framebuffer in the record of a texture. -/
def textureLink (s : State) (texture : ℕ) : Option ℕ :=
  (s.lookupCachedTexture texture).bind fun tex => named tex.framebufferId

/-- The texture in the record of a framebuffer. -/
def framebufferImage (s : State) (framebuffer : ℕ) : Option ℕ :=
  (s.lookupCachedFramebuffer framebuffer).bind fun fb => named fb.attachedImage

/-- The framebuffer in the record of a renderbuffer. -/
def renderbufferLink (s : State) (renderbuffer : ℕ) : Option ℕ :=
  (s.lookupCachedRenderbuffer renderbuffer).bind fun rb => named rb.framebufferId

/-- The colour, depth and stencil buffer of a framebuffer. -/
def Framebuffer.renderbuffers (framebuffer : Framebuffer) : List ℕ :=
  [framebuffer.attachedColorBuffer, framebuffer.attachedDepthBuffer,
    framebuffer.attachedStencilBuffer]

/-- A texture names the framebuffer that names it, and the other way round, and a
renderbuffer a framebuffer it is one of the buffers of. These have not been deleted. -/
structure Links (h : History) : Prop where
  inverse : MutualInverse (textureLink h.state) (framebufferImage h.state)
  texture_live : ∀ texture framebuffer, textureLink h.state texture = some framebuffer →
    framebuffer ∈ h.live .framebuffer
  renderbuffer_live : ∀ renderbuffer framebuffer,
    renderbufferLink h.state renderbuffer = some framebuffer → framebuffer ∈ h.live .framebuffer
  renderbuffer_mem : ∀ renderbuffer framebuffer,
    renderbufferLink h.state renderbuffer = some framebuffer →
      ∃ fb, h.state.lookupCachedFramebuffer framebuffer = some fb ∧ renderbuffer ∈ fb.renderbuffers

/-! ### The calls -/

/-- One call, with the names that were generated and not deleted. -/
def History.step (h : History) : Call → Option History
  | .glGenTextures n => h.run (.glGen .texture n)
  | .glGenFramebuffers n => h.run (.glGen .framebuffer n)
  | .glGenRenderbuffers n => h.run (.glGen .renderbuffer n)
  | .glDeleteTextures textures => h.run (.glDelete .texture textures)
  | .glDeleteFramebuffers framebuffers => h.run (.glDelete .framebuffer framebuffers)
  | .glDeleteRenderbuffers renderbuffers => h.run (.glDelete .renderbuffer renderbuffers)
  | call => do
    let (s, _) ← runCall h.state call
    return { h with state := s }

/-- All runs of a context that shares with no other, over memory of any content. -/
def linkSystem : System History Call :=
  System.ofStep (fun h => ∃ memory, h = ⟨.init memory, fun _ => ∅⟩) History.step

/-- The calls that make, delete, bind and attach these objects, with valid targets and
attachments. -/
def LinkCall : Call → Prop
  | .glGenTextures _ | .glGenFramebuffers _ | .glGenRenderbuffers _ => True
  | .glDeleteTextures _ | .glDeleteFramebuffers _ | .glDeleteRenderbuffers _ => True
  | .glBindFramebuffer target _ => target = glFramebuffer
  | .glFramebufferTexture2D target _ _ _ _ => target = glFramebuffer
  | .glFramebufferRenderbuffer target attachment renderbuffertarget _ =>
    target = glFramebuffer ∧ renderbuffertarget = glRenderbuffer ∧
      attachment ∈ [glColorAttachment0, glDepthAttachment, glStencilAttachment]
  | _ => False

/-- A texture is attached when it has no other framebuffer and the framebuffer no other
texture. A renderbuffer is attached when none that names the framebuffer loses its place,
and deleted when it names none. A framebuffer is deleted when no texture names it, and
renderbuffers only as its stencil buffer; the names given back are in use, each once. -/
def KeepsLinks (h : History) : Call → Prop
  | .glFramebufferTexture2D _ _ _ texture _ =>
    ∀ tex, h.state.lookupCachedTexture texture = some tex →
      (tex.framebufferId = 0 ∨ tex.framebufferId = h.state.framebufferBinding) ∧
      (h.state.framebufferBinding ≠ 0 → h.state.framebufferBinding ∈ h.live .framebuffer ∧
        ∀ fb, h.state.lookupCachedFramebuffer h.state.framebufferBinding = some fb →
          fb.attachedImage = 0 ∨ fb.attachedImage = texture)
  | .glFramebufferRenderbuffer _ attachment _ renderbuffer =>
    (h.state.framebufferBinding ≠ 0 → h.state.lookupCachedRenderbuffer renderbuffer ≠ none →
      h.state.framebufferBinding ∈ h.live .framebuffer) ∧
    ∀ fb, h.state.lookupCachedFramebuffer h.state.framebufferBinding = some fb →
      ∀ other ∈ fb.renderbuffers, other ≠ renderbuffer →
        renderbufferLink h.state other = some h.state.framebufferBinding →
          other ∈ (attachRenderbuffer attachment renderbuffer fb).renderbuffers
  | .glDeleteRenderbuffers renderbuffers =>
    ∀ renderbuffer ∈ renderbuffers, renderbufferLink h.state renderbuffer = none
  | .glDeleteFramebuffers framebuffers =>
    (framebuffers.filter (· ≠ 0)).Nodup ∧
      ∀ framebuffer ∈ framebuffers, framebuffer ≠ 0 → framebuffer ∈ h.live .framebuffer ∧
        (∀ texture, textureLink h.state texture ≠ some framebuffer) ∧
        ∀ renderbuffer, renderbufferLink h.state renderbuffer = some framebuffer →
          ∃ other ∈ framebuffers, ∃ fb, h.state.lookupCachedFramebuffer other = some fb ∧
            fb.attachedStencilBuffer = renderbuffer ∧
            fb.attachedStencilBuffer ≠ fb.attachedColorBuffer
  | _ => True

variable {s t : State} {h h' : History} {live live' : ObjectKind → Finset ℕ} {names : List ℕ}
  {name n k : ℕ} {effects : Effects} {handler : NameHandler} {framebuffer framebuffer' : Option ℕ}

/-! ### The links, seen through the caches -/

@[simp] theorem named_zero : named 0 = none := rfl

@[simp] theorem named_eq_some : named name = some k ↔ name = k ∧ k ≠ 0 := by
  unfold named
  split_ifs with hzero
  · simp only [false_iff, not_and, not_not]
    rintro rfl
    exact hzero
  · simp only [Option.some.injEq]
    exact ⟨fun heq => ⟨heq, heq ▸ hzero⟩, And.left⟩

@[simp] theorem named_eq_none : named name = none ↔ name = 0 := by
  simp [named]

/-- A name in a record is none, or a given one. -/
theorem forall_named : (∀ x, named name = some x → x = k) ↔ name = 0 ∨ name = k := by
  constructor
  · intro h
    by_cases hzero : name = 0
    · exact .inl hzero
    · exact .inr (h name (named_eq_some.mpr ⟨rfl, hzero⟩))
  · rintro hname x hx
    obtain ⟨rfl, hx⟩ := named_eq_some.mp hx
    exact hname.resolve_left hx

theorem textureLink_update {value : Option Texture}
    (h : t.lookupCachedTexture = Function.update s.lookupCachedTexture name value) :
    textureLink t = Function.update (textureLink s) name
      (value.bind fun tex => named tex.framebufferId) := by
  funext x
  unfold textureLink
  rw [h]
  exact Function.apply_update (fun _ (record : Option Texture) => record.bind fun tex =>
    named tex.framebufferId) _ name value x

theorem framebufferImage_update {value : Option Framebuffer}
    (h : t.lookupCachedFramebuffer = Function.update s.lookupCachedFramebuffer name value) :
    framebufferImage t = Function.update (framebufferImage s) name
      (value.bind fun fb => named fb.attachedImage) := by
  funext x
  unfold framebufferImage
  rw [h]
  exact Function.apply_update (fun _ (record : Option Framebuffer) => record.bind fun fb =>
    named fb.attachedImage) _ name value x

theorem renderbufferLink_update {value : Option Renderbuffer}
    (h : t.lookupCachedRenderbuffer = Function.update s.lookupCachedRenderbuffer name value) :
    renderbufferLink t = Function.update (renderbufferLink s) name
      (value.bind fun rb => named rb.framebufferId) := by
  funext x
  unfold renderbufferLink
  rw [h]
  exact Function.apply_update (fun _ (record : Option Renderbuffer) => record.bind fun rb =>
    named rb.framebufferId) _ name value x

theorem textureLink_of_lookup {tex : Texture} (h : s.lookupCachedTexture name = some tex) :
    textureLink s name = named tex.framebufferId := by
  unfold textureLink
  rw [h]
  rfl

theorem framebufferImage_of_lookup {fb : Framebuffer}
    (h : s.lookupCachedFramebuffer name = some fb) :
    framebufferImage s name = named fb.attachedImage := by
  unfold framebufferImage
  rw [h]
  rfl

theorem textureLink_congr (h : t.lookupCachedTexture = s.lookupCachedTexture) :
    textureLink t = textureLink s := by
  funext x
  unfold textureLink
  rw [h]

theorem framebufferImage_congr (h : t.lookupCachedFramebuffer = s.lookupCachedFramebuffer) :
    framebufferImage t = framebufferImage s := by
  funext x
  unfold framebufferImage
  rw [h]

theorem renderbufferLink_congr (h : t.lookupCachedRenderbuffer = s.lookupCachedRenderbuffer) :
    renderbufferLink t = renderbufferLink s := by
  funext x
  unfold renderbufferLink
  rw [h]

/-- A call that changes neither the attached images nor the attached buffers may drop links
of renderbuffers. -/
theorem Links.of_same (hs : Links ⟨s, live⟩) (htexture : textureLink t = textureLink s)
    (himage : framebufferImage t = framebufferImage s)
    (hrenderbuffer : ∀ r f, renderbufferLink t r = some f → renderbufferLink s r = some f)
    (hbuffers : ∀ f fb, s.lookupCachedFramebuffer f = some fb → f ∈ live .framebuffer →
      ∃ fb', t.lookupCachedFramebuffer f = some fb' ∧ fb'.renderbuffers = fb.renderbuffers)
    (hlive : ∀ f ∈ live .framebuffer, (∃ x, textureLink s x = some f) ∨
      (∃ r, renderbufferLink t r = some f) → f ∈ live' .framebuffer) :
    Links ⟨t, live'⟩ := by
  refine ⟨?_, fun x f hx => ?_, fun r f hr => ?_, fun r f hr => ?_⟩
  · change MutualInverse (textureLink t) (framebufferImage t)
    rw [htexture, himage]
    exact hs.inverse
  · have hx' : textureLink s x = some f := htexture ▸ hx
    exact hlive f (hs.texture_live x f hx') (.inl ⟨x, hx'⟩)
  · exact hlive f (hs.renderbuffer_live r f (hrenderbuffer r f hr)) (.inr ⟨r, hr⟩)
  · have hr' := hrenderbuffer r f hr
    obtain ⟨fb, hfb, hmem⟩ := hs.renderbuffer_mem r f hr'
    obtain ⟨fb', hfb', hsame⟩ := hbuffers f fb hfb (hs.renderbuffer_live r f hr')
    exact ⟨fb', hfb', hsame ▸ hmem⟩

/-- A call that changes no record keeps the links. -/
theorem Links.of_sameCache (hs : Links ⟨s, live⟩) (hsame : ∀ kind, SameCache s t kind)
    (hlive : live' .framebuffer = live .framebuffer) : Links ⟨t, live'⟩ := by
  have htexture : t.lookupCachedTexture = s.lookupCachedTexture := hsame .texture
  have hframebuffer : t.lookupCachedFramebuffer = s.lookupCachedFramebuffer := hsame .framebuffer
  have hrenderbuffer : t.lookupCachedRenderbuffer = s.lookupCachedRenderbuffer :=
    hsame .renderbuffer
  exact hs.of_same (textureLink_congr htexture) (framebufferImage_congr hframebuffer)
    (fun r f hr => renderbufferLink_congr hrenderbuffer ▸ hr)
    (fun f fb hfb _ => ⟨fb, hframebuffer ▸ hfb, rfl⟩) fun f hf _ => hlive ▸ hf

/-! ### Deleting -/

theorem renderbuffers_update {f : Framebuffer → Framebuffer}
    (hf : ∀ fb, (f fb).renderbuffers = fb.renderbuffers)
    (h : t.lookupCachedFramebuffer =
      Function.update s.lookupCachedFramebuffer name ((s.lookupCachedFramebuffer name).map f))
    {fb : Framebuffer} (hfb : s.lookupCachedFramebuffer k = some fb) :
    ∃ fb', t.lookupCachedFramebuffer k = some fb' ∧ fb'.renderbuffers = fb.renderbuffers := by
  rw [h]
  by_cases hk : k = name
  · subst hk
    exact ⟨f fb, by rw [Function.update_self, hfb, Option.map_some], hf fb⟩
  · exact ⟨fb, by rw [Function.update_of_ne hk, hfb], rfl⟩

/-- A call that writes one framebuffer, and not its attached buffers, keeps the links of the
renderbuffers. -/
theorem Links.of_updateFramebuffer (hs : Links ⟨s, live⟩) {f : Framebuffer → Framebuffer}
    (hf : ∀ fb, (f fb).renderbuffers = fb.renderbuffers)
    (hframebuffer : t.lookupCachedFramebuffer =
      Function.update s.lookupCachedFramebuffer name ((s.lookupCachedFramebuffer name).map f))
    (hrenderbuffer : t.lookupCachedRenderbuffer = s.lookupCachedRenderbuffer)
    (hinverse : MutualInverse (textureLink t) (framebufferImage t))
    (hlive : ∀ x f, textureLink t x = some f → f ∈ live .framebuffer) : Links ⟨t, live⟩ := by
  have hlink : renderbufferLink t = renderbufferLink s := renderbufferLink_congr hrenderbuffer
  refine ⟨hinverse, hlive, fun r f hr => ?_, fun r f hr => ?_⟩
  · exact hs.renderbuffer_live r f (hlink ▸ hr)
  · obtain ⟨fb, hfb, hmem⟩ := hs.renderbuffer_mem r f (hlink ▸ hr)
    obtain ⟨fb', hfb', hsame⟩ := renderbuffers_update hf hframebuffer hfb
    exact ⟨fb', hfb', hsame ▸ hmem⟩

/-- The texture and its framebuffer lose their links to each other. -/
theorem Links.unlinkTexture (hs : Links ⟨s, live⟩) {tex : Texture}
    (htex : s.lookupCachedTexture name = some tex)
    (htexture : t.lookupCachedTexture = Function.update s.lookupCachedTexture name none)
    (hframebuffer : t.lookupCachedFramebuffer = Function.update s.lookupCachedFramebuffer
      tex.framebufferId ((s.lookupCachedFramebuffer tex.framebufferId).map clearImage))
    (hrenderbuffer : t.lookupCachedRenderbuffer = s.lookupCachedRenderbuffer) :
    Links ⟨t, live⟩ := by
  have htextureLink : textureLink t = Function.update (textureLink s) name none :=
    textureLink_update htexture
  have himage : framebufferImage t =
      Function.update (framebufferImage s) tex.framebufferId none := by
    rw [framebufferImage_update hframebuffer]
    cases s.lookupCachedFramebuffer tex.framebufferId <;> rfl
  have hlink : textureLink s name = named tex.framebufferId := textureLink_of_lookup htex
  apply hs.of_updateFramebuffer (f := clearImage) (fun _ => rfl) hframebuffer hrenderbuffer
  · rw [htextureLink, himage]
    by_cases hzero : tex.framebufferId = 0
    -- A texture without a framebuffer has nothing that names it.
    · have hnone : framebufferImage s 0 = none := rfl
      rw [hzero, named_zero] at hlink
      rw [hzero, ← hlink, Function.update_eq_self, hlink, ← hnone, Function.update_eq_self]
      exact hs.inverse
    · exact hs.inverse.unlink (hlink.trans (named_eq_some.mpr ⟨rfl, hzero⟩))
  · intro x f hx
    rw [htextureLink] at hx
    by_cases heq : x = name
    · rw [heq, Function.update_self] at hx
      cases hx
    · rw [Function.update_of_ne heq] at hx
      exact hs.texture_live x f hx

theorem Links.deleteTexture (hs : Links ⟨s, live⟩)
    (h : State.deleteTexture (s, framebuffer) name = some (t, framebuffer')) : Links ⟨t, live⟩ := by
  rcases deleteTexture_cases h with
    ⟨rfl, rfl, rfl⟩ | ⟨-, hnone, -, -, rfl⟩ | ⟨tex, -, htex, -, rfl⟩
  · exact hs
  · obtain ⟨htexture, hframebuffer, hrenderbuffer⟩ := lookup_removeTexture s name
    -- There was no record, so that none is removed.
    rw [← hnone, Function.update_eq_self] at htexture
    exact hs.of_same (textureLink_congr htexture) (framebufferImage_congr hframebuffer)
      (fun r f hr => by rwa [renderbufferLink_congr hrenderbuffer] at hr)
      (fun f fb hfb _ => ⟨fb, hframebuffer ▸ hfb, rfl⟩) (fun f hf _ => hf)
  · obtain ⟨htexture, hframebuffer, hrenderbuffer⟩ :=
      lookup_removeTexture (s.modifyFramebuffer tex.framebufferId clearImage) name
    exact hs.unlinkTexture htex htexture (hframebuffer.trans lookup_modifyFramebuffer) hrenderbuffer

theorem Links.foldlM_deleteTexture (hs : Links ⟨s, live⟩)
    (h : names.foldlM State.deleteTexture (s, framebuffer) = some (t, framebuffer')) :
    Links ⟨t, live⟩ := by
  induction names generalizing s framebuffer with
  | nil =>
    cases h
    exact hs
  | cons name names ih =>
    rw [List.foldlM_cons] at h
    obtain ⟨⟨u, framebuffer₁⟩, hround, hrest⟩ := Option.bind_eq_some_iff.mp h
    exact ih (hs.deleteTexture hround) hrest

/-- A renderbuffer without a link is deleted. -/
theorem foldlM_deleteRenderbuffer_unlinked
    (hnames : ∀ name ∈ names, renderbufferLink s name = none)
    (h : names.foldlM deleteRenderbuffer (s, none) = some (t, framebuffer')) :
    ∀ kind, SameCache s t kind := by
  induction names generalizing s with
  | nil =>
    cases h
    exact fun _ => .refl
  | cons name names ih =>
    rw [List.foldlM_cons] at h
    obtain ⟨⟨u, framebuffer⟩, hround, hrest⟩ := Option.bind_eq_some_iff.mp h
    have hsame : framebuffer = none ∧ ∀ kind, SameCache s u kind := by
      rcases deleteRenderbuffer_cases hround with
        ⟨-, rfl, rfl⟩ | ⟨-, -, -, rfl, rfl⟩ | ⟨rb, -, hrb, rfl, rfl⟩
      · exact ⟨rfl, fun _ => .refl⟩
      · exact ⟨rfl, fun _ => sameCache_unbindRenderbuffer⟩
      -- Its record names no framebuffer, and the next round looks at none.
      · have hlink : renderbufferLink s name = none := hnames name List.mem_cons_self
        unfold renderbufferLink at hlink
        rw [hrb, Option.bind_some, named_eq_none] at hlink
        rw [hlink]
        exact ⟨rfl, fun _ => sameCache_unbindRenderbuffer⟩
    obtain ⟨rfl, hsame⟩ := hsame
    have hrest' := ih (fun name hname => ?_) hrest
    · exact fun kind => (hsame kind).trans (hrest' kind)
    · rw [renderbufferLink_congr (hsame .renderbuffer)]
      exact hnames name (List.mem_cons_of_mem _ hname)

/-- The stencil buffer of a framebuffer that is deleted, unless it is the colour buffer. -/
def LosesLink (s : State) (framebuffer renderbuffer : ℕ) : Prop :=
  ∃ fb, s.lookupCachedFramebuffer framebuffer = some fb ∧
    fb.attachedStencilBuffer = renderbuffer ∧ fb.attachedStencilBuffer ≠ fb.attachedColorBuffer

theorem deleteFramebuffer_spec :
    (s.deleteFramebuffer name).lookupCachedTexture = s.lookupCachedTexture ∧
      (s.deleteFramebuffer name).lookupCachedFramebuffer = s.lookupCachedFramebuffer ∧
      ∀ r f, renderbufferLink (s.deleteFramebuffer name) r = some f →
        renderbufferLink s r = some f ∧ ¬ LosesLink s name r := by
  unfold deleteFramebuffer
  by_cases hzero : name = 0
  · rw [if_pos hzero]
    refine ⟨rfl, rfl, fun r f hr => ⟨hr, ?_⟩⟩
    rintro ⟨fb, hfb, -⟩
    rw [hzero] at hfb
    cases hfb
  rw [if_neg hzero]
  cases hfb : s.lookupCachedFramebuffer name with
  | none =>
    obtain ⟨htexture, hframebuffer, hrenderbuffer⟩ :=
      lookup_unbindFramebuffer (s := s)
    refine ⟨htexture, hframebuffer, fun r f hr => ?_⟩
    rw [renderbufferLink_congr hrenderbuffer] at hr
    refine ⟨hr, ?_⟩
    rintro ⟨fb, hfb', -⟩
    rw [hfb] at hfb'
    cases hfb'
  | some fb =>
    obtain ⟨htexture, hframebuffer, hrenderbuffer⟩ :=
      lookup_unbindFramebuffer (s := s.unlink fb)
    have hloses : ∀ r, LosesLink s name r ↔
        fb.attachedStencilBuffer = r ∧ fb.attachedStencilBuffer ≠ fb.attachedColorBuffer := by
      intro r
      constructor
      · rintro ⟨fb', hfb', hstencil⟩
        obtain rfl : fb = fb' := Option.some.inj (hfb.symm.trans hfb')
        exact hstencil
      · exact fun hstencil => ⟨fb, hfb, hstencil⟩
    have hlink := renderbufferLink_congr hrenderbuffer
    simp only [unlink_eq] at htexture hframebuffer hlink ⊢
    split_ifs at htexture hframebuffer hlink ⊢ with hstencil
    -- The stencil buffer loses its link, or it is the colour buffer too, or none.
    · refine ⟨htexture, hframebuffer, fun r f hr => ?_⟩
      rw [hlink, renderbufferLink_update lookup_modifyRenderbuffer] at hr
      by_cases hr' : r = fb.attachedStencilBuffer
      · rw [hr', Function.update_self] at hr
        cases hrb : s.lookupCachedRenderbuffer fb.attachedStencilBuffer <;> simp [hrb] at hr
      · rw [Function.update_of_ne hr'] at hr
        exact ⟨hr, fun hloss => hr' ((hloses r).mp hloss).1.symm⟩
    · refine ⟨htexture, hframebuffer, fun r f hr => ?_⟩
      rw [hlink] at hr
      refine ⟨hr, fun hloss => hstencil ?_⟩
      obtain ⟨hr', hcolor⟩ := (hloses r).mp hloss
      refine ⟨hcolor, fun hnone => ?_⟩
      rw [← hr', hnone] at hr
      cases hr

theorem foldl_deleteFramebuffer_spec :
    (names.foldl deleteFramebuffer s).lookupCachedTexture = s.lookupCachedTexture ∧
      (names.foldl deleteFramebuffer s).lookupCachedFramebuffer = s.lookupCachedFramebuffer ∧
      ∀ r f, renderbufferLink (names.foldl deleteFramebuffer s) r = some f →
        renderbufferLink s r = some f ∧ ∀ name ∈ names, ¬ LosesLink s name r := by
  induction names generalizing s with
  | nil => exact ⟨rfl, rfl, fun r f hr => ⟨hr, fun _ h => absurd h List.not_mem_nil⟩⟩
  | cons name names ih =>
    obtain ⟨htexture, hframebuffer, hrenderbuffer⟩ := deleteFramebuffer_spec (s := s)
    obtain ⟨htexture', hframebuffer', hrenderbuffer'⟩ := ih (s := s.deleteFramebuffer name)
    refine ⟨htexture'.trans htexture, hframebuffer'.trans hframebuffer, fun r f hr => ?_⟩
    obtain ⟨hr', hnone⟩ := hrenderbuffer' r f hr
    obtain ⟨hr'', hname⟩ := hrenderbuffer r f hr'
    refine ⟨hr'', List.forall_mem_cons.mpr ⟨hname, fun other hother => ?_⟩⟩
    have hloses := hnone other hother
    unfold LosesLink at hloses ⊢
    rwa [hframebuffer] at hloses

/-! ### Attaching -/

section Texture

variable {target attachment textarget texture : ℕ} {level : ℤ} {tex : Texture}

/-- A texture that is not cached leaves no trace in the records. -/
theorem glFramebufferTexture2D_of_none (h : s.lookupCachedTexture texture = none) :
    (s.glFramebufferTexture2D target attachment textarget texture level).1 = s := by
  unfold glFramebufferTexture2D
  split_ifs
  · rfl
  · simp [h]

theorem glFramebufferTexture2D_spec (htarget : target = glFramebuffer)
    (h : s.lookupCachedTexture texture = some tex)
    (ht : (s.glFramebufferTexture2D target attachment textarget texture level).1 = t) :
    t.lookupCachedTexture = Function.update s.lookupCachedTexture texture
        (some { tex with framebufferId := s.framebufferBinding }) ∧
      t.lookupCachedFramebuffer = Function.update s.lookupCachedFramebuffer s.framebufferBinding
        ((s.lookupCachedFramebuffer s.framebufferBinding).map fun fb =>
          { fb with attachedImage := texture, complete := .completeUnknown }) ∧
      t.lookupCachedRenderbuffer = s.lookupCachedRenderbuffer := by
  have hmodify : (s.modifyTexture texture fun tex =>
      { tex with framebufferId := s.framebufferBinding }).lookupCachedTexture =
        Function.update s.lookupCachedTexture texture
          (some { tex with framebufferId := s.framebufferBinding }) := by
    rw [lookup_modifyTexture, h, Option.map_some]
  unfold glFramebufferTexture2D at ht
  rw [if_neg (not_not.mpr htarget)] at ht
  simp only [h] at ht
  split_ifs at ht with hbinding
  · subst ht
    exact ⟨hmodify, lookup_modifyFramebuffer, rfl⟩
  · subst ht
    refine ⟨hmodify, ?_, rfl⟩
    rw [not_not.mp hbinding]
    exact (Function.update_eq_self 0 s.lookupCachedFramebuffer).symm

/-- Without a framebuffer nothing is attached, and the texture loses the link it has. -/
theorem links_glFramebufferTexture2D_of_unbound (hs : Links ⟨s, live⟩)
    (htarget : target = glFramebuffer) (htex : s.lookupCachedTexture texture = some tex)
    (ht : (s.glFramebufferTexture2D target attachment textarget texture level).1 = t)
    (hbinding : s.framebufferBinding = 0) : Links ⟨t, live⟩ ↔ tex.framebufferId = 0 := by
  obtain ⟨htexture, hframebuffer, hrenderbuffer⟩ := glFramebufferTexture2D_spec htarget htex ht
  have hlink : textureLink t =
      Function.update (textureLink s) texture (named s.framebufferBinding) :=
    textureLink_update htexture
  have hold := textureLink_of_lookup htex
  rw [hbinding, named_zero] at hlink
  have himage : framebufferImage t = framebufferImage s := by
    refine framebufferImage_congr (hframebuffer.trans ?_)
    rw [hbinding]
    exact Function.update_eq_self 0 s.lookupCachedFramebuffer
  constructor
  · intro h'
    by_contra hzero
    have hsome : textureLink s texture = some tex.framebufferId :=
      hold.trans (named_eq_some.mpr ⟨rfl, hzero⟩)
    have hback : framebufferImage t tex.framebufferId = some texture :=
      himage ▸ (hs.inverse _ _).mp hsome
    have hnone : textureLink t texture = some tex.framebufferId := (h'.inverse _ _).mpr hback
    rw [hlink, Function.update_self] at hnone
    cases hnone
  · intro hzero
    have hsame : textureLink t = textureLink s := by
      rw [hzero, named_zero] at hold
      rw [hlink, ← hold, Function.update_eq_self]
    apply hs.of_updateFramebuffer
      (f := fun fb => { fb with attachedImage := texture, complete := .completeUnknown })
      (fun _ => rfl) hframebuffer hrenderbuffer
    · rw [hsame, himage]
      exact hs.inverse
    · exact fun x f hx => hs.texture_live x f (hsame ▸ hx)

/-- With a framebuffer, the texture is linked to it, and it must exist. -/
theorem links_glFramebufferTexture2D_of_bound (hs : Links ⟨s, live⟩)
    (htarget : target = glFramebuffer)
    (hcached : ∀ f ∈ live .framebuffer, s.lookupCachedFramebuffer f ≠ none)
    (htex : s.lookupCachedTexture texture = some tex)
    (ht : (s.glFramebufferTexture2D target attachment textarget texture level).1 = t)
    (hbinding : s.framebufferBinding ≠ 0) :
    Links ⟨t, live⟩ ↔
      (tex.framebufferId = 0 ∨ tex.framebufferId = s.framebufferBinding) ∧
      s.framebufferBinding ∈ live .framebuffer ∧
        ∀ fb, s.lookupCachedFramebuffer s.framebufferBinding = some fb →
          fb.attachedImage = 0 ∨ fb.attachedImage = texture := by
  obtain ⟨htexture, hframebuffer, hrenderbuffer⟩ := glFramebufferTexture2D_spec htarget htex ht
  have hname : texture ≠ 0 := by
    rintro rfl
    cases htex
  have hlink : textureLink t =
      Function.update (textureLink s) texture (some s.framebufferBinding) := by
    rw [textureLink_update htexture, Option.bind_some, named_eq_some.mpr ⟨rfl, hbinding⟩]
  have hold := textureLink_of_lookup htex
  have himage : ∀ fb, s.lookupCachedFramebuffer s.framebufferBinding = some fb →
      framebufferImage t =
        Function.update (framebufferImage s) s.framebufferBinding (some texture) := by
    intro fb hfb
    rw [hfb, Option.map_some] at hframebuffer
    rw [framebufferImage_update hframebuffer, Option.bind_some, named_eq_some.mpr ⟨rfl, hname⟩]
  -- Both directions come down to the link between `texture` and the bound framebuffer.
  constructor
  · intro h'
    have hlinked : textureLink t texture = some s.framebufferBinding := by
      rw [hlink, Function.update_self]
    have hlive := h'.texture_live texture s.framebufferBinding hlinked
    obtain ⟨fb, hfb⟩ := Option.ne_none_iff_exists'.mp (hcached _ hlive)
    have hinverse : MutualInverse (textureLink t) (framebufferImage t) := h'.inverse
    rw [hlink, himage fb hfb, hs.inverse.link_iff] at hinverse
    rw [hold, framebufferImage_of_lookup hfb, forall_named, forall_named] at hinverse
    refine ⟨hinverse.1, hlive, fun fb' hfb' => ?_⟩
    obtain rfl : fb = fb' := Option.some.inj (hfb.symm.trans hfb')
    exact hinverse.2
  · rintro ⟨htexture', hlive, hother⟩
    obtain ⟨fb, hfb⟩ := Option.ne_none_iff_exists'.mp (hcached _ hlive)
    apply hs.of_updateFramebuffer
      (f := fun fb => { fb with attachedImage := texture, complete := .completeUnknown })
      (fun _ => rfl) hframebuffer hrenderbuffer
    · rw [hlink, himage fb hfb]
      refine hs.inverse.link_iff.mpr ?_
      change (∀ x, textureLink s texture = some x → x = _) ∧
        ∀ x, framebufferImage s s.framebufferBinding = some x → x = texture
      rw [hold, framebufferImage_of_lookup hfb, forall_named, forall_named]
      exact ⟨htexture', hother fb hfb⟩
    · intro x f hx
      rw [hlink] at hx
      by_cases heq : x = texture
      · rw [heq, Function.update_self, Option.some.injEq] at hx
        exact hx ▸ hlive
      · rw [Function.update_of_ne heq] at hx
        exact hs.texture_live x f hx

/-- Attaching a texture keeps the links if and only if neither side has another one, and the
framebuffer has not been deleted. -/
theorem links_glFramebufferTexture2D_iff (hs : Links ⟨s, live⟩) (htarget : target = glFramebuffer)
    (hcached : ∀ f ∈ live .framebuffer, s.lookupCachedFramebuffer f ≠ none)
    (htex : s.lookupCachedTexture texture = some tex)
    (ht : (s.glFramebufferTexture2D target attachment textarget texture level).1 = t) :
    Links ⟨t, live⟩ ↔
      (tex.framebufferId = 0 ∨ tex.framebufferId = s.framebufferBinding) ∧
      (s.framebufferBinding ≠ 0 → s.framebufferBinding ∈ live .framebuffer ∧
        ∀ fb, s.lookupCachedFramebuffer s.framebufferBinding = some fb →
          fb.attachedImage = 0 ∨ fb.attachedImage = texture) := by
  by_cases hbinding : s.framebufferBinding = 0
  · rw [links_glFramebufferTexture2D_of_unbound hs htarget htex ht hbinding]
    simp [hbinding]
  · rw [links_glFramebufferTexture2D_of_bound hs htarget hcached htex ht hbinding]
    simp [hbinding]

end Texture

section Renderbuffer

variable {target attachment renderbuffertarget renderbuffer : ℕ}

theorem glFramebufferRenderbuffer_spec (htarget : target = glFramebuffer)
    (hrenderbuffertarget : renderbuffertarget = glRenderbuffer)
    (ht : (s.glFramebufferRenderbuffer target attachment renderbuffertarget renderbuffer).1 = t) :
    t.lookupCachedTexture = s.lookupCachedTexture ∧
      t.lookupCachedFramebuffer = Function.update s.lookupCachedFramebuffer s.framebufferBinding
        ((s.lookupCachedFramebuffer s.framebufferBinding).map
          (attachRenderbuffer attachment renderbuffer)) ∧
      t.lookupCachedRenderbuffer = Function.update s.lookupCachedRenderbuffer renderbuffer
        ((s.lookupCachedRenderbuffer renderbuffer).map fun rb =>
          { rb with framebufferId := s.framebufferBinding }) := by
  have hvalid : ¬ (renderbuffertarget ≠ glRenderbuffer ∧ renderbuffer ≠ 0) :=
    fun h => h.1 hrenderbuffertarget
  unfold glFramebufferRenderbuffer at ht
  rw [if_neg (not_not.mpr htarget), if_neg hvalid] at ht
  split_ifs at ht with hbinding
  · subst ht
    exact ⟨rfl, lookup_modifyFramebuffer, lookup_modifyRenderbuffer⟩
  · subst ht
    refine ⟨rfl, ?_, lookup_modifyRenderbuffer⟩
    rw [not_not.mp hbinding]
    exact (Function.update_eq_self 0 s.lookupCachedFramebuffer).symm

theorem attachRenderbuffer_attachedImage {fb : Framebuffer} :
    (attachRenderbuffer attachment renderbuffer fb).attachedImage = fb.attachedImage := by
  simp only [attachRenderbuffer]
  split_ifs <;> rfl

theorem mem_attachRenderbuffer {fb : Framebuffer}
    (h : attachment ∈ [glColorAttachment0, glDepthAttachment, glStencilAttachment]) :
    renderbuffer ∈ (attachRenderbuffer attachment renderbuffer fb).renderbuffers := by
  simp only [attachRenderbuffer, Framebuffer.renderbuffers]
  split_ifs with hcolor hdepth hstencil
  · exact List.mem_cons_self
  · exact List.mem_cons_of_mem _ List.mem_cons_self
  · exact List.mem_cons_of_mem _ (List.mem_cons_of_mem _ List.mem_cons_self)
  · simp [hcolor, hdepth, hstencil] at h

theorem Links.glFramebufferRenderbuffer (hs : Links ⟨s, live⟩) (htarget : target = glFramebuffer)
    (hrenderbuffertarget : renderbuffertarget = glRenderbuffer)
    (hattachment : attachment ∈ [glColorAttachment0, glDepthAttachment, glStencilAttachment])
    (hcached : ∀ f ∈ live .framebuffer, s.lookupCachedFramebuffer f ≠ none)
    (hkeeps : KeepsLinks ⟨s, live⟩
      (.glFramebufferRenderbuffer target attachment renderbuffertarget renderbuffer))
    (ht : (s.glFramebufferRenderbuffer target attachment renderbuffertarget renderbuffer).1 = t) :
    Links ⟨t, live⟩ := by
  obtain ⟨htexture, hframebuffer, hrenderbuffer⟩ :=
    glFramebufferRenderbuffer_spec htarget hrenderbuffertarget ht
  obtain ⟨hlive, hplaces⟩ := hkeeps
  have hlink : textureLink t = textureLink s := textureLink_congr htexture
  have himage : framebufferImage t = framebufferImage s := by
    rw [framebufferImage_update hframebuffer, Option.bind_map]
    refine (congrArg _ ?_).trans (Function.update_eq_self s.framebufferBinding _)
    exact congrArg _ (funext fun fb => congrArg named attachRenderbuffer_attachedImage)
  have hnew := renderbufferLink_update hrenderbuffer
  -- The links of a renderbuffer afterwards: the one just made, or an old one.
  have hcases : ∀ r f, renderbufferLink t r = some f →
      (r = renderbuffer ∧ f = s.framebufferBinding ∧ f ∈ live .framebuffer) ∨
        (r ≠ renderbuffer ∧ renderbufferLink s r = some f) := by
    intro r f hr
    rw [hnew] at hr
    by_cases hr' : r = renderbuffer
    · rw [hr', Function.update_self] at hr
      cases hrb : s.lookupCachedRenderbuffer renderbuffer with
      | none => simp [hrb] at hr
      | some rb =>
        rw [hrb, Option.map_some, Option.bind_some, named_eq_some] at hr
        obtain ⟨rfl, hzero⟩ := hr
        exact .inl ⟨hr', rfl, hlive hzero (by simp [hrb])⟩
    · rw [Function.update_of_ne hr'] at hr
      exact .inr ⟨hr', hr⟩
  refine ⟨?_, fun x f hx => hs.texture_live x f (hlink ▸ hx), fun r f hr => ?_, fun r f hr => ?_⟩
  · change MutualInverse (textureLink t) (framebufferImage t)
    rw [hlink, himage]
    exact hs.inverse
  · rcases hcases r f hr with ⟨-, -, hf⟩ | ⟨-, hold⟩
    · exact hf
    · exact hs.renderbuffer_live r f hold
  · change ∃ fb, t.lookupCachedFramebuffer f = some fb ∧ r ∈ fb.renderbuffers
    rw [hframebuffer]
    rcases hcases r f hr with ⟨rfl, rfl, hf⟩ | ⟨hne, hold⟩
    · obtain ⟨fb, hfb⟩ := Option.ne_none_iff_exists'.mp (hcached _ hf)
      exact ⟨_, by rw [Function.update_self, hfb, Option.map_some],
        mem_attachRenderbuffer hattachment⟩
    · obtain ⟨fb, hfb, hmem⟩ := hs.renderbuffer_mem r f hold
      -- An old link keeps its place, in the framebuffer attached to or in another one.
      by_cases heq : f = s.framebufferBinding
      · subst heq
        exact ⟨_, by rw [Function.update_self, hfb, Option.map_some],
          hplaces fb hfb r hmem hne hold⟩
      · exact ⟨fb, by rw [Function.update_of_ne heq, hfb], hmem⟩

end Renderbuffer

/-! ### Whole runs -/

/-- The links agree, and names are handed out that no record has. -/
structure LinkInvariant (h : History) : Prop where
  links : Links h
  framebuffers : Pool.Sound ⟨h.state.framebufferNameHandler, h.live .framebuffer, 0⟩
  cached : ∀ f ∈ h.live .framebuffer, h.state.lookupCachedFramebuffer f ≠ none
  lastName_lt : h.state.textureNameHandler.lastName < uintMax
  supply_le_one : ∀ texture, supply h.state.textureNameHandler texture ≤ 1
  supply_cached : ∀ texture, h.state.lookupCachedTexture texture ≠ none →
    supply h.state.textureNameHandler texture = 0

/-- The names of textures and framebuffers that are left are as they were. -/
def SameNames (s t : State) : Prop :=
  t.textureNameHandler = s.textureNameHandler ∧ t.framebufferNameHandler = s.framebufferNameHandler

theorem SameNames.refl : SameNames s s := ⟨rfl, rfl⟩

theorem SameNames.trans {u : State} (h : SameNames s t) (h' : SameNames t u) : SameNames s u :=
  ⟨h'.1.trans h.1, h'.2.trans h.2⟩

theorem sameNames_foldlM_deleteTexture
    (h : names.foldlM deleteTexture (s, framebuffer) = some (t, framebuffer')) : SameNames s t :=
  ⟨foldlM_round_eq (fun hround => (deleteTexture_handlers hround).1) h,
    foldlM_round_eq (fun hround => (deleteTexture_handlers hround).2.1) h⟩

theorem sameNames_foldlM_deleteRenderbuffer
    (h : names.foldlM deleteRenderbuffer (s, framebuffer) = some (t, framebuffer')) :
    SameNames s t :=
  ⟨foldlM_round_eq (fun hround => (deleteRenderbuffer_handlers hround).1) h,
    foldlM_round_eq (fun hround => (deleteRenderbuffer_handlers hround).2.1) h⟩

theorem sameNames_foldl_deleteFramebuffer : SameNames s (names.foldl deleteFramebuffer s) := by
  have hround : ∀ (u : State) (name : ℕ), SameNames u (u.deleteFramebuffer name) := by
    intro u name
    unfold deleteFramebuffer
    split_ifs
    · exact .refl
    · cases u.lookupCachedFramebuffer name with
      | none =>
        dsimp only [unbindFramebuffer]
        split_ifs <;> exact .refl
      | some fb =>
        dsimp only [unbindFramebuffer]
        rw [unlink_eq]
        split_ifs <;> exact ⟨rfl, rfl⟩
  induction names generalizing s with
  | nil => exact .refl
  | cons name names ih => exact (hround s name).trans ih

/-- Records of textures may go, and those of framebuffers stay. -/
theorem foldlM_deleteTexture_caches
    (h : names.foldlM deleteTexture (s, framebuffer) = some (t, framebuffer')) :
    (∀ x, s.lookupCachedTexture x = none → t.lookupCachedTexture x = none) ∧
      ∀ f, t.lookupCachedFramebuffer f = none → s.lookupCachedFramebuffer f = none := by
  induction names generalizing s framebuffer with
  | nil =>
    cases h
    exact ⟨fun _ hx => hx, fun _ hf => hf⟩
  | cons name names ih =>
    rw [List.foldlM_cons] at h
    obtain ⟨⟨u, framebuffer₁⟩, hround, hrest⟩ := Option.bind_eq_some_iff.mp h
    obtain ⟨htexture, hframebuffer⟩ := ih hrest
    have hremove : ∀ v : State, v.lookupCachedTexture = s.lookupCachedTexture →
        ∀ x, s.lookupCachedTexture x = none →
          ((v.deleteCachedTexture name).unbindTexture name).lookupCachedTexture x = none := by
      intro v hv x hx
      rw [(lookup_removeTexture v name).1, hv]
      by_cases heq : x = name
      · rw [heq, Function.update_self]
      · rw [Function.update_of_ne heq, hx]
    rcases deleteTexture_cases hround with
      ⟨rfl, rfl, rfl⟩ | ⟨-, -, -, -, rfl⟩ | ⟨tex, -, -, -, rfl⟩
    · exact ⟨htexture, hframebuffer⟩
    · refine ⟨fun x hx => htexture x (hremove s rfl x hx), fun f hf => ?_⟩
      have hf' := hframebuffer f hf
      rwa [(lookup_removeTexture s name).2.1] at hf'
    · refine ⟨fun x hx => htexture x
        (hremove (s.modifyFramebuffer tex.framebufferId clearImage) rfl x hx), fun f hf => ?_⟩
      have hf' := hframebuffer f hf
      rw [(lookup_removeTexture _ name).2.1, lookup_modifyFramebuffer] at hf'
      exact update_map_eq_none.mp hf'

/-- A call that only changes links. -/
theorem LinkInvariant.of_links (h₀ : LinkInvariant ⟨s, live⟩) (h : Links ⟨t, live'⟩)
    (hlive : live' .framebuffer = live .framebuffer) (hnames : SameNames s t)
    (htexture : ∀ x, s.lookupCachedTexture x = none → t.lookupCachedTexture x = none)
    (hframebuffer : ∀ f, t.lookupCachedFramebuffer f = none → s.lookupCachedFramebuffer f = none) :
    LinkInvariant ⟨t, live'⟩ := by
  obtain ⟨htextureNames, hframebufferNames⟩ := hnames
  refine ⟨h, ?_, fun f hf => ?_, ?_, ?_, fun x hx => ?_⟩
  · rw [show (⟨t.framebufferNameHandler, live' .framebuffer, 0⟩ : Pool) =
      ⟨s.framebufferNameHandler, live .framebuffer, 0⟩ by rw [hlive, hframebufferNames]]
    exact h₀.framebuffers
  · have hf' : f ∈ live .framebuffer := hlive ▸ hf
    exact fun hnone => h₀.cached f hf' (hframebuffer f hnone)
  · change t.textureNameHandler.lastName < uintMax
    rw [htextureNames]
    exact h₀.lastName_lt
  · change ∀ x, supply t.textureNameHandler x ≤ 1
    rw [htextureNames]
    exact h₀.supply_le_one
  · change supply t.textureNameHandler x = 0
    rw [htextureNames]
    exact h₀.supply_cached x fun hnone => hx (htexture x hnone)

/-- A call that changes no record. -/
theorem LinkInvariant.of_sameCache (hs : LinkInvariant ⟨s, live⟩)
    (hsame : ∀ kind, SameCache s t kind) (hlive : live' .framebuffer = live .framebuffer)
    (hnames : SameNames s t) : LinkInvariant ⟨t, live'⟩ := by
  have htexture : t.lookupCachedTexture = s.lookupCachedTexture := hsame .texture
  have hframebuffer : t.lookupCachedFramebuffer = s.lookupCachedFramebuffer := hsame .framebuffer
  exact hs.of_links (hs.links.of_sameCache hsame hlive) hlive hnames
    (fun x hx => htexture ▸ hx) fun f hf => hframebuffer ▸ hf

theorem LinkInvariant.glGenTextures (hs : LinkInvariant ⟨s, live⟩)
    (halloc : allocNames s.textureNameHandler n = some (names, handler))
    (h : s.glGenTextures n = some (t, effects)) (hlive : live' .framebuffer = live .framebuffer) :
    LinkInvariant ⟨t, live'⟩ := by
  obtain ⟨cache, rfl, hlookup⟩ := glGenTextures_spec halloc h
  have hlast₀ : s.textureNameHandler.lastName < uintMax := hs.lastName_lt
  obtain ⟨hlast, -, hsupply⟩ := supply_allocNames hlast₀ halloc
  have hone : ∀ x, supply s.textureNameHandler x ≤ 1 := hs.supply_le_one
  -- A name that is handed out has no record yet.
  have hnew : ∀ x ∈ names, s.lookupCachedTexture x = none := by
    intro x hx
    by_contra hcached
    have hzero : supply s.textureNameHandler x = 0 := hs.supply_cached x hcached
    have hcount := List.count_pos_iff.mpr hx
    have := hsupply x
    omega
  have hlink : ∀ x, ((hashLookup cache x).bind fun tex => named tex.framebufferId) =
      textureLink s x := by
    intro x
    rw [hlookup x]
    unfold textureLink
    split_ifs with hx
    · rw [hnew x hx]
      rfl
    · rfl
  refine ⟨?_, ?_, fun f hf => ?_, hlast, fun x => ?_, fun x hx => ?_⟩
  -- New records name no framebuffer.
  · exact hs.links.of_same (funext hlink) rfl (fun _ _ hr => hr) (fun f fb hfb _ => ⟨fb, hfb, rfl⟩)
      fun f hf _ => hlive ▸ hf
  · change Pool.Sound ⟨s.framebufferNameHandler, live' .framebuffer, 0⟩
    rw [hlive]
    exact hs.framebuffers
  · have hf' : f ∈ live' .framebuffer := hf
    rw [hlive] at hf'
    exact hs.cached f hf'
  · change supply handler x ≤ 1
    have := hsupply x
    have := hone x
    omega
  · change supply handler x = 0
    have hcached : hashLookup cache x ≠ none := hx
    rw [hlookup x] at hcached
    have hleft := hsupply x
    have honce := hone x
    split_ifs at hcached with hmem
    · have hcount := List.count_pos_iff.mpr hmem
      omega
    · have hzero : supply s.textureNameHandler x = 0 := hs.supply_cached x hcached
      omega

theorem LinkInvariant.glGenFramebuffers (hs : LinkInvariant ⟨s, live⟩)
    (halloc : allocNames s.framebufferNameHandler n = some (names, handler))
    (h : s.glGenFramebuffers n = some (t, effects))
    (hlive : live' .framebuffer = live .framebuffer ∪ names.toFinset) :
    LinkInvariant ⟨t, live'⟩ := by
  obtain ⟨cache, rfl, hlookup⟩ := glGenFramebuffers_spec halloc h
  have hfresh := (hs.framebuffers.fresh n names handler halloc).2.2
  -- The framebuffers that records name exist, and are not handed out.
  have hold : ∀ f ∈ live .framebuffer, hashLookup cache f = s.lookupCachedFramebuffer f := by
    intro f hf
    rw [hlookup f, if_neg fun hmem => (hfresh f hmem).2 hf]
  have himage : ∀ f x, ((hashLookup cache f).bind fun fb => named fb.attachedImage) = some x ↔
      framebufferImage s f = some x := by
    intro f x
    rw [hlookup f]
    split_ifs with hmem
    · have hnone : framebufferImage s f ≠ some x := by
        intro hx
        have hlink : textureLink s x = some f := (hs.links.inverse x f).mpr hx
        exact (hfresh f hmem).2 (hs.links.texture_live x f hlink)
      simp [createFramebuffer, hnone]
    · rfl
  refine ⟨⟨fun x f => ?_, fun x f hx => ?_, fun r f hr => ?_, fun r f hr => ?_⟩, ?_,
    fun f hf => ?_, hs.lastName_lt, hs.supply_le_one, hs.supply_cached⟩
  · exact (hs.links.inverse x f).trans (himage f x).symm
  · change f ∈ live' .framebuffer
    rw [hlive]
    exact Finset.mem_union_left _ (hs.links.texture_live x f hx)
  · change f ∈ live' .framebuffer
    rw [hlive]
    exact Finset.mem_union_left _ (hs.links.renderbuffer_live r f hr)
  · obtain ⟨fb, hfb, hmem⟩ := hs.links.renderbuffer_mem r f hr
    exact ⟨fb, (hold f (hs.links.renderbuffer_live r f hr)).trans hfb, hmem⟩
  · change Pool.Sound ⟨handler, live' .framebuffer, 0⟩
    rw [hlive]
    obtain ⟨hlast, hbalanced⟩ := hs.framebuffers.allocNames halloc
    exact ⟨hlast, hbalanced⟩
  · change hashLookup cache f ≠ none
    have hf' : f ∈ live .framebuffer ∪ names.toFinset := hlive ▸ hf
    rw [hlookup f]
    split_ifs with hmem
    · simp
    · rcases Finset.mem_union.mp hf' with hlive' | hname
      · exact hs.cached f hlive'
      · exact absurd (List.mem_toFinset.mp hname) hmem

theorem LinkInvariant.glGenRenderbuffers (hs : LinkInvariant ⟨s, live⟩)
    (h : s.glGenRenderbuffers n = some (t, effects))
    (hlive : live' .framebuffer = live .framebuffer) : LinkInvariant ⟨t, live'⟩ := by
  obtain ⟨⟨names, handler⟩, halloc, -⟩ := Option.bind_eq_some_iff.mp h
  obtain ⟨cache, rfl, hlookup⟩ := glGenRenderbuffers_spec halloc h
  refine hs.of_links ?_ hlive ⟨rfl, rfl⟩ (fun _ hx => hx) fun _ hf => hf
  refine hs.links.of_same rfl rfl (fun r f hr => ?_) (fun f fb hfb _ => ⟨fb, hfb, rfl⟩)
    fun f hf _ => hlive ▸ hf
  have hr' : ((hashLookup cache r).bind fun rb => named rb.framebufferId) = some f := hr
  rw [hlookup r] at hr'
  split_ifs at hr' with hmem
  · cases hr'
  · exact hr'

theorem LinkInvariant.glDeleteTextures (hs : LinkInvariant ⟨s, live⟩)
    (h : s.glDeleteTextures names = some (t, effects))
    (hlive : live' .framebuffer = live .framebuffer) : LinkInvariant ⟨t, live'⟩ := by
  obtain ⟨⟨u, framebuffer⟩, hloop, heq⟩ := Option.bind_eq_some_iff.mp h
  cases heq
  have hlinks := hs.links.foldlM_deleteTexture hloop
  have hcaches := foldlM_deleteTexture_caches hloop
  refine hs.of_links ?_ hlive (sameNames_foldlM_deleteTexture hloop) hcaches.1 hcaches.2
  exact hlinks.of_same rfl rfl (fun _ _ hr => hr) (fun f fb hfb _ => ⟨fb, hfb, rfl⟩)
    fun f hf _ => hlive ▸ hf

theorem LinkInvariant.glDeleteRenderbuffers (hs : LinkInvariant ⟨s, live⟩)
    (hnames : ∀ name ∈ names, renderbufferLink s name = none)
    (h : s.glDeleteRenderbuffers names = some (t, effects))
    (hlive : live' .framebuffer = live .framebuffer) : LinkInvariant ⟨t, live'⟩ := by
  obtain ⟨⟨u, framebuffer⟩, hloop, heq⟩ := Option.bind_eq_some_iff.mp h
  cases heq
  have hloop' := foldlM_deleteRenderbuffer_unlinked (s := { s with
    renderbufferNameHandler := deleteNames s.renderbufferNameHandler names }) hnames hloop
  have hsame : ∀ kind, SameCache s t kind := fun kind =>
    SameCache.trans (by cases kind <;> rfl) (hloop' kind)
  -- Only the handler of renderbuffers has other names.
  have hnames' : SameNames s t := sameNames_foldlM_deleteRenderbuffer (s := { s with
    renderbufferNameHandler := deleteNames s.renderbufferNameHandler names }) hloop
  exact hs.of_sameCache hsame hlive hnames'

theorem LinkInvariant.glDeleteFramebuffers (hs : LinkInvariant ⟨s, live⟩)
    (hkeeps : KeepsLinks ⟨s, live⟩ (.glDeleteFramebuffers names))
    (h : s.glDeleteFramebuffers names = some (t, effects))
    (hlive : live' .framebuffer = live .framebuffer \ names.toFinset) :
    LinkInvariant ⟨t, live'⟩ := by
  obtain ⟨honce, hunlinked⟩ := hkeeps
  cases h
  let u := { s with framebufferNameHandler := deleteNames s.framebufferNameHandler names }
  change LinkInvariant ⟨names.foldl deleteFramebuffer u, live'⟩
  have hspec : (names.foldl deleteFramebuffer u).lookupCachedTexture = s.lookupCachedTexture ∧
      (names.foldl deleteFramebuffer u).lookupCachedFramebuffer = s.lookupCachedFramebuffer ∧
      ∀ r f, renderbufferLink (names.foldl deleteFramebuffer u) r = some f →
        renderbufferLink s r = some f ∧ ∀ name ∈ names, ¬ LosesLink s name r :=
    foldl_deleteFramebuffer_spec
  obtain ⟨htexture, hframebuffer, hrenderbuffer⟩ := hspec
  have hnames : SameNames u (names.foldl deleteFramebuffer u) := sameNames_foldl_deleteFramebuffer
  -- No record has the name of a framebuffer that is deleted.
  have hkept : ∀ f ∈ live .framebuffer, (∃ x, textureLink s x = some f) ∨
      (∃ r, renderbufferLink (names.foldl deleteFramebuffer u) r = some f) →
        f ∈ live' .framebuffer := by
    intro f hf hlinked
    rw [hlive, Finset.mem_sdiff, List.mem_toFinset]
    refine ⟨hf, fun hmem => ?_⟩
    have hzero : f ≠ 0 := by
      rintro rfl
      exact (hs.framebuffers.balanced.outside 0 fun hrange => Nat.lt_irrefl 0 hrange.1).2 hf
    -- No texture names it, and a renderbuffer that did loses its link in the loop.
    obtain ⟨-, hnoTexture, hrenderbuffers⟩ := hunlinked f hmem hzero
    rcases hlinked with ⟨x, hx⟩ | ⟨r, hr⟩
    · exact hnoTexture x hx
    · obtain ⟨hr', hloses⟩ := hrenderbuffer r f hr
      obtain ⟨other, hother, hloss⟩ := hrenderbuffers r hr'
      exact hloses other hother hloss
  have hsound :=
    -- The names that are given back are live, and each is given back once.
    hs.framebuffers.giveBack_iff.mpr ⟨honce, fun b hb hzero => (hunlinked b hb hzero).1⟩
  refine ⟨hs.links.of_same (textureLink_congr htexture) (framebufferImage_congr hframebuffer)
    (fun r f hr => (hrenderbuffer r f hr).1)
    (fun f fb hfb _ => ⟨fb, hframebuffer ▸ hfb, rfl⟩) hkept,
    ?_, fun f hf => ?_, ?_, ?_, fun x hx => ?_⟩
  · change Pool.Sound ⟨(names.foldl deleteFramebuffer u).framebufferNameHandler,
      live' .framebuffer, 0⟩
    rw [hnames.2, hlive]
    exact ⟨hsound.lastName_lt, hsound.balanced⟩
  · change (names.foldl deleteFramebuffer u).lookupCachedFramebuffer f ≠ none
    have hf' : f ∈ live .framebuffer \ names.toFinset := hlive ▸ hf
    rw [hframebuffer]
    exact hs.cached f (Finset.mem_sdiff.mp hf').1
  · change (names.foldl deleteFramebuffer u).textureNameHandler.lastName < uintMax
    rw [hnames.1]
    exact hs.lastName_lt
  · change ∀ x, supply (names.foldl deleteFramebuffer u).textureNameHandler x ≤ 1
    rw [hnames.1]
    exact hs.supply_le_one
  · change supply (names.foldl deleteFramebuffer u).textureNameHandler x = 0
    rw [hnames.1]
    exact hs.supply_cached x (htexture ▸ hx)

variable {call : Call}

/-- One call. -/
theorem LinkInvariant.step (hs : LinkInvariant h) (hcall : LinkCall call)
    (hkeeps : KeepsLinks h call) (hstep : h.step call = some h') : LinkInvariant h' := by
  cases call with
  | glGenTextures n =>
    obtain ⟨⟨names, handler⟩, halloc, hrest⟩ := Option.bind_eq_some_iff.mp hstep
    obtain ⟨⟨t, effects⟩, hgen, heq⟩ := Option.bind_eq_some_iff.mp hrest
    cases heq
    exact hs.glGenTextures halloc hgen rfl
  | glGenFramebuffers n =>
    obtain ⟨⟨names, handler⟩, halloc, hrest⟩ := Option.bind_eq_some_iff.mp hstep
    obtain ⟨⟨t, effects⟩, hgen, heq⟩ := Option.bind_eq_some_iff.mp hrest
    cases heq
    exact hs.glGenFramebuffers halloc hgen rfl
  | glGenRenderbuffers n =>
    obtain ⟨⟨names, handler⟩, halloc, hrest⟩ := Option.bind_eq_some_iff.mp hstep
    obtain ⟨⟨t, effects⟩, hgen, heq⟩ := Option.bind_eq_some_iff.mp hrest
    cases heq
    exact hs.glGenRenderbuffers hgen rfl
  | glDeleteTextures textures =>
    obtain ⟨⟨t, effects⟩, hdelete, heq⟩ := Option.bind_eq_some_iff.mp hstep
    cases heq
    exact hs.glDeleteTextures hdelete rfl
  | glDeleteFramebuffers framebuffers =>
    cases hstep
    exact hs.glDeleteFramebuffers hkeeps rfl rfl
  | glDeleteRenderbuffers renderbuffers =>
    obtain ⟨⟨t, effects⟩, hdelete, heq⟩ := Option.bind_eq_some_iff.mp hstep
    cases heq
    exact hs.glDeleteRenderbuffers hkeeps hdelete rfl
  | glBindFramebuffer target framebuffer =>
    cases hstep
    have hsame : ∀ u, (h.state.glBindFramebuffer target framebuffer).1 = u →
        SameNames h.state u ∧ ∀ kind, SameCache h.state u kind := by
      rintro u rfl
      unfold State.glBindFramebuffer
      split_ifs <;> exact ⟨.refl, fun kind => by cases kind <;> rfl⟩
    obtain ⟨hnames, hcaches⟩ := hsame _ rfl
    exact hs.of_sameCache hcaches rfl hnames
  | glFramebufferTexture2D target attachment textarget texture level =>
    have htarget : target = glFramebuffer := hcall
    obtain rfl : ⟨(h.state.glFramebufferTexture2D target attachment textarget texture level).1,
      h.live⟩ = h' := Option.some.inj hstep
    cases htex : h.state.lookupCachedTexture texture with
    | none =>
      rw [glFramebufferTexture2D_of_none htex]
      exact hs
    | some tex =>
      obtain ⟨htexture, hframebuffer, -⟩ := glFramebufferTexture2D_spec htarget htex rfl
      refine hs.of_links ((links_glFramebufferTexture2D_iff hs.links htarget hs.cached htex rfl).mpr
        (hkeeps tex htex)) rfl ?_ ?_ ?_
      · unfold State.glFramebufferTexture2D
        rw [if_neg (not_not.mpr htarget)]
        simp only [htex]
        split_ifs <;> exact .refl
      · intro x hx
        rw [htexture]
        by_cases heq : x = texture
        · rw [heq, htex] at hx
          cases hx
        · rw [Function.update_of_ne heq, hx]
      · intro f hf
        rw [hframebuffer] at hf
        exact update_map_eq_none.mp hf
  | glFramebufferRenderbuffer target attachment renderbuffertarget renderbuffer =>
    obtain ⟨htarget, hrenderbuffertarget, hattachment⟩ := hcall
    obtain ⟨t, ht⟩ : ∃ t, (h.state.glFramebufferRenderbuffer target attachment renderbuffertarget
      renderbuffer).1 = t := ⟨_, rfl⟩
    obtain rfl : ⟨t, h.live⟩ = h' := ht ▸ Option.some.inj hstep
    obtain ⟨htexture, hframebuffer, -⟩ :=
      glFramebufferRenderbuffer_spec htarget hrenderbuffertarget ht
    refine hs.of_links (hs.links.glFramebufferRenderbuffer htarget hrenderbuffertarget hattachment
      hs.cached hkeeps ht) rfl ?_ (fun x hx => htexture ▸ hx) ?_
    · subst ht
      unfold State.glFramebufferRenderbuffer
      split_ifs <;> exact .refl
    · intro f hf
      rw [hframebuffer] at hf
      exact update_map_eq_none.mp hf
  | _ => exact hcall.elim

theorem linkInvariant_init {memory : ℕ} : LinkInvariant ⟨.init memory, fun _ => ∅⟩ := by
  have hlast : nameHandlerCreate.lastName < uintMax := by decide
  refine ⟨⟨fun x f => ?_, fun x f hx => ?_, fun r f hr => ?_, fun r f hr => ?_⟩, ?_,
    fun f hf => absurd hf (Finset.notMem_empty f), hlast, fun x => ?_, fun x hx => ?_⟩
  · simp [textureLink, framebufferImage, State.init, lookupCachedTexture, lookupCachedFramebuffer]
  · simp [textureLink, State.init, lookupCachedTexture] at hx
  · simp [renderbufferLink, State.init, lookupCachedRenderbuffer] at hr
  · simp [renderbufferLink, State.init, lookupCachedRenderbuffer] at hr
  · exact sound_create
  · exact sound_create.balanced.supply_le_one
  · simp [State.init, lookupCachedTexture] at hx

/-- In every run in which nothing that is attached is attached again, replaced or deleted
while its record names it, the two sides agree. -/
theorem links_of_keepsLinks
    (h₀ : (linkSystem.guarded fun h call => LinkCall call ∧ KeepsLinks h call).Reachable h) :
    Links h := by
  have hinvariant : LinkInvariant h := by
    refine System.Invariant.holds ⟨?_, ?_⟩ h₀
    · rintro _ ⟨memory, rfl⟩
      exact linkInvariant_init
    · rintro h call h' - hs ⟨⟨hcall, hkeeps⟩, hstep⟩
      exact hs.step hcall hkeeps hstep
  exact hinvariant.links

instance : DecidablePred LinkCall
  | .glGenTextures _ | .glGenFramebuffers _ | .glGenRenderbuffers _ =>
    inferInstanceAs (Decidable True)
  | .glDeleteTextures _ | .glDeleteFramebuffers _ | .glDeleteRenderbuffers _ =>
    inferInstanceAs (Decidable True)
  | .glBindFramebuffer target _ | .glFramebufferTexture2D target _ _ _ _ =>
    inferInstanceAs (Decidable (target = glFramebuffer))
  | .glFramebufferRenderbuffer target attachment renderbuffertarget _ =>
    inferInstanceAs (Decidable (target = glFramebuffer ∧ renderbuffertarget = glRenderbuffer ∧
      attachment ∈ [glColorAttachment0, glDepthAttachment, glStencilAttachment]))
  | .glBindTexture _ _ | .glBindRenderbuffer _ _ | .glTexImage2D _ _ _ _ _ _ _ _
  | .glRenderbufferStorage _ _ _ _ | .glCheckFramebufferStatus _ _ | .glClear _
  | .glDrawArrays _ _ _ | .glDrawElements _ _ _ _ => inferInstanceAs (Decidable False)

/-- Objects are made, and a texture without a framebuffer is attached to a framebuffer
without a texture. -/
def attachesNew (h : History) : Call → Bool
  | .glFramebufferTexture2D _ _ _ texture _ =>
    ((h.state.lookupCachedTexture texture).all fun tex => tex.framebufferId = 0) &&
      decide (h.state.framebufferBinding ∈ h.live .framebuffer) &&
      (h.state.lookupCachedFramebuffer h.state.framebufferBinding).all fun fb =>
        fb.attachedImage = 0
  | .glGenTextures _ | .glGenFramebuffers _ | .glBindFramebuffer _ _ => true
  | _ => false

theorem keepsLinks_of_attachesNew {call : Call} (hcheck : attachesNew h call = true) :
    KeepsLinks h call := by
  cases call with
  | glFramebufferTexture2D target attachment textarget texture level =>
    simp only [attachesNew, Bool.and_eq_true, Option.all_eq_true, decide_eq_true_eq] at hcheck
    obtain ⟨⟨htexture, hlive⟩, hframebuffer⟩ := hcheck
    exact fun tex htex => ⟨.inl (htexture tex htex), fun _ => ⟨hlive, fun fb hfb =>
      .inl (hframebuffer fb hfb)⟩⟩
  | glGenTextures _ | glGenFramebuffers _ | glBindFramebuffer _ _ => trivial
  | _ => cases hcheck

/-- A texture is attached to a framebuffer. -/
theorem links_texture_attached : ∃ h,
    (linkSystem.guarded fun h call => LinkCall call ∧ KeepsLinks h call).Reachable h ∧
      textureLink h.state 1 = some 1 ∧ Links h := by
  let calls : List Call := [.glGenTextures 1, .glGenFramebuffers 1,
    .glBindFramebuffer glFramebuffer 1,
    .glFramebufferTexture2D glFramebuffer glColorAttachment0 glTexture2D 1 0]
  let run := calls.foldlM (fun h call =>
    if decide (LinkCall call) && attachesNew h call then h.step call else none)
      ⟨State.init 0, fun _ => ∅⟩
  have hlink : run.map (fun h => textureLink h.state 1) = some (some 1) := by decide +kernel
  obtain ⟨h, hrun, hlinked⟩ := Option.map_eq_some_iff.mp hlink
  have hreach : (linkSystem.guarded fun h call => LinkCall call ∧ KeepsLinks h call).Reachable h :=
    System.guarded_of_foldlM (fun _ _ _ h => h)
      (fun h call hcheck => ⟨of_decide_eq_true (Bool.and_eq_true_iff.mp hcheck).1,
        keepsLinks_of_attachesNew (Bool.and_eq_true_iff.mp hcheck).2⟩) (.init ⟨0, rfl⟩) hrun
  exact ⟨h, hreach, hlinked, links_of_keepsLinks hreach⟩

/-- A texture is attached to one framebuffer and then to another, and both name it. -/
theorem exists_attached_twice : ∃ h, (linkSystem.guarded fun _ call => LinkCall call).Reachable h ∧
    framebufferImage h.state 1 = some 1 ∧ textureLink h.state 1 = some 2 := by
  let calls : List Call := [.glGenTextures 1, .glGenFramebuffers 2,
    .glBindFramebuffer glFramebuffer 1,
    .glFramebufferTexture2D glFramebuffer glColorAttachment0 glTexture2D 1 0,
    .glBindFramebuffer glFramebuffer 2,
    .glFramebufferTexture2D glFramebuffer glColorAttachment0 glTexture2D 1 0]
  let run := calls.foldlM
    (fun (h : History) call => if decide (LinkCall call) then h.step call else none)
    ⟨State.init 0, fun _ => ∅⟩
  have hlinks : run.map (fun h => (framebufferImage h.state 1, textureLink h.state 1)) =
      some (some 1, some 2) := by
    decide +kernel
  obtain ⟨h, hrun, hlinked⟩ := Option.map_eq_some_iff.mp hlinks
  rw [Prod.mk.injEq] at hlinked
  exact ⟨h, System.guarded_of_foldlM (fun _ _ _ h => h) (fun _ _ h => of_decide_eq_true h)
    (.init ⟨0, rfl⟩) hrun, hlinked⟩

end GpuProxy.Objects
