import GpuProxy.Objects.State

/-!
# When a framebuffer is known to be incomplete

What uses the bound framebuffer is rejected by the client when the record says that it is
incomplete. The record says so after a check that found it incomplete, and should no longer
once an image was attached, detached, deleted or given new storage. Some of these calls find
the framebuffer through the binding, and some through the one name in the record of an
image. Here is when the name they find is the right one.

## Main definitions

* `DriverObjects` — what the driver has bound and attached, and what happened last to each
  framebuffer
* `DrawOp`, `Observed`, `drawSystem` — the client and the driver
* `KeepsKnowledge` — the calls that mark no framebuffer incomplete beyond what is known

## Main results

* `latest_of_rejected` — what is rejected was found incomplete, and not changed since
-/

namespace GpuProxy.Objects

open Math Names GlState State

/-! ### The driver -/

/-- An image that can be attached. -/
inductive Image
  | texture (name : ℕ)
  | renderbuffer (name : ℕ)
  deriving DecidableEq, Repr

/-- The attachment points of a framebuffer. -/
inductive Attachment
  | color
  | depth
  | stencil
  deriving DecidableEq, Repr

/-- The point an enumerant stands for. -/
def attachmentPoint (attachment : ℕ) : Option Attachment :=
  if attachment = glColorAttachment0 then some .color
  else if attachment = glDepthAttachment then some .depth
  else if attachment = glStencilAttachment then some .stencil
  else none

/-- What happened last to a framebuffer. -/
inductive Latest
  | nothing
  | checked (complete : Bool)
  | changed
  deriving DecidableEq, Repr

/-- What the driver has bound and attached, and what happened last to each framebuffer. -/
structure DriverObjects where
  framebuffer : ℕ
  renderbuffer : ℕ
  texture2D : ℕ
  textureCube : ℕ
  attached : ℕ → Attachment → Option Image
  latest : ℕ → Latest

namespace DriverObjects

variable (d : DriverObjects)

def init : DriverObjects := ⟨0, 0, 0, 0, fun _ _ => none, fun _ => .nothing⟩

/-- An image is attached to a framebuffer. -/
def IsAttached (framebuffer : ℕ) (image : Image) : Prop :=
  d.attached framebuffer .color = some image ∨ d.attached framebuffer .depth = some image ∨
    d.attached framebuffer .stencil = some image

instance {framebuffer : ℕ} {image : Image} : Decidable (d.IsAttached framebuffer image) :=
  inferInstanceAs (Decidable (_ ∨ _ ∨ _))

/-- Every framebuffer that one of the images is attached to is changed. -/
def change (images : List Image) : DriverObjects :=
  { d with
    latest := fun framebuffer =>
      if ∃ image ∈ images, d.IsAttached framebuffer image then .changed
      else d.latest framebuffer }

/-- An image is attached to the bound framebuffer, or what is attached is detached. -/
def attach (attachment : ℕ) (image : Option Image) : DriverObjects :=
  match attachmentPoint attachment with
  | none => d
  | some point =>
    if d.framebuffer = 0 then d
    else
      { d with
        attached := Function.update d.attached d.framebuffer
          (Function.update (d.attached d.framebuffer) point image)
        latest := Function.update d.latest d.framebuffer .changed }

/-- Images are deleted. -/
def delete (images : List Image) : DriverObjects :=
  let d := d.change images
  { d with
    attached := fun framebuffer point =>
      (d.attached framebuffer point).filter (· ∉ images) }

/-- The texture that `glTexImage2D` specifies an image of. -/
def imageTexture (target : ℕ) : ℕ :=
  if target = glTexture2D then d.texture2D else d.textureCube

/-- Executing a call. The driver may refuse to attach or to specify an image. -/
def execute (accepted : Bool) (d : DriverObjects) : Call → DriverObjects
  | .glBindTexture target texture =>
    if target = glTexture2D then { d with texture2D := texture }
    else if target = glTextureCubeMap then { d with textureCube := texture }
    else d
  | .glBindFramebuffer target framebuffer =>
    -- Any other target is refused.
    if target = glFramebuffer then { d with framebuffer := framebuffer } else d
  | .glBindRenderbuffer target renderbuffer =>
    if target = glRenderbuffer then { d with renderbuffer := renderbuffer } else d
  | .glFramebufferTexture2D _ attachment _ texture _ =>
    if accepted then d.attach attachment (if texture = 0 then none else some (.texture texture))
    else d
  | .glFramebufferRenderbuffer _ attachment _ renderbuffer =>
    if accepted then
      d.attach attachment (if renderbuffer = 0 then none else some (.renderbuffer renderbuffer))
    else d
  | .glTexImage2D target _ _ _ _ _ _ _ =>
    if accepted then d.change [.texture (d.imageTexture target)] else d
  | .glRenderbufferStorage _ _ _ _ =>
    if accepted then d.change [.renderbuffer d.renderbuffer] else d
  | .glDeleteTextures textures =>
    -- What is deleted is detached and no longer bound.
    let d := d.delete (textures.map .texture)
    { d with
      texture2D := if d.texture2D ∈ textures then 0 else d.texture2D
      textureCube := if d.textureCube ∈ textures then 0 else d.textureCube }
  | .glDeleteRenderbuffers renderbuffers =>
    let d := d.delete (renderbuffers.map .renderbuffer)
    { d with renderbuffer := if d.renderbuffer ∈ renderbuffers then 0 else d.renderbuffer }
  | .glCheckFramebufferStatus _ result =>
    { d with
      latest := Function.update d.latest d.framebuffer
        (.checked (decide (result = glFramebufferComplete))) }
  | _ => d

end DriverObjects

/-- A call, with whether the driver accepts it; or what the entry points for vertex arrays, buffers
and attributes leave of what decides how far a draw gets. -/
inductive DrawOp
  | call (call : Call) (accepted : Bool)
  | others (vertexArray elementArrayBuffer : ℕ) (arraySet : Bool)

/-- The state of the client, and of the driver it forwards calls to. -/
structure Observed where
  state : State
  driver : DriverObjects

/-- An operation. -/
def Observed.step (o : Observed) : DrawOp → Option Observed
  | .call call accepted => do
    let (s, effects) ← runCall o.state call
    return ⟨s, (forwarded effects).foldl (DriverObjects.execute accepted) o.driver⟩
  | .others vertexArray elementArrayBuffer arraySet =>
    some { o with state := { o.state with
      vertexArrayBinding := vertexArray, elementArrayBufferBinding := elementArrayBuffer
      hasVertexAttribArraySet := arraySet } }

/-- All runs of a context that shares with no other, over memory of any content. -/
def drawSystem : System Observed DrawOp :=
  System.ofStep (fun o => ∃ memory, o = ⟨.init memory, .init⟩) Observed.step

/-- No framebuffer is deleted. -/
def DrawCall : DrawOp → Prop
  | .call (.glDeleteFramebuffers _) _ => False
  | _ => True

/-- A framebuffer that is not complete, as far as the client knows. -/
def Marked (s : State) (framebuffer : ℕ) : Prop :=
  ∃ fb, s.lookupCachedFramebuffer framebuffer = some fb ∧ fb.complete = .incomplete

/-- The calls that change a framebuffer that is marked find it: `glFramebufferTexture2D` if
the texture is cached, the others if the record of the image names it, and
`glRenderbufferStorage` if it is bound. The client binds what the driver binds. -/
def KeepsKnowledge (o : Observed) : DrawOp → Prop
  | .call (.glBindFramebuffer target framebuffer) _ =>
    target = glFramebuffer ∨ o.state.framebufferBinding = framebuffer
  | .call (.glFramebufferTexture2D target attachment _ texture _) accepted =>
    target = glFramebuffer → accepted = true → attachmentPoint attachment ≠ none →
      o.state.lookupCachedTexture texture ≠ none ∨ ¬ Marked o.state o.state.framebufferBinding
  | .call (.glTexImage2D target _ _ _ _ _ _ _) accepted =>
    accepted = true → ∀ framebuffer, Marked o.state framebuffer →
      o.driver.IsAttached framebuffer (.texture (o.driver.imageTexture target)) →
        ∃ tex, o.state.lookupCachedTexture (o.state.imageTexture target) = some tex ∧
          tex.framebufferId = framebuffer
  | .call (.glRenderbufferStorage _ _ _ _) accepted =>
    accepted = true → ∀ framebuffer, Marked o.state framebuffer →
      o.driver.IsAttached framebuffer (.renderbuffer o.driver.renderbuffer) →
        framebuffer = o.state.framebufferBinding
  | .call (.glDeleteTextures textures) _ =>
    ∀ texture ∈ textures, ∀ framebuffer, Marked o.state framebuffer →
      o.driver.IsAttached framebuffer (.texture texture) →
        ∃ tex, o.state.lookupCachedTexture texture = some tex ∧ tex.framebufferId = framebuffer
  | .call (.glDeleteRenderbuffers renderbuffers) _ =>
    ∀ renderbuffer ∈ renderbuffers, ∀ framebuffer, Marked o.state framebuffer →
      o.driver.IsAttached framebuffer (.renderbuffer renderbuffer) →
        ∃ rb, o.state.lookupCachedRenderbuffer renderbuffer = some rb ∧
          rb.framebufferId = framebuffer
  | _ => True

variable {s t : State} {d : DriverObjects} {o o' : Observed} {call : Call} {accepted : Bool}
  {effects : Effects} {names : List ℕ} {name framebuffer k error : ℕ} {images : List Image}
  {previous previous' : Option ℕ}

/-! ### The marked framebuffers -/

theorem marked_congr (h : t.lookupCachedFramebuffer = s.lookupCachedFramebuffer) :
    Marked t = Marked s := by
  funext framebuffer
  unfold Marked
  rw [h]

theorem not_marked_zero : ¬ Marked s 0 := by
  rintro ⟨fb, hfb, -⟩
  exact ne_zero_of_lookupCachedFramebuffer hfb rfl

/-- A write that does not mark a framebuffer unmarks it. -/
theorem Marked.of_modifyFramebuffer {f : Framebuffer → Framebuffer}
    (hf : ∀ fb, (f fb).complete ≠ .incomplete)
    (h : Marked (s.modifyFramebuffer name f) framebuffer) :
    Marked s framebuffer ∧ framebuffer ≠ name := by
  obtain ⟨fb, hfb, hcomplete⟩ := h
  rw [lookup_modifyFramebuffer] at hfb
  by_cases heq : framebuffer = name
  · subst heq
    rw [Function.update_self] at hfb
    obtain ⟨fb', -, rfl⟩ := Option.map_eq_some_iff.mp hfb
    exact absurd hcomplete (hf fb')
  · rw [Function.update_of_ne heq] at hfb
    exact ⟨⟨fb, hfb, hcomplete⟩, heq⟩

/-- The same, for a write that is only made to a framebuffer other than 0. -/
theorem Marked.of_modify_ite {f : Framebuffer → Framebuffer}
    (hf : ∀ fb, (f fb).complete ≠ .incomplete)
    (h : Marked (if name ≠ 0 then s.modifyFramebuffer name f else s) framebuffer) :
    Marked s framebuffer ∧ framebuffer ≠ name := by
  split_ifs at h with hname
  · exact h.of_modifyFramebuffer hf
  · refine ⟨h, ?_⟩
    rintro rfl
    exact hname fun hzero => not_marked_zero (hzero ▸ h)

/-! ### Deleting images -/

/-- The framebuffer that the record of a texture names. -/
def textureFramebuffer (s : State) (texture : ℕ) : Option ℕ :=
  (s.lookupCachedTexture texture).map Texture.framebufferId

/-- The framebuffer that the record of a renderbuffer names. -/
def renderbufferFramebuffer (s : State) (renderbuffer : ℕ) : Option ℕ :=
  (s.lookupCachedRenderbuffer renderbuffer).map Renderbuffer.framebufferId

/-- The framebuffer that a record names is not marked after, and no other record is changed. -/
structure Unmarks (link : State → ℕ → Option ℕ) (s t : State) (name : ℕ) : Prop where
  marked : ∀ framebuffer, Marked t framebuffer →
    Marked s framebuffer ∧ link s name ≠ some framebuffer
  others : ∀ k ≠ name, link t k = link s k
  bound : t.framebufferBinding = s.framebufferBinding

theorem unmarks_deleteTexture (h : deleteTexture (s, previous) name = some (t, previous')) :
    Unmarks textureFramebuffer s t name := by
  have hremove : ∀ u : State, u.lookupCachedTexture = s.lookupCachedTexture → ∀ k ≠ name,
      textureFramebuffer ((u.deleteCachedTexture name).unbindTexture name) k =
        textureFramebuffer s k := by
    intro u hu k hk
    unfold textureFramebuffer
    rw [(lookup_removeTexture u name).1, Function.update_of_ne hk, hu]
  have hbound : ∀ u : State, ((u.deleteCachedTexture name).unbindTexture name).framebufferBinding =
      u.framebufferBinding := by
    intro u
    simp only [unbindTexture, deleteCachedTexture]
    split_ifs <;> rfl
  rcases deleteTexture_cases h with ⟨rfl, rfl, -⟩ | ⟨-, hnone, -, -, rfl⟩ | ⟨tex, -, htex, -, rfl⟩
  · exact ⟨fun f hf => ⟨hf, by simp [textureFramebuffer, lookupCachedTexture]⟩, fun _ _ => rfl, rfl⟩
  · refine ⟨fun f hf => ?_, hremove s rfl, hbound s⟩
    rw [marked_congr (lookup_removeTexture s name).2.1] at hf
    exact ⟨hf, by simp [textureFramebuffer, hnone]⟩
  · refine ⟨fun f hf => ?_, hremove _ rfl, hbound _⟩
    -- The record names one framebuffer, which is cleared.
    rw [marked_congr (lookup_removeTexture _ name).2.1] at hf
    obtain ⟨hmarked, hne⟩ := hf.of_modifyFramebuffer fun fb => by simp [clearImage]
    refine ⟨hmarked, ?_⟩
    simp only [textureFramebuffer, htex, Option.map_some, ne_eq, Option.some.injEq]
    exact hne.symm

theorem unmarks_deleteRenderbuffer
    (h : deleteRenderbuffer (s, previous) name = some (t, previous')) :
    Unmarks renderbufferFramebuffer s t name := by
  have hunbind : ∀ (u : State) (k : ℕ), renderbufferFramebuffer (u.unbindRenderbuffer name) k =
      renderbufferFramebuffer u k := by
    intro u k
    unfold renderbufferFramebuffer
    rw [lookup_unbindRenderbuffer.2.2]
  have hbound : ∀ u : State, (u.unbindRenderbuffer name).framebufferBinding =
      u.framebufferBinding := by
    intro u
    unfold unbindRenderbuffer
    split_ifs <;> rfl
  rcases deleteRenderbuffer_cases h with
    ⟨rfl, rfl, -⟩ | ⟨-, hnone, -, -, rfl⟩ | ⟨rb, -, hrb, -, rfl⟩
  · exact ⟨fun f hf => ⟨hf, by simp [renderbufferFramebuffer, lookupCachedRenderbuffer]⟩,
      fun _ _ => rfl, rfl⟩
  · refine ⟨fun f hf => ?_, fun k _ => hunbind s k, hbound s⟩
    rw [marked_congr lookup_unbindRenderbuffer.2.1] at hf
    exact ⟨hf, by simp [renderbufferFramebuffer, hnone]⟩
  · refine ⟨fun f hf => ?_, fun k _ => hunbind _ k, hbound _⟩
    rw [marked_congr lookup_unbindRenderbuffer.2.1] at hf
    obtain ⟨hmarked, hne⟩ := hf.of_modifyFramebuffer fun fb => by simp [detachRenderbuffer]
    refine ⟨hmarked, ?_⟩
    simp only [renderbufferFramebuffer, hrb, Option.map_some, ne_eq, Option.some.injEq]
    exact hne.symm

/-- The loop, when every round unmarks the framebuffer of its record. -/
theorem foldlM_unmarks {link : State → ℕ → Option ℕ}
    {round : State × Option ℕ → ℕ → Option (State × Option ℕ)}
    (hround : ∀ {s t previous previous' name},
      round (s, previous) name = some (t, previous') → Unmarks link s t name)
    (h : names.foldlM round (s, previous) = some (t, previous')) :
    t.framebufferBinding = s.framebufferBinding ∧ ∀ framebuffer, Marked t framebuffer →
      Marked s framebuffer ∧ ∀ name ∈ names, link s name ≠ some framebuffer := by
  induction names generalizing s previous with
  | nil =>
    cases h
    exact ⟨rfl, fun f hf => ⟨hf, fun name hname => by cases hname⟩⟩
  | cons name names ih =>
    rw [List.foldlM_cons] at h
    obtain ⟨⟨u, previous₁⟩, hfirst, hrest⟩ := Option.bind_eq_some_iff.mp h
    have hunmarks := hround hfirst
    obtain ⟨hbound, hmarked⟩ := ih hrest
    refine ⟨hbound.trans hunmarks.bound, fun f hf => ?_⟩
    obtain ⟨hu, hnames⟩ := hmarked f hf
    obtain ⟨hs, hname⟩ := hunmarks.marked f hu
    refine ⟨hs, fun other hother => ?_⟩
    by_cases heq : other = name
    -- The later rounds find the records that were there before the loop.
    · exact heq ▸ hname
    · rw [← hunmarks.others other heq]
      exact hnames other ((List.mem_cons.mp hother).resolve_left heq)

/-! ### The driver -/

namespace DriverObjects

theorem latest_change_of_not (h : ∀ image ∈ images, ¬ d.IsAttached framebuffer image) :
    (d.change images).latest framebuffer = d.latest framebuffer := by
  refine if_neg ?_
  rintro ⟨image, himage, hattached⟩
  exact h image himage hattached

theorem attach_framebuffer {attachment : ℕ} {image : Option Image} :
    (d.attach attachment image).framebuffer = d.framebuffer := by
  unfold attach
  cases attachmentPoint attachment with
  | none => rfl
  | some point =>
    simp only
    split_ifs <;> rfl

/-- Only the bound framebuffer is changed, and only if there is such an attachment point. -/
theorem latest_attach {attachment : ℕ} {image : Option Image}
    (h : attachmentPoint attachment ≠ none → framebuffer ≠ d.framebuffer) :
    (d.attach attachment image).latest framebuffer = d.latest framebuffer := by
  unfold attach
  cases hpoint : attachmentPoint attachment with
  | none => rfl
  | some point =>
    have hne : framebuffer ≠ d.framebuffer := h (by simp [hpoint])
    simp only
    split_ifs
    · rfl
    · exact Function.update_of_ne hne _ _

/-- The driver may refuse to attach an image. -/
theorem latest_attach_ite {attachment : ℕ} {image : Option Image}
    (h : accepted = true → attachmentPoint attachment ≠ none → framebuffer ≠ d.framebuffer) :
    (if accepted then d.attach attachment image else d).latest framebuffer =
      d.latest framebuffer := by
  split_ifs with haccepted
  · exact latest_attach (h haccepted)
  · rfl

theorem attach_ite_framebuffer {attachment : ℕ} {image : Option Image} :
    (if accepted then d.attach attachment image else d).framebuffer = d.framebuffer := by
  split_ifs
  · exact attach_framebuffer
  · rfl

/-- The driver may refuse to specify an image. -/
theorem latest_change_ite {image : Image} (h : accepted = true → ¬ d.IsAttached framebuffer image) :
    (if accepted then d.change [image] else d).latest framebuffer = d.latest framebuffer := by
  split_ifs with haccepted
  · exact latest_change_of_not fun other hother => by
      rw [List.mem_singleton.mp hother]
      exact h haccepted
  · rfl

theorem change_ite_framebuffer : (if accepted then d.change images else d).framebuffer =
    d.framebuffer := by
  split_ifs <;> rfl

end DriverObjects

/-! ### What the client knows -/

/-- The client binds what the driver binds, and marks what was found incomplete and not
changed since. -/
structure Knows (o : Observed) : Prop where
  bound : o.state.framebufferBinding = o.driver.framebuffer
  checked : ∀ framebuffer, Marked o.state framebuffer →
    o.driver.latest framebuffer = .checked false

/-- A call that marks nothing, and changes nothing that is still marked. -/
theorem Knows.of_unchanged (h : Knows ⟨s, d⟩) {d' : DriverObjects}
    (hbound : t.framebufferBinding = d'.framebuffer)
    (hmarked : ∀ framebuffer, Marked t framebuffer →
      Marked s framebuffer ∧ d'.latest framebuffer = d.latest framebuffer) : Knows ⟨t, d'⟩ := by
  refine ⟨hbound, fun f hf => ?_⟩
  obtain ⟨hs, hlatest⟩ := hmarked f hf
  exact hlatest.trans (h.checked f hs)

theorem Knows.glBindFramebuffer {target : ℕ} (h : Knows ⟨s, d⟩)
    (hkeeps : target = glFramebuffer ∨ s.framebufferBinding = framebuffer)
    (hrun : s.glBindFramebuffer target framebuffer = (t, effects)) :
    Knows ⟨t, (forwarded effects).foldl (DriverObjects.execute accepted) d⟩ := by
  unfold State.glBindFramebuffer at hrun
  split_ifs at hrun with hsame htarget
  · cases hrun
    exact h
  · cases hrun
    refine h.of_unchanged ?_ fun f hf => ⟨hf, ?_⟩ <;>
      simp only [List.singleton_append, forwarded_setError, forwarded_forward, forwarded_nil,
        -- The driver refuses the target, so that the client must bind what is bound already.
        List.foldl_cons, List.foldl_nil, DriverObjects.execute, if_neg htarget]
    exact (hkeeps.resolve_left htarget).symm.trans h.bound
  · cases hrun
    have htarget' : target = glFramebuffer := not_not.mp htarget
    refine h.of_unchanged ?_ fun f hf => ⟨hf, ?_⟩ <;>
      simp only [List.nil_append, forwarded_forward, forwarded_nil, List.foldl_cons,
        List.foldl_nil, DriverObjects.execute, if_pos htarget']

theorem Knows.glFramebufferTexture2D {target attachment textarget texture : ℕ} {level : ℤ}
    (h : Knows ⟨s, d⟩)
    (hkeeps : target = glFramebuffer → accepted = true → attachmentPoint attachment ≠ none →
      s.lookupCachedTexture texture ≠ none ∨ ¬ Marked s s.framebufferBinding)
    (hrun : s.glFramebufferTexture2D target attachment textarget texture level = (t, effects)) :
    Knows ⟨t, (forwarded effects).foldl (DriverObjects.execute accepted) d⟩ := by
  unfold State.glFramebufferTexture2D at hrun
  split_ifs at hrun with htarget
  · cases hrun
    exact h
  cases htex : s.lookupCachedTexture texture with
  | none =>
    simp only [htex] at hrun
    cases hrun
    refine h.of_unchanged (h.bound.trans DriverObjects.attach_ite_framebuffer.symm) fun f hf =>
      ⟨hf, DriverObjects.latest_attach_ite ?_⟩
    -- The record stays as it is, so that the framebuffer must not be marked.
    rintro haccepted hpoint rfl
    exact (hkeeps (not_not.mp htarget) haccepted hpoint).elim (absurd htex)
      fun hmarked => hmarked (h.bound ▸ hf)
  | some tex =>
    simp only [htex] at hrun
    have hrun' : (if s.framebufferBinding ≠ 0 then
          (s.modifyTexture texture fun tex => { tex with framebufferId := s.framebufferBinding })
            |>.modifyFramebuffer s.framebufferBinding fun framebuffer =>
              { framebuffer with attachedImage := texture, complete := .completeUnknown }
          else s.modifyTexture texture fun tex =>
            { tex with framebufferId := s.framebufferBinding }) = t ∧
        [.forward (.glFramebufferTexture2D target attachment textarget texture level)] =
          effects := by
      split_ifs at hrun ⊢ <;> exact Prod.mk.inj hrun
    obtain ⟨rfl, rfl⟩ := hrun'
    refine h.of_unchanged ?_ fun f hf => ?_
    · refine Eq.trans ?_ (h.bound.trans DriverObjects.attach_ite_framebuffer.symm)
      split_ifs <;> rfl
    · obtain ⟨hmarked, hne⟩ := Marked.of_modify_ite (s := s.modifyTexture texture _)
        (fun fb => by simp) hf
      exact ⟨hmarked, DriverObjects.latest_attach_ite fun _ _ => h.bound ▸ hne⟩

theorem Knows.glFramebufferRenderbuffer {target attachment renderbuffertarget renderbuffer : ℕ}
    (h : Knows ⟨s, d⟩)
    (hrun : s.glFramebufferRenderbuffer target attachment renderbuffertarget renderbuffer =
      (t, effects)) :
    Knows ⟨t, (forwarded effects).foldl (DriverObjects.execute accepted) d⟩ := by
  have hattach : ∀ fb, (attachRenderbuffer attachment renderbuffer fb).complete ≠ .incomplete := by
    intro fb
    unfold attachRenderbuffer
    split_ifs <;> simp
  simp only [State.glFramebufferRenderbuffer] at hrun
  by_cases htarget : target ≠ glFramebuffer
  · rw [if_pos htarget] at hrun
    cases hrun
    exact h
  rw [if_neg htarget] at hrun
  by_cases hrenderbuffertarget : renderbuffertarget ≠ glRenderbuffer ∧ renderbuffer ≠ 0
  · rw [if_pos hrenderbuffertarget] at hrun
    cases hrun
    exact h
  rw [if_neg hrenderbuffertarget] at hrun
  cases hrun
  refine h.of_unchanged ?_ fun f hf => ?_
  · refine Eq.trans ?_ (h.bound.trans DriverObjects.attach_ite_framebuffer.symm)
    split_ifs <;> rfl
  · obtain ⟨hmarked, hne⟩ := Marked.of_modify_ite hattach hf
    exact ⟨hmarked, DriverObjects.latest_attach_ite fun _ _ => h.bound ▸ hne⟩

theorem queryExtensions_marked {answer : Extensions} :
    Marked (s.queryExtensions answer) = Marked s ∧
      (s.queryExtensions answer).framebufferBinding = s.framebufferBinding ∧
      (s.queryExtensions answer).lookupCachedTexture = s.lookupCachedTexture ∧
      (s.queryExtensions answer).imageTexture = s.imageTexture := by
  unfold queryExtensions
  cases s.extensions <;> exact ⟨rfl, rfl, rfl, rfl⟩

theorem Knows.glTexImage2D {target type format : ℕ} {level internalformat width height : ℤ}
    {answer : Extensions} (h : Knows ⟨s, d⟩)
    (hkeeps : accepted = true → ∀ framebuffer, Marked s framebuffer →
      d.IsAttached framebuffer (.texture (d.imageTexture target)) →
        ∃ tex, s.lookupCachedTexture (s.imageTexture target) = some tex ∧
          tex.framebufferId = framebuffer)
    (hrun : s.glTexImage2D target level internalformat width height format type answer =
      (t, effects)) :
    Knows ⟨t, (forwarded effects).foldl (DriverObjects.execute accepted) d⟩ := by
  obtain ⟨u, hu⟩ : ∃ u, s.queryExtensions answer = u := ⟨_, rfl⟩
  obtain ⟨hmarked, hbinding, hlookup, himage⟩ : Marked u = Marked s ∧
      u.framebufferBinding = s.framebufferBinding ∧
      u.lookupCachedTexture = s.lookupCachedTexture ∧ u.imageTexture = s.imageTexture :=
    hu ▸ queryExtensions_marked
  have hknows : Knows ⟨u, d⟩ := h.of_unchanged (hbinding.trans h.bound) fun f hf =>
    ⟨hmarked ▸ hf, rfl⟩
  simp only [State.glTexImage2D, hu] at hrun
  split_ifs at hrun
  -- The checks before the query of the extensions leave `s`, and those after it leave `u`.
  all_goals first | (cases hrun; exact h) | (cases hrun; exact hknows) | skip
  cases htex : u.lookupCachedTexture (u.imageTexture target) with
  | none =>
    simp only [htex] at hrun
    cases hrun
    refine h.of_unchanged ?_ fun f hf => ⟨hmarked ▸ hf, ?_⟩
    · exact (hbinding.trans h.bound).trans DriverObjects.change_ite_framebuffer.symm
    · refine DriverObjects.latest_change_ite fun haccepted hattached => ?_
      -- Without a record the texture may not be attached to what is marked.
      obtain ⟨tex, htex', -⟩ := hkeeps haccepted f (hmarked ▸ hf) hattached
      rw [← hlookup, ← himage, htex] at htex'
      cases htex'
  | some tex =>
    simp only [htex] at hrun
    have hrun' : (if tex.framebufferId ≠ 0 then
          (u.modifyTexture (u.imageTexture target) fun texture =>
            { texture with
              internalFormat := uint internalformat, width := width, height := height
              dataType := type }).modifyFramebuffer tex.framebufferId fun framebuffer =>
                { framebuffer with complete := .completeUnknown }
          else u.modifyTexture (u.imageTexture target) fun texture =>
            { texture with
              internalFormat := uint internalformat, width := width, height := height
              dataType := type }) = t ∧
        [.forward (.glTexImage2D target level internalformat width height format type answer)] =
          effects := by
      split_ifs at hrun ⊢ <;> exact Prod.mk.inj hrun
    obtain ⟨rfl, rfl⟩ := hrun'
    refine h.of_unchanged ?_ fun f hf => ?_
    · refine Eq.trans ?_ ((hbinding.trans h.bound).trans
        DriverObjects.change_ite_framebuffer.symm)
      split_ifs <;> rfl
    · obtain ⟨hf', hne⟩ := Marked.of_modify_ite (s := u.modifyTexture (u.imageTexture target) _)
        (fun fb => by simp) hf
      have hs : Marked s f := hmarked ▸ hf'
      refine ⟨hs, DriverObjects.latest_change_ite fun haccepted hattached => ?_⟩
      -- The framebuffer that the record names is not marked after.
      obtain ⟨tex', htex', hid⟩ := hkeeps haccepted f hs hattached
      rw [← hlookup, ← himage, htex] at htex'
      cases htex'
      exact hne hid.symm

theorem Knows.glRenderbufferStorage {target internalformat : ℕ} {width height : ℤ}
    (h : Knows ⟨s, d⟩)
    (hkeeps : accepted = true → ∀ framebuffer, Marked s framebuffer →
      d.IsAttached framebuffer (.renderbuffer d.renderbuffer) →
        framebuffer = s.framebufferBinding)
    (hrun : s.glRenderbufferStorage target internalformat width height = (t, effects)) :
    Knows ⟨t, (forwarded effects).foldl (DriverObjects.execute accepted) d⟩ := by
  simp only [State.glRenderbufferStorage] at hrun
  by_cases htarget : target ≠ glRenderbuffer
  · rw [if_pos htarget] at hrun
    cases hrun
    exact h
  rw [if_neg htarget] at hrun
  cases hrun
  refine h.of_unchanged ?_ fun f hf => ?_
  · refine Eq.trans ?_ (h.bound.trans DriverObjects.change_ite_framebuffer.symm)
    split_ifs <;> rfl
  · obtain ⟨hmarked, hne⟩ := Marked.of_modify_ite (fun fb => by simp) hf
    exact ⟨hmarked, DriverObjects.latest_change_ite fun haccepted hattached =>
      hne (hkeeps haccepted f hmarked hattached)⟩

theorem Knows.glCheckFramebufferStatus {target result : ℕ} (h : Knows ⟨s, d⟩)
    (hrun : s.glCheckFramebufferStatus target result = (t, effects)) :
    Knows ⟨t, (forwarded effects).foldl (DriverObjects.execute accepted) d⟩ := by
  simp only [State.glCheckFramebufferStatus] at hrun
  by_cases htarget : target ≠ glFramebuffer
  · rw [if_pos htarget] at hrun
    cases hrun
    exact h
  rw [if_neg htarget] at hrun
  cases hrun
  refine ⟨?_, fun f hf => ?_⟩
  · refine Eq.trans ?_ h.bound
    split_ifs <;> rfl
  change Function.update d.latest d.framebuffer (.checked (decide (result = glFramebufferComplete)))
    f = .checked false
  rw [← h.bound]
  by_cases hresult : result = glFramebufferComplete
  · -- The framebuffer was found complete, and is not marked.
    obtain ⟨hmarked, hne⟩ := Marked.of_modify_ite (fun fb => by simp [hresult]) hf
    rw [Function.update_of_ne hne]
    exact h.checked f hmarked
  by_cases heq : f = s.framebufferBinding
  -- The bound framebuffer was found incomplete, and any other is as it was.
  · rw [heq, Function.update_self, decide_eq_false hresult]
  · rw [Function.update_of_ne heq]
    refine h.checked f ?_
    split_ifs at hf
    · obtain ⟨fb, hfb, hcomplete⟩ := hf
      rw [lookup_modifyFramebuffer, Function.update_of_ne heq] at hfb
      exact ⟨fb, hfb, hcomplete⟩
    · exact hf

theorem Knows.glDeleteTextures (h : Knows ⟨s, d⟩)
    (hkeeps : ∀ texture ∈ names, ∀ framebuffer, Marked s framebuffer →
      d.IsAttached framebuffer (.texture texture) →
        ∃ tex, s.lookupCachedTexture texture = some tex ∧ tex.framebufferId = framebuffer)
    (hrun : s.glDeleteTextures names = some (t, effects)) :
    Knows ⟨t, (forwarded effects).foldl (DriverObjects.execute accepted) d⟩ := by
  obtain ⟨⟨u, previous⟩, hloop, heq⟩ := Option.bind_eq_some_iff.mp hrun
  cases heq
  obtain ⟨hbound, hmarked⟩ := foldlM_unmarks unmarks_deleteTexture hloop
  refine h.of_unchanged (hbound.trans h.bound) fun f hf => ?_
  obtain ⟨hs, hlinks⟩ := hmarked f hf
  refine ⟨hs, DriverObjects.latest_change_of_not fun image himage hattached => ?_⟩
  -- What an image is attached to and is marked is what its record names, and the loop unmarks that.
  obtain ⟨texture, htexture, rfl⟩ := List.mem_map.mp himage
  obtain ⟨tex, htex, hid⟩ := hkeeps texture htexture f hs hattached
  refine hlinks texture htexture ?_
  rw [textureFramebuffer, htex, Option.map_some, hid]

theorem Knows.glDeleteRenderbuffers (h : Knows ⟨s, d⟩)
    (hkeeps : ∀ renderbuffer ∈ names, ∀ framebuffer, Marked s framebuffer →
      d.IsAttached framebuffer (.renderbuffer renderbuffer) →
        ∃ rb, s.lookupCachedRenderbuffer renderbuffer = some rb ∧ rb.framebufferId = framebuffer)
    (hrun : s.glDeleteRenderbuffers names = some (t, effects)) :
    Knows ⟨t, (forwarded effects).foldl (DriverObjects.execute accepted) d⟩ := by
  obtain ⟨⟨u, previous⟩, hloop, heq⟩ := Option.bind_eq_some_iff.mp hrun
  cases heq
  obtain ⟨hbound, hmarked⟩ := foldlM_unmarks unmarks_deleteRenderbuffer hloop
  refine h.of_unchanged (hbound.trans h.bound) fun f hf => ?_
  obtain ⟨hs, hlinks⟩ := hmarked f hf
  refine ⟨hs, DriverObjects.latest_change_of_not fun image himage hattached => ?_⟩
  obtain ⟨renderbuffer, hrenderbuffer, rfl⟩ := List.mem_map.mp himage
  obtain ⟨rb, hrb, hid⟩ := hkeeps renderbuffer hrenderbuffer f hs hattached
  refine hlinks renderbuffer hrenderbuffer ?_
  change (s.lookupCachedRenderbuffer renderbuffer).map Renderbuffer.framebufferId = some f
  rw [hrb, Option.map_some, hid]

/-- No new record is marked. -/
theorem Knows.glGenFramebuffers {n : ℕ} (h : Knows ⟨s, d⟩)
    (hrun : s.glGenFramebuffers n = some (t, effects)) :
    Knows ⟨t, (forwarded effects).foldl (DriverObjects.execute accepted) d⟩ := by
  obtain ⟨⟨names, handler⟩, halloc, hrest⟩ := Option.bind_eq_some_iff.mp hrun
  obtain ⟨cache, rfl, hlookup⟩ := glGenFramebuffers_spec halloc hrun
  obtain ⟨_, -, heq⟩ := Option.bind_eq_some_iff.mp hrest
  obtain rfl : [.forward (.glGenFramebuffers n)] = effects := (Prod.mk.inj (Option.some.inj heq)).2
  refine h.of_unchanged h.bound fun f hf => ⟨?_, rfl⟩
  obtain ⟨fb, hfb, hcomplete⟩ := hf
  change hashLookup cache f = some fb at hfb
  rw [hlookup] at hfb
  split_ifs at hfb
  · cases hfb
    cases hcomplete
  · exact ⟨fb, hfb, hcomplete⟩

theorem Knows.glBindTexture {target texture : ℕ} (h : Knows ⟨s, d⟩)
    (hrun : s.glBindTexture target texture = some (t, effects)) :
    Knows ⟨t, (forwarded effects).foldl (DriverObjects.execute accepted) d⟩ := by
  rcases glBindTexture_cases hrun with
    ⟨rfl, rfl, -⟩ | ⟨rfl, rfl, -⟩ | ⟨rfl, -, cache, handler, rfl, -⟩
  · exact h
  · exact h
  · refine h.of_unchanged (h.bound.trans ?_) fun f hf => ⟨hf, ?_⟩ <;>
      simp only [forwarded_forward, forwarded_nil, List.foldl_cons, List.foldl_nil,
        DriverObjects.execute] <;> split_ifs <;> rfl

theorem Knows.glBindRenderbuffer {target renderbuffer : ℕ} (h : Knows ⟨s, d⟩)
    (hrun : s.glBindRenderbuffer target renderbuffer = (t, effects)) :
    Knows ⟨t, (forwarded effects).foldl (DriverObjects.execute accepted) d⟩ := by
  unfold State.glBindRenderbuffer at hrun
  split_ifs at hrun <;> cases hrun <;>
    refine h.of_unchanged (h.bound.trans ?_) fun f hf => ⟨hf, ?_⟩ <;>
    simp only [List.singleton_append, List.nil_append, forwarded_setError, forwarded_forward,
      forwarded_nil, List.foldl_cons, List.foldl_nil, DriverObjects.execute] <;> split_ifs <;> rfl

/-- One call. -/
theorem Knows.runCall (h : Knows ⟨s, d⟩) (hcall : DrawCall (.call call accepted))
    (hkeeps : KeepsKnowledge ⟨s, d⟩ (.call call accepted))
    (hrun : runCall s call = some (t, effects)) :
    Knows ⟨t, (forwarded effects).foldl (DriverObjects.execute accepted) d⟩ := by
  cases call with
  | glGenTextures n =>
    obtain ⟨_, -, hrest⟩ := Option.bind_eq_some_iff.mp hrun
    obtain ⟨u, hcreate, heq⟩ := Option.bind_eq_some_iff.mp hrest
    cases heq
    rw [foldlM_createCachedTexture] at hcreate
    obtain ⟨cache, -, rfl⟩ := Option.map_eq_some_iff.mp hcreate
    exact h.of_unchanged h.bound fun f hf => ⟨hf, rfl⟩
  | glGenFramebuffers n => exact h.glGenFramebuffers hrun
  | glGenRenderbuffers n =>
    obtain ⟨_, -, hrest⟩ := Option.bind_eq_some_iff.mp hrun
    obtain ⟨u, hcreate, heq⟩ := Option.bind_eq_some_iff.mp hrest
    cases heq
    rw [foldlM_createCachedRenderbuffer] at hcreate
    obtain ⟨cache, -, rfl⟩ := Option.map_eq_some_iff.mp hcreate
    exact h.of_unchanged h.bound fun f hf => ⟨hf, rfl⟩
  | glDeleteTextures textures => exact h.glDeleteTextures hkeeps hrun
  | glDeleteFramebuffers framebuffers => exact hcall.elim
  | glDeleteRenderbuffers renderbuffers => exact h.glDeleteRenderbuffers hkeeps hrun
  | glBindTexture target texture => exact h.glBindTexture hrun
  | glBindFramebuffer target framebuffer =>
    exact h.glBindFramebuffer hkeeps (Option.some.inj hrun)
  | glBindRenderbuffer target renderbuffer =>
    exact h.glBindRenderbuffer (Option.some.inj hrun)
  | glFramebufferTexture2D target attachment textarget texture level =>
    exact h.glFramebufferTexture2D hkeeps (Option.some.inj hrun)
  | glFramebufferRenderbuffer target attachment renderbuffertarget renderbuffer =>
    exact h.glFramebufferRenderbuffer (Option.some.inj hrun)
  | glTexImage2D target level internalformat width height format type answer =>
    exact h.glTexImage2D hkeeps (Option.some.inj hrun)
  | glRenderbufferStorage target internalformat width height =>
    exact h.glRenderbufferStorage hkeeps (Option.some.inj hrun)
  | glCheckFramebufferStatus target result =>
    exact h.glCheckFramebufferStatus (Option.some.inj hrun)
  | glClear mask =>
    simp only [Objects.runCall, State.glClear] at hrun
    split_ifs at hrun <;> (cases hrun; exact h)
  | glDrawArrays mode first count =>
    simp only [Objects.runCall, State.glDrawArrays] at hrun
    split_ifs at hrun <;> (cases hrun; exact h)
  | glDrawElements mode count type indices =>
    simp only [Objects.runCall, State.glDrawElements] at hrun
    split_ifs at hrun <;> (cases hrun; exact h)

theorem knows_init {memory : ℕ} : Knows ⟨.init memory, .init⟩ := by
  refine ⟨rfl, ?_⟩
  rintro framebuffer ⟨fb, hfb, -⟩
  simp [State.init, lookupCachedFramebuffer] at hfb

/-- What the client knows, in a run whose calls find the framebuffers they change. -/
theorem knows_of_keepsKnowledge
    (h₀ : (drawSystem.guarded fun o op => DrawCall op ∧ KeepsKnowledge o op).Reachable o) :
    Knows o := by
  refine System.Invariant.holds ⟨?_, ?_⟩ h₀
  · rintro _ ⟨memory, rfl⟩
    exact knows_init
  · rintro o op o' - h ⟨⟨hcall, hkeeps⟩, hstep⟩
    cases op with
    | call call accepted =>
      obtain ⟨⟨t, effects⟩, hrun, heq⟩ := Option.bind_eq_some_iff.mp hstep
      cases heq
      exact h.runCall hcall hkeeps hrun
    | others vertexArray elementArrayBuffer arraySet =>
      cases hstep
      exact h.of_unchanged h.bound fun f hf => ⟨hf, rfl⟩

/-! ### Rejected calls -/

/-- The framebuffer that is bound is marked. -/
theorem marked_of_isIncomplete (h : s.isIncomplete) : Marked s s.framebufferBinding := by
  simp only [isIncomplete, Bool.and_eq_true, Option.any_eq_true, decide_eq_true_eq] at h
  obtain ⟨-, fb, hfb, -, hcomplete⟩ := h
  exact ⟨fb, hfb, hcomplete⟩

/-- Only what uses the framebuffer is rejected with this error. -/
theorem isIncomplete_of_rejected (hrun : runCall s call = some (t, effects))
    (h : .setError glInvalidFramebufferOperation ∈ effects) : s.isIncomplete := by
  -- Generating names records no error.
  have hgen : ∀ {α β : Type} {names : Option α} {create : α → Option β} {rest : α → β → State},
      (names.bind fun a => (create a).bind fun b => some (rest a b, [.forward call])) =
        some (t, effects) → False := by
    intro α β names create rest hgen
    obtain ⟨a, -, hrest⟩ := Option.bind_eq_some_iff.mp hgen
    obtain ⟨b, -, heq⟩ := Option.bind_eq_some_iff.mp hrest
    cases heq
    simp at h
  cases call with
  | glGenTextures n => exact (hgen hrun).elim
  | glGenFramebuffers n => exact (hgen hrun).elim
  | glGenRenderbuffers n => exact (hgen hrun).elim
  | glDeleteTextures textures =>
    obtain ⟨_, -, heq⟩ := Option.bind_eq_some_iff.mp hrun
    cases heq
    simp at h
  | glDeleteFramebuffers framebuffers =>
    cases hrun
    simp at h
  | glDeleteRenderbuffers renderbuffers =>
    obtain ⟨_, -, heq⟩ := Option.bind_eq_some_iff.mp hrun
    cases heq
    simp at h
  | glBindTexture target texture =>
    rcases glBindTexture_cases hrun with ⟨-, rfl, -⟩ | ⟨-, rfl, -⟩ | ⟨rfl, -⟩ <;>
      simp [glInvalidEnum, glInvalidFramebufferOperation] at h
  | glTexImage2D target level internalformat width height format type answer =>
    simp only [Objects.runCall, State.glTexImage2D] at hrun
    generalize (s.queryExtensions answer).lookupCachedTexture
      ((s.queryExtensions answer).imageTexture target) = texture at hrun
    cases texture <;> simp only at hrun <;> split_ifs at hrun <;> cases hrun <;>
      simp [glInvalidEnum, glInvalidValue, glInvalidOperation, glInvalidFramebufferOperation] at h
  | glFramebufferTexture2D target attachment textarget texture level =>
    simp only [Objects.runCall, State.glFramebufferTexture2D] at hrun
    generalize s.lookupCachedTexture texture = texture at hrun
    cases texture <;> simp only at hrun <;> split_ifs at hrun <;> cases hrun <;>
      simp [glInvalidEnum, glInvalidFramebufferOperation] at h
  | glClear mask =>
    simp only [Objects.runCall, State.glClear] at hrun
    split_ifs at hrun with hmask hincomplete
    · cases hrun
      simp [glInvalidEnum, glInvalidFramebufferOperation] at h
    · exact hincomplete
    · cases hrun
      simp at h
  | glDrawArrays mode first count =>
    simp only [Objects.runCall, State.glDrawArrays] at hrun
    split_ifs at hrun <;> cases hrun <;> first | assumption |
      simp [glInvalidEnum, glInvalidValue, glInvalidFramebufferOperation] at h
  | glDrawElements mode count type indices =>
    simp only [Objects.runCall, State.glDrawElements] at hrun
    split_ifs at hrun <;> cases hrun <;> first | assumption |
      simp [glInvalidEnum, glInvalidValue, glInvalidFramebufferOperation] at h
  | _ =>
    simp only [Objects.runCall, State.glBindFramebuffer, State.glBindRenderbuffer,
      State.glFramebufferRenderbuffer, State.glRenderbufferStorage,
      State.glCheckFramebufferStatus] at hrun
    split_ifs at hrun <;> cases hrun <;>
      simp [glInvalidEnum, glInvalidFramebufferOperation] at h

/-- Whatever is rejected was found incomplete by the last check of the bound framebuffer, and
since then no image of it was attached, detached, deleted or specified. -/
theorem latest_of_rejected
    (h₀ : (drawSystem.guarded fun o op => DrawCall op ∧ KeepsKnowledge o op).Reachable o)
    (hrun : runCall o.state call = some (t, effects))
    (h : .setError glInvalidFramebufferOperation ∈ effects) :
    o.driver.framebuffer = o.state.framebufferBinding ∧
      o.driver.latest o.state.framebufferBinding = .checked false := by
  have hknows := knows_of_keepsKnowledge h₀
  have hmarked := marked_of_isIncomplete (isIncomplete_of_rejected hrun h)
  exact ⟨hknows.bound.symm, hknows.checked _ hmarked⟩

instance : DecidablePred DrawCall
  | .others _ _ _ => inferInstanceAs (Decidable True)
  | .call call _ =>
    match call with
    | .glDeleteFramebuffers _ => inferInstanceAs (Decidable False)
    | .glGenTextures _ | .glGenFramebuffers _ | .glGenRenderbuffers _ | .glDeleteTextures _
    | .glDeleteRenderbuffers _ | .glBindTexture _ _ | .glBindFramebuffer _ _
    | .glBindRenderbuffer _ _ | .glFramebufferTexture2D _ _ _ _ _
    | .glFramebufferRenderbuffer _ _ _ _ | .glTexImage2D _ _ _ _ _ _ _ _
    | .glRenderbufferStorage _ _ _ _ | .glCheckFramebufferStatus _ _ | .glClear _
    | .glDrawArrays _ _ _ | .glDrawElements _ _ _ _ => inferInstanceAs (Decidable True)

/-- Objects are made, framebuffers bound and checked, and cached textures attached. -/
def attachesCached (o : Observed) : DrawOp → Bool
  | .call (.glFramebufferTexture2D _ _ _ texture _) _ => o.state.lookupCachedTexture texture ≠ none
  | .call (.glBindFramebuffer target _) _ => target = glFramebuffer
  | .call (.glGenTextures _) _ | .call (.glGenFramebuffers _) _
  | .call (.glCheckFramebufferStatus _ _) _ | .others _ _ _ => true
  | _ => false

theorem keepsKnowledge_of_attachesCached {op : DrawOp} (h : attachesCached o op = true) :
    DrawCall op ∧ KeepsKnowledge o op := by
  cases op with
  | others => exact ⟨trivial, trivial⟩
  | call call accepted =>
    cases call with
    | glFramebufferTexture2D target attachment textarget texture level =>
      exact ⟨trivial, fun _ _ _ => .inl (of_decide_eq_true h)⟩
    | glBindFramebuffer target framebuffer => exact ⟨trivial, .inl (of_decide_eq_true h)⟩
    | glGenTextures _ | glGenFramebuffers _ | glCheckFramebufferStatus _ _ =>
      exact ⟨trivial, trivial⟩
    | _ => cases h

/-- A texture without an image is attached, and the framebuffer found incomplete. Clearing it is
rejected, and so are both draws with an array for an attribute. -/
theorem latest_of_rejected_draws : ∃ o,
    (drawSystem.guarded fun o op => DrawCall op ∧ KeepsKnowledge o op).Reachable o ∧
      ∀ call ∈ [.glClear glColorBufferBit, .glDrawArrays glTriangles 0 3,
          .glDrawElements glTriangles 3 glUnsignedShort true],
        ∃ t effects, runCall o.state call = some (t, effects) ∧
          .setError glInvalidFramebufferOperation ∈ effects ∧
          o.driver.framebuffer = o.state.framebufferBinding ∧
          o.driver.latest o.state.framebufferBinding = .checked false := by
  let ops : List DrawOp := [.call (.glGenTextures 1) true, .call (.glGenFramebuffers 1) true,
    .call (.glBindFramebuffer glFramebuffer 1) true,
    .call (.glFramebufferTexture2D glFramebuffer glColorAttachment0 glTexture2D 1 0) true,
    .call (.glCheckFramebufferStatus glFramebuffer 0x8CD6) true, .others 0 0 true]
  let calls : List Call := [.glClear glColorBufferBit, .glDrawArrays glTriangles 0 3,
    .glDrawElements glTriangles 3 glUnsignedShort true]
  let run := ops.foldlM
    (fun (o : Observed) op => if attachesCached o op then o.step op else none)
    ⟨.init 0, .init⟩
  have heffects : run.map (fun o => calls.map fun call => (runCall o.state call).map Prod.snd) =
      some (calls.map fun _ => some [.setError glInvalidFramebufferOperation]) := by
    decide +kernel
  obtain ⟨o, hrun, hrejected⟩ := Option.map_eq_some_iff.mp heffects
  have hreach := System.guarded_of_foldlM (S := drawSystem)
    (G := fun o op => DrawCall op ∧ KeepsKnowledge o op) (fun _ _ _ h => h)
    (fun _ _ h => keepsKnowledge_of_attachesCached h) (.init ⟨0, rfl⟩) hrun
  refine ⟨o, hreach, fun call hcall => ?_⟩
  obtain ⟨⟨t, effects⟩, hcall', rfl⟩ :=
    Option.map_eq_some_iff.mp (List.map_inj_left.mp hrejected call hcall)
  have hmem : .setError glInvalidFramebufferOperation ∈
      ([.setError glInvalidFramebufferOperation] : Effects) := List.mem_singleton_self _
  exact ⟨t, _, hcall', hmem, latest_of_rejected hreach hcall' hmem⟩

/-- A texture is attached, the framebuffer found incomplete, and the texture detached. -/
theorem exists_rejected_after_detach : ∃ o t effects,
    (drawSystem.guarded fun _ op => DrawCall op).Reachable o ∧
      runCall o.state (.glClear glColorBufferBit) = some (t, effects) ∧
      .setError glInvalidFramebufferOperation ∈ effects ∧
      o.driver.framebuffer = o.state.framebufferBinding ∧
      o.driver.latest o.state.framebufferBinding = .changed := by
  let ops : List DrawOp := [.call (.glGenTextures 1) true, .call (.glGenFramebuffers 1) true,
    .call (.glBindFramebuffer glFramebuffer 1) true,
    .call (.glFramebufferTexture2D glFramebuffer glColorAttachment0 glTexture2D 1 0) true,
    .call (.glCheckFramebufferStatus glFramebuffer 0x8CD6) true,
    .call (.glFramebufferTexture2D glFramebuffer glColorAttachment0 glTexture2D 0 0) true]
  let run := ops.foldlM
    (fun (o : Observed) op => if decide (DrawCall op) then o.step op else none)
    ⟨.init 0, .init⟩
  have hresult : run.map (fun o => ((runCall o.state (.glClear glColorBufferBit)).map Prod.snd,
      o.driver.framebuffer, o.state.framebufferBinding, o.driver.latest 1)) =
      some (some [.setError glInvalidFramebufferOperation], 1, 1, .changed) := by
    decide +kernel
  obtain ⟨o, hrun, ho⟩ := Option.map_eq_some_iff.mp hresult
  simp only [Prod.mk.injEq] at ho
  obtain ⟨hclear, hdriver, hbound, hlatest⟩ := ho
  obtain ⟨⟨t, effects⟩, hclear', rfl⟩ := Option.map_eq_some_iff.mp hclear
  have hreach := System.guarded_of_foldlM (S := drawSystem) (G := fun _ op => DrawCall op)
    (fun _ _ _ h => h) (fun _ _ h => of_decide_eq_true h) (.init ⟨0, rfl⟩) hrun
  exact ⟨o, t, _, hreach, hclear', List.mem_singleton_self _, hdriver.trans hbound.symm,
    hbound ▸ hlatest⟩

end GpuProxy.Objects
