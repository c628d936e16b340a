import GpuProxy.GlState.Rejected
import GpuProxy.Math.TransitionSystem

/-!
# Replacing parts of images

A texture has an image for every face and level, but one width and height in its record, which
are those of the image specified last. `glTexSubImage2D` compares the region it replaces with
these, whichever image it is on. Here is when it passes on the calls whose region lies in the
image they are on.

## Main definitions

* `ImageHistory`, `imageSystem` — the textures of a context, with the images specified
* `Addresses` — the region of a call lies in an image that was specified
* `SizesAgree` — it lies in that image if and only if it is found to lie in the last one

## Main results

* `checked_iff_sizesAgree` — when a call is passed on rightly
* `exists_refused_subImage` — the first image of a texture with two levels
-/

namespace GpuProxy.GlState

open Math Names Objects Objects.State

/-- The calls that bind textures and specify their images. -/
inductive ImageOp
  | glBindTexture (target texture : ℕ)
  | glTexImage2D (target : ℕ) (level internalformat width height : ℤ) (format type : ℕ)
      (extensions : Extensions)
  | glTexSubImage2D (target : ℕ) (level xoffset yoffset width height : ℤ) (format type : ℕ)

/-- A context, with the images that were specified. -/
structure ImageHistory where
  objects : Objects.State
  /-- The width and height of an image, by its texture, face and level. -/
  images : ℕ × ℕ × ℤ → Option (ℤ × ℤ)
  /-- The width and height of the image of a texture that was specified last. -/
  last : ℕ → ℤ × ℤ

namespace ImageHistory

variable (h : ImageHistory)

/-- A new context. -/
def init (memory : ℕ) : ImageHistory := ⟨.init memory, fun _ => none, fun _ => (0, 0)⟩

/-- A call. An image is specified by a call that is passed on. -/
def step : ImageOp → Option ImageHistory
  | .glBindTexture target texture =>
    (h.objects.glBindTexture target texture).map fun (s, _) => { h with objects := s }
  | .glTexImage2D target level internalformat width height format type extensions =>
    let (s, effects) := h.objects.glTexImage2D target level internalformat width height format
      type extensions
    let texture := h.objects.imageTexture target
    if (forwarded effects).isEmpty then some { h with objects := s }
    else
      some
        { objects := s
          images := Function.update h.images (texture, target, level) (some (width, height))
          last := Function.update h.last texture (width, height) }
  | .glTexSubImage2D target level xoffset yoffset width height format type =>
    some { h with objects :=
      (Client.glTexSubImage2D h.objects target level xoffset yoffset width height format
        type).state }

/-- The region lies in an image that was specified. -/
def Addresses (target : ℕ) (level xoffset yoffset width height : ℤ) : Prop :=
  ∃ size, h.images (h.objects.imageTexture target, target, level) = some size ∧
    0 ≤ xoffset ∧ 0 ≤ yoffset ∧ xoffset + width ≤ size.1 ∧ yoffset + height ≤ size.2

/-- A call is passed on if its region lies in an image, and otherwise an error is recorded. -/
def Checked (target : ℕ) (level xoffset yoffset width height : ℤ) (format type : ℕ) : Prop :=
  let outcome := Client.glTexSubImage2D h.objects target level xoffset yoffset width height format
    type
  (outcome.forwards = true ↔ h.Addresses target level xoffset yoffset width height) ∧
    (¬ h.Addresses target level xoffset yoffset width height → outcome.error ≠ none)

/-- A region in an image of a texture also lies in the one specified last; any other call has
no texture or image to be on, or its region is found not to lie in the last one. -/
def SizesAgree (target : ℕ) (level xoffset yoffset width height : ℤ) : Prop :=
  let texture := h.objects.imageTexture target
  let fits := sint (xoffset + width) ≤ (h.last texture).1 ∧
    sint (yoffset + height) ≤ (h.last texture).2
  (h.Addresses target level xoffset yoffset width height →
    texture ≠ 0 ∧ 0 ≤ width ∧ 0 ≤ height ∧ fits) ∧
  (¬ h.Addresses target level xoffset yoffset width height →
    texture = 0 ∨ isValidTextureTarget target = false ∨ level < 0 ∨ width < 0 ∨ height < 0 ∨ ¬ fits)

end ImageHistory

/-- All runs of a context, over memory of any content. -/
def imageSystem : System ImageHistory ImageOp :=
  System.ofStep (fun h => ∃ memory, h = .init memory) ImageHistory.step

/-- The formats and types that are accepted together. -/
def ValidFormat (format type : ℕ) : Prop :=
  isValidTextureFormat format ∧ (type = glUnsignedShort565 → format = glRgb) ∧
    (type = glUnsignedShort4444 ∨ type = glUnsignedShort5551 → format = glRgba)

instance : DecidableRel ValidFormat := fun _ _ => inferInstanceAs (Decidable (_ ∧ _ ∧ _))

variable {h h' : ImageHistory} {s t : Objects.State} {target format type texture : ℕ}
  {level internalformat xoffset yoffset width height : ℤ} {extensions : Extensions}
  {effects : Effects}

/-! ### Specifying an image -/

/-- Caches and bindings of textures that are as they were. -/
def SameTextures (s t : Objects.State) : Prop :=
  t.lookupCachedTexture = s.lookupCachedTexture ∧ t.textureBinding2D = s.textureBinding2D ∧
    t.textureBindingCube = s.textureBindingCube

theorem sameTextures_queryExtensions (s : Objects.State) (answer : Extensions) :
    SameTextures s (s.queryExtensions answer) := by
  unfold queryExtensions
  split <;> exact ⟨rfl, rfl, rfl⟩

theorem SameTextures.imageTexture_eq (hst : SameTextures s t) (target : ℕ) :
    t.imageTexture target = s.imageTexture target := by
  unfold State.imageTexture
  rw [hst.2.1, hst.2.2]

/-- A call that is passed on puts its size in the record of the bound texture. -/
theorem glTexImage2D_cases
    (h : s.glTexImage2D target level internalformat width height format type extensions =
      (t, effects)) :
    (forwarded effects = [] ∧ SameTextures s t) ∨
    (forwarded effects ≠ [] ∧ 0 ≤ level ∧ isValidTextureTarget target = true ∧
      t.textureBinding2D = s.textureBinding2D ∧ t.textureBindingCube = s.textureBindingCube ∧
      t.lookupCachedTexture = Function.update s.lookupCachedTexture (s.imageTexture target)
        ((s.lookupCachedTexture (s.imageTexture target)).map fun record =>
          { record with
            internalFormat := uint internalformat, width := width, height := height
            dataType := type })) := by
  have hrefused : ∀ {error : ℕ}, (s, [.setError error]) = (t, effects) →
      forwarded effects = [] ∧ SameTextures s t := by
    intro error heq
    cases heq
    exact ⟨rfl, rfl, rfl, rfl⟩
  unfold State.glTexImage2D at h
  split at h
  · exact .inl (hrefused h)
  next hneg =>
  split at h
  · exact .inl (hrefused h)
  split at h
  · exact .inl (hrefused h)
  next htarget =>
  split at h
  · exact .inl (hrefused h)
  -- The checks of the format may ask for the extensions, which leaves the textures alone.
  have hquery := sameTextures_queryExtensions s extensions
  generalize s.queryExtensions extensions = u at h hquery
  dsimp only at h
  split at h
  · cases h
    exact .inl ⟨rfl, hquery⟩
  split at h
  · cases h
    exact .inl ⟨rfl, hquery⟩
  rw [not_or, not_or, Int.not_lt] at hneg
  have hvalid : isValidTextureTarget target = true := not_not.mp htarget
  rw [hquery.imageTexture_eq] at h
  have hlookup : u.lookupCachedTexture (s.imageTexture target) =
      s.lookupCachedTexture (s.imageTexture target) := congrFun hquery.1 _
  cases hrecord : s.lookupCachedTexture (s.imageTexture target) with
  | none =>
    rw [hlookup, hrecord] at h
    cases h
    refine .inr ⟨List.cons_ne_nil _ _, hneg.1, hvalid, hquery.2.1, hquery.2.2, ?_⟩
    rw [Option.map_none, ← hrecord, Function.update_eq_self]
    exact hquery.1
  | some record =>
    rw [hlookup, hrecord] at h
    dsimp only at h
    have hmodify : ∀ f : Texture → Texture,
        hashLookup (hashModify u.textureCache (s.imageTexture target) f) =
          Function.update s.lookupCachedTexture (s.imageTexture target)
            ((s.lookupCachedTexture (s.imageTexture target)).map f) := by
      intro f
      have hsame : hashLookup u.textureCache = s.lookupCachedTexture := hquery.1
      rw [hashLookup_hashModify, hsame]
    rw [← hrecord]
    -- Marking the framebuffer changes no texture.
    split_ifs at h with hframebuffer <;>
    · cases h
      exact .inr ⟨List.cons_ne_nil _ _, hneg.1, hvalid, hquery.2.1, hquery.2.2, hmodify _⟩

/-! ### Runs -/

/-- The records have the sizes of the images specified last, and every bound texture has a
record. -/
structure FollowsLast (h : ImageHistory) : Prop where
  record : ∀ texture record, h.objects.lookupCachedTexture texture = some record →
    (record.width, record.height) = h.last texture
  unknown : ∀ texture ≠ 0, h.objects.lookupCachedTexture texture = none → h.last texture = (0, 0)
  bound2D : h.objects.textureBinding2D ≠ 0 →
    h.objects.lookupCachedTexture h.objects.textureBinding2D ≠ none
  boundCube : h.objects.textureBindingCube ≠ 0 →
    h.objects.lookupCachedTexture h.objects.textureBindingCube ≠ none
  images : ∀ texture target level size, h.images (texture, target, level) = some size →
    0 ≤ level ∧ isValidTextureTarget target = true

theorem FollowsLast.bound (hs : FollowsLast h) (hbound : h.objects.imageTexture target ≠ 0) :
    ∃ record, h.objects.lookupCachedTexture (h.objects.imageTexture target) = some record := by
  rw [← Option.ne_none_iff_exists']
  unfold State.imageTexture at hbound ⊢
  split_ifs at hbound ⊢ with htarget
  · exact hs.bound2D hbound
  · exact hs.boundCube hbound

theorem followsLast_init {memory : ℕ} : FollowsLast (.init memory) := by
  have hnone : ∀ texture, (ImageHistory.init memory).objects.lookupCachedTexture texture = none :=
    fun texture => hashLookup_newHashTable
  refine ⟨fun texture record h => ?_, fun _ _ _ => rfl, fun h => absurd rfl h,
    fun h => absurd rfl h, fun texture target level size h => ?_⟩
  · rw [hnone] at h
    cases h
  · cases h

theorem FollowsLast.congr (hs : FollowsLast h) (hsame : SameTextures h.objects s) :
    FollowsLast { h with objects := s } := by
  obtain ⟨hlookup, h2D, hcube⟩ := hsame
  refine ⟨?_, ?_, ?_, ?_, hs.images⟩ <;> simp only [hlookup, h2D, hcube]
  · exact hs.record
  · exact hs.unknown
  · exact hs.bound2D
  · exact hs.boundCube

/-- A texture that is bound for the first time gets a record, of an image of no size. -/
theorem FollowsLast.glBindTexture (hs : FollowsLast h)
    (hbind : h.objects.glBindTexture target texture = some (t, effects)) :
    FollowsLast { h with objects := t } := by
  rcases glBindTexture_cases hbind with
    ⟨rfl, -, -⟩ | ⟨rfl, -, -⟩ | ⟨-, -, cache, handler, rfl, hcache⟩
  · exact hs
  · exact hs
  have hlookup : ∀ k, hashLookup cache k =
      if k = texture ∧ texture ≠ 0 ∧ h.objects.lookupCachedTexture texture = none then
        some (createTexture texture)
      else h.objects.lookupCachedTexture k := hcache
  -- A texture that has a record keeps it, and the one that is bound has one.
  have hkept : ∀ k, h.objects.lookupCachedTexture k ≠ none → hashLookup cache k ≠ none := by
    intro k hk
    rw [hlookup]
    split_ifs
    · exact Option.some_ne_none _
    · exact hk
  have hbound : texture ≠ 0 → hashLookup cache texture ≠ none := by
    intro hne
    rw [hlookup]
    split_ifs with hnew
    · exact Option.some_ne_none _
    · exact fun hnone => hnew ⟨rfl, hne, hnone⟩
  refine ⟨fun k record hk => ?_, fun k hne hk => ?_, fun hne => ?_, fun hne => ?_, hs.images⟩
  · change hashLookup cache k = some record at hk
    rw [hlookup] at hk
    split_ifs at hk with hnew
    · cases hk
      rw [hnew.1]
      exact (hs.unknown texture hnew.2.1 hnew.2.2).symm
    · exact hs.record k record hk
  · change hashLookup cache k = none at hk
    rw [hlookup] at hk
    split_ifs at hk
    exact hs.unknown k hne hk
  · dsimp only at hne ⊢
    by_cases htarget : target = glTexture2D
    · rw [if_pos htarget] at hne ⊢
      exact hbound hne
    · rw [if_neg htarget] at hne ⊢
      exact hkept _ (hs.bound2D hne)
  · dsimp only at hne ⊢
    by_cases htarget : target = glTextureCubeMap
    · rw [if_pos htarget] at hne ⊢
      exact hbound hne
    · rw [if_neg htarget] at hne ⊢
      exact hkept _ (hs.boundCube hne)

/-- The image that is specified is the last one of its texture from then on. -/
theorem FollowsLast.glTexImage2D (hs : FollowsLast h)
    (hstep : h.step (.glTexImage2D target level internalformat width height format type
      extensions) = some h') : FollowsLast h' := by
  simp only [ImageHistory.step] at hstep
  cases hresult : h.objects.glTexImage2D target level internalformat width height format type
    extensions with
  | mk t effects =>
    rw [hresult] at hstep
    dsimp only at hstep
    rcases glTexImage2D_cases hresult with
      ⟨hnone, hsame⟩ | ⟨hsome, hlevel, hvalid, h2D, hcube, hlookup⟩
    · rw [hnone, List.isEmpty_nil, if_pos rfl] at hstep
      cases hstep
      exact hs.congr hsame
    · rw [if_neg (by simpa using hsome)] at hstep
      cases hstep
      generalize htexture : h.objects.imageTexture target = texture at hlookup
      have hnone : ∀ k, t.lookupCachedTexture k = none ↔
          h.objects.lookupCachedTexture k = none := by
        intro k
        rw [hlookup]
        exact update_map_eq_none
      refine ⟨fun k record hk => ?_, fun k hne hk => ?_, fun hne => ?_, fun hne => ?_,
        fun k face l size hk => ?_⟩
      · dsimp only at hk ⊢
        rw [hlookup] at hk
        by_cases hkey : k = texture
        · subst hkey
          rw [Function.update_self] at hk
          obtain ⟨old, -, rfl⟩ := Option.map_eq_some_iff.mp hk
          rw [Function.update_self]
        · rw [Function.update_of_ne hkey] at hk ⊢
          exact hs.record k record hk
      · dsimp only at hk ⊢
        rw [hnone] at hk
        by_cases hkey : k = texture
        · -- The bound texture has a record.
          have hbound : h.objects.imageTexture target ≠ 0 := by rwa [htexture, ← hkey]
          obtain ⟨record, hrecord⟩ := hs.bound hbound
          rw [htexture, ← hkey, hk] at hrecord
          cases hrecord
        · rw [Function.update_of_ne hkey]
          exact hs.unknown k hne hk
      · dsimp only at hne ⊢
        rw [h2D] at hne ⊢
        rw [Ne, hnone]
        exact hs.bound2D hne
      · dsimp only at hne ⊢
        rw [hcube] at hne ⊢
        rw [Ne, hnone]
        exact hs.boundCube hne
      · dsimp only at hk
        rw [Function.update_apply] at hk
        split_ifs at hk with hkey
        · cases hkey
          exact ⟨hlevel, hvalid⟩
        · exact hs.images k face l size hk

/-- A call leaves the objects as they are. -/
theorem glTexSubImage2D_state : (Client.glTexSubImage2D s target level xoffset yoffset width height
    format type).state = s := by
  unfold Client.glTexSubImage2D
  split_ifs <;> try rfl
  cases s.lookupCachedTexture (s.imageTexture target) with
  | none => rfl
  | some record =>
    dsimp only
    split_ifs <;> rfl

theorem followsLast_of_reachable (h₀ : imageSystem.Reachable h) : FollowsLast h := by
  refine System.Invariant.holds ⟨?_, ?_⟩ h₀
  · rintro _ ⟨memory, rfl⟩
    exact followsLast_init
  · intro h op h' _ hs hstep
    cases op with
    | glBindTexture target texture =>
      obtain ⟨⟨t, effects⟩, hbind, rfl⟩ := Option.map_eq_some_iff.mp hstep
      exact hs.glBindTexture hbind
    | glTexImage2D target level internalformat width height format type extensions =>
      exact hs.glTexImage2D hstep
    | glTexSubImage2D target level xoffset yoffset width height format type =>
      cases hstep
      rw [glTexSubImage2D_state]
      exact hs

/-! ### Replacing a part -/

/-- The texture that is bound has a record, and the region is found to lie in the image of its
size. -/
def Passes (s : Objects.State) (target : ℕ) (level xoffset yoffset width height : ℤ) : Prop :=
  0 ≤ level ∧ 0 ≤ width ∧ 0 ≤ height ∧ isValidTextureTarget target = true ∧
    ∃ record, s.lookupCachedTexture (s.imageTexture target) = some record ∧
      sint (xoffset + width) ≤ record.width ∧ sint (yoffset + height) ≤ record.height

/-- A call whose format and type are accepted is passed on, or records an error. -/
theorem glTexSubImage2D_cases (s : Objects.State) (target : ℕ)
    (level xoffset yoffset width height : ℤ) (hformat : ValidFormat format type) :
    (Passes s target level xoffset yoffset width height ∧
      Client.glTexSubImage2D s target level xoffset yoffset width height format type =
        .passedOn s) ∨
    (¬ Passes s target level xoffset yoffset width height ∧ ∃ error,
      Client.glTexSubImage2D s target level xoffset yoffset width height format type =
        .refused s error) := by
  obtain ⟨hvalid, h565, h4444⟩ := hformat
  unfold Client.glTexSubImage2D
  by_cases hneg : level < 0 ∨ width < 0 ∨ height < 0
  · refine .inr ⟨fun h => ?_, _, if_pos hneg⟩
    obtain ⟨hlevel, hwidth, hheight, -⟩ := h
    omega
  by_cases htarget : isValidTextureTarget target = true
  swap
  · exact .inr ⟨fun h => htarget h.2.2.2.1, glInvalidEnum, by rw [if_neg hneg, if_pos htarget]⟩
  -- The format and the type are accepted, so that only the size can be refused.
  have hnot565 : ¬ (type = glUnsignedShort565 ∧ format ≠ glRgb) := fun h => h.2 (h565 h.1)
  have hnot4444 : ¬ ((type = glUnsignedShort4444 ∨ type = glUnsignedShort5551) ∧
      format ≠ glRgba) := fun h => h.2 (h4444 h.1)
  rw [if_neg hneg, if_neg (not_not.mpr htarget), if_neg hnot565, if_neg hnot4444,
    if_neg (not_not.mpr hvalid)]
  cases hrecord : s.lookupCachedTexture (s.imageTexture target) with
  | none =>
    refine .inr ⟨fun h => ?_, glInvalidOperation, rfl⟩
    obtain ⟨-, -, -, -, record, hsome, -⟩ := h
    rw [hrecord] at hsome
    cases hsome
  | some record =>
    dsimp only
    by_cases hfits : sint (xoffset + width) > record.width ∨ sint (yoffset + height) > record.height
    · refine .inr ⟨fun h => ?_, glInvalidValue, if_pos hfits⟩
      obtain ⟨-, -, -, -, record', hsome, hwidth, hheight⟩ := h
      rw [hrecord] at hsome
      cases hsome
      omega
    · refine .inl ⟨⟨by omega, by omega, by omega, htarget, record, hrecord, ?_⟩, if_neg hfits⟩
      omega

/-- The record of the bound texture has the size of the image specified last. -/
theorem FollowsLast.passes_iff (hs : FollowsLast h) (target : ℕ)
    (level xoffset yoffset width height : ℤ) :
    Passes h.objects target level xoffset yoffset width height ↔
      0 ≤ level ∧ 0 ≤ width ∧ 0 ≤ height ∧ isValidTextureTarget target = true ∧
        h.objects.imageTexture target ≠ 0 ∧
        sint (xoffset + width) ≤ (h.last (h.objects.imageTexture target)).1 ∧
        sint (yoffset + height) ≤ (h.last (h.objects.imageTexture target)).2 := by
  unfold Passes
  refine and_congr_right fun _ => and_congr_right fun _ => and_congr_right fun _ =>
    and_congr_right fun _ => ?_
  constructor
  · rintro ⟨record, hrecord, hwidth, hheight⟩
    rw [← hs.record _ record hrecord]
    refine ⟨fun hzero => ?_, hwidth, hheight⟩
    rw [hzero] at hrecord
    cases hrecord
  · rintro ⟨hne, hwidth, hheight⟩
    obtain ⟨record, hrecord⟩ := hs.bound hne
    rw [← hs.record _ record hrecord] at hwidth hheight
    exact ⟨record, hrecord, hwidth, hheight⟩

/-- In every run, a call whose format and type are accepted is passed on rightly if and only if
its region lies in the image it is on, and in the one of its texture that was specified last;
or it has no texture or image to be on, or is found not to lie in the last one. -/
theorem checked_iff_sizesAgree (h₀ : imageSystem.Reachable h) (hformat : ValidFormat format type) :
    h.Checked target level xoffset yoffset width height format type ↔
      h.SizesAgree target level xoffset yoffset width height := by
  have hs := followsLast_of_reachable h₀
  have hpasses := hs.passes_iff target level xoffset yoffset width height
  -- An image has a level and a face.
  have haddresses : h.Addresses target level xoffset yoffset width height →
      0 ≤ level ∧ isValidTextureTarget target = true := by
    rintro ⟨size, himage, -⟩
    exact hs.images _ target level size himage
  have hchecked : h.Checked target level xoffset yoffset width height format type ↔
      (Passes h.objects target level xoffset yoffset width height ↔
        h.Addresses target level xoffset yoffset width height) := by
    unfold ImageHistory.Checked
    rcases glTexSubImage2D_cases h.objects target level xoffset yoffset width height hformat with
      ⟨hpass, heq⟩ | ⟨hpass, error, heq⟩
    · rw [heq]
      simp [Outcome.passedOn, hpass]
    · rw [heq]
      simp [Outcome.refused, hpass]
  rw [hchecked, hpasses]
  unfold ImageHistory.SizesAgree
  dsimp only
  by_cases haddr : h.Addresses target level xoffset yoffset width height
  · obtain ⟨hlevel, hvalid⟩ := haddresses haddr
    simp only [haddr, hlevel, hvalid, true_and, iff_true, forall_const, not_true_eq_false,
      IsEmpty.forall_iff, and_true]
    grind
  · simp only [haddr, iff_false, IsEmpty.forall_iff, true_and, not_false_eq_true, forall_const]
    rw [← Bool.not_eq_true, ← Int.not_le, ← Int.not_le, ← Int.not_le]
    grind

/-- A texture of one image of 4 by 4, of which a quarter is replaced. -/
theorem checked_quarter : ∃ h, imageSystem.Reachable h ∧
    h.Checked glTexture2D 0 2 2 2 2 glRgba glUnsignedByte := by
  let ops : List ImageOp :=
    [.glBindTexture glTexture2D 5,
      .glTexImage2D glTexture2D 0 glRgba 4 4 glRgba glUnsignedByte ⟨false, false⟩]
  have hresult : (ops.foldlM ImageHistory.step (.init 0)).map (fun h =>
      (h.objects.imageTexture glTexture2D, h.images (5, glTexture2D, 0), h.last 5)) =
        some (5, some (4, 4), (4, 4)) := by
    decide +kernel
  obtain ⟨h, hrun, hlast⟩ := Option.map_eq_some_iff.mp hresult
  rw [Prod.mk.injEq, Prod.mk.injEq] at hlast
  obtain ⟨htexture, himage, hsize⟩ := hlast
  have hreach : imageSystem.Reachable h := System.reachable_of_foldlM (.init ⟨0, rfl⟩) hrun
  refine ⟨h, hreach, (checked_iff_sizesAgree hreach (by decide)).mpr ?_⟩
  have haddresses : h.Addresses glTexture2D 0 2 2 2 2 := by
    refine ⟨(4, 4), ?_, by decide⟩
    rw [htexture]
    exact himage
  refine ⟨fun _ => ?_, fun hnot => absurd haddresses hnot⟩
  rw [htexture, hsize]
  decide

/-- The first image of a texture has 4 by 4, and the second one 2 by 2. All of the first one is
to be replaced. -/
theorem exists_refused_subImage : ∃ h, imageSystem.Reachable h ∧
    h.Addresses glTexture2D 0 0 0 4 4 ∧
    ¬ h.Checked glTexture2D 0 0 0 4 4 glRgba glUnsignedByte := by
  let ops : List ImageOp :=
    [.glBindTexture glTexture2D 5,
      .glTexImage2D glTexture2D 0 glRgba 4 4 glRgba glUnsignedByte ⟨false, false⟩,
      .glTexImage2D glTexture2D 1 glRgba 2 2 glRgba glUnsignedByte ⟨false, false⟩]
  have hresult : (ops.foldlM ImageHistory.step (.init 0)).map (fun h =>
      (h.objects.imageTexture glTexture2D, h.images (5, glTexture2D, 0),
        (Client.glTexSubImage2D h.objects glTexture2D 0 0 0 4 4 glRgba
          glUnsignedByte).forwards)) = some (5, some (4, 4), false) := by
    decide +kernel
  obtain ⟨h, hrun, hlast⟩ := Option.map_eq_some_iff.mp hresult
  rw [Prod.mk.injEq, Prod.mk.injEq] at hlast
  obtain ⟨htexture, himage, hforwards⟩ := hlast
  have haddresses : h.Addresses glTexture2D 0 0 0 4 4 := by
    refine ⟨(4, 4), ?_, by decide⟩
    rw [htexture]
    exact himage
  refine ⟨h, System.reachable_of_foldlM (.init ⟨0, rfl⟩) hrun, haddresses, fun hchecked => ?_⟩
  have hpassed := hchecked.1.mpr haddresses
  rw [hforwards] at hpassed
  cases hpassed

end GpuProxy.GlState
