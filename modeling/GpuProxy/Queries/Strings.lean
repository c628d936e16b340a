import GpuProxy.GlState.Errors
import GpuProxy.Math.CMemory
import GpuProxy.Math.OwnedHeap
import GpuProxy.Queries.Extensions

/-!
# The strings of a context

`glGetString` asks the driver for a string once, and keeps a copy in the state of the context. The
copies are freed with the state, except that `egl_state_destroy` frees the version again where it
should free the version of the shading language.

A string is a block of characters with a `'\0'` in it. The pointer that is `NULL` is 0.

## Main definitions

* `StringType`, `stringType?` — the strings that can be asked for
* `StringState`, `StringState.glGetString` — the copies, and the entry point
* `StringState.eglStateDestroy` — what is freed with the state
* `stringSystem` — calls with a driver that has certain texts

## Main results

* `glGetString_spec` — every call returns the driver's text, which was asked for once
* `eglStateDestroy_iff` — when destroying the state frees each copy once
-/

namespace GpuProxy.Queries

open Math GlState

/-- The values of `GLenum` that are valid for `glGetString`. -/
inductive StringType
  | vendor
  | renderer
  | version
  | shadingLanguageVersion
  | extensions
  deriving DecidableEq

/-- `is_valid_StringType`, with the string that is asked for. -/
def stringType? : ℕ → Option StringType
  | 0x1F00 => some .vendor
  | 0x1F01 => some .renderer
  | 0x1F02 => some .version
  | 0x8B8C => some .shadingLanguageVersion
  | 0x1F03 => some .extensions
  | _ => none

def elementIndexUintName : List Char := "GL_OES_element_index_uint".toList
def bgraName : List Char := "GL_EXT_texture_format_BGRA8888".toList

/-- Memory with strings in it. -/
abbrev StringHeap := OwnedHeap (List Char)

/-- The fields of `egl_state_t` that `glGetString` uses: `vendor_string`, `renderer_string`,
`version_string`, `shading_language_version_string` and `extensions_string`, by what they are for,
and what is known from the extensions. -/
structure StringState where
  heap : StringHeap
  strings : StringType → ℕ
  supportsElementIndexUint : Bool
  supportsBgra : Bool
  errors : Errors

namespace StringState

/-- `egl_state_init`. -/
def init (memory : ℕ → Option (List Char)) : StringState where
  heap := .ofRest memory
  strings _ := 0
  supportsElementIndexUint := false
  supportsBgra := false
  errors := .init

/-- The copy of a string: `strlen`, `malloc`, `memcpy` and the `'\0'`. The length is an `int`. -/
def copyString (heap : StringHeap) (result address : ℕ) : Option (List Char × StringHeap) := do
  let source ← if result = 0 then none else heap.memory result
  let length ← strlen '\x00' source
  let copied ← if length < 2 ^ 31 then memcpy (length + 1) source length else none
  let heap ← heap.malloc address (copied ++ ['\x00'])
  some (copied, heap)

/-- `caching_client_glGetString`, with the pointer that the driver answers and the one that
`malloc` returns. -/
def glGetString (s : StringState) (name result address : ℕ) : Option (ℕ × StringState) :=
  if ¬s.errors.active then some (0, s)
  else
    match stringType? name with
    | none => some (0, { s with errors := s.errors.glSetError glInvalidEnum })
    | some type =>
      if s.strings type ≠ 0 then some (s.strings type, s)
      else do
        let errors := if result = 0 then s.errors.setNeedsGetError else s.errors
        let (copied, heap) ← copyString s.heap result address
        let strings := Function.update s.strings type address
        if type = .extensions then
          some (result, {
            heap, strings, errors
            supportsElementIndexUint := (strstr copied elementIndexUintName).isSome
            supportsBgra := (strstr copied bgraName).isSome })
        else some (result, { s with heap, strings, errors })

/-- The pointers that `egl_state_destroy` passes to `free`. Behind the test of the version of the
shading language it is the version. -/
def freedStrings (s : StringState) : List ℕ :=
  [s.strings .vendor, s.strings .renderer, s.strings .version,
    if s.strings .shadingLanguageVersion = 0 then 0 else s.strings .version,
    s.strings .extensions].filter (· ≠ 0)

/-- `egl_state_destroy`, as far as it concerns the strings. -/
def eglStateDestroy (s : StringState) : Option StringHeap := s.heap.freeAll s.freedStrings

end StringState

/-- A call, with the pointers that the driver answers and `malloc` returns, or others change what
belongs to them. -/
inductive StringEvent
  | glGetString (name result address : ℕ)
  | others (memory : ℕ → Option (List Char))

/-- The pointer leads to a string with a text. -/
def PointsTo (memory : ℕ → Option (List Char)) (p : ℕ) (text : List Char) : Prop :=
  p ≠ 0 ∧ ∃ behind, memory p = some (text ++ '\x00' :: behind)

/-- A text of a driver: it ends where the string ends, and its length is an `int`. -/
def IsText (text : List Char) : Prop := '\x00' ∉ text ∧ text.length < 2 ^ 31

/-- The driver answers a pointer to its text, if it is asked, and `malloc` returns memory that is
not in use. -/
def Answers (texts : StringType → List Char) (s : StringState) (name result address : ℕ) : Prop :=
  ∀ type, stringType? name = some type → s.strings type = 0 →
    PointsTo s.heap.rest result (texts type) ∧ address ≠ 0 ∧ s.heap.memory address = none

/-- The runs of a context with a driver that has certain texts. -/
def stringSystem (texts : StringType → List Char) : System StringState StringEvent where
  Init s := ∃ memory, s = .init memory
  Step s event t :=
    match event with
    | .glGetString name result address =>
      Answers texts s name result address ∧ (s.glGetString name result address).map (·.2) = some t
    | .others memory => t = { s with heap := s.heap.setRest memory }

/-- The copies that were made are the texts of the driver, in blocks of their own, and what is
known from the extensions is what their text says. -/
structure Cached (texts : StringType → List Char) (s : StringState) : Prop where
  active : s.errors.active = true
  blocks : ∀ p, p ∈ s.heap.blocks ↔ p ≠ 0 ∧ ∃ type, s.strings type = p
  text : ∀ type, s.strings type ≠ 0 →
    s.heap.memory (s.strings type) = some (texts type ++ ['\x00'])
  apart : ∀ type type', s.strings type ≠ 0 → s.strings type = s.strings type' → type = type'
  supportsElementIndexUint : s.supportsElementIndexUint = true ↔
    s.strings .extensions ≠ 0 ∧ elementIndexUintName <:+: texts .extensions
  supportsBgra : s.supportsBgra = true ↔
    s.strings .extensions ≠ 0 ∧ bgraName <:+: texts .extensions

variable {texts : StringType → List Char} {s t u : StringState} {type : StringType}
  {name result address : ℕ}

/-! ### One call -/

theorem copyString_eq {heap : StringHeap} {text : List Char} (htext : IsText text)
    (hresult : PointsTo heap.memory result text) (hzero : address ≠ 0)
    (hfresh : heap.memory address = none) :
    ∃ heap', StringState.copyString heap result address = some (text, heap') ∧
      heap.malloc address (text ++ ['\x00']) = some heap' := by
  obtain ⟨hne, behind, hsource⟩ := hresult
  obtain ⟨hend, hlength⟩ := htext
  have hcopy : memcpy (text.length + 1) (text ++ '\x00' :: behind) text.length = some text := by
    rw [memcpy_eq (Nat.le_succ _) (by simp), List.take_left]
  have hmalloc : ∃ heap', heap.malloc address (text ++ ['\x00']) = some heap' := by
    rw [OwnedHeap.malloc, dif_neg (by simp [hzero, hfresh])]
    exact ⟨_, rfl⟩
  obtain ⟨heap', hmalloc⟩ := hmalloc
  refine ⟨heap', ?_, hmalloc⟩
  simp only [StringState.copyString, if_neg hne, hsource, strlen_append hend, if_pos hlength, hcopy,
    hmalloc, Option.bind_eq_bind, Option.bind_some]

theorem isSome_strstr {haystack needle : List Char} :
    (strstr haystack needle).isSome = true ↔ needle <:+: haystack := by
  rw [Option.isSome_iff_ne_none, ne_eq, strstr_eq_none_iff, not_not]

namespace Cached

theorem init (memory : ℕ → Option (List Char)) : Cached texts (.init memory) where
  active := rfl
  blocks p := by
    constructor
    · intro hp
      cases hp
    · rintro ⟨hp, type, hnull⟩
      exact absurd hnull.symm hp
  text type htype := absurd rfl htype
  apart type _ htype := absurd rfl htype
  supportsElementIndexUint := by simp [StringState.init]
  supportsBgra := by simp [StringState.init]

/-- A copy is in memory as long as it is kept. -/
theorem pointsTo (h : Cached texts s) (htype : s.strings type ≠ 0) :
    PointsTo s.heap.memory (s.strings type) (texts type) := ⟨htype, [], h.text type htype⟩

theorem others (h : Cached texts s) (memory : ℕ → Option (List Char)) :
    Cached texts { s with heap := s.heap.setRest memory } where
  active := h.active
  blocks := h.blocks
  text type htype := by
    have hmem : s.strings type ∈ s.heap.blocks := (h.blocks _).mpr ⟨htype, type, rfl⟩
    rw [OwnedHeap.memory_setRest hmem, h.text type htype]
  apart := h.apart
  supportsElementIndexUint := h.supportsElementIndexUint
  supportsBgra := h.supportsBgra

/-- A string that was copied is returned without asking the driver. -/
theorem glGetString_of_ne (h : Cached texts s) (hname : stringType? name = some type)
    (htype : s.strings type ≠ 0) :
    s.glGetString name result address = some (s.strings type, s) := by
  simp [StringState.glGetString, h.active, hname, htype]

/-- A copy is added to the others. -/
theorem add (h : Cached texts s) {heap : StringHeap} (htype : s.strings type = 0)
    (hmalloc : s.heap.malloc address (texts type ++ ['\x00']) = some heap) {uint bgra : Bool}
    (huint : uint = true ↔ Function.update s.strings type address .extensions ≠ 0 ∧
      elementIndexUintName <:+: texts .extensions)
    (hbgra : bgra = true ↔ Function.update s.strings type address .extensions ≠ 0 ∧
      bgraName <:+: texts .extensions) :
    Cached texts ⟨heap, Function.update s.strings type address, uint, bgra, s.errors⟩ := by
  obtain ⟨hzero, hfresh, hblocks, hnew, hold, -⟩ := OwnedHeap.malloc_spec hmalloc
  have hnotMem : address ∉ s.heap.blocks := OwnedHeap.notMem_of_memory_eq_none hfresh
  have hother : ∀ type', s.strings type' ≠ address := fun type' heq =>
    hnotMem ((h.blocks address).mpr ⟨hzero, type', heq⟩)
  -- The block of the new copy is none of those that other copies are in.
  refine ⟨h.active, fun p => ?_, fun type' htype' => ?_, fun type₁ type₂ htype₁ heq => ?_,
    huint, hbgra⟩
  · rw [hblocks, Finset.mem_insert, h.blocks]
    constructor
    · rintro (rfl | ⟨hp, type', rfl⟩)
      · exact ⟨hzero, type, Function.update_self ..⟩
      · have hne : type' ≠ type := by
          rintro rfl
          exact hp htype
        exact ⟨hp, type', Function.update_of_ne hne ..⟩
    · rintro ⟨hp, type', rfl⟩
      simp only [Function.update_apply] at hp ⊢
      split_ifs at hp ⊢ with heq
      · exact .inl rfl
      · exact .inr ⟨hp, type', rfl⟩
  · simp only [Function.update_apply] at htype' ⊢
    split_ifs at htype' ⊢ with heq
    · rw [hnew, heq]
    · rw [hold _ (hother type'), h.text type' htype']
  · simp only [Function.update_apply] at htype₁ heq
    split_ifs at htype₁ heq with h₁ h₂ h₂
    · rw [h₁, h₂]
    · exact absurd heq.symm (hother type₂)
    · exact absurd heq (hother type₁)
    · exact h.apart type₁ type₂ htype₁ heq

/-- A string that was not copied yet. -/
theorem glGetString_of_eq (h : Cached texts s) (htexts : ∀ type, IsText (texts type))
    (hname : stringType? name = some type) (htype : s.strings type = 0)
    (hanswers : Answers texts s name result address) :
    ∃ t, s.glGetString name result address = some (result, t) ∧ Cached texts t ∧
      t.strings = Function.update s.strings type address ∧ address ≠ 0 ∧
      PointsTo t.heap.memory result (texts type) := by
  obtain ⟨⟨hne, behind, hsource⟩, hzero, hfresh⟩ := hanswers type hname htype
  have hmemory := OwnedHeap.memory_of_rest hsource
  obtain ⟨heap, hcopy, hmalloc⟩ := copyString_eq (htexts type) ⟨hne, behind, hmemory⟩ hzero hfresh
  have hpoints : PointsTo heap.memory result (texts type) :=
    ⟨hne, behind, OwnedHeap.memory_malloc hmalloc hmemory⟩
  -- With the extensions, the two names are looked for in their text.
  by_cases hextensions : type = .extensions
  · subst hextensions
    refine ⟨⟨heap, Function.update s.strings .extensions address,
      (strstr (texts .extensions) elementIndexUintName).isSome,
      (strstr (texts .extensions) bgraName).isSome, s.errors⟩, ?_,
      h.add htype hmalloc ?_ ?_, rfl, hzero, hpoints⟩
    · simp [StringState.glGetString, h.active, hname, htype, hcopy, hne]
    · simp [isSome_strstr, hzero]
    · simp [isSome_strstr, hzero]
  · have hsame : Function.update s.strings type address .extensions = s.strings .extensions :=
      Function.update_of_ne (Ne.symm hextensions) ..
    refine ⟨⟨heap, Function.update s.strings type address, s.supportsElementIndexUint,
      s.supportsBgra, s.errors⟩, ?_, h.add htype hmalloc ?_ ?_, rfl, hzero, hpoints⟩
    · simp [StringState.glGetString, h.active, hname, htype, hcopy, hne, hextensions]
    · rw [hsame]
      exact h.supportsElementIndexUint
    · rw [hsame]
      exact h.supportsBgra

/-- A name that is not valid is an error, and nothing else. -/
theorem glGetString_of_none (h : Cached texts s) (hname : stringType? name = none) :
    ∃ errors : Errors, errors.active = true ∧
      s.glGetString name result address = some (0, { s with errors := errors }) := by
  refine ⟨s.errors.glSetError glInvalidEnum, ?_, by
    simp [StringState.glGetString, h.active, hname]⟩
  rw [Errors.glSetError]
  split_ifs <;> exact h.active

/-- A step keeps the copies, and makes at most one. -/
theorem step_cases (h : Cached texts s) (htexts : ∀ type, IsText (texts type))
    {event : StringEvent} (hstep : (stringSystem texts).Step s event t) :
    Cached texts t ∧ (t.strings = s.strings ∨ ∃ type address, address ≠ 0 ∧
      t.strings = Function.update s.strings type address) := by
  match event with
  | .others memory =>
    obtain rfl := hstep
    exact ⟨h.others memory, .inl rfl⟩
  | .glGetString name result address =>
    obtain ⟨hanswers, hcall⟩ := hstep
    cases hname : stringType? name with
    | none =>
      obtain ⟨errors, hactive, hcall'⟩ := h.glGetString_of_none hname
      rw [hcall'] at hcall
      obtain rfl := Option.some.inj hcall
      exact ⟨⟨hactive, h.blocks, h.text, h.apart, h.supportsElementIndexUint, h.supportsBgra⟩,
        .inl rfl⟩
    | some type =>
      by_cases htype : s.strings type = 0
      · obtain ⟨t', hcall', ht', hstrings, hzero, -⟩ :=
          h.glGetString_of_eq htexts hname htype hanswers
        rw [hcall'] at hcall
        obtain rfl := Option.some.inj hcall
        exact ⟨ht', .inr ⟨type, address, hzero, hstrings⟩⟩
      · rw [h.glGetString_of_ne hname htype] at hcall
        obtain rfl := Option.some.inj hcall
        exact ⟨h, .inl rfl⟩

end Cached

/-! ### Runs -/

theorem cached_invariant (htexts : ∀ type, IsText (texts type)) :
    (stringSystem texts).Invariant (Cached texts) where
  init := by
    rintro s ⟨memory, rfl⟩
    exact .init memory
  step := by
    intro s event t _ h hstep
    exact (h.step_cases htexts hstep).1

/-- Copies are kept. -/
theorem strings_ne_of_run (htexts : ∀ type, IsText (texts type))
    (hs : (stringSystem texts).Reachable s) {events : List StringEvent}
    (hrun : (stringSystem texts).Run s events t) (htype : s.strings type ≠ 0) :
    t.strings type ≠ 0 := by
  induction hrun with
  | nil => exact htype
  | @step events t u event hrun hstep ih =>
    have h := (cached_invariant htexts).holds (hrun.reachable hs)
    obtain hsame | ⟨type', address, hzero, hupdate⟩ := (h.step_cases htexts hstep).2
    · rwa [hsame]
    · rw [hupdate, Function.update_apply]
      split_ifs
      · exact hzero
      · exact ih

/-- A call returns the text of the driver. From then on, the driver is not asked again: whatever it
would answer, calls for this string return the copy, which has the same text. -/
theorem glGetString_spec (htexts : ∀ type, IsText (texts type))
    (hs : (stringSystem texts).Reachable s) (hname : stringType? name = some type)
    (hanswers : Answers texts s name result address) :
    ∃ p t, s.glGetString name result address = some (p, t) ∧
      PointsTo t.heap.memory p (texts type) ∧
      ∀ events u, (stringSystem texts).Run t events u → ∀ result' address', ∃ p',
        u.glGetString name result' address' = some (p', u) ∧
        PointsTo u.heap.memory p' (texts type) := by
  have h := (cached_invariant htexts).holds hs
  have hcalled : ∃ p t, s.glGetString name result address = some (p, t) ∧
      PointsTo t.heap.memory p (texts type) ∧ t.strings type ≠ 0 := by
    by_cases htype : s.strings type = 0
    · obtain ⟨t, hcall, -, hstrings, hzero, hpoints⟩ :=
        h.glGetString_of_eq htexts hname htype hanswers
      exact ⟨result, t, hcall, hpoints, by rwa [hstrings, Function.update_self]⟩
    · exact ⟨_, s, h.glGetString_of_ne hname htype, h.pointsTo htype, htype⟩
  obtain ⟨p, t, hcall, hpoints, htype⟩ := hcalled
  have ht : (stringSystem texts).Reachable t :=
    hs.step (a := .glGetString name result address) ⟨hanswers, by rw [hcall]; rfl⟩
  refine ⟨p, t, hcall, hpoints, fun events u hrun result' address' => ?_⟩
  have hu := (cached_invariant htexts).holds (hrun.reachable ht)
  have htype' := strings_ne_of_run htexts ht hrun htype
  exact ⟨_, hu.glGetString_of_ne hname htype', hu.pointsTo htype'⟩

/-- A driver all of whose texts are the same, which it has at 8. -/
def sameText (_ : StringType) : List Char := ['E', 'S']

def noStrings : StringState := .init fun p => if p = 8 then some ['E', 'S', '\x00'] else none

theorem sameText_isText (type : StringType) : IsText (sameText type) := by
  constructor <;> simp [sameText]

theorem noStrings_answers : Answers sameText noStrings 0x1F02 8 16 :=
  fun _ _ _ => ⟨⟨by decide, [], rfl⟩, by decide, rfl⟩

theorem noStrings_reachable : (stringSystem sameText).Reachable noStrings := .init ⟨_, rfl⟩

theorem glGetString_spec_noStrings : ∃ p t,
    noStrings.glGetString 0x1F02 8 16 = some (p, t) ∧
      PointsTo t.heap.memory p (sameText .version) ∧
      ∀ events u, (stringSystem sameText).Run t events u → ∀ result' address', ∃ p',
        u.glGetString 0x1F02 result' address' = some (p', u) ∧
        PointsTo u.heap.memory p' (sameText .version) :=
  glGetString_spec sameText_isText noStrings_reachable rfl noStrings_answers

/-! ### The end of a state -/

namespace Cached

/-- Different copies are in different blocks. -/
theorem nodup_strings (h : Cached texts s) {types : List StringType} (htypes : types.Nodup) :
    ((types.map s.strings).filter (· ≠ 0)).Nodup := by
  rw [List.filter_map]
  refine List.Nodup.map_on (fun type htype type' _ heq => ?_) (htypes.filter _)
  have hne : s.strings type ≠ 0 := by simpa using (List.mem_filter.mp htype).2
  exact h.apart type type' hne heq

theorem mem_blocks_of_freedStrings (h : Cached texts s) :
    ∀ p ∈ s.freedStrings, p ∈ s.heap.blocks := by
  intro p hp
  rw [h.blocks]
  simp only [StringState.freedStrings, List.mem_filter, List.mem_cons, List.not_mem_nil, or_false,
    decide_eq_true_eq] at hp
  obtain ⟨hp, hne⟩ := hp
  refine ⟨hne, ?_⟩
  split_ifs at hp with hlanguage
  · obtain rfl | rfl | rfl | rfl | rfl := hp
    · exact ⟨_, rfl⟩
    · exact ⟨_, rfl⟩
    · exact ⟨_, rfl⟩
    · exact absurd rfl hne
    · exact ⟨_, rfl⟩
  · obtain rfl | rfl | rfl | rfl | rfl := hp <;> exact ⟨_, rfl⟩

/-- How often the pointer to a copy is passed to `free`. -/
theorem count_freedStrings (h : Cached texts s) (htype : s.strings type ≠ 0) :
    s.freedStrings.count (s.strings type) =
      if type = .shadingLanguageVersion then 0
      else if type = .version ∧ s.strings .shadingLanguageVersion ≠ 0 then 2
      else 1 := by
  have heq : ∀ type', (s.strings type' == s.strings type) = decide (type' = type) := by
    intro type'
    rw [beq_eq_decide, decide_eq_decide]
    exact ⟨fun hp => (h.apart type type' htype hp.symm).symm, fun ht => congrArg _ ht⟩
  have hzero : (0 == s.strings type) = false := beq_false_of_ne htype.symm
  rw [StringState.freedStrings, List.count_filter (by simpa using htype)]
  by_cases hlanguage : s.strings .shadingLanguageVersion = 0
  · cases type <;> simp_all [List.count_cons]
  · cases type <;> simp [List.count_cons, heq, hlanguage]

end Cached

/-- Unless both versions were asked for, the version of the shading language is left out. -/
theorem freedStrings_eq (h : s.strings .version = 0 ∨ s.strings .shadingLanguageVersion = 0) :
    s.freedStrings =
      ([.vendor, .renderer, .version, .extensions].map s.strings).filter (· ≠ 0) := by
  have hzero : (if s.strings .shadingLanguageVersion = 0 then 0 else s.strings .version) = 0 := by
    split_ifs with hlanguage
    · rfl
    · exact h.resolve_right hlanguage
  rw [StringState.freedStrings, hzero]
  simp [List.filter_cons]

/-- When the state is destroyed, every copy is freed once if and only if the version of the shading
language was not asked for. If it was, its copy is not freed, and that of the version, if it was
asked for too, is freed twice. -/
theorem eglStateDestroy_iff (htexts : ∀ type, IsText (texts type))
    (hs : (stringSystem texts).Reachable s) :
    ((∃ heap, s.eglStateDestroy = some heap ∧ heap.blocks = ∅) ↔
        s.strings .shadingLanguageVersion = 0) ∧
      (s.eglStateDestroy = none ↔
        s.strings .version ≠ 0 ∧ s.strings .shadingLanguageVersion ≠ 0) ∧
      ∀ type, s.strings type ≠ 0 → s.freedStrings.count (s.strings type) =
        if type = .shadingLanguageVersion then 0
        else if type = .version ∧ s.strings .shadingLanguageVersion ≠ 0 then 2
        else 1 := by
  have h := (cached_invariant htexts).holds hs
  rw [← and_assoc]
  refine ⟨?_, fun type htype => h.count_freedStrings htype⟩
  by_cases hboth : s.strings .version ≠ 0 ∧ s.strings .shadingLanguageVersion ≠ 0
  · have htwice : s.freedStrings.count (s.strings .version) = 2 := by
      rw [h.count_freedStrings hboth.1, if_neg (by decide), if_pos ⟨rfl, hboth.2⟩]
    have hnone : s.eglStateDestroy = none := by
      rw [← Option.not_isSome_iff_eq_none, StringState.eglStateDestroy,
        OwnedHeap.freeAll_isSome_iff, not_and]
      intro hnodup
      have hle := List.nodup_iff_count_le_one.mp hnodup (s.strings .version)
      omega
    simp [hnone, hboth]
  · have hone : s.strings .version = 0 ∨ s.strings .shadingLanguageVersion = 0 := by tauto
    have hfreed := freedStrings_eq hone
    have hnodup : s.freedStrings.Nodup := by
      rw [hfreed]
      exact h.nodup_strings (by decide)
    obtain ⟨heap, hfree, hblocks, -⟩ :=
      OwnedHeap.freeAll_spec hnodup h.mem_blocks_of_freedStrings
    have hdestroy : s.eglStateDestroy = some heap := hfree
    refine ⟨?_, by simp [hdestroy, hboth]⟩
    simp only [hdestroy, Option.some.injEq, exists_eq_left', hblocks,
      Finset.sdiff_eq_empty_iff_subset]
    constructor
    · -- Its copy is in no other block.
      intro hsubset
      by_contra hlanguage
      have hmem : s.strings .shadingLanguageVersion ∈ s.freedStrings :=
        List.mem_toFinset.mp (hsubset ((h.blocks _).mpr ⟨hlanguage, _, rfl⟩))
      have hcount := h.count_freedStrings hlanguage
      rw [if_pos rfl, List.count_eq_zero] at hcount
      exact hcount hmem
    · intro hlanguage p hp
      obtain ⟨hne, type, rfl⟩ := (h.blocks p).mp hp
      rw [List.mem_toFinset, hfreed, List.mem_filter]
      refine ⟨List.mem_map_of_mem ?_, by simpa using hne⟩
      cases type with
      | shadingLanguageVersion => exact absurd hlanguage hne
      | _ => simp

/-- The version was asked for, and then that of the shading language. -/
def oneVersion : StringState := ((noStrings.glGetString 0x1F02 8 16).map (·.2)).getD noStrings
def bothVersions : StringState := ((oneVersion.glGetString 0x8B8C 8 24).map (·.2)).getD oneVersion

theorem eglStateDestroy_bothVersions :
    ((∃ heap, bothVersions.eglStateDestroy = some heap ∧ heap.blocks = ∅) ↔
        bothVersions.strings .shadingLanguageVersion = 0) ∧
      (bothVersions.eglStateDestroy = none ↔ bothVersions.strings .version ≠ 0 ∧
        bothVersions.strings .shadingLanguageVersion ≠ 0) ∧
      ∀ type, bothVersions.strings type ≠ 0 →
        bothVersions.freedStrings.count (bothVersions.strings type) =
          if type = .shadingLanguageVersion then 0
          else if type = .version ∧ bothVersions.strings .shadingLanguageVersion ≠ 0 then 2
          else 1 := by
  have hone : (stringSystem sameText).Step noStrings (.glGetString 0x1F02 8 16) oneVersion :=
    ⟨noStrings_answers, rfl⟩
  have hboth : (stringSystem sameText).Step oneVersion (.glGetString 0x8B8C 8 24) bothVersions :=
    ⟨fun _ _ _ => ⟨⟨by decide, [], rfl⟩, by decide, rfl⟩, rfl⟩
  exact eglStateDestroy_iff sameText_isText (.step (.step noStrings_reachable hone) hboth)

end GpuProxy.Queries
