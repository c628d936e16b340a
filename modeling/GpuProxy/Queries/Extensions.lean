import GpuProxy.Math.Words
import Mathlib.Data.List.Infix

/-!
# Looking for extensions

`eglGetProcAddress` hands out the functions of an extension when the driver has it, which
`_has_extension` looks up in the string of all extensions. The test behind a hit is for any
character or the end, so that a name is found also inside of another.

A C string is the list of the characters in front of its `'\\0'`, and a pointer into a string is
the string from there. The loop has a bound on its rounds.

## Main definitions

* `strstr`, `hasExtension` — the search
* `extensionSymbols`, `eglGetProcAddress` — the functions of the extensions
* `LooksUpNames` — the search ends and finds the names in the list

## Main results

* `looksUpNames_iff` — when it does
* `eglGetProcAddress_of_queried` — what is handed out where the driver has the extensions that
  are asked for
-/

namespace GpuProxy.Queries

open Math

/-! ### `_has_extension` -/

/-- `s[i]`, in the string and at its end. -/
def charAt (s : List Char) (i : ℕ) : Char := s.getD i '\x00'

/-- `strstr`: the string from the first place where `needle` is. -/
def strstr (haystack needle : List Char) : Option (List Char) :=
  if needle.isPrefixOf haystack then some haystack
  else match haystack with
    | [] => none
    | _ :: haystack => strstr haystack needle

/-- The loop of `_has_extension`. -/
def hasExtensionLoop (extensionName : List Char) : ℕ → Option (List Char) → Option Bool
  | 0, _ => none
  | _ + 1, none => some false
  | fuel + 1, some found =>
    let extensionNameLength := extensionName.length
    if charAt found extensionNameLength ≠ '\x00' ∨ charAt found extensionNameLength = '\x00' then
      some true
    else
      hasExtensionLoop extensionName fuel
        (strstr (found.drop extensionNameLength) extensionName)

/-- `_has_extension`, where `glGetString (GL_EXTENSIONS)` is `extensions`. -/
def hasExtension (fuel : ℕ) (extensions : Option (List Char)) (extensionName : List Char) :
    Option Bool :=
  match extensions with
  | none => some false
  | some extensions =>
    hasExtensionLoop extensionName fuel (strstr extensions extensionName)

/-! ### `eglGetProcAddress` -/

/-- The extensions of which `eglGetProcAddress` knows functions, and these. -/
def extensionSymbols : List (String × List String) := [
  ("GL_OES_EGL_image", ["glEGLImageTargetTexture2DOES", "glEGLImageTargetRenderbufferStorageOES"]),
  ("GL_OES_get_program_binary", ["glGetProgramBinaryOES", "glProgramBinaryOES"]),
  ("GL_OES_mapbuffer", ["glMapBufferOES", "glUnmapBufferOES", "glGetBufferPointervOES"]),
  ("GL_OES_texture_3D", ["glTexImage3DOES", "glTexSubImage3DOES", "glCopyTexSubImage3DOES",
      "glCompressedTexImage3DOES", "glCompressedTexSubImage3DOES", "glFramebufferTexture3DOES"]),
  ("GL_OES_vertex_array_object", ["glBindVertexArrayOES", "glDeleteVertexArraysOES",
      "glGenVertexArraysOES", "glIsVertexArrayOES"]),
  ("GL_AMD_performance_monitor", ["glGetPerfMonitorGroupsAMD", "glGetPerfMonitorCountersAMD",
      "glGetPerfMonitorGroupStringAMD", "glGetPerfMonitorCounterStringAMD",
      "glGetPerfMonitorCounterInfoAMD", "glGenPerfMonitorsAMD", "glDeletePerfMonitorsAMD",
      "glSelectPerfMonitorCountersAMD", "glBeginPerfMonitorAMD", "glEndPerfMonitorAMD",
      "glGetPerfMonitorCounterDataAMD"]),
  ("GL_ANGLE_framebuffer_blit", ["glBlitFramebufferANGLE"]),
  ("GL_ANGLE_framebuffer_multisample", ["glBlitFramebufferANGLE",
      "glRenderbufferStorageMultisampleANGLE"]),
  ("GL_APPLE_framebuffer_multisample", ["glRenderbufferStorageMultisampleAPPLE",
      "glResolveMultisampleFramebufferAPPLE"]),
  ("GL_IMG_multisampled_render_to_texture", ["glRenderbufferStorageMultisampleIMG",
      "glFramebufferTexture2DMultisampleIMG"]),
  ("GL_EXT_discard_framebuffer", ["glDiscardFramebufferEXT"]),
  ("GL_EXT_multi_draw_arrays", ["glMultiDrawArraysEXT", "glMultiDrawElementsEXT"]),
  ("GL_EXT_multisampled_render_to_texture", ["glRenderbufferStorageMultisampleEXT",
      "glFramebufferTexture2DMultisampleEXT"]),
  ("GL_NV_fence", ["glDeleteFencesNV", "glGenFencesNV", "glIsFenceNV", "glTestFenceNV",
      "glGetFenceivNV", "glFinishFenceNV", "glSetFenceNV"]),
  ("GL_NV_coverage_sample", ["glCoverageMaskNV", "glCoverageOperationNV"]),
  ("GL_QCOM_driver_control", ["glGetDriverControlsQCOM", "glGetDriverControlStringQCOM",
      "glEnableDriverControlQCOM", "glDisableDriverControlQCOM"]),
  ("GL_QCOM_extended_get", ["glExtGetTexturesQCOM", "glExtGetBuffersQCOM",
      "glExtGetRenderbuffersQCOM", "glExtGetFramebuffersQCOM", "glExtGetTexLevelParameterivQCOM",
      "glExtTexObjectStateOverrideiQCOM", "glExtGetTexSubImageQCOM",
      "glExtGetBufferPointervQCOM"]),
  ("GL_QCOM_extended_get2", ["glExtGetShadersQCOM", "glExtGetProgramsQCOM",
      "glExtIsProgramBinaryQCOM", "glExtGetProgramBinarySourceQCOM"]),
  ("GL_QCOM_tiled_rendering", ["glStartTilingQCOM", "glEndTilingQCOM"])]

/-- The `RETURN_HIDDEN_SYMBOL_IF_NAME_MATCHES` of the extensions that the driver has. -/
def hiddenSymbol (fuel : ℕ) (extensions : Option (List Char)) (procname : String) :
    List (String × List String) → Option (Option String)
  | [] => some none
  | (extensionName, symbols) :: rest => do
    let supported ← hasExtension fuel extensions extensionName.toList
    if supported ∧ procname ∈ symbols then return some procname
    else hiddenSymbol fuel extensions procname rest

/-- What `eglGetProcAddress` returns; `hidden` is `dlsym` for `__hidden_gpuproxy_` and the name. -/
inductive ProcAddress
  | base (procname : String)
  | hidden (procname : String)
  | dlsym (procname : String)
  | null
  deriving DecidableEq

/-- `eglGetProcAddress`, with the answers of `should_use_base_dispatch` and
`client_get_thread_local`. -/
def eglGetProcAddress (useBase hasClient : Bool) (fuel : ℕ) (extensions : Option (List Char))
    (procname : String) : Option ProcAddress :=
  if useBase then some (.base procname)
  else do
    match ← hiddenSymbol fuel extensions procname extensionSymbols with
    | some symbol => return .hidden symbol
    | none => return if hasClient then .dlsym procname else .null

/-! ### What is found -/

section Lookup

variable {extensions haystack needle name : List Char} {fuel : ℕ}

theorem strstr_eq_none_iff : strstr haystack needle = none ↔ ¬needle <:+: haystack := by
  induction haystack with
  | nil =>
    rw [strstr]
    split_ifs with hstart
    · rw [List.isPrefixOf_iff_prefix] at hstart
      simpa using List.prefix_nil.mp hstart
    · rw [List.isPrefixOf_iff_prefix, List.prefix_nil] at hstart
      simpa using hstart
  | cons c haystack ih =>
    rw [strstr, List.infix_cons_iff]
    split_ifs with hstart
    · simp [List.isPrefixOf_iff_prefix.mp hstart]
    · rw [List.isPrefixOf_iff_prefix] at hstart
      rw [ih, or_iff_right hstart]

/-- The first hit ends the search, whatever is behind it. -/
theorem hasExtension_eq_infix :
    hasExtension (fuel + 1) (some extensions) name = some (decide (name <:+: extensions)) := by
  rw [hasExtension]
  cases hfound : strstr extensions name with
  | none => simp [hasExtensionLoop, strstr_eq_none_iff.mp hfound]
  | some found =>
    have hsub : name <:+: extensions := by
      by_contra h
      rw [strstr_eq_none_iff.mpr h] at hfound
      cases hfound
    -- The test behind the hit holds of every character.
    simp only [hasExtensionLoop, hsub, decide_true]
    exact if_pos (ne_or_eq _ _)

/-- The names in the list of extensions. -/
def extensionNames (extensions : List Char) : List (List Char) := extensions.splitOn ' '

/-- The lookup of a name ends, and says if the name is in the list. -/
def LooksUpNames (extensions name : List Char) : Prop :=
  ∃ found fuel₀, (∀ fuel, fuel₀ ≤ fuel → hasExtension fuel (some extensions) name = some found) ∧
    (found = true ↔ name ∈ extensionNames extensions)

/-- A part of the list is a part of a name. -/
theorem infix_iff_extensionNames (hspace : ' ' ∉ name) :
    name <:+: extensions ↔ ∃ other ∈ extensionNames extensions, name <:+: other :=
  infix_iff_splitOn hspace

/-- The lookup is right about a name that is in the list, and about one that is no part of any
name there. -/
theorem looksUpNames_iff (extensions name : List Char) (hspace : ' ' ∉ name) :
    LooksUpNames extensions name ↔
      name ∈ extensionNames extensions ∨
        ∀ other ∈ extensionNames extensions, ¬name <:+: other := by
  have hends : ∀ fuel, 1 ≤ fuel →
      hasExtension fuel (some extensions) name = some (decide (name <:+: extensions)) := by
    intro fuel hfuel
    obtain ⟨fuel, rfl⟩ := Nat.exists_eq_add_of_le' hfuel
    exact hasExtension_eq_infix
  have hpart : name <:+: extensions ↔ ∃ other ∈ extensionNames extensions, name <:+: other :=
    infix_iff_extensionNames hspace
  constructor
  · rintro ⟨found, fuel₀, hfound, hiff⟩
    have heq := (hfound (fuel₀ + 1) (Nat.le_succ _)).symm.trans
      (hends (fuel₀ + 1) (Nat.le_add_left _ _))
    rw [Option.some.inj heq, decide_eq_true_iff] at hiff
    by_cases hname : name <:+: extensions
    · exact .inl (hiff.mp hname)
    · rw [hpart] at hname
      exact .inr fun other hother hsub => hname ⟨other, hother, hsub⟩
  · intro h
    refine ⟨_, 1, hends, ?_⟩
    rw [decide_eq_true_iff, hpart]
    constructor
    · rintro ⟨other, hother, hsub⟩
      exact h.resolve_right fun hnone => hnone other hother hsub
    · exact fun hname => ⟨name, hname, List.infix_rfl⟩

theorem looksUpNames_iff_extended_get :
    LooksUpNames "GL_NV_fence GL_QCOM_extended_get2".toList "GL_QCOM_extended_get".toList ↔
      "GL_QCOM_extended_get".toList ∈
        extensionNames "GL_NV_fence GL_QCOM_extended_get2".toList ∨
      ∀ other ∈ extensionNames "GL_NV_fence GL_QCOM_extended_get2".toList,
        ¬"GL_QCOM_extended_get".toList <:+: other :=
  looksUpNames_iff _ _ (by decide)

/-- A driver with the second version of an extension seems to have the first. -/
theorem exists_part_found :
    ¬∀ extensions name, name ≠ [] → ' ' ∉ name → LooksUpNames extensions name := by
  intro h
  obtain ⟨found, fuel₀, hfound, hiff⟩ :=
    h "GL_QCOM_extended_get2".toList "GL_QCOM_extended_get".toList (by decide) (by decide)
  have heq := (hfound (fuel₀ + 1) (Nat.le_succ _)).symm.trans hasExtension_eq_infix
  have htrue : found = true := (Option.some.inj heq).trans (by decide)
  exact absurd (hiff.mp htrue) (by decide)

end Lookup

/-! ### What is handed out -/

section HandedOut

variable {extensions : List Char} {procname : String} {fuel : ℕ}
  {rows : List (String × List String)}

theorem hiddenSymbol_eq : hiddenSymbol (fuel + 1) (some extensions) procname rows =
    some (if ∃ row ∈ rows, row.1.toList <:+: extensions ∧ procname ∈ row.2
      then some procname else none) := by
  induction rows with
  | nil => simp [hiddenSymbol]
  | cons row rows ih =>
    obtain ⟨extensionName, symbols⟩ := row
    rw [hiddenSymbol, hasExtension_eq_infix]
    by_cases hrow : extensionName.toList <:+: extensions ∧ procname ∈ symbols
    · simp [hrow]
    · simp only [List.exists_mem_cons_iff, hrow, false_or, Option.bind_eq_bind, Option.bind_some,
        decide_eq_true_eq, if_false]
      exact ih

theorem space_notMem_queried : ∀ row ∈ extensionSymbols, ' ' ∉ row.1.toList := by
  decide +kernel

/-- A function is handed out when the driver has a name with one of its extensions in it. -/
theorem eglGetProcAddress_eq_hidden_iff (hasClient : Bool) :
    eglGetProcAddress false hasClient (fuel + 1) (some extensions) procname =
        some (.hidden procname) ↔
      ∃ row ∈ extensionSymbols, procname ∈ row.2 ∧
        ∃ name ∈ extensionNames extensions, row.1.toList <:+: name := by
  have hparts : (∃ row ∈ extensionSymbols, row.1.toList <:+: extensions ∧ procname ∈ row.2) ↔
      ∃ row ∈ extensionSymbols, procname ∈ row.2 ∧
        ∃ name ∈ extensionNames extensions, row.1.toList <:+: name := by
    refine exists_congr fun row => and_congr_right fun hrow => ?_
    rw [infix_iff_extensionNames (space_notMem_queried row hrow), and_comm]
  rw [← hparts]
  rw [eglGetProcAddress, hiddenSymbol_eq, if_neg Bool.false_ne_true]
  by_cases h : ∃ row ∈ extensionSymbols, row.1.toList <:+: extensions ∧ procname ∈ row.2
  · rw [if_pos h]
    exact iff_of_true rfl h
  · rw [if_neg h]
    refine iff_of_false ?_ h
    cases hasClient <;> simp

/-- Of the names that are asked for, one is a part of another. -/
theorem eq_of_queried_infix {row other : String × List String} (hrow : row ∈ extensionSymbols)
    (hother : other ∈ extensionSymbols) (hsub : row.1.toList <:+: other.1.toList) :
    row.1 = other.1 ∨ row.1 = "GL_QCOM_extended_get" ∧ other.1 = "GL_QCOM_extended_get2" := by
  -- The search itself is run on every pair of names.
  have hall : (extensionSymbols.all fun row => extensionSymbols.all fun other =>
      (strstr other.1.toList row.1.toList).isNone || row.1 == other.1 ||
        (row.1 == "GL_QCOM_extended_get" && other.1 == "GL_QCOM_extended_get2")) = true := by
    decide +kernel
  have hpair := List.all_eq_true.mp (List.all_eq_true.mp hall row hrow) other hother
  have hfound : strstr other.1.toList row.1.toList ≠ none := fun h =>
    strstr_eq_none_iff.mp h hsub
  simpa [hfound] using hpair

/-- Where the driver has no other names, the functions handed out are those of its extensions,
but for the two versions of one. -/
theorem eglGetProcAddress_of_queried (hasClient : Bool)
    (hnames : ∀ name ∈ extensionNames extensions,
      ∃ row ∈ extensionSymbols, row.1.toList = name) :
    eglGetProcAddress false hasClient (fuel + 1) (some extensions) procname =
        some (.hidden procname) ↔
      ∃ row ∈ extensionSymbols, procname ∈ row.2 ∧
        (row.1.toList ∈ extensionNames extensions ∨ row.1 = "GL_QCOM_extended_get" ∧
          "GL_QCOM_extended_get2".toList ∈ extensionNames extensions) := by
  rw [eglGetProcAddress_eq_hidden_iff]
  refine exists_congr fun row => and_congr_right fun hrow => and_congr_right fun _ => ?_
  constructor
  · rintro ⟨name, hname, hsub⟩
    obtain ⟨other, hother, rfl⟩ := hnames name hname
    obtain heq | ⟨heq, hsecond⟩ := eq_of_queried_infix hrow hother hsub
    · exact .inl (heq ▸ hname)
    · exact .inr ⟨heq, hsecond ▸ hname⟩
  · rintro (hname | ⟨heq, hname⟩)
    · exact ⟨_, hname, List.infix_rfl⟩
    · refine ⟨_, hname, ?_⟩
      rw [heq]
      decide

end HandedOut

end GpuProxy.Queries
