import Mathlib.Algebra.Group.Nat.Defs
import Mathlib.Algebra.Group.Int.Defs
import Mathlib.Logic.Function.Basic

/-!
# Pixel storage parameters

The parameters that `glPixelStorei` sets say how an image lies in the memory of the
application. The client keeps them, and forwards the two alignments only.

## Main definitions

* `PixelParameter`, `PixelStore` — the parameters, and values for them that are admitted
* `glPixelStorei` — `caching_client_glPixelStorei`

## Main results

* `value_glPixelStorei` — a value that is admitted is set, and nothing else
* `exists_calls` — calls of `glPixelStorei` lead to every store
-/

namespace GpuProxy.Textures

/-- The values of `pname` that `glPixelStorei` knows, which are fields of `egl_state_t`. -/
inductive PixelParameter
  | packAlignment
  | unpackAlignment
  | unpackRowLength
  | unpackSkipRows
  | unpackSkipPixels
  deriving DecidableEq, Repr

/-- `is_valid_PixelStoreAlignment`. -/
def isValidPixelStoreAlignment (param : ℤ) : Bool :=
  param = 1 ∨ param = 2 ∨ param = 4 ∨ param = 8

def PixelParameter.isAlignment : PixelParameter → Bool
  | .packAlignment | .unpackAlignment => true
  | .unpackRowLength | .unpackSkipRows | .unpackSkipPixels => false

/-- The values a parameter may have. -/
def PixelParameter.Admits (p : PixelParameter) (value : ℤ) : Prop :=
  0 ≤ value ∧ value < 2 ^ 31 ∧ (p.isAlignment = true → isValidPixelStoreAlignment value = true)

/-- Values for all parameters, each one it admits. -/
@[ext] structure PixelStore where
  value : PixelParameter → ℤ
  admits : ∀ p : PixelParameter, p.Admits (value p)

/-- A `GLint`. -/
abbrev GLint := { z : ℤ // -2 ^ 31 ≤ z ∧ z < 2 ^ 31 }

/-- The values of `egl_state_init`, and those in use without a current state. -/
def PixelStore.initial : PixelStore where
  value p := if p.isAlignment then 4 else 0
  admits p := by cases p <;> simp [PixelParameter.Admits, PixelParameter.isAlignment,
    isValidPixelStoreAlignment]

namespace PixelStore

variable {s : PixelStore} {p : PixelParameter} {value : ℤ}

/-- Setting a parameter to a value it admits. -/
def set (s : PixelStore) (p : PixelParameter) (value : ℤ) (h : p.Admits value) : PixelStore where
  value := Function.update s.value p value
  admits q := by
    by_cases hq : q = p
    · subst hq
      simpa using h
    · simpa [hq] using s.admits q

/-- `client_get_unpack_alignment`, and so on: the values as unsigned integers. -/
def unpackAlignment (s : PixelStore) : ℕ := (s.value .unpackAlignment).toNat
def unpackRowLength (s : PixelStore) : ℕ := (s.value .unpackRowLength).toNat
def unpackSkipRows (s : PixelStore) : ℕ := (s.value .unpackSkipRows).toNat
def unpackSkipPixels (s : PixelStore) : ℕ := (s.value .unpackSkipPixels).toNat

theorem unpackAlignment_mem (s : PixelStore) :
    s.unpackAlignment = 1 ∨ s.unpackAlignment = 2 ∨ s.unpackAlignment = 4 ∨
      s.unpackAlignment = 8 := by
  have h := (s.admits .unpackAlignment).2.2 rfl
  simp only [isValidPixelStoreAlignment, decide_eq_true_eq] at h
  unfold unpackAlignment
  omega

theorem toNat_value_lt (s : PixelStore) (p : PixelParameter) : (s.value p).toNat < 2 ^ 31 := by
  obtain ⟨hnonneg, hlt, -⟩ := s.admits p
  omega

end PixelStore

/-- What a call of `glPixelStorei` does: the parameters afterwards, whether it is an error
(`GL_INVALID_VALUE`), and whether the call is forwarded. -/
structure PixelStoreCall where
  store : PixelStore
  invalidValue : Bool
  forwarded : Bool

/-- `caching_client_glPixelStorei`, with `none` for a `pname` it does not know. -/
def glPixelStorei (s : PixelStore) (pname : Option PixelParameter) (param : GLint) :
    PixelStoreCall :=
  -- A value that is set already is neither checked nor forwarded.
  if pname.map s.value = some param.1 then ⟨s, false, false⟩
  else if halignment : isValidPixelStoreAlignment param = false ∧
      pname.any PixelParameter.isAlignment = true then ⟨s, true, false⟩
  else if hnegative : param.1 < 0 then ⟨s, true, false⟩
  else
    match pname with
    | none => ⟨s, true, false⟩
    | some p =>
      have hadmits : p.Admits param := by
        refine ⟨Int.not_lt.mp hnegative, param.2.2, fun hp => ?_⟩
        by_contra hvalid
        exact halignment ⟨by simpa using hvalid, by simpa using hp⟩
      -- The other parameters are for the client alone.
      ⟨s.set p param hadmits, false, p.isAlignment⟩

/-- All parameters, each with the value it has in a store. -/
def PixelStore.calls (s : PixelStore) : List (PixelParameter × GLint) :=
  [.packAlignment, .unpackAlignment, .unpackRowLength, .unpackSkipRows, .unpackSkipPixels].map
    fun p => (p, ⟨s.value p, by
      obtain ⟨hnonneg, hlt, -⟩ := s.admits p
      omega⟩)

variable {s : PixelStore} {p : PixelParameter} {param : GLint}

/-- A value that is admitted is set, and nothing else. -/
theorem value_glPixelStorei (h : p.Admits param) :
    (glPixelStorei s (some p) param).store.value = Function.update s.value p param := by
  obtain ⟨hnonneg, -, hvalid⟩ := h
  unfold glPixelStorei
  split
  next hsame =>
    have hvalue : s.value p = param := by simpa using hsame
    rw [← hvalue, Function.update_eq_self]
  next =>
    have halignment : ¬(isValidPixelStoreAlignment param = false ∧
        (some p).any PixelParameter.isAlignment = true) := by
      rintro ⟨hinvalid, hp⟩
      rw [hvalid (by simpa using hp)] at hinvalid
      cases hinvalid
    rw [dif_neg halignment, dif_neg (Int.not_lt.mpr hnonneg)]
    rfl

/-- A call that is an error changes nothing. -/
theorem store_glPixelStorei_of_invalidValue {pname : Option PixelParameter}
    (h : (glPixelStorei s pname param).invalidValue = true) :
    (glPixelStorei s pname param).store = s := by
  unfold glPixelStorei at h ⊢
  by_cases hsame : pname.map s.value = some param.1
  · rw [if_pos hsame]
  · rw [if_neg hsame] at h ⊢
    by_cases halignment : isValidPixelStoreAlignment param = false ∧
        pname.any PixelParameter.isAlignment = true
    · rw [dif_pos halignment]
    · rw [dif_neg halignment] at h ⊢
      by_cases hnegative : param.1 < 0
      · rw [dif_pos hnegative]
      · rw [dif_neg hnegative] at h ⊢
        cases pname with
        | none => rfl
        | some p => cases h

/-- Calls of `glPixelStorei` lead from the initial store to every other. -/
theorem exists_calls (t : PixelStore) : ∃ calls : List (PixelParameter × GLint),
    calls.foldl (fun s call => (glPixelStorei s (some call.1) call.2).store) .initial = t := by
  refine ⟨t.calls, PixelStore.ext ?_⟩
  simp only [PixelStore.calls, List.map_cons, List.map_nil, List.foldl_cons, List.foldl_nil]
  repeat rw [value_glPixelStorei (t.admits _)]
  funext p
  cases p <;> simp

end GpuProxy.Textures
