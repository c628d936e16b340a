import GpuProxy.GlState.Entry
import GpuProxy.Math.TransitionSystem

/-!
# The errors of the client and of the server

An error is recorded on the client when an entry point refuses a call, and in the server
when the driver does. `glGetError` asks the server only if a call was passed on that can
raise an error there, and then forgets what the client has recorded. Here is when no error
is lost.

## Main definitions

* `Errors` — the two places an error is recorded in
* `Reports` — one `glGetError`, and those after it, report what is pending
* `ErrorHistory`, `NoneLost` — what was recorded and not reported
* `Unmerged` — the calls of `glGetError` that have one error to report

## Main results

* `reports_iff` — one call
* `noneLost_of_unmerged` — whole runs
-/

namespace GpuProxy.GlState

open Math

def glNoError : ℕ := 0

/-! ### Recording errors -/

/-- Where an error is recorded. -/
inductive Source
  | client
  | server
  deriving DecidableEq, Repr

/-- The fields of `egl_state_t` that concern errors, with the error flag of the server. -/
structure Errors where
  active : Bool
  error : ℕ
  needGetError : Bool
  server : ℕ
  deriving DecidableEq, Repr

namespace Errors

/-- A context that was made and is current. -/
def init : Errors := ⟨true, glNoError, false, glNoError⟩

variable (c : Errors)

/-- The error that is pending. -/
def pending : Source → ℕ
  | .client => c.error
  | .server => c.server

/-- `caching_client_glSetError`. -/
def glSetError (error : ℕ) : Errors :=
  if c.active ∧ c.error = glNoError then { c with error := error } else c

/-- `caching_client_set_needs_get_error`. -/
def setNeedsGetError : Errors := { c with needGetError := true }

/-- `caching_client_reset_set_needs_get_error`. -/
def resetSetNeedsGetError : Errors := { c with needGetError := false }

/-- A function of the base client, with the error that the server raises. It is recorded
there if no other one is. -/
def dispatch (generatesErrors : Bool) (raised : ℕ) : Errors :=
  let c := if generatesErrors then c.setNeedsGetError else c
  if c.server = glNoError then { c with server := raised } else c

/-- `glGetError` of the server. -/
def serverGetError : ℕ × Errors := (c.server, { c with server := glNoError })

/-- `caching_client_glGetError`. -/
def glGetError : ℕ × Errors :=
  if ¬ c.needGetError then (c.error, { c with error := glNoError })
  else
    let (error, c) := c.serverGetError
    (error, { c.resetSetNeedsGetError with error := glNoError })

/-- The state after some calls of `glGetError`. -/
def afterGetErrors : ℕ → Errors
  | 0 => c
  | n + 1 => (afterGetErrors n).glGetError.2

/-- What the calls return, by their number. -/
def returned (n : ℕ) : ℕ := (c.afterGetErrors n).glGetError.1

/-- The error of the client is returned or stays pending, and so is that of the server if it
is asked for; and calling `glGetError` until it returns no error reports both. -/
structure Reports : Prop where
  client : c.error ≠ glNoError → c.glGetError.1 = c.error ∨ c.glGetError.2.error = c.error
  server : c.needGetError → c.server ≠ glNoError →
    c.glGetError.1 = c.server ∨ c.glGetError.2.server = c.server
  all : ∀ n, (∀ i < n, c.returned i ≠ glNoError) → c.returned n = glNoError →
    (c.error ≠ glNoError → ∃ i < n, c.returned i = c.error) ∧
      (c.needGetError → c.server ≠ glNoError → ∃ i < n, c.returned i = c.server)

/-- There is one error to report, or the same twice. -/
def HasOne : Prop := c.error = glNoError ∨ c.needGetError = false ∨ c.server = c.error

instance : Decidable c.HasOne := inferInstanceAs (Decidable (_ ∨ _))

end Errors

/-- What a call of the client does about errors. -/
inductive ErrorEvent
  | glSetError (error : ℕ)
  | setNeedsGetError
  | dispatch (generatesErrors : Bool) (raised : ℕ)
  | glGetError
  deriving DecidableEq, Repr

/-- The errors, with those that were recorded and not reported. -/
structure ErrorHistory where
  errors : Errors
  outstanding : List (Source × ℕ)
  deriving DecidableEq, Repr

namespace ErrorHistory

variable (h : ErrorHistory)

/-- Errors may be recorded. -/
def record (c : Errors) : ErrorHistory where
  errors := c
  outstanding := h.outstanding ++
    ([Source.client, Source.server].filter fun source =>
      h.errors.pending source = glNoError ∧ c.pending source ≠ glNoError).map
        fun source => (source, c.pending source)

/-- An error is returned. What has that value and is not pending was reported. -/
def report (error : ℕ) (c : Errors) : ErrorHistory where
  errors := c
  outstanding := h.outstanding.filter fun p => p.2 ≠ error ∨ c.pending p.1 = p.2

def step : ErrorEvent → ErrorHistory
  | .glSetError error => h.record (h.errors.glSetError error)
  | .setNeedsGetError => h.record h.errors.setNeedsGetError
  | .dispatch generatesErrors raised => h.record (h.errors.dispatch generatesErrors raised)
  | .glGetError => h.report h.errors.glGetError.1 h.errors.glGetError.2

/-- Every error that was not reported is still pending. -/
def NoneLost : Prop := ∀ p ∈ h.outstanding, h.errors.pending p.1 = p.2

/-- Every call of `glGetError` has one error to report. -/
def Unmerged : ErrorEvent → Prop
  | .glGetError => h.errors.HasOne
  | _ => True

end ErrorHistory

/-- All runs of one context that is current. -/
def errorSystem : System ErrorHistory ErrorEvent :=
  System.ofStep (· = ⟨.init, []⟩) fun h event => some (h.step event)

variable {c c' : Errors} {h : ErrorHistory} {event : ErrorEvent} {n : ℕ}

/-! ### One call of `glGetError` -/

theorem glGetError_eq : c.glGetError =
    if c.needGetError then (c.server, ⟨c.active, glNoError, false, glNoError⟩)
    else (c.error, ⟨c.active, glNoError, c.needGetError, c.server⟩) := by
  obtain ⟨active, error, needGetError, server⟩ := c
  cases needGetError <;> rfl

/-- One call reports what is pending if and only if there is one error to report. -/
theorem reports_iff : c.Reports ↔ c.HasOne := by
  have hzero : c.returned 0 = c.glGetError.1 := rfl
  constructor
  · intro hreports
    unfold Errors.HasOne
    by_cases herror : c.error = glNoError
    · exact .inl herror
    cases hneed : c.needGetError with
    | false => exact .inr (.inl rfl)
    | true =>
      -- The error of the client is forgotten, so that it must be returned.
      have hclient := hreports.client herror
      rw [glGetError_eq, hneed] at hclient
      exact .inr (.inr (hclient.resolve_right (Ne.symm herror)))
  · intro hone
    have hclient : c.error ≠ glNoError → c.glGetError.1 = c.error := by
      intro herror
      rw [glGetError_eq]
      split_ifs with hneed
      · rcases hone with hnone | hfalse | hsame
        · exact absurd hnone herror
        · rw [hneed] at hfalse
          cases hfalse
        · exact hsame
      · rfl
    have hserver : c.needGetError → c.glGetError.1 = c.server := by
      intro hneed
      rw [glGetError_eq, if_pos hneed]
    refine ⟨fun herror => .inl (hclient herror), fun hneed _ => .inl (hserver hneed),
      fun n _ hlast => ⟨fun herror => ⟨0, ?_, hclient herror⟩, fun hneed hpending =>
        ⟨0, ?_, hserver hneed⟩⟩⟩
    · refine Nat.pos_of_ne_zero ?_
      rintro rfl
      exact herror ((hclient herror).symm.trans hlast)
    · refine Nat.pos_of_ne_zero ?_
      rintro rfl
      exact hpending ((hserver hneed).symm.trans hlast)

/-! ### Whole runs -/

/-- What is pending is known, and nothing else is that was not reported. -/
structure Tracks (h : ErrorHistory) : Prop where
  ne_zero : ∀ p ∈ h.outstanding, p.2 ≠ glNoError
  mem : ∀ source, h.errors.pending source ≠ glNoError →
    (source, h.errors.pending source) ∈ h.outstanding

/-- Errors are recorded, and those that are pending stay so. -/
theorem Tracks.record (hs : Tracks h)
    (hkeep : ∀ source, h.errors.pending source ≠ glNoError →
      c.pending source = h.errors.pending source) :
    Tracks (h.record c) ∧ (h.NoneLost → (h.record c).NoneLost) := by
  have hmem : ∀ p, p ∈ (h.record c).outstanding ↔ p ∈ h.outstanding ∨
      h.errors.pending p.1 = glNoError ∧ c.pending p.1 ≠ glNoError ∧ c.pending p.1 = p.2 := by
    rintro ⟨source, error⟩
    simp only [ErrorHistory.record, List.mem_append, List.mem_map, List.mem_filter,
      decide_eq_true_eq, Prod.mk.injEq]
    refine or_congr Iff.rfl ⟨?_, ?_⟩
    · rintro ⟨_, ⟨-, hold, hnew⟩, rfl, herror⟩
      exact ⟨hold, hnew, herror⟩
    · rintro ⟨hold, hnew, herror⟩
      exact ⟨source, ⟨by cases source <;> simp, hold, hnew⟩, rfl, herror⟩
  refine ⟨⟨fun p hp => ?_, fun source hpending => (hmem _).mpr ?_⟩, fun hlost p hp => ?_⟩
  · rcases (hmem p).mp hp with hold | ⟨-, hnew, herror⟩
    · exact hs.ne_zero p hold
    · exact herror ▸ hnew
  · change c.pending source ≠ glNoError at hpending
    by_cases hold : h.errors.pending source = glNoError
    · exact .inr ⟨hold, hpending, rfl⟩
    · left
      change (source, c.pending source) ∈ h.outstanding
      rw [hkeep source hold]
      exact hs.mem source hold
  · change c.pending p.1 = p.2
    rcases (hmem p).mp hp with hold | ⟨-, -, herror⟩
    · have hpending := hlost p hold
      rw [hkeep p.1 (hpending ▸ hs.ne_zero p hold), hpending]
    · exact herror

/-- `glGetError` loses nothing if and only if it has one error to report. -/
theorem Tracks.report (hs : Tracks h) (hlost : h.NoneLost) :
    Tracks (h.step .glGetError) ∧ ((h.step .glGetError).NoneLost ↔ h.errors.HasOne) := by
  obtain ⟨⟨active, error, needGetError, server⟩, outstanding⟩ := h
  have hne : ∀ p ∈ outstanding, p.2 ≠ glNoError := hs.ne_zero
  have hpending : ∀ p ∈ outstanding,
      (Errors.mk active error needGetError server).pending p.1 = p.2 := hlost
  cases needGetError with
  | false =>
    -- The error of the client is returned, and that of the server stays where it is.
    have hmem : ∀ p ∈ (ErrorHistory.step ⟨⟨active, error, false, server⟩, outstanding⟩
        .glGetError).outstanding, p ∈ outstanding ∧ p.1 = .server ∧ server = p.2 := by
      intro p hp
      obtain ⟨hp, hkept⟩ := List.mem_filter.mp hp
      obtain ⟨source, value⟩ := p
      have hvalue := hpending _ hp
      cases source with
      | server => exact ⟨hp, rfl, hvalue⟩
      | client =>
        rcases of_decide_eq_true hkept with hdiffers | hzero
        · exact absurd hvalue.symm hdiffers
        · exact absurd hzero.symm (hne _ hp)
    refine ⟨⟨fun p hp => hne p (hmem p hp).1, fun source hsource => ?_⟩,
      iff_of_true (fun p hp => ?_) (.inr (.inl rfl))⟩
    · cases source with
      | client => exact absurd rfl hsource
      | server => exact List.mem_filter.mpr ⟨hs.mem .server hsource, decide_eq_true (.inr rfl)⟩
    · obtain ⟨-, hsource, hvalue⟩ := hmem p hp
      rw [hsource]
      exact hvalue
  | true =>
    -- Nothing is pending any more, and what does not have the error of the server is lost.
    have hmem : ∀ p, p ∈ (ErrorHistory.step ⟨⟨active, error, true, server⟩, outstanding⟩
        .glGetError).outstanding ↔ p ∈ outstanding ∧ p.2 ≠ server := by
      intro p
      refine List.mem_filter.trans (and_congr_right fun hp => ?_)
      have hcleared : (Errors.mk active error true server).glGetError.2.pending p.1 ≠ p.2 := by
        obtain ⟨source, value⟩ := p
        cases source <;> exact Ne.symm (hne _ hp)
      rw [decide_eq_true_iff, or_iff_left hcleared]
      rfl
    refine ⟨⟨fun p hp => hne p ((hmem p).mp hp).1, fun source hsource => ?_⟩, ?_, ?_⟩
    · cases source <;> exact absurd rfl hsource
    · intro hnone
      by_cases herror : error = glNoError
      · exact .inl herror
      · right
        right
        by_contra hdiffers
        have hout := (hmem (.client, error)).mpr ⟨hs.mem .client herror, Ne.symm hdiffers⟩
        exact herror (hnone _ hout).symm
    · rintro hone ⟨source, value⟩ hp
      obtain ⟨hout, hdiffers⟩ := (hmem _).mp hp
      have hvalue := hpending _ hout
      cases source with
      | server => exact absurd hvalue.symm hdiffers
      | client =>
        rcases hone with hnone | hfalse | hsame
        · exact absurd (hvalue.symm.trans hnone) (hne _ hout)
        · cases hfalse
        · exact absurd (hvalue.symm.trans hsame.symm) hdiffers

/-- One event. -/
theorem Tracks.step (hs : Tracks h) (hlost : h.NoneLost) :
    Tracks (h.step event) ∧ ((h.step event).NoneLost ↔ h.Unmerged event) := by
  cases event with
  | glGetError => exact hs.report hlost
  | glSetError error =>
    obtain ⟨htracks, hkept⟩ := hs.record (c := h.errors.glSetError error) fun source hpending => by
      unfold Errors.glSetError
      cases source with
      | client => rw [if_neg fun hactive => hpending hactive.2]
      | server => split_ifs <;> rfl
    exact ⟨htracks, iff_of_true (hkept hlost) trivial⟩
  | setNeedsGetError =>
    obtain ⟨htracks, hkept⟩ := hs.record (c := h.errors.setNeedsGetError) fun source _ => by
      cases source <;> rfl
    exact ⟨htracks, iff_of_true (hkept hlost) trivial⟩
  | dispatch generatesErrors raised =>
    obtain ⟨htracks, hkept⟩ := hs.record (c := h.errors.dispatch generatesErrors raised)
      fun source hpending => by
        obtain ⟨⟨active, error, needGetError, server⟩, outstanding⟩ := h
        cases source with
        | client => cases generatesErrors <;> simp only [Errors.dispatch] <;> split_ifs <;> rfl
        | server =>
          have hserver : server ≠ glNoError := hpending
          cases generatesErrors <;>
            simp [Errors.dispatch, Errors.setNeedsGetError, Errors.pending, hserver]
    exact ⟨htracks, iff_of_true (hkept hlost) trivial⟩

/-- As long as every call of `glGetError` has one error to report, no error is lost. The
first call that has two loses one. -/
theorem noneLost_of_unmerged (h₀ : (errorSystem.guarded ErrorHistory.Unmerged).Reachable h) :
    h.NoneLost ∧ (h.errors.Reports ↔ h.Unmerged .glGetError) ∧
      ∀ event, (h.step event).NoneLost ↔ h.Unmerged event := by
  have hboth : Tracks h ∧ h.NoneLost := by
    refine System.Invariant.holds (I := fun h => Tracks h ∧ h.NoneLost) ⟨?_, ?_⟩ h₀
    · rintro _ rfl
      refine ⟨⟨fun p hp => (by cases hp), fun source hsource => ?_⟩, fun p hp => (by cases hp)⟩
      cases source <;> exact absurd rfl hsource
    · rintro h event _ - ⟨hs, hlost⟩ ⟨hunmerged, hstep⟩
      cases hstep
      obtain ⟨htracks, hiff⟩ := hs.step hlost
      exact ⟨htracks, hiff.mpr hunmerged⟩
  exact ⟨hboth.2, reports_iff, fun event => (hboth.1.step hboth.2).2⟩

/-- An error of the client is reported, and then one of the server. -/
theorem noneLost_reported_in_turn :
    ErrorHistory.NoneLost
      ⟨⟨true, glNoError, true, glInvalidValue⟩, [(.server, glInvalidValue)]⟩ := by
  have hreach : (errorSystem.guarded ErrorHistory.Unmerged).Reachable
      ⟨⟨true, glNoError, true, glInvalidValue⟩, [(.server, glInvalidValue)]⟩ := by
    refine .step (a := .dispatch true glInvalidValue) (.step (a := .glGetError)
      (.step (a := .glSetError glInvalidEnum) (.init rfl) ⟨trivial, rfl⟩)
      ⟨.inr (.inl rfl), rfl⟩) ⟨trivial, rfl⟩
  exact (noneLost_of_unmerged hreach).1

/-- An error of the client is forgotten when the server, which has none, is asked. -/
theorem exists_lost_error : ∃ h, errorSystem.Reachable h ∧ ¬ h.errors.Reports ∧
    ¬ (h.step .glGetError).NoneLost := by
  have hreach : errorSystem.Reachable
      ⟨⟨true, glInvalidEnum, true, glNoError⟩, [(.client, glInvalidEnum)]⟩ :=
    .step (a := .dispatch true glNoError) (.step (a := .glSetError glInvalidEnum) (.init rfl) rfl)
      rfl
  refine ⟨_, hreach, fun hreports => ?_, fun hnone => ?_⟩
  · exact absurd (hreports.client (by decide)) (by decide)
  · exact absurd (hnone (.client, glInvalidEnum) (by decide)) (by decide)

end GpuProxy.GlState
