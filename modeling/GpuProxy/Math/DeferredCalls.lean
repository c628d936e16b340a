import GpuProxy.Math.TransitionSystem

/-!
# Calls that are executed later

A client makes calls of a server through a queue. A call is packed where it is made, and the
server executes the packages in turn while the client goes on. After some calls the client
waits until they were executed.

When the package of a call that nobody waits for has all that its execution will need, and the
execution changes nothing of the client's, then neither side can tell this from calls that are
executed where they are made.

## Main definitions

* `Remote` — calls, how they are packed and what the execution of a package does
* `Remote.system` — a client and a server that take turns at will
* `Remote.directSystem` — calls that are executed where they are made
* `Remote.Faithful` — packages have what they need

## Main results

* `Faithful.refines` — a run with a queue is one without it
* `eq_foldl_of_run` — without a queue, the actions say where a run ends
* `Faithful.foldl_act` — so do they with a queue, for a client that does not wait
-/

namespace GpuProxy.Math

/-- Calls of a server. `M` is what belongs to the client, and `D` what belongs to the server. The
client has actions `A` of its own. -/
structure Remote (M D A C P : Type*) where
  /-- What an action of the client does. -/
  own : A → M → M
  /-- The client waits for the execution of the call. -/
  sync : C → Bool
  /-- The call may be made. -/
  Valid : C → M → Prop
  /-- What the call does where it is made. -/
  direct : C → M × D → M × D
  /-- What the call may be packed to. -/
  Packs : C → M → P → Prop
  /-- What the execution of a package does. -/
  exec : P → M × D → M × D

namespace Remote

variable {M D A C P : Type*}

/-- The client does something of its own, or makes a call. -/
inductive Action (A C : Type*)
  | own (a : A)
  | call (c : C)

/-- The client acts, or the server executes a package. -/
inductive Event (A C : Type*)
  | client (action : Action A C)
  | serve

/-- What the server does is not seen. -/
def Event.action? : Event A C → Option (Action A C)
  | .client action => some action
  | .serve => none

/-- A client and a server, with the packages between them. -/
structure State (M D P : Type*) where
  memory : M
  server : D
  pending : List P
  waiting : Bool

variable (R : Remote M D A C P)

/-- A client that makes calls, and waits for one at a time, and a server that executes them. -/
def system : System (State M D P) (Event A C) where
  Init s := s.pending = [] ∧ s.waiting = false
  Step
    | s, .client (.own a), t => s.waiting = false ∧ t = { s with memory := R.own a s.memory }
    | s, .client (.call c), t => s.waiting = false ∧ R.Valid c s.memory ∧
        ∃ p, R.Packs c s.memory p ∧
          t = { s with pending := s.pending ++ [p], waiting := R.sync c }
    | s, .serve, t => ∃ p rest, s.pending = p :: rest ∧
        t = { memory := (R.exec p (s.memory, s.server)).1
              server := (R.exec p (s.memory, s.server)).2
              pending := rest
              waiting := s.waiting && !rest.isEmpty }

/-- The effect of an action of the client, if calls are executed where they are made. -/
def act (w : M × D) : Action A C → M × D
  | .own a => (R.own a w.1, w.2)
  | .call c => R.direct c w

/-- The same client, with calls that are executed where they are made. -/
def directSystem : System (M × D) (Action A C) where
  Init _ := True
  Step w action w' := (∀ c, action = .call c → R.Valid c w.1) ∧ w' = R.act w action

/-- The execution of a package neither reads nor changes what belongs to the client. -/
def Inert (p : P) : Prop :=
  ∀ m m' d, (R.exec p (m, d)).1 = m ∧ (R.exec p (m, d)).2 = (R.exec p (m', d)).2

/-- The package of a call does what the call would have done where it was made, later if nobody
waits for it, and at once if somebody does. -/
structure Faithful : Prop where
  inert : ∀ c m p, R.Valid c m → R.Packs c m p → R.sync c = false → R.Inert p
  exec_eq : ∀ c m p d, R.Valid c m → R.Packs c m p → R.exec p (m, d) = R.direct c (m, d)

variable {R}

/-- Without a queue, a run ends where its actions lead to. -/
theorem eq_foldl_of_run {w w' : M × D} {actions : List (Action A C)}
    (h : R.directSystem.Run w actions w') : w' = actions.foldl R.act w := by
  induction h with
  | nil => rfl
  | step _ hstep ih =>
    rw [hstep.2, ih, List.foldl_append, List.foldl_cons, List.foldl_nil]

/-- What there will be when all that is pending was executed. -/
def settled (R : Remote M D A C P) (s : State M D P) : M × D :=
  s.pending.foldl (fun w p => R.exec p w) (s.memory, s.server)

theorem settled_of_pending {s : State M D P} (h : s.pending = []) :
    R.settled s = (s.memory, s.server) := by
  rw [settled, h, List.foldl_nil]

/-- What a client that does not wait has pending, it needs not know of. -/
structure Waits (R : Remote M D A C P) (s : State M D P) : Prop where
  inert : s.waiting = false → ∀ p ∈ s.pending, R.Inert p
  last : s.waiting = true → ∃ before p, s.pending = before ++ [p] ∧ ∀ q ∈ before, R.Inert q

theorem foldl_exec_of_inert {ps : List P} (h : ∀ p ∈ ps, R.Inert p) (m m' : M) (d : D) :
    (ps.foldl (fun w p => R.exec p w) (m, d)).1 = m ∧
      (ps.foldl (fun w p => R.exec p w) (m, d)).2 =
        (ps.foldl (fun w p => R.exec p w) (m', d)).2 := by
  induction ps generalizing d with
  | nil => exact ⟨rfl, rfl⟩
  | cons p ps ih =>
    have hp := h p List.mem_cons_self
    have hps : ∀ q ∈ ps, R.Inert q := fun q hq => h q (List.mem_cons_of_mem _ hq)
    have hm : R.exec p (m, d) = (m, (R.exec p (m, d)).2) := Prod.ext (hp m m' d).1 rfl
    have hm' : R.exec p (m', d) = (m', (R.exec p (m, d)).2) :=
      Prod.ext (hp m' m d).1 (hp m m' d).2.symm
    rw [List.foldl_cons, List.foldl_cons, hm, hm']
    exact ih hps _

namespace Waits

variable {s : State M D P}

/-- A client that does not wait finds its memory as direct calls would have left it. -/
theorem settled_fst (h : R.Waits s) (hwaiting : s.waiting = false) :
    (R.settled s).1 = s.memory :=
  (foldl_exec_of_inert (h.inert hwaiting) s.memory s.memory s.server).1

theorem settled_own (h : R.Waits s) (hwaiting : s.waiting = false) (memory : M) :
    R.settled { s with memory := memory } = (memory, (R.settled s).2) :=
  Prod.ext (foldl_exec_of_inert (h.inert hwaiting) memory memory s.server).1
    (foldl_exec_of_inert (h.inert hwaiting) memory s.memory s.server).2

end Waits

theorem waits_invariant (hR : R.Faithful) : R.system.Invariant R.Waits where
  init s hs := by
    obtain ⟨hpending, hwaiting⟩ := hs
    exact ⟨by simp [hpending], by simp [hwaiting]⟩
  step := by
    intro s event t _ h hstep
    match event with
    | .client (.own a) =>
      obtain ⟨hwaiting, rfl⟩ := hstep
      exact ⟨h.inert, h.last⟩
    | .client (.call c) =>
      obtain ⟨hwaiting, hvalid, p, hpacks, rfl⟩ := hstep
      have hinert := h.inert hwaiting
      constructor
      · intro hsync q hq
        obtain hq | hq := List.mem_append.mp hq
        · exact hinert q hq
        · rw [List.mem_singleton.mp hq]
          exact hR.inert c _ p hvalid hpacks hsync
      · exact fun _ => ⟨s.pending, p, rfl, hinert⟩
    | .serve =>
      obtain ⟨p, rest, hpending, rfl⟩ := hstep
      constructor
      · intro hwaiting q hq
        have hrest : rest ≠ [] := List.ne_nil_of_mem hq
        have hwaiting : s.waiting = false := by simpa [hrest] using hwaiting
        exact h.inert hwaiting q (hpending ▸ List.mem_cons_of_mem _ hq)
      · intro hwaiting
        simp only [Bool.and_eq_true, Bool.not_eq_true', List.isEmpty_eq_false_iff] at hwaiting
        obtain ⟨before, q, heq, hbefore⟩ := h.last hwaiting.1
        rw [hpending] at heq
        cases before with
        | nil => exact absurd (List.cons.inj heq).2 hwaiting.2
        | cons p' before =>
          obtain ⟨-, hrest⟩ := List.cons.inj heq
          exact ⟨before, q, hrest, fun q' hq' => hbefore q' (List.mem_cons_of_mem _ hq')⟩

/-- What the client does is done at once, a call takes effect where it is made, and its
execution is not seen. -/
theorem Faithful.refines (hR : R.Faithful) :
    R.system.Refines R.directSystem R.settled Event.action? where
  init _ _ := trivial
  skip := by
    intro s event t _ hstep hskip
    cases event with
    | client => cases hskip
    | serve =>
      obtain ⟨p, rest, hpending, rfl⟩ := hstep
      rw [settled, settled, hpending, List.foldl_cons]
  step := by
    intro s event t action hs hstep haction
    have hwaits := (waits_invariant hR).holds hs
    match event with
    | .client (.own a) =>
      obtain rfl := Option.some.inj haction
      obtain ⟨hwaiting, rfl⟩ := hstep
      refine ⟨nofun, ?_⟩
      rw [hwaits.settled_own hwaiting, ← hwaits.settled_fst hwaiting]
      rfl
    | .client (.call c) =>
      obtain rfl := Option.some.inj haction
      obtain ⟨hwaiting, hvalid, p, hpacks, rfl⟩ := hstep
      have hmemory := hwaits.settled_fst hwaiting
      have hsettled : R.settled s = (s.memory, (R.settled s).2) := Prod.ext hmemory rfl
      constructor
      · intro c' hc'
        obtain rfl := Action.call.inj hc'
        rwa [hmemory]
      · calc R.settled { s with pending := s.pending ++ [p], waiting := R.sync c }
            = R.exec p (R.settled s) := by
              rw [settled, List.foldl_append]
              rfl
          _ = R.direct c (R.settled s) := by
              rw [hsettled]
              exact hR.exec_eq c _ p _ hvalid hpacks

/-- A system that is a client and a server with a queue: where the client does not wait, its memory
is what direct calls would have left it. -/
theorem Faithful.foldl_act (hR : R.Faithful) {σ α : Type*} {S : System σ α} {s t : σ}
    {f : σ → State M D P} {g : α → Option (Event A C)} (hS : S.Refines R.system f g)
    (hs : S.Init s) {labels : List α} (hrun : S.Run s labels t)
    (hwaiting : (f t).waiting = false) :
    ((labels.filterMap g).filterMap Event.action?).foldl R.act ((f s).memory, (f s).server) =
      ((f t).memory, (R.settled (f t)).2) := by
  have hreach : S.Reachable s := .init hs
  have hdirect := eq_foldl_of_run ((hS.trans hR.refines).run hreach hrun)
  have hwaits := (waits_invariant hR).holds (hS.reachable (hrun.reachable hreach))
  rw [← settled_of_pending (hS.init s hs).1, List.filterMap_filterMap]
  exact hdirect.symm.trans (Prod.ext (hwaits.settled_fst hwaiting) rfl)

end Remote

end GpuProxy.Math
