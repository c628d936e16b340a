import Mathlib.Data.List.Basic
import Mathlib.Logic.Function.Basic

/-!
# Memo tables

A memo table keeps the first answer to each key and gives it again whenever the key is asked
for. What a sequence of queries gets from it are the answers themselves if and only if no
answer differs from an earlier one to the same key.

A query is a key with the answer it would get without the table. There may be no answer, and
then nothing is kept.

## Main definitions

* `Memo.learn` — the table after a query
* `Memo.recalled` — what a sequence of queries gets
* `Memo.Steady` — no answer differs from an earlier one to the same key

## Main results

* `Memo.recalled_eq_iff` — when the table gives the answers themselves
-/

namespace GpuProxy.Math.Memo

variable {κ β : Type*} {m : κ → Option β} {query : κ × Option β}
  {queries : List (κ × Option β)} {k : κ}

/-- What a query gets: the answer in the table, or a new one. -/
def answer (m : κ → Option β) (query : κ × Option β) : Option β := (m query.1).or query.2

/-- No answer differs from an earlier one to the same key. -/
def Steady (queries : List (κ × Option β)) : Prop :=
  queries.Pairwise fun p q => p.1 = q.1 → ∀ b, p.2 = some b → q.2 = some b

theorem steady_cons : Steady (query :: queries) ↔
    (∀ q ∈ queries, query.1 = q.1 → ∀ b, query.2 = some b → q.2 = some b) ∧ Steady queries :=
  List.pairwise_cons

theorem answer_eq_iff : answer m query = query.2 ↔ ∀ b, m query.1 = some b → query.2 = some b := by
  unfold answer
  cases hm : m query.1 with
  | none => simp
  | some b =>
    rw [Option.some_or]
    exact ⟨fun h b' hb' => h ▸ hb', fun h => (h b rfl).symm⟩

variable [DecidableEq κ]

/-- The table after a query. -/
def learn (m : κ → Option β) (query : κ × Option β) : κ → Option β :=
  Function.update m query.1 (answer m query)

/-- What a sequence of queries gets. -/
def recalled (m : κ → Option β) : List (κ × Option β) → List (Option β)
  | [] => []
  | query :: queries => answer m query :: recalled (learn m query) queries

/-- The answers in a table that is learned from are those it had, and the new one. -/
theorem learn_eq_some_iff {b : β} : learn m query k = some b ↔
    m k = some b ∨ k = query.1 ∧ m k = none ∧ query.2 = some b := by
  unfold learn answer
  by_cases hk : k = query.1
  · subst hk
    cases hm : m query.1 <;> simp
  · simp [hk]

/-- The table gives the answers themselves if and only if they agree with what it has at first
and with each other. -/
theorem recalled_eq_iff : recalled m queries = queries.map Prod.snd ↔
    (∀ q ∈ queries, ∀ b, m q.1 = some b → q.2 = some b) ∧ Steady queries := by
  induction queries generalizing m with
  | nil => simp [recalled, Steady]
  | cons query queries ih =>
    rw [recalled, List.map_cons, List.cons.injEq, ih, answer_eq_iff, List.forall_mem_cons,
      steady_cons, and_assoc]
    refine and_congr_right fun hhead => ?_
    rw [← and_assoc]
    refine and_congr_left fun _ => ?_
    simp only [learn_eq_some_iff]
    constructor
    · intro h
      refine ⟨fun q hq b hb => h q hq b (.inl hb), fun q hq hkey b hb => ?_⟩
      cases hm : m q.1 with
      | none => exact h q hq b (.inr ⟨hkey.symm, hm, hb⟩)
      | some b' =>
        -- The table had an answer to the key, which both queries agree with.
        have hfirst : query.2 = some b' := hhead b' (hkey ▸ hm)
        rw [h q hq b' (.inl hm), ← hfirst, hb]
    · rintro ⟨hold, hnew⟩ q hq b (hb | ⟨hkey, -, hb⟩)
      · exact hold q hq b hb
      · exact hnew q hq hkey.symm b hb

end GpuProxy.Math.Memo
