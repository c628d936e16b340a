import Mathlib.Data.List.Basic

/-!
# Words in a text

A text with separators in it is the sequence of the words between them, as `List.splitOn` reads
them. What has no separator in it is a part of the text when it is a part of a word.

## Main results

* `infix_iff_splitOn` — parts of a text without separators are parts of its words
-/

namespace GpuProxy.Math

variable {α : Type*} {sep : α} {part text xs ys : List α} {words : List (List α)}

/-- A prefix of what starts with a separator is empty, if it has no separator in it. -/
theorem eq_nil_of_prefix_sep (hsep : sep ∉ part) (h : part <+: sep :: ys) : part = [] := by
  cases part with
  | nil => rfl
  | cons x part =>
    obtain ⟨rfl, -⟩ := List.cons_prefix_cons.mp h
    exact absurd List.mem_cons_self hsep

/-- A part without separators is on one side of each. -/
theorem infix_append_sep_iff (hsep : sep ∉ part) :
    part <:+: xs ++ sep :: ys ↔ part <:+: xs ∨ part <:+: ys := by
  constructor
  · intro h
    obtain h | h | ⟨front, back, rfl, hfront, hback⟩ := List.infix_append_iff.mp h
    · exact .inl h
    · obtain h | h := List.infix_cons_iff.mp h
      · rw [eq_nil_of_prefix_sep hsep h]
        exact .inl List.nil_infix
      · exact .inr h
    · have hnil := eq_nil_of_prefix_sep (fun h => hsep (List.mem_append_right _ h)) hback
      rw [hnil, List.append_nil]
      exact .inl hfront.isInfix
  · rintro (h | h)
    · exact List.infix_append_of_infix_left h
    · exact List.infix_append_of_infix_right (List.infix_cons h)

theorem infix_intercalate_iff (hsep : sep ∉ part) (hwords : words ≠ []) :
    part <:+: [sep].intercalate words ↔ ∃ word ∈ words, part <:+: word := by
  induction words with
  | nil => exact absurd rfl hwords
  | cons word words ih =>
    cases words with
    | nil => simp
    | cons word' words =>
      rw [List.intercalate_cons_cons, List.append_assoc, List.singleton_append,
        infix_append_sep_iff hsep, ih (List.cons_ne_nil _ _)]
      exact (List.exists_mem_cons_iff _ _ _).symm

/-- A part without separators is a part of a word. -/
theorem infix_iff_splitOn [BEq α] [LawfulBEq α] (hsep : sep ∉ part) :
    part <:+: text ↔ ∃ word ∈ text.splitOn sep, part <:+: word := by
  rw [← infix_intercalate_iff hsep (List.splitOn_ne_nil sep text), List.intercalate_splitOn]

end GpuProxy.Math
