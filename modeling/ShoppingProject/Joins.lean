import Mathlib.Tactic.Common

/-!
# Words joined with a separator

A word that contains the separator cannot be told from several words. Two lists of words
are joined to the same text exactly if, cut at every separator, they are the same.
-/
namespace Joins

variable {α : Type} [BEq α] [LawfulBEq α] (x : α)

/-- The words cut at every separator, in one list. -/
def pieces (words : List (List α)) : List (List α) := words.flatMap (List.splitOn x ·)

theorem splitOn_join {words : List (List α)} (h : words ≠ []) :
    ([x].intercalate words).splitOn x = pieces x words := by
  induction words with
  | nil => exact absurd rfl h
  | cons word words ih =>
    cases words with
    | nil => simp [pieces]
    | cons next words =>
      have hwords := ih (List.cons_ne_nil next words)
      rw [List.intercalate_cons_cons, List.append_assoc, List.singleton_append,
        List.splitOn_append_cons_self, hwords]
      rfl

theorem splitOn_injective : Function.Injective (List.splitOn x · : List α → List (List α)) := by
  intro text other h
  have hjoined := congrArg [x].intercalate h
  simpa only [List.intercalate_splitOn] using hjoined

/-- When two lists of words are joined to the same text. -/
theorem join_eq_iff {words others : List (List α)} (h : words ≠ []) (h' : others ≠ []) :
    [x].intercalate words = [x].intercalate others ↔ pieces x words = pieces x others := by
  rw [← splitOn_join x h, ← splitOn_join x h']
  exact (splitOn_injective x).eq_iff.symm

/-- Words without the separator are their own pieces. -/
theorem pieces_free {words : List (List α)} (h : ∀ word ∈ words, x ∉ word) :
    pieces x words = words := by
  induction words with
  | nil => rfl
  | cons word words ih =>
    obtain ⟨hword, hwords⟩ := List.forall_mem_cons.mp h
    rw [pieces, List.flatMap_cons, List.splitOn_eq_singleton hword, List.singleton_append]
    exact congrArg (word :: ·) (ih hwords)

end Joins
