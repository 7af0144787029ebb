import Mathlib.Data.List.DropRight
import Mathlib.Tactic.Common

/-!
# Texts cut at every occurrence of a word

A text that consists of pieces with a mark before each, where the mark occurs nowhere else, is
cut at a word that begins with the mark just before those pieces that go on as the word does.
-/
namespace Splits

variable {α : Type}

/-- A text before the first piece. -/
def glue (text : List α) : List (List α) → List (List α)
  | [] => [text]
  | piece :: pieces => (text ++ piece) :: pieces

theorem glue_nil {pieces : List (List α)} (h : pieces ≠ []) : glue [] pieces = pieces := by
  cases pieces with
  | nil => exact absurd rfl h
  | cons piece pieces => rfl

theorem glue_append (a b : List α) (pieces : List (List α)) :
    glue (a ++ b) pieces = glue a (glue b pieces) := by
  cases pieces with
  | nil => rfl
  | cons piece pieces => simp [glue]

variable {mark : α} {word : List α}

/-- The pieces with the mark before each. -/
def marked (mark : α) (pieces : List (List α)) : List α := pieces.flatMap (mark :: ·)

/-- Before the next mark a word without the mark can only begin a piece. -/
theorem prefix_marked_iff {piece : List α} {pieces : List (List α)} (hword : mark ∉ word) :
    word <+: piece ++ marked mark pieces ↔ word <+: piece := by
  constructor
  · intro h
    rcases List.prefix_or_prefix_of_prefix h (List.prefix_append piece _) with h' | ⟨rest, rfl⟩
    · exact h'
    · cases rest with
      | nil => simp
      | cons c rest =>
        cases pieces with
        | nil => simpa [marked] using h
        | cons next pieces =>
          have hrest : c :: rest <+: mark :: (next ++ marked mark pieces) :=
            (List.prefix_append_right_inj piece).mp h
          obtain rfl := (List.cons_prefix_cons.mp hrest).1
          exact absurd (List.mem_append_right piece List.mem_cons_self) hword
  · exact fun h => h.trans (List.prefix_append piece _)

variable [DecidableEq α]

/-- The pieces between the occurrences of a word, which is not empty. -/
def split (word : List α) : List α → List (List α)
  | [] => [[]]
  | c :: text =>
    if word <+: c :: text then [] :: split word (text.drop (word.length - 1))
    else glue [c] (split word text)
termination_by text => text.length
decreasing_by
  · exact Nat.lt_succ_of_le (by rw [List.length_drop]; omega)
  · exact Nat.lt_succ_self _

theorem split_ne_nil (word text : List α) : split word text ≠ [] := by
  cases text with
  | nil => simp [split]
  | cons c text =>
    rw [split]
    split
    · simp
    · cases split word text <;> simp [glue]

/-- A text without the mark is passed over. -/
theorem split_free {free : List α} (h : mark ∉ free) (text : List α) :
    split (mark :: word) (free ++ text) = glue free (split (mark :: word) text) := by
  induction free with
  | nil => rw [List.nil_append, glue_nil (split_ne_nil _ _)]
  | cons c free ih =>
    rw [List.mem_cons, not_or] at h
    have hnot : ¬ mark :: word <+: c :: (free ++ text) :=
      fun hprefix => h.1 (List.cons_prefix_cons.mp hprefix).1
    rw [List.cons_append, split, if_neg hnot, ih h.2, ← glue_append, List.singleton_append]

/-- A word at the beginning of the text. -/
theorem split_word (word text : List α) (h : word ≠ []) :
    split word (word ++ text) = [] :: split word text := by
  cases word with
  | nil => exact absurd rfl h
  | cons c word =>
    have hprefix : c :: word <+: c :: (word ++ text) := List.prefix_append (c :: word) text
    rw [List.cons_append, split, if_pos hprefix]
    simp

/-! ## Marked pieces -/

/-- Where the marked pieces are cut. -/
def cut (mark : α) (word : List α) : List (List α) → List (List α)
  | [] => [[]]
  | piece :: pieces =>
    if word <+: piece then [] :: glue (piece.drop word.length) (cut mark word pieces)
    else glue (mark :: piece) (cut mark word pieces)

theorem split_marked (hword : mark ∉ word) {pieces : List (List α)}
    (hpieces : ∀ piece ∈ pieces, mark ∉ piece) :
    split (mark :: word) (marked mark pieces) = cut mark word pieces := by
  induction pieces with
  | nil => simp [marked, split, cut]
  | cons piece pieces ih =>
    rw [List.forall_mem_cons] at hpieces
    have hmarked : marked mark (piece :: pieces) = mark :: piece ++ marked mark pieces := rfl
    rw [hmarked, cut]
    split
    · rename_i hprefix
      obtain ⟨rest, rfl⟩ := hprefix
      have hrest : mark ∉ rest := fun h => hpieces.1 (List.mem_append_right _ h)
      rw [List.drop_left, ← List.cons_append, List.append_assoc,
        split_word _ _ (List.cons_ne_nil mark word), split_free hrest, ih hpieces.2]
    · rename_i hprefix
      have hnot : ¬ mark :: word <+: mark :: (piece ++ marked mark pieces) := by
        rw [List.prefix_cons_inj, prefix_marked_iff hword]
        exact hprefix
      rw [List.cons_append, split, if_neg hnot, split_free hpieces.1, ih hpieces.2, ← glue_append,
        List.singleton_append]

theorem cut_none {pieces : List (List α)} (h : ∀ piece ∈ pieces, ¬ word <+: piece) :
    cut mark word pieces = [marked mark pieces] := by
  induction pieces with
  | nil => rfl
  | cons piece pieces ih =>
    rw [List.forall_mem_cons] at h
    rw [cut, if_neg h.1, ih h.2]
    rfl

/-- A word that begins one piece cuts the text in two. -/
theorem cut_one {before after : List (List α)} {rest : List α}
    (hbefore : ∀ piece ∈ before, ¬ word <+: piece) (hafter : ∀ piece ∈ after, ¬ word <+: piece) :
    cut mark word (before ++ (word ++ rest) :: after) =
      [marked mark before, rest ++ marked mark after] := by
  induction before with
  | nil =>
    rw [List.nil_append, cut, if_pos (List.prefix_append word rest), List.drop_left,
      cut_none hafter]
    rfl
  | cons piece before ih =>
    rw [List.forall_mem_cons] at hbefore
    rw [List.cons_append, cut, if_neg hbefore.1, ih hbefore.2]
    rfl

/-! ## Trimming -/

section

variable {β : Type} (p : β → Bool)

/-- The text without what meets `p` at its ends. -/
def trim (text : List β) : List β := (text.dropWhile p).rdropWhile p

theorem trim_isInfix (text : List β) : trim p text <:+: text :=
  (List.rdropWhile_prefix p _).isInfix.trans (List.dropWhile_suffix p).isInfix

theorem mem_of_mem_trim {text : List β} {c : β} (h : c ∈ trim p text) : c ∈ text :=
  (trim_isInfix p text).subset h

theorem trim_trim (text : List β) : trim p (trim p text) = trim p text := by
  have hprefix := List.rdropWhile_prefix p (text.dropWhile p)
  have hdrop : (trim p text).dropWhile p = trim p text := by
    rw [List.dropWhile_eq_self_iff]
    intro hl
    have hpos : 0 < (text.dropWhile p).length := hl.trans_le hprefix.length_le
    have hfirst := List.dropWhile_get_zero_not p text hpos
    rw [show (trim p text)[0] = (text.dropWhile p)[0] from hprefix.getElem hl]
    exact hfirst
  rw [trim, hdrop]
  exact List.rdropWhile_idempotent p _

/-- Nothing is trimmed from a text exactly if neither end meets `p`. -/
theorem trim_eq_self_iff {text : List β} :
    trim p text = text ↔
      (∀ c ∈ text.head?, p c = false) ∧ ∀ c ∈ text.getLast?, p c = false := by
  have hboth : trim p text = text ↔ text.dropWhile p = text ∧ text.rdropWhile p = text := by
    constructor
    · intro h
      have hprefix := List.rdropWhile_prefix p (text.dropWhile p)
      have hsuffix := List.dropWhile_suffix (l := text) p
      have hlength := hprefix.length_le
      rw [show (text.dropWhile p).rdropWhile p = text from h] at hlength
      have hdrop := hsuffix.eq_of_length (Nat.le_antisymm hsuffix.length_le hlength)
      refine ⟨hdrop, ?_⟩
      rw [trim, hdrop] at h
      exact h
    · rintro ⟨hdrop, hrdrop⟩
      rw [trim, hdrop, hrdrop]
  rw [hboth, List.dropWhile_eq_self_iff, List.rdropWhile_eq_self_iff]
  cases text with
  | nil => simp
  | cons c cs => simp [List.getLast?_eq_some_getLast]

end

end Splits
