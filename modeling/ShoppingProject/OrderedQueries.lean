import Mathlib.Data.List.Sort
import Mathlib.Order.Lattice

/-!
# Ordered and limited queries

A query ordered by a key may return the rows in any order that respects the
key: rows that tie are in no particular order. `Arranged` is that freedom, and
`Oldest` says what a limited query is for without naming an arrangement. The
last theorems say when a limit may be taken before a filter.
-/
namespace OrderedQueries

variable {α κ : Type} [LinearOrder κ]

/-- `arr` is one of the answers of a query for all of `xs` ordered by `key`. -/
structure Arranged (key : α → κ) (xs arr : List α) : Prop where
  perm : arr.Perm xs
  ordered : arr.Pairwise (fun a b => key a ≤ key b)

instance [DecidableEq α] (key : α → κ) (xs arr : List α) : Decidable (Arranged key xs arr) :=
  decidable_of_iff (arr.Perm xs ∧ arr.Pairwise (fun a b => key a ≤ key b))
    ⟨fun h => ⟨h.1, h.2⟩, fun h => ⟨h.1, h.2⟩⟩

/-- `batch` consists of `k` rows of `xs` with the smallest keys, or of all the
rows when there are fewer, in key order. -/
structure Oldest (key : α → κ) (k : Nat) (xs batch : List α) : Prop where
  size : batch.length = min k xs.length
  ordered : batch.Pairwise (fun a b => key a ≤ key b)
  split : ∃ rest, (batch ++ rest).Perm xs ∧ ∀ a ∈ batch, ∀ b ∈ rest, key a ≤ key b

theorem Arranged.mem_iff {key : α → κ} {xs arr : List α} (h : Arranged key xs arr) {a : α} :
    a ∈ arr ↔ a ∈ xs := h.perm.mem_iff

theorem Arranged.filter {key : α → κ} {xs arr : List α} (h : Arranged key xs arr) (p : α → Bool) :
    Arranged key (xs.filter p) (arr.filter p) :=
  ⟨h.perm.filter p, h.ordered.filter p⟩

/-- Every list has an arrangement. -/
theorem exists_arranged (key : α → κ) (xs : List α) : ∃ arr, Arranged key xs arr := by
  refine ⟨xs.mergeSort (fun a b => decide (key a ≤ key b)), List.mergeSort_perm _ _, ?_⟩
  have h := @List.pairwise_mergeSort α (fun a b => decide (key a ≤ key b))
    (by intro a b c hab hbc; simp only [decide_eq_true_eq] at *; exact le_trans hab hbc)
    (by intro a b; simp only [Bool.or_eq_true, decide_eq_true_eq]; exact le_total _ _) xs
  exact h.imp (by intro a b hab; simpa using hab)

/-- The first `k` rows of any arrangement are `k` smallest ones. -/
theorem Arranged.oldest_take {key : α → κ} {xs arr : List α} (h : Arranged key xs arr) (k : Nat) :
    Oldest key k xs (arr.take k) := by
  have hpair : (arr.take k ++ arr.drop k).Pairwise (fun a b => key a ≤ key b) := by
    rw [List.take_append_drop]; exact h.ordered
  rw [List.pairwise_append] at hpair
  refine ⟨?_, hpair.1, arr.drop k, ?_, hpair.2.2⟩
  · rw [List.length_take, h.perm.length_eq]
  · rw [List.take_append_drop]; exact h.perm

/-- Among the first `k` fewer than `k` items are older than any. -/
theorem Arranged.count_older {key : α → κ} {xs arr : List α} (h : Arranged key xs arr) {k : Nat}
    {a : α} (ha : a ∈ arr.take k) : xs.countP (fun b => key b < key a) < k := by
  have hpair : (arr.take k ++ arr.drop k).Pairwise (fun a b => key a ≤ key b) := by
    rw [List.take_append_drop]
    exact h.ordered
  have hdrop : (arr.drop k).countP (fun b => key b < key a) = 0 := by
    rw [List.countP_eq_zero]
    intro b hb
    simpa using (List.pairwise_append.mp hpair).2.2 a ha b hb
  have htake : (arr.take k).countP (fun b => key b < key a) < (arr.take k).length := by
    refine lt_of_le_of_ne List.countP_le_length fun heq => ?_
    have hself := List.countP_eq_length.mp heq a ha
    simp at hself
  calc xs.countP (fun b => key b < key a)
      = (arr.take k ++ arr.drop k).countP (fun b => key b < key a) := by
        rw [List.take_append_drop, h.perm.countP_eq]
    _ = (arr.take k).countP (fun b => key b < key a) := by
        rw [List.countP_append, hdrop, Nat.add_zero]
    _ < (arr.take k).length := htake
    _ ≤ k := List.length_take_le k arr

/-- Conversely every such batch is what some arrangement begins with. -/
theorem Oldest.exists_arranged {key : α → κ} {k : Nat} {xs batch : List α}
    (h : Oldest key k xs batch) : ∃ arr, Arranged key xs arr ∧ arr.take k = batch := by
  obtain ⟨rest, hperm, hle⟩ := h.split
  obtain ⟨sorted, hsorted⟩ := OrderedQueries.exists_arranged key rest
  refine ⟨batch ++ sorted, ⟨(hsorted.perm.append_left batch).trans hperm, ?_⟩, ?_⟩
  · rw [List.pairwise_append]
    exact ⟨h.ordered, hsorted.ordered, fun a ha b hb => hle a ha b (hsorted.mem_iff.mp hb)⟩
  · have hlen : xs.length = batch.length + sorted.length := by
      rw [← hperm.length_eq, hsorted.perm.length_eq, List.length_append]
    have hsize := h.size
    rcases Nat.lt_or_ge k batch.length with hk | hk
    · omega
    · rw [List.take_append, List.take_of_length_le hk]
      have hrest : k - batch.length = 0 ∨ sorted.length = 0 := by omega
      rcases hrest with hz | hz
      · simp [hz]
      · simp [List.eq_nil_of_length_eq_zero hz]

/-- A batch is empty only if there is nothing to take. -/
theorem Oldest.ne_nil {key : α → κ} {k : Nat} {xs batch : List α} (h : Oldest key k xs batch)
    (hk : 0 < k) {a : α} (ha : a ∈ xs) : batch ≠ [] := by
  have hpos : 0 < xs.length := List.length_pos_of_mem ha
  have hsize := h.size
  intro hnil
  rw [hnil, List.length_nil] at hsize
  omega

/-- Taking the limit first is harmless when nothing it keeps is filtered out
afterwards, or when nothing it drops would have passed the filter. -/
theorem filter_take_eq {arr : List α} {p : α → Bool} {k : Nat}
    (h : (∀ a ∈ arr.take k, p a = true) ∨ (∀ a ∈ arr.drop k, p a = false)) :
    (arr.take k).filter p = (arr.filter p).take k := by
  have hsplit : arr.filter p = (arr.take k).filter p ++ (arr.drop k).filter p := by
    rw [← List.filter_append, List.take_append_drop]
  rcases h with h | h
  · have hkeep : (arr.take k).filter p = arr.take k := List.filter_eq_self.mpr h
    rw [hsplit, hkeep, List.take_append, List.take_take, Nat.min_self]
    rcases Nat.lt_or_ge k arr.length with hlen | hlen
    · simp [List.length_take, Nat.min_eq_left (Nat.le_of_lt hlen)]
    · simp [List.drop_of_length_le hlen]
  · have hdrop : (arr.drop k).filter p = [] := by
      rw [List.filter_eq_nil_iff]
      intro a ha
      simp [h a ha]
    have hlen : ((arr.take k).filter p).length ≤ k :=
      le_trans (List.length_filter_le _ _) (List.length_take_le _ _)
    rw [hsplit, hdrop, List.append_nil, List.take_of_length_le hlen]

/-- The exact condition under which filtering the first `k` rows selects the `k`
oldest rows that pass the filter. -/
theorem oldest_filter_take_iff {key : α → κ} {xs arr : List α} (h : Arranged key xs arr)
    (p : α → Bool) (k : Nat) :
    Oldest key k (xs.filter p) ((arr.take k).filter p) ↔
      (∀ a ∈ arr.take k, p a = true) ∨ (∀ a ∈ arr.drop k, p a = false) := by
  constructor
  · intro hold
    have hsplit : (xs.filter p).length =
        ((arr.take k).filter p).length + ((arr.drop k).filter p).length := by
      rw [← (h.filter p).perm.length_eq, ← List.length_append, ← List.filter_append,
        List.take_append_drop]
    have hsize := hold.size
    have htake : ((arr.take k).filter p).length ≤ (arr.take k).length := List.length_filter_le _ _
    have hk : (arr.take k).length ≤ k := List.length_take_le _ _
    rcases Nat.eq_zero_or_pos ((arr.drop k).filter p).length with hz | hpos
    · right
      intro a ha
      have hnil := List.eq_nil_of_length_eq_zero hz
      rw [List.filter_eq_nil_iff] at hnil
      simpa using hnil a ha
    · left
      have hfull : ((arr.take k).filter p).length = (arr.take k).length := by omega
      exact List.length_filter_eq_length_iff.mp hfull
  · intro hcond
    rw [filter_take_eq hcond]
    exact (h.filter p).oldest_take k

end OrderedQueries
