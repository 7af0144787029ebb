import Mathlib.Data.Int.Order.Basic
import Mathlib.Data.List.Sort
import Mathlib.Tactic.Common

/-!
# Tables with given keys

A table whose rows bring their own primary key. The rows stand in the order of their keys,
so that two tables with the same rows are equal, and a table is determined by what it finds.
-/

variable {α : Type}

structure Keyed (key : α → Int) where
  rows : List α
  ordered : rows.Pairwise fun a b => key a < key b

namespace Keyed

variable {key : α → Int}

theorem ordered_nil : ([] : List α).Pairwise fun a b => key a < key b := List.Pairwise.nil

def empty : Keyed key := ⟨[], ordered_nil⟩

def find (t : Keyed key) (k : Int) : Option α := t.rows.find? fun a => key a == k

/-- Put a row in the place of the one with its key, if there is one. -/
def replace (t : Keyed key) (a : α) : Keyed key where
  rows := t.rows.filter (fun b => key b < key a) ++ a :: t.rows.filter fun b => key a < key b
  ordered := by
    rw [List.pairwise_append, List.pairwise_cons]
    refine ⟨t.ordered.filter _, ⟨fun b hb => ?_, t.ordered.filter _⟩, fun b hb c hc => ?_⟩
    · simpa using (List.mem_filter.mp hb).2
    · have hba : key b < key a := by simpa using (List.mem_filter.mp hb).2
      rcases List.mem_cons.mp hc with rfl | hc
      · exact hba
      · have hac : key a < key c := by simpa using (List.mem_filter.mp hc).2
        exact hba.trans hac

/-- Change the row with key `k` without changing its key. -/
def modify (t : Keyed key) (k : Int) (f : α → α) (hkey : ∀ a, key (f a) = key a) : Keyed key where
  rows := t.rows.map fun a => if key a = k then f a else a
  ordered := by
    rw [List.pairwise_map]
    refine t.ordered.imp fun hab => ?_
    split <;> split <;> simpa only [hkey] using hab

def delete (t : Keyed key) (k : Int) : Keyed key where
  rows := t.rows.filter fun a => key a != k
  ordered := t.ordered.filter _

theorem rows_injective {t u : Keyed key} (h : t.rows = u.rows) : t = u := by
  cases t
  cases u
  cases h
  rfl

theorem mem_replace (t : Keyed key) (a b : α) :
    b ∈ (t.replace a).rows ↔ b = a ∨ b ∈ t.rows ∧ key b ≠ key a := by
  simp only [replace, List.mem_append, List.mem_cons, List.mem_filter, decide_eq_true_eq]
  constructor
  · rintro (⟨hb, hlt⟩ | rfl | ⟨hb, hlt⟩)
    · exact .inr ⟨hb, ne_of_lt hlt⟩
    · exact .inl rfl
    · exact .inr ⟨hb, ne_of_gt hlt⟩
  · rintro (rfl | ⟨hb, hne⟩)
    · exact .inr (.inl rfl)
    · rcases lt_or_gt_of_ne hne with hlt | hlt
      · exact .inl ⟨hb, hlt⟩
      · exact .inr (.inr ⟨hb, hlt⟩)

theorem mem_modify (t : Keyed key) (k : Int) (f : α → α) (hkey : ∀ a, key (f a) = key a) (b : α) :
    b ∈ (t.modify k f hkey).rows ↔ ∃ a ∈ t.rows, (if key a = k then f a else a) = b :=
  List.mem_map

theorem mem_delete (t : Keyed key) (k : Int) (a : α) :
    a ∈ (t.delete k).rows ↔ a ∈ t.rows ∧ key a ≠ k := by
  simp [delete]

theorem keys_nodup (t : Keyed key) : (t.rows.map key).Nodup :=
  List.pairwise_map.mpr (t.ordered.imp ne_of_lt)

/-- A key identifies its row. -/
theorem key_injective (t : Keyed key) {a b : α} (ha : a ∈ t.rows) (hb : b ∈ t.rows)
    (h : key a = key b) : a = b := List.inj_on_of_nodup_map t.keys_nodup ha hb h

/-- Among rows with distinct keys a key finds its row. -/
theorem find_key_iff {rows : List α} (h : (rows.map key).Nodup) (k : Int) (a : α) :
    (rows.find? fun b => key b == k) = some a ↔ a ∈ rows ∧ key a = k := by
  constructor
  · intro ha
    exact ⟨List.mem_of_find?_eq_some ha, by simpa using List.find?_some ha⟩
  · rintro ⟨ha, rfl⟩
    have hsome : (rows.find? fun b => key b == key a).isSome := by
      rw [List.find?_isSome]
      exact ⟨a, ha, by simp⟩
    obtain ⟨b, hb⟩ := Option.isSome_iff_exists.mp hsome
    have hkey : key b = key a := by simpa using List.find?_some hb
    rw [hb, List.inj_on_of_nodup_map h (List.mem_of_find?_eq_some hb) ha hkey]

theorem find_eq_some_iff (t : Keyed key) (k : Int) (a : α) :
    t.find k = some a ↔ a ∈ t.rows ∧ key a = k := find_key_iff t.keys_nodup k a

theorem find_replace (t : Keyed key) (a : α) (k : Int) :
    (t.replace a).find k = if key a = k then some a else t.find k := by
  ext b
  rw [find_eq_some_iff, mem_replace]
  split
  · rename_i hk
    subst hk
    constructor
    · rintro ⟨rfl | ⟨-, hne⟩, heq⟩
      · rfl
      · exact absurd heq hne
    · intro h
      cases h
      exact ⟨.inl rfl, rfl⟩
  · rename_i hk
    rw [find_eq_some_iff]
    constructor
    · rintro ⟨rfl | ⟨hb, -⟩, heq⟩
      · exact absurd heq hk
      · exact ⟨hb, heq⟩
    · rintro ⟨hb, rfl⟩
      exact ⟨.inr ⟨hb, fun heq => hk heq.symm⟩, rfl⟩

/-- What a table finds determines it. -/
theorem ext_find {t u : Keyed key} (h : ∀ k, t.find k = u.find k) : t = u := by
  apply rows_injective
  have hmem : ∀ a, a ∈ t.rows ↔ a ∈ u.rows := by
    intro a
    have hfind : t.find (key a) = some a ↔ u.find (key a) = some a := by rw [h]
    simpa [find_eq_some_iff] using hfind
  have hperm : t.rows.Perm u.rows :=
    (List.perm_ext_iff_of_nodup (t.ordered.imp fun hab heq => (heq ▸ hab).false)
      (u.ordered.imp fun hab heq => (heq ▸ hab).false)).mpr hmem
  exact hperm.eq_of_pairwise (fun a b _ _ hab hba => absurd hab (lt_asymm hba)) t.ordered u.ordered

/-- The last row that was put under a key is found there. -/
theorem find_foldl_replace (t : Keyed key) (rows : List α) (k : Int) :
    (rows.foldl replace t).find k =
      (rows.reverse.find? fun a => key a == k).or (t.find k) := by
  induction rows generalizing t with
  | nil => rfl
  | cons a rows ih =>
    rw [List.foldl_cons, ih, List.reverse_cons, List.find?_append, Option.or_assoc, find_replace]
    congr 1
    by_cases hk : key a = k <;> simp [hk]

/-- Rows that are put into a table leave it as it was exactly if the last row under each key
was there already. -/
theorem foldl_replace_eq_iff (t : Keyed key) (rows : List α) :
    rows.foldl replace t = t ↔
      ∀ k a, (rows.reverse.find? fun b => key b == k) = some a → t.find k = some a := by
  constructor
  · intro h k a ha
    have hfind := find_foldl_replace t rows k
    rw [h, ha] at hfind
    exact hfind
  · intro h
    apply ext_find
    intro k
    rw [find_foldl_replace]
    cases ha : rows.reverse.find? fun b => key b == k with
    | none => rfl
    | some a => exact (h k a ha).symm

theorem replace_eq_iff (t : Keyed key) (a : α) : t.replace a = t ↔ t.find (key a) = some a := by
  refine (t.foldl_replace_eq_iff [a]).trans ⟨fun h => h (key a) a (by simp), fun h k b hb => ?_⟩
  have hk : key b = k := by simpa using List.find?_some hb
  obtain rfl : b = a := by simpa using List.mem_of_find?_eq_some hb
  exact hk ▸ h

theorem modify_eq_iff (t : Keyed key) (k : Int) (f : α → α) (hkey : ∀ a, key (f a) = key a) :
    t.modify k f hkey = t ↔ ∀ a, t.find k = some a → f a = a := by
  constructor
  · intro h a ha
    obtain ⟨hmem, hk⟩ := (t.find_eq_some_iff k a).mp ha
    have hnew : f a ∈ (t.modify k f hkey).rows :=
      List.mem_map.mpr ⟨a, hmem, by simp [hk]⟩
    rw [h] at hnew
    exact t.key_injective hnew hmem (hkey a)
  · intro h
    apply rows_injective
    refine (List.map_congr_left fun a ha => ?_).trans (List.map_id t.rows)
    split
    · rename_i hk
      exact h a ((t.find_eq_some_iff k a).mpr ⟨ha, hk⟩)
    · rfl

theorem delete_eq_iff (t : Keyed key) (k : Int) : t.delete k = t ↔ t.find k = none := by
  have hrows : t.delete k = t ↔ t.rows.filter (fun a => key a != k) = t.rows :=
    ⟨fun h => congrArg rows h, fun h => rows_injective h⟩
  rw [hrows, List.filter_eq_self, find, List.find?_eq_none]
  simp

/-- Rows with distinct keys that are put into an empty table are what it finds. -/
theorem find_foldl_empty {rows : List α} (h : (rows.map key).Nodup) (k : Int) (a : α) :
    (rows.foldl replace (empty : Keyed key)).find k = some a ↔ a ∈ rows ∧ key a = k := by
  have hreverse : (rows.reverse.map key).Nodup := by
    rw [List.map_reverse]
    exact List.nodup_reverse.mpr h
  rw [find_foldl_replace, Option.or_eq_some_iff, find_key_iff hreverse, List.mem_reverse]
  exact or_iff_left fun ⟨_, ha⟩ => nomatch ha

theorem foldl_replace_empty {rows : List α} (h : (rows.map key).Nodup) :
    (rows.foldl replace (empty : Keyed key)).rows.Perm rows := by
  refine (List.perm_ext_iff_of_nodup (keys_nodup _).of_map (List.Nodup.of_map key h)).mpr ?_
  intro a
  have ha := find_foldl_empty h (key a) a
  rw [find_eq_some_iff] at ha
  simpa using ha

end Keyed
