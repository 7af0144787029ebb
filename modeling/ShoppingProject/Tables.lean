import Mathlib.Data.Int.Order.Basic
import Mathlib.Data.List.Nodup
import Mathlib.Tactic.Common

/-!
# Tables with generated keys

A table gives every inserted row the next key, and no key twice, even after rows
have been deleted. Rows keep the order of their keys, so that the structure can
carry its own consistency and no lemma about it needs an invariant.
-/

variable {α : Type}

structure Table (key : α → Int) where
  rows : List α
  next : Int
  ordered : rows.Pairwise fun a b => key a < key b
  bounded : ∀ a ∈ rows, key a < next

namespace Table

variable {key : α → Int}

def empty : Table key := ⟨[], 1, .nil, by simp⟩

def find (t : Table key) (k : Int) : Option α := t.rows.find? fun a => key a == k

def insert (t : Table key) (make : Int → α) (hkey : ∀ k, key (make k) = k) : Table key where
  rows := t.rows ++ [make t.next]
  next := t.next + 1
  ordered := by
    rw [List.pairwise_append]
    refine ⟨t.ordered, List.pairwise_singleton _ _, ?_⟩
    intro a ha b hb
    obtain rfl : b = make t.next := by simpa using hb
    rw [hkey]
    exact t.bounded a ha
  bounded := by
    intro a ha
    rcases List.mem_append.mp ha with ha | ha
    · exact Int.lt_add_one_of_le (le_of_lt (t.bounded a ha))
    · obtain rfl : a = make t.next := by simpa using ha
      rw [hkey]
      exact Int.lt_succ _

/-- Change the row with key `k` without changing its key. -/
def modify (t : Table key) (k : Int) (f : α → α) (hkey : ∀ a, key (f a) = key a) : Table key where
  rows := t.rows.map fun a => if key a = k then f a else a
  next := t.next
  ordered := by
    rw [List.pairwise_map]
    refine t.ordered.imp ?_
    intro a b hab
    split <;> split <;> simpa only [hkey] using hab
  bounded := by
    intro a ha
    obtain ⟨b, hb, rfl⟩ := List.mem_map.mp ha
    split
    · rw [hkey]
      exact t.bounded b hb
    · exact t.bounded b hb

/-- Delete the rows that do not satisfy `keep`. -/
def filter (t : Table key) (keep : α → Bool) : Table key where
  rows := t.rows.filter keep
  next := t.next
  ordered := t.ordered.filter keep
  bounded := fun a ha => t.bounded a (List.mem_filter.mp ha).1

def delete (t : Table key) (k : Int) : Table key := t.filter fun a => key a != k

def clear (t : Table key) : Table key := t.filter fun _ => false

@[ext] theorem ext {t u : Table key} (hrows : t.rows = u.rows) (hnext : t.next = u.next) :
    t = u := by
  cases t
  cases u
  cases hrows
  cases hnext
  rfl

/-- A key identifies its row. -/
theorem key_injective (t : Table key) {a b : α} (ha : a ∈ t.rows) (hb : b ∈ t.rows)
    (h : key a = key b) : a = b := by
  have hnodup : (t.rows.map key).Nodup := List.pairwise_map.mpr (t.ordered.imp ne_of_lt)
  exact List.inj_on_of_nodup_map hnodup ha hb h

theorem find_eq_none_iff (t : Table key) (k : Int) :
    t.find k = none ↔ ∀ a ∈ t.rows, key a ≠ k := by
  simp [find, List.find?_eq_none]

@[simp] theorem mem_insert (t : Table key) (make : Int → α) (hkey : ∀ k, key (make k) = k) (a : α) :
    a ∈ (t.insert make hkey).rows ↔ a ∈ t.rows ∨ a = make t.next := by
  simp [insert]

theorem mem_modify (t : Table key) (k : Int) (f : α → α) (hkey : ∀ a, key (f a) = key a) (a : α) :
    a ∈ (t.modify k f hkey).rows ↔
      (a ∈ t.rows ∧ key a ≠ k) ∨ ∃ b ∈ t.rows, key b = k ∧ a = f b := by
  simp only [modify, List.mem_map]
  constructor
  · rintro ⟨b, hb, rfl⟩
    by_cases h : key b = k
    · exact .inr ⟨b, hb, h, by simp [h]⟩
    · exact .inl (by simp [h, hb])
  · rintro (⟨ha, h⟩ | ⟨b, hb, h, rfl⟩)
    · exact ⟨a, ha, by simp [h]⟩
    · exact ⟨b, hb, by simp [h]⟩

/-- If the changed row alone ceases to satisfy `P`, one row fewer does. -/
theorem countP_modify (t : Table key) {P : α → Bool} {f : α → α} (hkey : ∀ a, key (f a) = key a)
    {a : α} (ha : a ∈ t.rows) (hP : P a = true) (hf : P (f a) = false) :
    (t.modify (key a) f hkey).rows.countP P + 1 = t.rows.countP P := by
  have hrows : ∀ xs : List α, xs.Pairwise (fun b c => key b < key c) → a ∈ xs →
      (xs.map fun b => if key b = key a then f b else b).countP P + 1 = xs.countP P := by
    intro xs hxs
    induction xs with
    | nil => simp
    | cons b xs ih =>
      obtain ⟨hb, hxs⟩ := List.pairwise_cons.mp hxs
      intro hmem
      rcases List.mem_cons.mp hmem with rfl | hmem
      · have hothers : (xs.map fun c => if key c = key a then f c else c) = xs := by
          refine (List.map_congr_left fun c hc => ?_).trans (List.map_id xs)
          simp [ne_of_gt (hb c hc)]
        rw [List.map_cons, hothers]
        simp [hP, hf]
      · have hkeep : key b ≠ key a := ne_of_lt (hb a hmem)
        rw [List.map_cons, if_neg hkeep, List.countP_cons, List.countP_cons, ← ih hxs hmem]
        omega
  exact hrows t.rows t.ordered ha

@[simp] theorem mem_filter (t : Table key) (keep : α → Bool) (a : α) :
    a ∈ (t.filter keep).rows ↔ a ∈ t.rows ∧ keep a = true := List.mem_filter

@[simp] theorem mem_delete (t : Table key) (k : Int) (a : α) :
    a ∈ (t.delete k).rows ↔ a ∈ t.rows ∧ key a ≠ k := by
  simp [delete]

@[simp] theorem clear_rows (t : Table key) : t.clear.rows = [] := by
  simp [clear, filter]

end Table
