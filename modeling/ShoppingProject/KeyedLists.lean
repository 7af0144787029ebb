import Mathlib.Data.List.Nodup
import Mathlib.Tactic.Common

/-!
# Lists of keyed items

Items are appended, looked up, changed and removed by their keys. Only if no two items have
one key is the lookup of a key all there is to know about it, and does a removal take one
item away.
-/
namespace KeyedLists

variable {α κ : Type} (key : α → κ)

/-- No two items have one key. -/
def Distinct (xs : List α) : Prop := (xs.map key).Nodup

/-- One item, which is under `k`, is gone, and the others are in their order. -/
def RemovesOne (k : κ) (xs ys : List α) : Prop :=
  ∃ before x after, xs = before ++ x :: after ∧ key x = k ∧ ys = before ++ after

section

variable {key} {xs : List α}

theorem distinct_nil : Distinct key [] := List.nodup_nil

theorem distinct_snoc {x : α} :
    Distinct key (xs ++ [x]) ↔ Distinct key xs ∧ key x ∉ xs.map key := by
  rw [Distinct, List.map_append, List.map_singleton, List.nodup_append_comm,
    List.singleton_append, List.nodup_cons, and_comm, Distinct]

/-- If a key has one item at most, then an item under a new key keeps it so. -/
theorem unique_snoc {x : α} (h : ∀ y ∈ xs, ∀ z ∈ xs, key y = key z → y = z)
    (hnew : ∀ y ∈ xs, key y ≠ key x) :
    ∀ y ∈ xs ++ [x], ∀ z ∈ xs ++ [x], key y = key z → y = z := by
  intro y hy z hz heq
  rw [List.mem_append, List.mem_singleton] at hy hz
  rcases hy with hy | rfl <;> rcases hz with hz | rfl
  · exact h y hy z hz heq
  · exact absurd heq (hnew y hy)
  · exact absurd heq.symm (hnew z hz)
  · rfl

theorem RemovesOne.length {k : κ} {ys : List α} (h : RemovesOne key k xs ys) :
    ys.length + 1 = xs.length := by
  obtain ⟨before, x, after, rfl, -, rfl⟩ := h
  simp only [List.length_append, List.length_cons]
  omega

end

variable [DecidableEq κ]

def lookup (k : κ) (xs : List α) : Option α := xs.find? fun x => key x = k

/-- All items under `k` are removed. -/
def without (k : κ) (xs : List α) : List α := xs.filter fun x => key x ≠ k

/-- The first item under `k` is changed. -/
def modifyFirst (k : κ) (f : α → α) : List α → List α
  | [] => []
  | x :: xs => if key x = k then f x :: xs else x :: modifyFirst k f xs

variable {key} {k : κ} {xs : List α}

theorem Distinct.without (h : Distinct key xs) (k : κ) : Distinct key (without key k xs) :=
  h.sublist (List.filter_sublist.map key)

theorem modifyFirst_absent {f : α → α} (h : k ∉ xs.map key) : modifyFirst key k f xs = xs := by
  induction xs with
  | nil => rfl
  | cons x xs ih =>
    rw [List.map_cons, List.mem_cons, not_or] at h
    rw [modifyFirst, if_neg (Ne.symm h.1), ih h.2]

theorem map_modifyFirst {f : α → α} (hf : ∀ x, key (f x) = key x) (k : κ) (xs : List α) :
    (modifyFirst key k f xs).map key = xs.map key := by
  induction xs with
  | nil => rfl
  | cons x xs ih =>
    unfold modifyFirst
    split
    · rw [List.map_cons, List.map_cons, hf]
    · rw [List.map_cons, List.map_cons, ih]

theorem Distinct.modifyFirst (h : Distinct key xs) {f : α → α} (hf : ∀ x, key (f x) = key x)
    (k : κ) : Distinct key (modifyFirst key k f xs) := by
  rw [Distinct, map_modifyFirst hf]
  exact h

/-- What is in a list after a change is the changed item or was there before. -/
theorem mem_modifyFirst {f : α → α} {a y : α} (hf : ∀ x, key x = k → f x = a)
    (h : y ∈ modifyFirst key k f xs) : y = a ∨ y ∈ xs := by
  induction xs with
  | nil => exact .inr h
  | cons x xs ih =>
    unfold modifyFirst at h
    split at h
    · rename_i hx
      rw [List.mem_cons, hf x hx] at h
      exact h.imp_right (List.mem_cons_of_mem x)
    · rw [List.mem_cons] at h ⊢
      rcases h with rfl | h
      · exact .inr (.inl rfl)
      · exact (ih h).imp_right .inr

/-! ## Removals -/

theorem without_absent (h : k ∉ xs.map key) : without key k xs = xs := by
  refine List.filter_eq_self.mpr fun x hx => decide_eq_true fun hk => h ?_
  rw [← hk]
  exact List.mem_map_of_mem hx

/-- A removal takes away as many items as are under the key. -/
theorem length_without (key : α → κ) (k : κ) (xs : List α) :
    (without key k xs).length + (xs.map key).count k = xs.length := by
  rw [without, ← List.countP_eq_length_filter, List.count, List.countP_map, Nat.add_comm,
    List.length_eq_countP_add_countP (fun x => key x == k)]
  congr 1
  exact List.countP_congr fun x _ => by simp

/-- A removal takes away one item exactly if one item is under the key. -/
theorem removesOne_iff :
    RemovesOne key k xs (without key k xs) ↔ (xs.map key).count k = 1 := by
  constructor
  · intro h
    have hlength := h.length
    have hcount := length_without key k xs
    omega
  · intro h
    have hk : k ∈ xs.map key := List.count_pos_iff.mp (by omega)
    obtain ⟨x, hx, rfl⟩ := List.mem_map.mp hk
    obtain ⟨before, after, rfl⟩ := List.append_of_mem hx
    rw [List.map_append, List.map_cons, List.count_append, List.count_cons_self] at h
    have hbefore : without key (key x) before = before :=
      without_absent (List.count_eq_zero.mp (by omega))
    have hafter : without key (key x) after = after :=
      without_absent (List.count_eq_zero.mp (by omega))
    refine ⟨before, x, after, rfl, rfl, ?_⟩
    unfold without at hbefore hafter ⊢
    rw [List.filter_append, List.filter_cons_of_neg (by simp), hbefore, hafter]

theorem Distinct.removesOne (h : Distinct key xs) (hk : k ∈ xs.map key) :
    RemovesOne key k xs (KeyedLists.without key k xs) :=
  removesOne_iff.mpr (List.count_eq_one_of_mem h hk)

/-! ## Lookups -/

theorem lookup_eq_none : lookup key k xs = none ↔ k ∉ xs.map key := by
  simp [lookup]

theorem lookup_key {x : α} (h : lookup key k xs = some x) : key x = k := by
  simpa using List.find?_some h

theorem lookup_snoc {x : α} (h : key x ∉ xs.map key) :
    lookup key k (xs ++ [x]) = if key x = k then some x else lookup key k xs := by
  rw [lookup, List.find?_append, ← lookup]
  split
  · rename_i hk
    subst k
    simp [lookup_eq_none.mpr h]
  · rename_i hk
    simp [hk]

/-- Around the item found the others are under other keys. -/
theorem Distinct.lookup_split (h : Distinct key xs) {x : α} (hx : lookup key k xs = some x) :
    ∃ before after, xs = before ++ x :: after ∧ (∀ y ∈ before, key y ≠ k) ∧
      ∀ y ∈ after, key y ≠ k := by
  obtain ⟨before, after, rfl⟩ := List.append_of_mem (List.mem_of_find?_eq_some hx)
  obtain rfl := lookup_key hx
  rw [Distinct, List.map_append, List.map_cons, List.nodup_middle, List.nodup_cons,
    List.mem_append, not_or] at h
  refine ⟨before, after, rfl, ?_, ?_⟩
  · intro y hy heq
    exact h.1.1 (heq ▸ List.mem_map_of_mem hy)
  · intro y hy heq
    exact h.1.2 (heq ▸ List.mem_map_of_mem hy)

/-- A condition on the items that are distinct is one on what is found. -/
theorem Distinct.lookup_filter (h : Distinct key xs) (p : α → Bool) :
    lookup key k (xs.filter p) = (lookup key k xs).filter p := by
  induction xs with
  | nil => rfl
  | cons x xs ih =>
    obtain ⟨hx, hxs⟩ := List.nodup_cons.mp h
    have htail := ih hxs
    unfold lookup at htail ⊢
    by_cases hk : key x = k
    · have hnone : xs.find? (fun y => key y = k) = none := by
        rw [List.find?_eq_none]
        intro y hy hyk
        refine hx ?_
        rw [hk, ← of_decide_eq_true hyk]
        exact List.mem_map_of_mem hy
      rw [hnone] at htail
      by_cases hp : p x = true
      · simp [hk, hp, Option.filter]
      · rw [List.filter_cons_of_neg hp, htail]
        simp [hk, hp, Option.filter]
    · by_cases hp : p x = true
      · simpa [hk, hp] using htail
      · simpa [hk, hp] using htail

theorem lookup_without (j : κ) :
    lookup key j (without key k xs) = if k = j then none else lookup key j xs := by
  induction xs with
  | nil => simp [lookup, without]
  | cons x xs ih =>
    unfold lookup without at ih ⊢
    by_cases hk : key x = k <;> by_cases hj : key x = j <;> by_cases hkj : k = j <;>
      simp_all

theorem lookup_modifyFirst_same {f : α → α} (hf : ∀ x, key (f x) = key x) :
    lookup key k (modifyFirst key k f xs) = (lookup key k xs).map f := by
  induction xs with
  | nil => rfl
  | cons x xs ih =>
    unfold lookup at ih ⊢
    unfold modifyFirst
    by_cases hx : key x = k
    · simp [hx, hf]
    · simp [hx, ih]

theorem lookup_modifyFirst_other {f : α → α} (hf : ∀ x, key (f x) = key x) {j : κ} (h : j ≠ k) :
    lookup key j (modifyFirst key k f xs) = lookup key j xs := by
  induction xs with
  | nil => rfl
  | cons x xs ih =>
    unfold lookup at ih ⊢
    unfold modifyFirst
    by_cases hx : key x = k
    · simp [hx, hf, Ne.symm h]
    · simp [hx, List.find?_cons, ih]

end KeyedLists
