import Mathlib.Data.List.Nodup
import Mathlib.Data.List.Perm.Basic
import Mathlib.Data.List.Sort

/-!
# Pages of an ordered query

A query answers with its rows in the requested order, and with rows that tie in any
order, which may be another one each time it is asked. The pages of several such answers
make up the rows exactly if no page ends between two rows that tie.
-/
namespace Paging

/-- An order up to ties. -/
structure Sorting (α : Type) where
  le : α → α → Bool
  total : ∀ a b, le a b = true ∨ le b a = true
  trans : ∀ a b c, le a b = true → le b c = true → le a c = true

namespace Sorting

variable {α β : Type}

/-- No order at all: every two rows tie. -/
def none : Sorting α := ⟨fun _ _ => true, fun _ _ => .inl rfl, fun _ _ _ _ _ => rfl⟩

/-- Order by a key. -/
def by' (o : Sorting β) (key : α → β) : Sorting α where
  le a b := o.le (key a) (key b)
  total _ _ := o.total _ _
  trans _ _ _ := o.trans _ _ _

def descending (o : Sorting α) : Sorting α where
  le a b := o.le b a
  total _ _ := o.total _ _
  trans _ _ _ hab hbc := o.trans _ _ _ hbc hab

theorem refl (o : Sorting α) (a : α) : o.le a a = true := (o.total a a).elim id id

end Sorting

variable {α β : Type} (o : Sorting α)

/-- One of the answers of a query for `rows`. -/
structure Answer (rows arr : List α) : Prop where
  perm : arr.Perm rows
  ordered : arr.Pairwise fun a b => o.le a b = true

instance [DecidableEq α] (rows arr : List α) : Decidable (Answer o rows arr) :=
  decidable_of_iff (arr.Perm rows ∧ arr.Pairwise fun a b => o.le a b = true)
    ⟨fun h => ⟨h.1, h.2⟩, fun h => ⟨h.1, h.2⟩⟩

def page (size i : Nat) (arr : List α) : List α := (arr.drop (i * size)).take size

/-- The first `m` pages, each from an answer of its own. -/
def walk (size m : Nat) (answers : Nat → List α) : List α :=
  (List.range m).flatMap fun i => page size i (answers i)

/-- How many rows come before a row in every answer. -/
def below (rows : List α) (x : α) : Nat := rows.countP fun y => !o.le x y

/-- How many rows may come before a row, itself included. -/
def upTo (rows : List α) (x : α) : Nat := rows.countP fun y => o.le y x

/-- The boundary after `b` rows falls between rows that tie. -/
def Split (rows : List α) (b : Nat) : Prop := ∃ x ∈ rows, below o rows x < b ∧ b < upTo o rows x

instance (rows : List α) (b : Nat) : Decidable (Split o rows b) :=
  inferInstanceAs (Decidable (∃ x ∈ rows, _))

variable {o} {rows arr : List α}

theorem Answer.below_eq (h : Answer o rows arr) (x : α) : below o arr x = below o rows x :=
  h.perm.countP_eq _

theorem Answer.upTo_eq (h : Answer o rows arr) (x : α) : upTo o arr x = upTo o rows x :=
  h.perm.countP_eq _

theorem Answer.le (h : Answer o rows arr) (b : Nat) {x y : α} (hx : x ∈ arr.take b)
    (hy : y ∈ arr.drop b) : o.le x y = true := by
  have hordered := h.ordered
  rw [← List.take_append_drop b arr, List.pairwise_append] at hordered
  exact hordered.2.2 x hx y hy

/-- A row among the first `b` has fewer than `b` rows before it. -/
theorem Answer.below_lt (h : Answer o rows arr) {b : Nat} {x : α} (hx : x ∈ arr.take b) :
    below o rows x < b := by
  have hdrop : (arr.drop b).countP (fun y => !o.le x y) = 0 := by
    rw [List.countP_eq_zero]
    intro y hy
    simp [h.le b hx hy]
  have htake : (arr.take b).countP (fun y => !o.le x y) < (arr.take b).length := by
    refine lt_of_le_of_ne List.countP_le_length fun hall => ?_
    have hself := List.countP_eq_length.mp hall x hx
    simp [o.refl x] at hself
  calc below o rows x = below o arr x := (h.below_eq x).symm
    _ = (arr.take b).countP (fun y => !o.le x y) + (arr.drop b).countP (fun y => !o.le x y) := by
      rw [← List.countP_append, List.take_append_drop]
      rfl
    _ < (arr.take b).length := by rwa [hdrop, Nat.add_zero]
    _ ≤ b := List.length_take_le b arr

/-- A row after the first `b` may have more than `b` rows before it. -/
theorem Answer.lt_upTo (h : Answer o rows arr) {b : Nat} {x : α} (hx : x ∈ arr.drop b) :
    b < upTo o rows x := by
  have hb : b < arr.length := by
    have hpos := List.length_pos_of_mem hx
    rw [List.length_drop] at hpos
    omega
  have htake : (arr.take b).countP (fun y => o.le y x) = b := by
    rw [List.countP_eq_length.mpr fun y hy => h.le b hy hx, List.length_take,
      Nat.min_eq_left (Nat.le_of_lt hb)]
  have hdrop : 0 < (arr.drop b).countP (fun y => o.le y x) :=
    List.countP_pos_iff.mpr ⟨x, hx, o.refl x⟩
  have hsum : upTo o arr x =
      (arr.take b).countP (fun y => o.le y x) + (arr.drop b).countP (fun y => o.le y x) := by
    rw [← List.countP_append, List.take_append_drop]
    rfl
  rw [← h.upTo_eq x, hsum, htake]
  omega

/-- If no rows tie across the boundary, every answer has the same rows before it. -/
theorem Answer.take_eq_filter (h : Answer o rows arr) {b : Nat} (hsplit : ¬ Split o rows b) :
    arr.take b = arr.filter fun x => upTo o rows x ≤ b := by
  have hin : ∀ x ∈ arr, x ∈ rows := fun x hx => h.perm.mem_iff.mp hx
  have htake : (arr.take b).filter (fun x => upTo o rows x ≤ b) = arr.take b := by
    rw [List.filter_eq_self]
    intro x hx
    have hlt := h.below_lt hx
    have hle : ¬ b < upTo o rows x := fun hgt =>
      hsplit ⟨x, hin x (List.mem_of_mem_take hx), hlt, hgt⟩
    simpa using hle
  have hdrop : (arr.drop b).filter (fun x => upTo o rows x ≤ b) = [] := by
    rw [List.filter_eq_nil_iff]
    intro x hx
    simpa using h.lt_upTo hx
  conv_rhs => rw [← List.take_append_drop b arr, List.filter_append, htake, hdrop, List.append_nil]

theorem Answer.take_perm (h : Answer o rows arr) {other : List α} (h' : Answer o rows other)
    {b : Nat} (hsplit : ¬ Split o rows b) : (arr.take b).Perm (other.take b) := by
  rw [h.take_eq_filter hsplit, h'.take_eq_filter hsplit]
  exact (h.perm.trans h'.perm.symm).filter _

theorem take_add_page (size i : Nat) (arr : List α) :
    arr.take ((i + 1) * size) = arr.take (i * size) ++ page size i arr := by
  rw [Nat.succ_mul, List.take_add]
  rfl

theorem walk_succ (size m : Nat) (answers : Nat → List α) :
    walk size (m + 1) answers = walk size m answers ++ page size m (answers m) := by
  simp [walk, List.range_succ]

/-- Pages that split no tie add up. -/
theorem walk_take {size : Nat} (hsplit : ∀ k, ¬ Split o rows (k * size)) {answers : Nat → List α}
    (h : ∀ i, Answer o rows (answers i)) (harr : Answer o rows arr) (m : Nat) :
    (walk size m answers).Perm (arr.take (m * size)) := by
  induction m with
  | zero => simp [walk]
  | succ m ih =>
    have hbefore : (arr.take (m * size)).Perm ((answers m).take (m * size)) :=
      harr.take_perm (h m) (hsplit m)
    have hafter : ((answers m).take ((m + 1) * size)).Perm (arr.take ((m + 1) * size)) :=
      (h m).take_perm harr (hsplit (m + 1))
    rw [take_add_page] at hafter
    rw [walk_succ]
    exact ((ih.trans hbefore).append_right _).trans hafter

theorem exists_answer (o : Sorting α) (rows : List α) : ∃ arr, Answer o rows arr := by
  refine ⟨rows.mergeSort o.le, List.mergeSort_perm _ _, ?_⟩
  exact List.pairwise_mergeSort o.trans (fun a b => by simpa using o.total a b) rows

theorem Answer.le_last (h : Answer o rows arr) {k : Nat} (hk : k < arr.length) {y : α}
    (hy : y ∈ arr.take (k + 1)) : o.le y arr[k] = true := by
  rw [List.take_succ_eq_append_getElem hk, List.mem_append] at hy
  rcases hy with hy | hy
  · exact h.le k hy (by rw [← List.getElem_cons_drop hk]; exact List.mem_cons_self)
  · obtain rfl := List.mem_singleton.mp hy
    exact o.refl _

theorem Answer.first_le (h : Answer o rows arr) {k : Nat} (hk : k < arr.length) {y : α}
    (hy : y ∈ arr.drop k) : o.le arr[k] y = true := by
  rw [← List.getElem_cons_drop hk, List.mem_cons] at hy
  rcases hy with rfl | hy
  · exact o.refl _
  · refine h.le (k + 1) ?_ hy
    rw [List.take_succ_eq_append_getElem hk]
    exact List.mem_append_right _ List.mem_cons_self

/-- Where a boundary falls between rows that tie, the two rows next to it tie. -/
theorem Answer.tie_of_split (h : Answer o rows arr) {b : Nat} (hsplit : Split o rows b) :
    ∃ u c d v, arr = u ++ c :: d :: v ∧ u.length + 1 = b ∧ o.le d c = true := by
  obtain ⟨x, -, hbelow, hupTo⟩ := hsplit
  rw [← h.below_eq x] at hbelow
  rw [← h.upTo_eq x] at hupTo
  have hb : b < arr.length := lt_of_lt_of_le hupTo List.countP_le_length
  obtain ⟨k, rfl⟩ : ∃ k, b = k + 1 := ⟨b - 1, by omega⟩
  refine ⟨arr.take k, arr[k], arr[k + 1], arr.drop (k + 2), ?_, ?_, ?_⟩
  · rw [List.getElem_cons_drop, List.getElem_cons_drop, List.take_append_drop]
  · rw [List.length_take]
    omega
  · have hlast : o.le x arr[k] = true := by
      by_contra hnot
      have hall : ∀ y ∈ arr.take (k + 1), (!o.le x y) = true := by
        intro y hy
        by_contra hle
        have hxy : o.le x y = true := by simpa using hle
        exact hnot (o.trans _ _ _ hxy (h.le_last (by omega) hy))
      have hcount : (arr.take (k + 1)).countP (fun y => !o.le x y) ≤ below o arr x :=
        (List.take_sublist _ _).countP_le
      rw [List.countP_eq_length.mpr hall, List.length_take] at hcount
      omega
    have hfirst : o.le arr[k + 1] x = true := by
      by_contra hnot
      have hnone : (arr.drop (k + 1)).countP (fun y => o.le y x) = 0 := by
        rw [List.countP_eq_zero]
        intro y hy hyx
        exact hnot (o.trans _ _ _ (h.first_le hb hy) hyx)
      have hsum : upTo o arr x = (arr.take (k + 1)).countP (fun y => o.le y x) +
          (arr.drop (k + 1)).countP (fun y => o.le y x) := by
        rw [← List.countP_append, List.take_append_drop]
        rfl
      have hcount : (arr.take (k + 1)).countP (fun y => o.le y x) ≤ (arr.take (k + 1)).length :=
        List.countP_le_length
      rw [List.length_take] at hcount
      omega
    exact o.trans _ _ _ hfirst hlast

/-- Two neighbours that tie may change places. -/
theorem Answer.swap {u v : List α} {c d : α} (h : Answer o rows (u ++ c :: d :: v))
    (htie : o.le d c = true) : Answer o rows (u ++ d :: c :: v) where
  perm := ((List.Perm.swap c d v).append_left u).trans h.perm
  ordered := by
    have hordered := h.ordered
    rw [List.pairwise_append, List.pairwise_cons, List.pairwise_cons] at hordered ⊢
    obtain ⟨hu, ⟨hc, hd, hv⟩, hcross⟩ := hordered
    refine ⟨hu, ⟨?_, fun y hy => hc y (List.mem_cons_of_mem _ hy), hv⟩, ?_⟩
    · intro y hy
      rcases List.mem_cons.mp hy with rfl | hy
      · exact htie
      · exact hd y hy
    · intro y hy z hz
      refine hcross y hy z ?_
      simp only [List.mem_cons] at hz ⊢
      exact or_left_comm.mp hz

theorem mem_page {size i n : Nat} {x : α} (hx : arr[n]? = some x) (hfrom : i * size ≤ n)
    (hto : n < (i + 1) * size) : x ∈ page size i arr := by
  rw [Nat.succ_mul] at hto
  have hget : (page size i arr)[n - i * size]? = some x := by
    rw [page, List.getElem?_take_of_lt (by omega), List.getElem?_drop, Nat.add_sub_of_le hfrom, hx]
  exact List.mem_of_getElem? hget

/-- Two pages of a walk without repetitions have no row in common. -/
theorem disjoint_pages {size m : Nat} {answers : Nat → List α} (h : (walk size m answers).Nodup)
    {i j : Nat} (hij : i < j) (hj : j < m) :
    (page size i (answers i)).Disjoint (page size j (answers j)) := by
  have hpages := (List.nodup_flatMap.mp h).2
  have hrange := List.pairwise_iff_getElem.mp hpages i j (by simpa using hij.trans hj)
    (by simpa using hj) hij
  simpa [Function.onFun] using hrange

/-- If a boundary falls between rows that tie, the database can return a row twice. -/
theorem exists_walk_repeats {size m k : Nat} (hsize : 0 < size) (hm : rows.length ≤ m * size)
    (hsplit : Split o rows (k * size)) : ∃ answers : Nat → List α,
      (∀ i, Answer o rows (answers i)) ∧ ¬ (walk size m answers).Nodup := by
  obtain ⟨arr, harr⟩ := exists_answer o rows
  obtain ⟨u, c, d, v, rfl, hu, htie⟩ := harr.tie_of_split hsplit
  obtain ⟨j, rfl⟩ : ∃ j, k = j + 1 := ⟨k - 1, by
    rcases Nat.eq_zero_or_pos k with rfl | hk
    · omega
    · omega⟩
  have hlength := harr.perm.length_eq
  have hjm : j + 1 < m := by
    by_contra hge
    have hle : m * size ≤ (j + 1) * size := Nat.mul_le_mul_right size (by omega)
    simp only [List.length_append, List.length_cons] at hlength
    omega
  refine ⟨fun i => if i = j then u ++ c :: d :: v else u ++ d :: c :: v, fun i => ?_,
    fun hnodup => ?_⟩
  · dsimp only
    split
    · exact harr
    · exact harr.swap htie
  · have hdisjoint := disjoint_pages hnodup (Nat.lt_succ_self j) hjm
    have hlast : c ∈ page size j (u ++ c :: d :: v) := by
      have hget : (u ++ c :: d :: v)[u.length]? = some c := by simp
      rw [Nat.succ_mul] at hu
      exact mem_page hget (by omega) (by rw [Nat.succ_mul]; omega)
    have hfirst : c ∈ page size (j + 1) (u ++ d :: c :: v) := by
      have hget : (u ++ d :: c :: v)[u.length + 1]? = some c := by simp
      exact mem_page hget (by omega) (by rw [Nat.succ_mul]; omega)
    simp only [if_true, Nat.succ_ne_self, if_false] at hdisjoint
    exact hdisjoint hlast hfirst

/-- The pages make up the rows, whatever answers they are taken from, exactly if no
boundary falls between rows that tie. -/
theorem walk_perm_iff {f : α → β} (hrows : (rows.map f).Nodup) {size m : Nat} (hsize : 0 < size)
    (hm : rows.length ≤ m * size) :
    (∀ answers : Nat → List α, (∀ i, Answer o rows (answers i)) →
        ((walk size m answers).map f).Perm (rows.map f)) ↔ ∀ k, ¬ Split o rows (k * size) := by
  constructor
  · intro h k hsplit
    obtain ⟨answers, hanswers, hrepeats⟩ := exists_walk_repeats hsize hm hsplit
    exact hrepeats (.of_map f ((h answers hanswers).nodup_iff.mpr hrows))
  · intro hsplit answers hanswers
    obtain ⟨arr, harr⟩ := exists_answer o rows
    have hwalk := walk_take hsplit hanswers harr m
    rw [List.take_of_length_le (harr.perm.length_eq ▸ hm)] at hwalk
    exact (hwalk.trans harr.perm).map f

end Paging
