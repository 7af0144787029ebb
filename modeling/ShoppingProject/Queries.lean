import ShoppingProject.Paging

/-!
# Queries over a table

A query filters, sorts, skips and takes. The engine that runs it arranges rows that tie,
and rows in no order, as it likes, and decides how many rows a number of the query means.
A filter fails with any row that its condition fails on.
-/
namespace Queries

open Paging (Sorting Answer)

variable {α : Type}

/-- The rows that meet a condition, which may fail on a row. -/
def keep (p : α → Option Bool) : List α → Option (List α)
  | [] => some []
  | a :: as => (p a).bind fun b => (keep p as).map fun kept => if b then a :: kept else kept

theorem keep_of_total {p : α → Option Bool} {q : α → Bool} {rows : List α}
    (h : ∀ a ∈ rows, p a = some (q a)) : keep p rows = some (rows.filter q) := by
  induction rows with
  | nil => rfl
  | cons a rows ih =>
    rw [keep, h a List.mem_cons_self, ih fun b hb => h b (List.mem_cons_of_mem a hb)]
    cases hq : q a <;> simp [hq]

theorem keep_eq_some {p : α → Option Bool} {rows kept : List α} (h : keep p rows = some kept) :
    ∀ a ∈ rows, (p a).isSome := by
  induction rows generalizing kept with
  | nil => simp
  | cons a rows ih =>
    obtain ⟨b, hb, h⟩ := Option.bind_eq_some_iff.mp h
    obtain ⟨rest, hrest, -⟩ := Option.map_eq_some_iff.mp h
    intro c hc
    rcases List.mem_cons.mp hc with rfl | hc
    · rw [hb]
      rfl
    · exact ih hrest c hc

/-- What is kept is what the condition holds of. -/
theorem keep_filter {p : α → Option Bool} {rows kept : List α} (h : keep p rows = some kept) :
    kept = rows.filter fun a => p a == some true := by
  have htotal : ∀ a ∈ rows, p a = some (p a == some true) := by
    intro a ha
    obtain ⟨b, hb⟩ := Option.isSome_iff_exists.mp (keep_eq_some h a ha)
    rw [hb]
    cases b <;> rfl
  rw [keep_of_total htotal] at h
  exact (Option.some.inj h).symm

theorem keep_isSome_iff {p : α → Option Bool} {rows : List α} :
    (keep p rows).isSome ↔ ∀ a ∈ rows, (p a).isSome := by
  constructor
  · intro h
    obtain ⟨kept, hkept⟩ := Option.isSome_iff_exists.mp h
    exact keep_eq_some hkept
  · intro h
    have htotal : ∀ a ∈ rows, p a = some (p a == some true) := by
      intro a ha
      obtain ⟨b, hb⟩ := Option.isSome_iff_exists.mp (h a ha)
      rw [hb]
      cases b <;> rfl
    rw [keep_of_total htotal]
    rfl

@[simp] theorem keep_all (rows : List α) : keep (fun _ => some true) rows = some rows := by
  induction rows with
  | nil => rfl
  | cons a rows ih => simp [keep, ih]

/-- Rows kept twice are kept once, by both conditions one after the other. -/
theorem keep_keep (p q : α → Option Bool) (rows : List α) :
    (keep p rows).bind (keep q) =
      keep (fun a => (p a).bind fun b => if b then q a else some false) rows := by
  induction rows with
  | nil => rfl
  | cons a rows ih =>
    simp only [keep]
    rw [← ih]
    cases hp : p a with
    | none => rfl
    | some b => cases b <;> cases hq : q a <;> cases hkept : keep p rows <;> simp [keep, hq]

/-- An arrangement is kept as its rows are. -/
theorem keep_perm {p : α → Option Bool} {rows arr kept : List α} (h : arr.Perm rows)
    (hkept : keep p rows = some kept) :
    keep p arr = some (arr.filter fun a => p a == some true) ∧
      (arr.filter fun a => p a == some true).Perm kept := by
  have hsome : (keep p arr).isSome := by
    rw [keep_isSome_iff]
    intro a ha
    exact keep_eq_some hkept a (h.mem_iff.mp ha)
  obtain ⟨kept', hkept'⟩ := Option.isSome_iff_exists.mp hsome
  have harr := keep_filter hkept'
  rw [← harr, keep_filter hkept, harr]
  exact ⟨hkept'.trans (by rw [harr]), h.filter _⟩

theorem keep_none_of_perm {p : α → Option Bool} {rows arr : List α} (h : arr.Perm rows)
    (hnone : keep p rows = none) : keep p arr = none := by
  cases hkept : keep p arr with
  | none => rfl
  | some kept =>
    have hback := (keep_perm h.symm hkept).1
    rw [hnone] at hback
    cases hback

/-! ## Orders -/

/-- Order by the first and, where that ties, by the second. -/
def thenBy (o o' : Sorting α) : Sorting α where
  le a b := o.le a b && (!o.le b a || o'.le a b)
  total a b := by
    have h := o.total a b
    have h' := o'.total a b
    cases hab : o.le a b <;> cases hba : o.le b a <;> simp_all
  trans a b c hab hbc := by
    simp only [Bool.and_eq_true, Bool.or_eq_true, Bool.not_eq_true'] at hab hbc ⊢
    refine ⟨o.trans a b c hab.1 hbc.1, ?_⟩
    rcases hab.2 with hba | hab'
    · left
      by_contra hca
      have hback := o.trans b c a hbc.1 (by simpa using hca)
      rw [hba] at hback
      cases hback
    · rcases hbc.2 with hcb | hbc'
      · left
        by_contra hca
        have hback := o.trans c a b (by simpa using hca) hab.1
        rw [hcb] at hback
        cases hback
      · exact .inr (o'.trans a b c hab' hbc')

/-- Order by several orders, of which the first counts most. -/
def lexicographic : List (Sorting α) → Sorting α
  | [] => .none
  | o :: os => thenBy o (lexicographic os)

/-! ## Queries -/

inductive Query (α : Type) where
  | source : Query α
  | asNoTracking : Query α → Query α
  | include : Query α → String → Query α
  | filter : Query α → (α → Option Bool) → Query α
  | orderBy : Query α → Sorting α → Query α
  | thenBy : Query α → Sorting α → Query α
  | skip : Query α → Int32 → Query α
  | take : Query α → Int32 → Query α

structure Engine (α : Type) where
  arrange : Sorting α → List α → List α
  answer : ∀ o rows, Answer o rows (arrange o rows)
  /-- How many rows a number of the query means; `none` if it is refused. -/
  rowCount : Int32 → Option ℕ

/-- Rows, with the orders that they are sorted by. -/
structure Result (α : Type) where
  rows : List α
  orders : List (Sorting α)

variable (e : Engine α) (table : List α)

def run : Query α → Option (Result α)
  | .source => some ⟨e.arrange .none table, []⟩
  | .asNoTracking q => run q
  | .include q _ => run q
  | .filter q p => (run q).bind fun r => (keep p r.rows).map fun rows => ⟨rows, []⟩
  | .orderBy q o => (run q).map fun r => ⟨e.arrange (lexicographic [o]) r.rows, [o]⟩
  | .thenBy q o => (run q).map fun r =>
    ⟨e.arrange (lexicographic (r.orders ++ [o])) r.rows, r.orders ++ [o]⟩
  | .skip q n => (run q).bind fun r => (e.rowCount n).map fun k => ⟨r.rows.drop k, []⟩
  | .take q n => (run q).bind fun r => (e.rowCount n).map fun k => ⟨r.rows.take k, []⟩

/-- The rows of a query. -/
def toList (q : Query α) : Option (List α) := (run e table q).map Result.rows

variable {e table}

/-- The result of a query is an answer for these rows. -/
def Answers (e : Engine α) (table : List α) (q : Query α) (os : List (Sorting α))
    (rows : List α) : Prop :=
  ∃ arr, run e table q = some ⟨arr, os⟩ ∧ Answer (lexicographic os) rows arr

theorem Answers.orderBy {q : Query α} {os : List (Sorting α)} {rows : List α}
    (h : Answers e table q os rows) (o : Sorting α) : Answers e table (q.orderBy o) [o] rows := by
  obtain ⟨arr, hrun, harr⟩ := h
  have hanswer := e.answer (lexicographic [o]) arr
  exact ⟨_, by simp [run, hrun], hanswer.perm.trans harr.perm, hanswer.ordered⟩

theorem Answers.thenBy {q : Query α} {os : List (Sorting α)} {rows : List α}
    (h : Answers e table q os rows) (o : Sorting α) :
    Answers e table (q.thenBy o) (os ++ [o]) rows := by
  obtain ⟨arr, hrun, harr⟩ := h
  have hanswer := e.answer (lexicographic (os ++ [o])) arr
  exact ⟨_, by simp [run, hrun], hanswer.perm.trans harr.perm, hanswer.ordered⟩

/-- Secondary orders refine the ones before them. -/
theorem Answers.thenByAll {q : Query α} {os : List (Sorting α)} {rows : List α}
    (h : Answers e table q os rows) (more : List (Sorting α)) :
    Answers e table (more.foldl .thenBy q) (os ++ more) rows := by
  induction more generalizing q os with
  | nil => simpa using h
  | cons o more ih =>
    have hnext := ih (h.thenBy o)
    rwa [List.append_assoc] at hnext

theorem run_thenByAll_none {q : Query α} (h : run e table q = none) (more : List (Sorting α)) :
    run e table (more.foldl .thenBy q) = none := by
  induction more generalizing q with
  | nil => exact h
  | cons o more ih => exact ih (by simp [run, h])

@[simp] theorem run_includeAll (q : Query α) (paths : List String) :
    run e table (paths.foldl .include q) = run e table q := by
  induction paths generalizing q with
  | nil => rfl
  | cons path paths ih => exact (ih (q.include path)).trans rfl

end Queries
