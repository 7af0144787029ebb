import ShoppingProject.ExpressionTrees
import ShoppingProject.PageOffsets
import ShoppingProject.Queries
import ShoppingProject.Validation

/-!
# Specifications

A specification is put together by the calls of its builder and turned into a query by
`SpecificationEvaluator`. Criteria are expression trees: combining two of them makes a new
lambda that invokes both on its own parameter, and a search makes one that asks every
selected property for the term. Parameters that are made on the way are numbers, whichever.
-/
namespace Specifications

open ExpressionTrees Queries
open PageOffsets (Provider count skipTake)
open Paging (Sorting Answer)
open Validation (isNullOrWhiteSpace)

variable {α κ : Type}

/-- The values that rows are sorted by are of type `κ`. -/
structure Specification (α κ : Type) where
  criteria : Option (Lambda α Bool)
  includes : List String
  includeStrings : List String
  orderBy : Option (α → κ)
  orderByDescending : Option (α → κ)
  thenByExpressions : List ((α → κ) × Bool)
  take : Int32
  skip : Int32
  isPagingEnabled : Bool
  searchTerm : Option String
  searchProperties : List (Lambda α (Option String))
  isReadOnly : Bool

namespace BaseSpecification

def new (criteria : Option (Lambda α Bool)) : Specification α κ where
  criteria := criteria
  includes := []
  includeStrings := []
  orderBy := none
  orderByDescending := none
  thenByExpressions := []
  take := 0
  skip := 0
  isPagingEnabled := false
  searchTerm := none
  searchProperties := []
  isReadOnly := false

variable (spec : Specification α κ)

def addInclude (includeExpression : String) : Specification α κ :=
  { spec with includes := spec.includes ++ [includeExpression] }

def addIncludeString (includeString : String) : Specification α κ :=
  { spec with includeStrings := spec.includeStrings ++ [includeString] }

def applyPaging (skip take : Int32) : Specification α κ :=
  { spec with skip := skip, take := take, isPagingEnabled := true }

def applyOrderBy (orderByExpression : α → κ) : Specification α κ :=
  { spec with orderBy := some orderByExpression }

def applyOrderByDescending (orderByDescExpression : α → κ) : Specification α κ :=
  { spec with orderByDescending := some orderByDescExpression }

def addThenBy (thenByExpression : α → κ) (descending : Bool) : Specification α κ :=
  { spec with
    thenByExpressions := spec.thenByExpressions ++ [(thenByExpression, descending)] }

def applySearch (searchTerm : Option String)
    (searchProperties : List (Lambda α (Option String))) : Specification α κ :=
  { spec with
    searchTerm := searchTerm
    searchProperties :=
      if !isNullOrWhiteSpace searchTerm && decide (0 < searchProperties.length) then
        searchProperties
      else [] }

def applyReadOnly : Specification α κ := { spec with isReadOnly := true }

/-- The two lambdas invoked on a parameter of their own. -/
def combined (parameter : ℕ) (criteria additional : Lambda α Bool) : Lambda α Bool where
  parameter := parameter
  body := .and (criteria.on parameter) (additional.on parameter)
  closed := ⟨criteria.on_closed parameter, additional.on_closed parameter⟩

def alternative (parameter : ℕ) (criteria additional : Lambda α Bool) : Lambda α Bool where
  parameter := parameter
  body := .or (criteria.on parameter) (additional.on parameter)
  closed := ⟨criteria.on_closed parameter, additional.on_closed parameter⟩

def andCriteria (parameter : ℕ) (additionalCriteria : Lambda α Bool) : Specification α κ :=
  match spec.criteria with
  | none => { spec with criteria := some additionalCriteria }
  | some criteria =>
    { spec with criteria := some (combined parameter criteria additionalCriteria) }

def orCriteria (parameter : ℕ) (additionalCriteria : Lambda α Bool) : Specification α κ :=
  match spec.criteria with
  | none => { spec with criteria := some additionalCriteria }
  | some criteria =>
    { spec with criteria := some (alternative parameter criteria additionalCriteria) }

end BaseSpecification

/-- What the provider makes of connectives. -/
def logic : Provider → Logic
  | .database => threeValued
  | .objects => strict

/-- Whether a query keeps a row; a database does not keep it where that is unknown, and
otherwise the evaluation has failed. -/
def holds (provider : Provider) (f : Lambda α Bool) (a : α) : Option Bool :=
  match provider with
  | .database => some (f.apply threeValued a == some true)
  | .objects => f.apply strict a

/-- The comparison of sorted values, and the parameter that the evaluator makes. -/
structure Runtime (κ : Type) where
  comparer : Sorting κ
  parameter : ℕ

/-- A table as a provider answers queries on it. -/
structure Table (α : Type) where
  provider : Provider
  rows : List α
  arrange : Sorting α → List α → List α
  answer : ∀ o rows, Answer o rows (arrange o rows)

/-- A table that keeps its rows in the order they tie in. -/
def Table.of (provider : Provider) (rows : List α) : Table α where
  provider := provider
  rows := rows
  arrange o rows := rows.mergeSort o.le
  answer o rows := ⟨List.mergeSort_perm _ _,
    List.pairwise_mergeSort o.trans (fun a b => by simpa using o.total a b) rows⟩

def Table.engine (t : Table α) : Engine α := ⟨t.arrange, t.answer, t.provider.rowCount⟩

namespace SpecificationEvaluator

def containsExpression (parameter : ℕ) (searchTerm : String)
    (property : Lambda α (Option String)) :
    { e : Expr α Bool // Closed (fun x => x = parameter) e } :=
  ⟨.contains (property.on parameter) (.constant searchTerm), property.on_closed parameter, trivial⟩

/-- What the loop of `ApplySearch` does with a property. -/
def addProperty (parameter : ℕ) (searchTerm : String)
    (searchExpression : Option { e : Expr α Bool // Closed (fun x => x = parameter) e })
    (property : Lambda α (Option String)) :
    Option { e : Expr α Bool // Closed (fun x => x = parameter) e } :=
  let containsExpression := containsExpression parameter searchTerm property
  match searchExpression with
  | none => some containsExpression
  | some e => some ⟨.or e.1 containsExpression.1, e.2, containsExpression.2⟩

def searchExpression (parameter : ℕ) (searchTerm : String)
    (searchProperties : List (Lambda α (Option String))) :
    Option { e : Expr α Bool // Closed (fun x => x = parameter) e } :=
  searchProperties.foldl (addProperty parameter searchTerm) none

def applySearch (provider : Provider) (parameter : ℕ) (query : Query α) (searchTerm : String)
    (searchProperties : List (Lambda α (Option String))) : Query α :=
  if isNullOrWhiteSpace (some searchTerm) || searchProperties.length == 0 then query
  else match searchExpression parameter searchTerm searchProperties with
    | none => query
    | some e => query.filter (holds provider ⟨parameter, e.1, e.2⟩)

/-- A key selector as an order of the rows. -/
def keyOrder (comparer : Sorting κ) (keySelector : α → κ) (isDescending : Bool) : Sorting α :=
  if isDescending then (comparer.by' keySelector).descending else comparer.by' keySelector

variable (provider : Provider) (r : Runtime κ) (spec : Specification α κ)

def searched (query : Query α) : Query α :=
  match spec.searchTerm with
  | some searchTerm =>
    if !isNullOrWhiteSpace (some searchTerm) && decide (0 < spec.searchProperties.length) then
      applySearch provider r.parameter query searchTerm spec.searchProperties
    else query
  | none => query

/-- The conditions of a specification on its rows. -/
def filtered : Query α :=
  let query := if spec.isReadOnly then Query.source.asNoTracking else .source
  let query := match spec.criteria with
    | some criteria => query.filter (holds provider criteria)
    | none => query
  searched provider r spec query

/-- The orders of a specification; secondary ones need a primary one. -/
def ordered (query : Query α) : Query α :=
  let query := match spec.orderBy with
    | some key => query.orderBy (keyOrder r.comparer key false)
    | none => match spec.orderByDescending with
      | some key => query.orderBy (keyOrder r.comparer key true)
      | none => query
  if spec.orderBy.isSome || spec.orderByDescending.isSome then
    spec.thenByExpressions.foldl
      (fun query then' => query.thenBy (keyOrder r.comparer then'.1 then'.2)) query
  else query

def getQuery : Query α :=
  let query := filtered provider r spec
  let query := spec.includes.foldl .include query
  let query := spec.includeStrings.foldl .include query
  let query := ordered r spec query
  if spec.isPagingEnabled then (query.skip spec.skip).take spec.take else query

end SpecificationEvaluator

/-! ## The query of a specification -/

namespace SpecificationEvaluator

variable (provider : Provider) (r : Runtime κ) (spec : Specification α κ)

/-- The lambda of the search, if there is one. -/
def search : Option (Lambda α Bool) :=
  spec.searchTerm.bind fun searchTerm =>
    if isNullOrWhiteSpace (some searchTerm) || spec.searchProperties.length == 0 then none
    else (searchExpression r.parameter searchTerm spec.searchProperties).map fun e =>
      ⟨r.parameter, e.1, e.2⟩

/-- The search is only asked of rows that meet the criteria. -/
def satisfies (a : α) : Option Bool :=
  (spec.criteria.elim (some true) fun f => holds provider f a).bind fun b =>
    if b then (search r spec).elim (some true) fun f => holds provider f a else some false

/-- The orders of a specification, the primary one first. -/
def orders : List (Sorting α) :=
  let secondary := spec.thenByExpressions.map fun then' => keyOrder r.comparer then'.1 then'.2
  match spec.orderBy, spec.orderByDescending with
  | some key, _ => keyOrder r.comparer key false :: secondary
  | none, some key => keyOrder r.comparer key true :: secondary
  | none, none => []

variable {provider r spec} {e : Engine α} {table rows : List α} {q : Query α}

theorem searched_eq (q : Query α) : searched provider r spec q =
    (search r spec).elim q fun f => q.filter (holds provider f) := by
  unfold searched search
  cases spec.searchTerm with
  | none => rfl
  | some searchTerm =>
    cases hblank : isNullOrWhiteSpace (some searchTerm) with
    | true => simp [hblank]
    | false => cases spec.searchProperties with
      | nil => simp [hblank]
      | cons property properties =>
        cases hsearch : searchExpression r.parameter searchTerm (property :: properties) <;>
          simp [hblank, applySearch, hsearch]

/-- A condition that a specification may lack. -/
theorem run_condition (hq : run e table q = some ⟨rows, []⟩) (condition : Option (Lambda α Bool)) :
    run e table (condition.elim q fun f => q.filter (holds provider f)) =
      (keep (fun a => condition.elim (some true) fun f => holds provider f a) rows).map
        fun kept => ⟨kept, []⟩ := by
  cases condition with
  | none => simp [hq]
  | some f => simp [run, hq]

/-- The conditions keep the rows that satisfy the specification. -/
theorem run_filtered : run e table (filtered provider r spec) =
    (keep (satisfies provider r spec) (e.arrange .none table)).map fun rows => ⟨rows, []⟩ := by
  have hsource : run e table (if spec.isReadOnly then Query.source.asNoTracking else .source) =
      some ⟨e.arrange .none table, []⟩ := by
    split <;> rfl
  unfold filtered satisfies
  rw [searched_eq]
  cases spec.criteria with
  | none => simpa using run_condition hsource (search r spec)
  | some f =>
    simp only [Option.elim_some]
    rw [← keep_keep]
    cases hkept : keep (holds provider f) (e.arrange .none table) with
    | none => cases search r spec <;> simp [run, hsource, hkept]
    | some kept =>
      rw [Option.bind_some]
      exact run_condition (by simp [run, hsource, hkept]) (search r spec)

/-- Sorting does not change which rows there are. -/
theorem answers_ordered (h : Answers e table q [] rows) :
    Answers e table (ordered r spec q) (orders r spec) rows := by
  unfold ordered orders
  cases spec.orderBy with
  | some key =>
    simpa [List.foldl_map] using (h.orderBy (keyOrder r.comparer key false)).thenByAll
      (spec.thenByExpressions.map fun then' => keyOrder r.comparer then'.1 then'.2)
  | none => cases spec.orderByDescending with
    | some key =>
      simpa [List.foldl_map] using (h.orderBy (keyOrder r.comparer key true)).thenByAll
        (spec.thenByExpressions.map fun then' => keyOrder r.comparer then'.1 then'.2)
    | none => simpa using h

theorem run_ordered_none (h : run e table q = none) : run e table (ordered r spec q) = none := by
  unfold ordered
  cases spec.orderBy with
  | some key =>
    simpa [List.foldl_map] using run_thenByAll_none (q := q.orderBy _) (by simp [run, h])
      (spec.thenByExpressions.map fun then' => keyOrder r.comparer then'.1 then'.2)
  | none => cases spec.orderByDescending with
    | some key =>
      simpa [List.foldl_map] using run_thenByAll_none (q := q.orderBy _) (by simp [run, h])
        (spec.thenByExpressions.map fun then' => keyOrder r.comparer then'.1 then'.2)
    | none => simpa using h

end SpecificationEvaluator

namespace Repository

open SpecificationEvaluator (satisfies orders filtered ordered getQuery answers_ordered
  run_filtered run_ordered_none)

variable (t : Table α) (r : Runtime κ) (spec : Specification α κ)

def applySpecification : Option (List α) :=
  toList t.engine t.rows (getQuery t.provider r spec)

def listAsync : Option (List α) := applySpecification t r spec

def countAsync : Option Int32 := (applySpecification t r spec).bind count

/-- The part of the rows that a specification with paging asks for. -/
def slice (provider : Provider) (spec : Specification α κ) (rows : List α) : Option (List α) :=
  if spec.isPagingEnabled then skipTake provider rows spec.skip spec.take else some rows

variable {t r spec}

/-- Rows are sorted, whatever is included, and cut at the end. -/
theorem applySpecification_run : applySpecification t r spec =
    (run t.engine t.rows (ordered r spec (spec.includeStrings.foldl .include
      (spec.includes.foldl .include (filtered t.provider r spec))))).bind fun result =>
        slice t.provider spec result.rows := by
  unfold applySpecification getQuery toList slice
  cases spec.isPagingEnabled with
  | false => simp [Option.map_eq_bind]
  | true =>
    simp only [if_true, run]
    cases run t.engine t.rows (ordered r spec (spec.includeStrings.foldl .include
      (spec.includes.foldl .include (filtered t.provider r spec)))) with
    | none => rfl
    | some result =>
      cases hskip : t.provider.rowCount spec.skip <;>
        cases htake : t.provider.rowCount spec.take <;>
          simp [Table.engine, skipTake, hskip, htake]

/-- The rows that satisfy a specification are sorted, and then cut. -/
theorem applySpecification_of_keep {sat : List α}
    (h : keep (satisfies t.provider r spec) t.rows = some sat) :
    ∃ arr, Answer (lexicographic (orders r spec)) sat arr ∧
      applySpecification t r spec = slice t.provider spec arr := by
  obtain ⟨hkept, hperm⟩ := keep_perm (t.answer .none t.rows).perm h
  have hrows : Answers t.engine t.rows (spec.includeStrings.foldl .include
      (spec.includes.foldl .include (filtered t.provider r spec))) [] sat := by
    refine ⟨_, ?_, hperm, List.pairwise_of_forall fun _ _ => rfl⟩
    rw [run_includeAll, run_includeAll, run_filtered, Table.engine, hkept, Option.map_some]
  obtain ⟨arr, hrun, harr⟩ := answers_ordered hrows
  exact ⟨arr, harr, by rw [applySpecification_run, hrun, Option.bind_some]⟩

theorem applySpecification_none (h : keep (satisfies t.provider r spec) t.rows = none) :
    applySpecification t r spec = none := by
  have hfiltered : run t.engine t.rows (spec.includeStrings.foldl .include
      (spec.includes.foldl .include (filtered t.provider r spec))) = none := by
    have hnone := keep_none_of_perm (t.answer .none t.rows).perm h
    rw [run_includeAll, run_includeAll, run_filtered, Table.engine, hnone, Option.map_none]
  rw [applySpecification_run, run_ordered_none hfiltered, Option.bind_none]

end Repository

end Specifications
