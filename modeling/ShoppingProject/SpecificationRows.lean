import ShoppingProject.DomainEvents
import ShoppingProject.Specifications

/-!
# The rows of a specification

A specification that is built by any calls lists the rows that its criteria say, in the
order that its keys say, cut where its last paging says. Counting runs the same query, so
that it counts the rows of the page.
-/
namespace SpecificationRows

open DomainEvents (Product)
open ExpressionTrees Specifications
open PageOffsets (Provider count)
open Paging (Sorting)
open Queries (keep keep_of_total lexicographic)
open Specifications.SpecificationEvaluator (keyOrder orders satisfies search)
open Specifications.Repository (applySpecification_of_keep applySpecification_none countAsync
  listAsync slice)

variable {α κ : Type}

/-! ## Counting -/

/-- The count is the number of the rows that satisfy the specification. -/
def Counts (t : Table α) (r : Runtime κ) (spec : Specification α κ) : Prop :=
  ∃ sat, keep (satisfies t.provider r spec) t.rows = some sat ∧
    ∃ n, countAsync t r spec = some n ∧ n.toInt = sat.length

/-- The paging of a specification, if it has one, is accepted and cuts nothing off. -/
def Whole (provider : Provider) (spec : Specification α κ) (total : ℕ) : Prop :=
  spec.isPagingEnabled = true → ∃ skip take, provider.rowCount spec.skip = some skip ∧
    provider.rowCount spec.take = some take ∧ (total = 0 ∨ skip = 0 ∧ total ≤ take)

theorem count_eq_some {source : List α} {n : Int32} :
    count source = some n ↔ source.length < 2 ^ 31 ∧ n.toInt = source.length := by
  have hofNat : source.length < 2 ^ 31 → (Int32.ofNat source.length).toInt = source.length :=
    fun h => Int32.toInt_ofNat_of_lt h
  unfold count
  constructor
  · intro h
    split at h
    · case isTrue hlt =>
      obtain rfl := Option.some.inj h
      exact ⟨hlt, hofNat hlt⟩
    · cases h
  · rintro ⟨hlt, hn⟩
    rw [if_pos hlt, Option.some_inj]
    exact Int32.toInt.inj ((hofNat hlt).trans hn.symm)

/-- A slice has all the rows if it is the whole. -/
theorem slice_length_iff (provider : Provider) (spec : Specification α κ) (arr : List α) :
    (∃ rows, slice provider spec arr = some rows ∧ rows.length = arr.length) ↔
      Whole provider spec arr.length := by
  unfold slice Whole PageOffsets.skipTake
  cases spec.isPagingEnabled with
  | false => simp
  | true =>
    cases provider.rowCount spec.skip with
    | none => simp
    | some skip => cases provider.rowCount spec.take with
      | none => simp
      | some take =>
        have hcut : min take (arr.length - skip) = arr.length ↔
            arr.length = 0 ∨ skip = 0 ∧ arr.length ≤ take := by omega
        simpa using hcut

theorem counted_iff {t : Table α} {r : Runtime κ} {spec : Specification α κ} {sat : List α}
    (hsat : keep (satisfies t.provider r spec) t.rows = some sat) :
    (∃ n, countAsync t r spec = some n ∧ n.toInt = sat.length) ↔
      sat.length < 2 ^ 31 ∧ Whole t.provider spec sat.length := by
  obtain ⟨arr, harr, happly⟩ := applySpecification_of_keep hsat
  have hlength : arr.length = sat.length := harr.perm.length_eq
  rw [← hlength, ← slice_length_iff, countAsync, happly]
  simp only [Option.bind_eq_some_iff, count_eq_some]
  constructor
  · rintro ⟨n, ⟨rows, hrows, hlt, hn⟩, htotal⟩
    have hsame : rows.length = arr.length := by omega
    exact ⟨by omega, rows, hrows, hsame⟩
  · rintro ⟨hlt, rows, hrows, hsame⟩
    exact ⟨Int32.ofNat rows.length, ⟨rows, hrows, by omega, Int32.toInt_ofNat_of_lt (by omega)⟩,
      by rw [Int32.toInt_ofNat_of_lt (by omega), hsame]⟩

/-- Only a specification that has no paging, or one that cuts nothing off, counts its rows. -/
theorem counts_iff (t : Table α) (r : Runtime κ) (spec : Specification α κ) :
    Counts t r spec ↔ ∃ sat, keep (satisfies t.provider r spec) t.rows = some sat ∧
      sat.length < 2 ^ 31 ∧ Whole t.provider spec sat.length :=
  exists_congr fun _ => and_congr_right fun hsat => counted_iff hsat

def cup (id : ℤ) : Product :=
  ⟨id, .active, 0, none, 0, none, "Cup", id, "", "Kitchen", "", ⟨0, 0⟩⟩

/-- Keys that are whole numbers. -/
def byNumber : Runtime ℤ where
  comparer := ⟨fun a b => decide (a ≤ b), fun a b => by simpa using le_total a b,
    fun a b c hab hbc => by simp only [decide_eq_true_eq] at hab hbc ⊢; omega⟩
  parameter := 0

/-- One row is counted where two are meant. -/
theorem page_counted : ¬ Counts (.of .database [cup 1, cup 2]) byNumber
    (BaseSpecification.applyPaging (BaseSpecification.new none) 0 1) := by
  rintro ⟨sat, hsat, hcount⟩
  obtain ⟨-, hwhole⟩ := (counted_iff hsat).mp hcount
  obtain rfl : sat = [cup 1, cup 2] := Option.some.inj (hsat.symm.trans rfl)
  obtain ⟨skip, take, -, htake, hcut⟩ := hwhole rfl
  obtain rfl : take = 1 := Option.some.inj (htake.symm.trans (by decide))
  rcases hcut with hempty | ⟨-, hle⟩
  · exact absurd hempty (by decide)
  · exact absurd hle (by decide)

/-! ## Building -/

inductive Connective where
  | and | or
  deriving DecidableEq, Repr

/-- The calls that put a specification together, other than that of a search. -/
inductive Call (α κ : Type) where
  | andCriteria (parameter : ℕ) (additionalCriteria : Lambda α Bool)
  | orCriteria (parameter : ℕ) (additionalCriteria : Lambda α Bool)
  | applyOrderBy (orderByExpression : α → κ)
  | applyOrderByDescending (orderByDescExpression : α → κ)
  | addThenBy (thenByExpression : α → κ) (descending : Bool)
  | applyPaging (skip take : Int32)
  | addInclude (includeExpression : String)
  | addIncludeString (includeString : String)
  | applyReadOnly

namespace Call

def apply (spec : Specification α κ) : Call α κ → Specification α κ
  | andCriteria x f => BaseSpecification.andCriteria spec x f
  | orCriteria x f => BaseSpecification.orCriteria spec x f
  | applyOrderBy key => BaseSpecification.applyOrderBy spec key
  | applyOrderByDescending key => BaseSpecification.applyOrderByDescending spec key
  | addThenBy key descending => BaseSpecification.addThenBy spec key descending
  | applyPaging skip take => BaseSpecification.applyPaging spec skip take
  | addInclude path => BaseSpecification.addInclude spec path
  | addIncludeString path => BaseSpecification.addIncludeString spec path
  | applyReadOnly => BaseSpecification.applyReadOnly spec

def criterion? : Call α κ → Option (Connective × Lambda α Bool)
  | andCriteria _ f => some (.and, f)
  | orCriteria _ f => some (.or, f)
  | _ => none

/-- A key, and whether it sorts downwards. -/
def primary? : Call α κ → Option ((α → κ) × Bool)
  | applyOrderBy key => some (key, false)
  | applyOrderByDescending key => some (key, true)
  | _ => none

def secondary? : Call α κ → Option ((α → κ) × Bool)
  | addThenBy key descending => some (key, descending)
  | _ => none

def paging? : Call α κ → Option (Int32 × Int32)
  | applyPaging skip take => some (skip, take)
  | _ => none

end Call

variable (initial : Option (Lambda α Bool)) (calls : List (Call α κ))

def build : Specification α κ := calls.foldl Call.apply (BaseSpecification.new initial)

/-- The criteria in the order they were added. -/
def criteria : List (Connective × Lambda α Bool) :=
  (initial.map fun f => (.and, f)).toList ++ calls.filterMap Call.criterion?

def keys : List ((α → κ) × Bool) :=
  calls.filterMap Call.primary? ++ calls.filterMap Call.secondary?

def Smaller (comparer : Sorting κ) (x y : κ) : Prop := comparer.le y x = false

instance (comparer : Sorting κ) (x y : κ) : Decidable (Smaller comparer x y) :=
  inferInstanceAs (Decidable (_ = _))

/-- The first key that tells two rows apart lets one of them come first: the one of the
smaller value, or of the larger one if the key sorts downwards. -/
def MayPrecede (comparer : Sorting κ) : List ((α → κ) × Bool) → α → α → Prop
  | [], _, _ => True
  | (key, false) :: more, a, b => Smaller comparer (key a) (key b) ∨
      ¬ Smaller comparer (key b) (key a) ∧ MayPrecede comparer more a b
  | (key, true) :: more, a, b => Smaller comparer (key b) (key a) ∨
      ¬ Smaller comparer (key a) (key b) ∧ MayPrecede comparer more a b

instance MayPrecede.decidable (comparer : Sorting κ) :
    (keys : List ((α → κ) × Bool)) → (a b : α) → Decidable (MayPrecede comparer keys a b)
  | [], _, _ => .isTrue trivial
  | (_, false) :: more, a, b =>
    have := MayPrecede.decidable comparer more a b
    inferInstanceAs (Decidable (_ ∨ ¬ _ ∧ _))
  | (_, true) :: more, a, b =>
    have := MayPrecede.decidable comparer more a b
    inferInstanceAs (Decidable (_ ∨ ¬ _ ∧ _))

def Connective.join : Connective → Bool → Bool → Bool
  | .and => (· && ·)
  | .or => (· || ·)

def truth (L : Logic) (f : Lambda α Bool) (a : α) : Bool := f.apply L a == some true

/-- Criteria joined from left to right, all of one row; the first joins nothing. -/
def combination (L : Logic) (a : α) : List (Connective × Lambda α Bool) → Bool
  | [] => true
  | first :: more =>
    more.foldl (fun b c => c.1.join b (truth L c.2 a)) (truth L first.2 a)

/-- The rows from the skipped ones on, as many as are taken. -/
def cut (paging : Option (Int32 × Int32)) (rows : List α) : List α :=
  match paging with
  | none => rows
  | some (skip, take) => (rows.drop skip.toInt.toNat).take take.toInt.toNat

/-! ## What has been built -/

def Connective.joinIn (L : Logic) : Connective → Option Bool → Option Bool → Option Bool
  | .and => L.and
  | .or => L.or

/-- The criteria of a row, which may have no truth value. -/
def value (L : Logic) (a : α) : List (Connective × Lambda α Bool) → Option (Option Bool)
  | [] => none
  | first :: more =>
    some (more.foldl (fun b c => c.1.joinIn L b (c.2.apply L a)) (first.2.apply L a))

/-- The primary orders that a specification has kept. -/
def primaries (spec : Specification α κ) : List ((α → κ) × Bool) :=
  (spec.orderBy.map fun key => (key, false)).toList ++
    (spec.orderByDescending.map fun key => (key, true)).toList

/-- The paging of a specification. -/
def pagingOf (spec : Specification α κ) : Option (Int32 × Int32) :=
  if spec.isPagingEnabled then some (spec.skip, spec.take) else none

/-- What a specification keeps of its calls; of two primary orders of a kind it keeps one. -/
structure Built (initial : Option (Lambda α Bool)) (calls : List (Call α κ))
    (spec : Specification α κ) : Prop where
  meaning : ∀ L a, spec.criteria.map (fun f => f.apply L a) = value L a (criteria initial calls)
  primary : (calls.filterMap Call.primary?).length ≤ 1 →
    primaries spec = calls.filterMap Call.primary?
  secondary : spec.thenByExpressions = calls.filterMap Call.secondary?
  paging : pagingOf spec = (calls.filterMap Call.paging?).getLast?
  unsearched : spec.searchTerm = none

theorem built_new : Built initial [] (BaseSpecification.new initial : Specification α κ) where
  meaning L a := by cases initial <;> rfl
  primary _ := rfl
  secondary := rfl
  paging := rfl
  unsearched := rfl

theorem value_append (L : Logic) (a : α) (cs : List (Connective × Lambda α Bool))
    (c : Connective × Lambda α Bool) : value L a (cs ++ [c]) =
      some ((value L a cs).elim (c.2.apply L a) fun b => c.1.joinIn L b (c.2.apply L a)) := by
  cases cs with
  | nil => rfl
  | cons first more => simp [value]

theorem combined_apply (L : Logic) (x : ℕ) (f g : Lambda α Bool) (a : α) :
    (BaseSpecification.combined x f g).apply L a = L.and (f.apply L a) (g.apply L a) := by
  rw [BaseSpecification.combined, Lambda.apply, eval, f.eval_on_bind, g.eval_on_bind]

theorem alternative_apply (L : Logic) (x : ℕ) (f g : Lambda α Bool) (a : α) :
    (BaseSpecification.alternative x f g).apply L a = L.or (f.apply L a) (g.apply L a) := by
  rw [BaseSpecification.alternative, Lambda.apply, eval, f.eval_on_bind, g.eval_on_bind]

variable {initial calls} {spec : Specification α κ}

theorem andCriteria_eq (x : ℕ) (f : Lambda α Bool) : BaseSpecification.andCriteria spec x f =
    { spec with
      criteria := some (spec.criteria.elim f fun g => BaseSpecification.combined x g f) } := by
  unfold BaseSpecification.andCriteria
  cases spec.criteria <;> rfl

theorem orCriteria_eq (x : ℕ) (f : Lambda α Bool) : BaseSpecification.orCriteria spec x f =
    { spec with
      criteria := some (spec.criteria.elim f fun g => BaseSpecification.alternative x g f) } := by
  unfold BaseSpecification.orCriteria
  cases spec.criteria <;> rfl

theorem filterMap_snoc {β : Type*} (f : Call α κ → Option β) (call : Call α κ) :
    (calls ++ [call]).filterMap f = calls.filterMap f ++ (f call).toList := by
  cases hf : f call <;> simp [hf]

theorem criteria_snoc (call : Call α κ) :
    criteria initial (calls ++ [call]) = criteria initial calls ++ call.criterion?.toList := by
  rw [criteria, filterMap_snoc, criteria, List.append_assoc]

/-- A call adds its criterion to those before. -/
theorem Built.meaning_step (h : Built initial calls spec) (call : Call α κ) (L : Logic) (a : α) :
    (call.apply spec).criteria.map (fun f => f.apply L a) =
      value L a (criteria initial (calls ++ [call])) := by
  rw [criteria_snoc]
  cases call with
  | andCriteria x f =>
    rw [Call.criterion?, Option.toList_some, value_append, ← h.meaning L a, Call.apply,
      andCriteria_eq]
    cases spec.criteria <;> simp [combined_apply, Connective.joinIn]
  | orCriteria x f =>
    rw [Call.criterion?, Option.toList_some, value_append, ← h.meaning L a, Call.apply,
      orCriteria_eq]
    cases spec.criteria <;> simp [alternative_apply, Connective.joinIn]
  | _ => exact (h.meaning L a).trans (congrArg (value L a) (List.append_nil _).symm)

/-- Other calls leave the primary order alone. -/
theorem primaries_apply {call : Call α κ} (h : call.primary? = none) :
    primaries (call.apply spec) = primaries spec := by
  cases call with
  | applyOrderBy key => cases h
  | applyOrderByDescending key => cases h
  | andCriteria x f => rw [Call.apply, andCriteria_eq]; rfl
  | orCriteria x f => rw [Call.apply, orCriteria_eq]; rfl
  | _ => rfl

theorem primaries_first {call : Call α κ} {key : (α → κ) × Bool} (hcall : call.primary? = some key)
    (h : primaries spec = []) : primaries (call.apply spec) = [key] := by
  obtain ⟨horderBy, hdescending⟩ := List.append_eq_nil_iff.mp h
  cases call with
  | applyOrderBy k =>
    cases hcall
    exact congrArg (_ :: ·) hdescending
  | applyOrderByDescending k =>
    cases hcall
    exact congrArg (· ++ _) horderBy
  | _ => cases hcall

theorem Built.primary_step (h : Built initial calls spec) (call : Call α κ)
    (hone : ((calls ++ [call]).filterMap Call.primary?).length ≤ 1) :
    primaries (call.apply spec) = (calls ++ [call]).filterMap Call.primary? := by
  rw [filterMap_snoc, List.length_append] at hone
  rw [filterMap_snoc]
  have hbefore := h.primary (by omega)
  cases hcall : call.primary? with
  | none => simp [primaries_apply hcall, hbefore]
  | some key =>
    -- No other call can have been one of a primary order.
    have hnil : calls.filterMap Call.primary? = [] := by
      rw [hcall, Option.toList_some, List.length_singleton] at hone
      exact List.eq_nil_of_length_eq_zero (by omega)
    rw [hnil] at hbefore ⊢
    exact primaries_first hcall hbefore

theorem thenBy_apply (call : Call α κ) : (call.apply spec).thenByExpressions =
    spec.thenByExpressions ++ call.secondary?.toList := by
  cases call with
  | addThenBy key descending => rfl
  | andCriteria x f => rw [Call.apply, andCriteria_eq]; exact (List.append_nil _).symm
  | orCriteria x f => rw [Call.apply, orCriteria_eq]; exact (List.append_nil _).symm
  | _ => exact (List.append_nil _).symm

theorem paging_apply (call : Call α κ) :
    pagingOf (call.apply spec) = call.paging?.or (pagingOf spec) := by
  cases call with
  | andCriteria x f => rw [Call.apply, andCriteria_eq]; rfl
  | orCriteria x f => rw [Call.apply, orCriteria_eq]; rfl
  | _ => rfl

theorem searchTerm_apply (call : Call α κ) : (call.apply spec).searchTerm = spec.searchTerm := by
  cases call with
  | andCriteria x f => rw [Call.apply, andCriteria_eq]
  | orCriteria x f => rw [Call.apply, orCriteria_eq]
  | _ => rfl

theorem Built.step (h : Built initial calls spec) (call : Call α κ) :
    Built initial (calls ++ [call]) (call.apply spec) where
  meaning := h.meaning_step call
  primary := h.primary_step call
  secondary := by rw [filterMap_snoc, thenBy_apply, h.secondary]
  paging := by
    rw [filterMap_snoc, paging_apply, h.paging, List.getLast?_append]
    cases call.paging? <;> rfl
  unsearched := by rw [searchTerm_apply, h.unsearched]

theorem built_build (initial : Option (Lambda α Bool)) (calls : List (Call α κ)) :
    Built initial calls (build initial calls) := by
  induction calls using List.reverseRecOn with
  | nil => exact built_new initial
  | append_singleton calls call ih =>
    rw [build, List.foldl_concat]
    exact ih.step call

/-! ## What is listed -/

theorem joinIn_some (L : Logic) (c : Connective) (x y : Bool) :
    c.joinIn L (some x) (some y) = some (c.join x y) := by
  cases c with
  | and => exact L.and_some x y
  | or => exact L.or_some x y

theorem truth_eq {L : Logic} {f : Lambda α Bool} {a : α} (h : (f.apply L a).isSome) :
    f.apply L a = some (truth L f a) := by
  obtain ⟨b, hb⟩ := Option.isSome_iff_exists.mp h
  rw [truth, hb]
  cases b <;> rfl

theorem foldl_total {L : Logic} {a : α} {cs : List (Connective × Lambda α Bool)}
    (h : ∀ c ∈ cs, (c.2.apply L a).isSome) (b : Bool) :
    cs.foldl (fun b c => c.1.joinIn L b (c.2.apply L a)) (some b) =
      some (cs.foldl (fun b c => c.1.join b (truth L c.2 a)) b) := by
  induction cs generalizing b with
  | nil => rfl
  | cons c cs ih =>
    rw [List.foldl_cons, List.foldl_cons, truth_eq (h c List.mem_cons_self), joinIn_some]
    exact ih (fun d hd => h d (List.mem_cons_of_mem c hd)) _

/-- Criteria that fail on no row have the truth value that they are combined to. -/
theorem value_total {L : Logic} {a : α} {cs : List (Connective × Lambda α Bool)}
    (h : ∀ c ∈ cs, (c.2.apply L a).isSome) :
    (value L a cs).elim (some true) id = some (combination L a cs) := by
  cases cs with
  | nil => rfl
  | cons first more =>
    rw [value, Option.elim_some, id, truth_eq (h first List.mem_cons_self), combination]
    exact foldl_total (fun c hc => h c (List.mem_cons_of_mem first hc)) _

theorem holds_of_apply {provider : Provider} {f : Lambda α Bool} {a : α} {b : Bool}
    (h : f.apply (logic provider) a = some b) : holds provider f a = some b := by
  cases provider with
  | database =>
    rw [holds, show f.apply threeValued a = some b from h]
    cases b <;> rfl
  | objects => exact h

theorem Built.satisfies_eq (h : Built initial calls spec) {provider : Provider} {r : Runtime κ}
    {a : α} (htotal : ∀ c ∈ criteria initial calls, (c.2.apply (logic provider) a).isSome) :
    satisfies provider r spec a =
      some (combination (logic provider) a (criteria initial calls)) := by
  have hsearch : search r spec = none := by rw [search, h.unsearched, Option.bind_none]
  have hvalue := value_total htotal
  rw [← h.meaning] at hvalue
  rw [satisfies, hsearch]
  cases hcriteria : spec.criteria with
  | none =>
    rw [hcriteria] at hvalue
    exact hvalue
  | some f =>
    rw [hcriteria, Option.map_some, Option.elim_some, id] at hvalue
    rw [Option.elim_some, holds_of_apply hvalue]
    cases combination (logic provider) a (criteria initial calls) <;> rfl

theorem orders_eq (r : Runtime κ) (hone : (primaries spec).length ≤ 1)
    (hsecondary : spec.thenByExpressions ≠ [] → primaries spec ≠ []) :
    orders r spec = (primaries spec ++ spec.thenByExpressions).map
      fun key => keyOrder r.comparer key.1 key.2 := by
  unfold orders
  unfold primaries at hone hsecondary ⊢
  cases horderBy : spec.orderBy with
  | some key => cases hdescending : spec.orderByDescending with
    | some key' => simp [horderBy, hdescending] at hone
    | none => rfl
  | none => cases hdescending : spec.orderByDescending with
    | some key => rfl
    | none =>
      have hnil : spec.thenByExpressions = [] := by
        by_contra hne
        exact hsecondary hne (by rw [horderBy, hdescending]; rfl)
      rw [hnil]
      rfl

theorem smaller_or_iff (comparer : Sorting κ) (x y : κ) (P : Prop) :
    Smaller comparer x y ∨ ¬ Smaller comparer y x ∧ P ↔
      comparer.le x y = true ∧ (comparer.le y x = false ∨ P) := by
  have htotal := comparer.total x y
  unfold Smaller
  cases hyx : comparer.le y x with
  | false => simpa [hyx] using htotal
  | true => simp

/-- The orders of the evaluator, one after the other, are those of the keys. -/
theorem lexicographic_iff (comparer : Sorting κ) (keys : List ((α → κ) × Bool)) (a b : α) :
    (lexicographic (keys.map fun key => keyOrder comparer key.1 key.2)).le a b = true ↔
      MayPrecede comparer keys a b := by
  induction keys with
  | nil => exact ⟨fun _ => trivial, fun _ => rfl⟩
  | cons key more ih =>
    obtain ⟨key, descending⟩ := key
    cases descending with
    | false =>
      rw [MayPrecede, smaller_or_iff, ← ih]
      simp [lexicographic, Queries.thenBy, keyOrder, Sorting.by']
    | true =>
      rw [MayPrecede, smaller_or_iff, ← ih]
      simp [lexicographic, Queries.thenBy, keyOrder, Sorting.by', Sorting.descending]

theorem rowCount_of_nonneg (provider : Provider) {n : Int32} (h : 0 ≤ n) :
    provider.rowCount n = some n.toInt.toNat := by
  cases provider with
  | database => exact if_pos h
  | objects => rfl

theorem slice_eq_cut {provider : Provider}
    (h : ∀ paging ∈ pagingOf spec, 0 ≤ paging.1 ∧ 0 ≤ paging.2) (arr : List α) :
    slice provider spec arr = some (cut (pagingOf spec) arr) := by
  unfold slice
  unfold pagingOf at h ⊢
  cases henabled : spec.isPagingEnabled with
  | false => rfl
  | true =>
    obtain ⟨hskip, htake⟩ := h (spec.skip, spec.take) (by rw [if_pos henabled]; rfl)
    simp [PageOffsets.skipTake, rowCount_of_nonneg provider hskip,
      rowCount_of_nonneg provider htake, cut]

/-- The rows that the criteria combine to, by all keys, cut by the last paging. -/
theorem listAsync_denotes (t : Table α) (r : Runtime κ) (initial : Option (Lambda α Bool))
    (calls : List (Call α κ))
    (htotal : ∀ c ∈ criteria initial calls, ∀ a ∈ t.rows, (c.2.apply (logic t.provider) a).isSome)
    (hone : (calls.filterMap Call.primary?).length ≤ 1)
    (hsecondary : calls.filterMap Call.secondary? ≠ [] → calls.filterMap Call.primary? ≠ [])
    (hpaging : ∀ paging ∈ calls.filterMap Call.paging?, 0 ≤ paging.1 ∧ 0 ≤ paging.2) :
    ∃ arr : List α,
      arr.Perm
        (t.rows.filter fun a => combination (logic t.provider) a (criteria initial calls)) ∧
      arr.Pairwise (MayPrecede r.comparer (keys calls)) ∧
      listAsync t r (build initial calls) =
        some (cut (calls.filterMap Call.paging?).getLast? arr) := by
  have hbuilt := built_build initial calls
  have hkept : keep (satisfies t.provider r (build initial calls)) t.rows =
      some (t.rows.filter fun a => combination (logic t.provider) a (criteria initial calls)) :=
    keep_of_total fun a ha => hbuilt.satisfies_eq fun c hc => htotal c hc a ha
  obtain ⟨arr, harr, happly⟩ := applySpecification_of_keep hkept
  have hprimary := hbuilt.primary hone
  rw [orders_eq r (by rw [hprimary]; exact hone)
    (by rw [hprimary, hbuilt.secondary]; exact hsecondary), hprimary, hbuilt.secondary] at harr
  refine ⟨arr, harr.perm, ?_, ?_⟩
  · exact harr.ordered.imp fun hle => (lexicographic_iff r.comparer (keys calls) _ _).mp hle
  · rw [listAsync, happly, slice_eq_cut, hbuilt.paging]
    intro paging hmem
    rw [hbuilt.paging] at hmem
    exact hpaging paging (List.mem_of_getLast? hmem)

/-- Active cups, or any from the second on, the later ones first. -/
def recentCups : List (Call Product ℤ) :=
  [.addThenBy (fun p => p.lastModified) false, .orCriteria 0 (.of 1 fun p => decide (2 ≤ p.id)),
    .applyOrderByDescending Product.created, .applyPaging 0 1, .applyPaging 1 2, .applyReadOnly]

/-- The second cup is the latest; the last two tie but for their last change. -/
def latest : List Product :=
  [{ cup 2 with created := 9, status := .deleted }, { cup 3 with created := 5, lastModified := 1 },
    { cup 1 with created := 5, lastModified := 2 }]

/-- A deleted cup that is not meant, and the others in no order. -/
def shelf : List Product := { cup 0 with status := .deleted } :: latest.reverse

theorem recentCups_listed :
    listAsync (.of .database shelf) byNumber
      (build (some (.of 0 fun p => p.status == .active)) recentCups) = some latest.tail := by
  obtain ⟨arr, hperm, hordered, hlisted⟩ := listAsync_denotes (.of .database shelf) byNumber
    (some (.of 0 fun p => p.status == .active)) recentCups
    (by simp [criteria, recentCups, Call.criterion?]) (by decide) (by decide)
    (List.forall_mem_cons.mpr ⟨by decide, List.forall_mem_singleton.mpr (by decide)⟩)
  have hlatest : arr.Perm latest := hperm.trans (by decide)
  -- No two of these rows tie, so that they have one order.
  have hstrict : ∀ a ∈ latest, ∀ b ∈ latest,
      MayPrecede byNumber.comparer (keys recentCups) a b →
        MayPrecede byNumber.comparer (keys recentCups) b a → a = b := by decide
  have hsorted : arr = latest := hlatest.eq_of_pairwise
    (fun a b ha hb => hstrict a (hlatest.mem_iff.mp ha) b hb) hordered (by decide)
  rw [hlisted, hsorted]
  rfl

end SpecificationRows
