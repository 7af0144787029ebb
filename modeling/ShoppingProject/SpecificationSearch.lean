import ShoppingProject.DomainEvents
import ShoppingProject.Specifications

/-!
# Searching by specification

The search asks `Contains` of every selected property and joins the answers by `|`. The
comments promise a comparison that ignores case, and what `Contains` makes is one that does
not; and the compiled predicate asks properties that are null.
-/
namespace SpecificationSearch

open DomainEvents (Product)
open ExpressionTrees Specifications
open PageOffsets (Provider)
open Queries (keep keep_eq_some keep_filter keep_of_total)
open Specifications.SpecificationEvaluator (addProperty containsExpression searchExpression
  search satisfies)
open Specifications.Repository (applySpecification applySpecification_of_keep
  applySpecification_none slice)
open Validation (isNullOrWhiteSpace)

variable {α κ : Type}

/-- The value of a selected property, if there is one. -/
def selected (provider : Provider) (property : Lambda α (Option String)) (a : α) : Option String :=
  (property.apply (logic provider) a).join

def asWritten (searchTerm value : String) : Bool := decide (searchTerm.toList <:+: value.toList)

/-- Whether a text contains the term, where `fold` makes the cases of a letter one. -/
def ignoringCase (fold : Char → Char) (searchTerm value : String) : Bool :=
  decide (searchTerm.toList.map fold <:+: value.toList.map fold)

/-- One of the selected properties has a value that passes. -/
def finds (provider : Provider) (passes : String → Bool)
    (searchProperties : List (Lambda α (Option String))) (a : α) : Bool :=
  searchProperties.any fun property => (selected provider property a).any passes

theorem ignoringCase_of_asWritten {fold : Char → Char} {searchTerm value : String}
    (h : asWritten searchTerm value = true) : ignoringCase fold searchTerm value = true := by
  obtain ⟨before, after, hvalue⟩ := of_decide_eq_true h
  refine decide_eq_true ⟨before.map fold, after.map fold, ?_⟩
  simp [← hvalue]

/-- What one property answers. -/
def found (L : Logic) (searchTerm : String) (a : α) (property : Lambda α (Option String)) :
    Option Bool := (property.apply L a).bind fun value => value.map (asWritten searchTerm)

theorem found_isSome (provider : Provider) (searchTerm : String) (a : α)
    (property : Lambda α (Option String)) :
    (found (logic provider) searchTerm a property).isSome ↔
      (selected provider property a).isSome := by
  unfold found selected
  cases property.apply (logic provider) a with
  | none => rfl
  | some value => cases value <;> rfl

theorem found_true (provider : Provider) (searchTerm : String) (a : α)
    (property : Lambda α (Option String)) :
    found (logic provider) searchTerm a property = some true ↔
      (selected provider property a).any (asWritten searchTerm) = true := by
  unfold found selected
  cases property.apply (logic provider) a with
  | none => simp
  | some value => cases value <;> simp

/-! ## The predicate -/

theorem containsExpression_eval (L : Logic) (x : ℕ) (searchTerm : String)
    (property : Lambda α (Option String)) (a : α) :
    eval L (ExpressionTrees.bind noParameters x a) (containsExpression x searchTerm property).1 =
      found L searchTerm a property := by
  simp only [containsExpression, eval, property.eval_on_bind, found, Option.bind_some]
  rcases property.apply L a with _ | _ | value
  · rfl
  · rfl
  · exact congrArg some (decide_eq_decide.mpr Iff.rfl)

/-- Folding over more properties joins their answers to those before. -/
theorem searchExpression_step (L : Logic) (x : ℕ) (searchTerm : String)
    (e : { e : Expr α Bool // Closed (fun y => y = x) e })
    (properties : List (Lambda α (Option String))) :
    ∃ e', properties.foldl (addProperty x searchTerm) (some e) = some e' ∧
      ∀ a, eval L (ExpressionTrees.bind noParameters x a) e'.1 =
        L.any (eval L (ExpressionTrees.bind noParameters x a) e.1)
          (properties.map (found L searchTerm a)) := by
  induction properties generalizing e with
  | nil => exact ⟨e, rfl, fun a => rfl⟩
  | cons property properties ih =>
    obtain ⟨e', he', heval⟩ := ih ⟨.or e.1 (containsExpression x searchTerm property).1, e.2,
      (containsExpression x searchTerm property).2⟩
    refine ⟨e', he', fun a => ?_⟩
    rw [heval, eval, containsExpression_eval]
    rfl

theorem searchExpression_eval (L : Logic) (x : ℕ) (searchTerm : String)
    (property : Lambda α (Option String)) (properties : List (Lambda α (Option String))) :
    ∃ e, searchExpression x searchTerm (property :: properties) = some e ∧
      ∀ a, eval L (ExpressionTrees.bind noParameters x a) e.1 =
        L.any (found L searchTerm a property) (properties.map (found L searchTerm a)) := by
  obtain ⟨e, he, heval⟩ := searchExpression_step L x searchTerm
    (containsExpression x searchTerm property) properties
  refine ⟨e, he, fun a => ?_⟩
  rw [heval, containsExpression_eval]

/-! ## The rows that are kept -/

/-- A specification of a search and of nothing else. -/
def searching (searchTerm : String) (searchProperties : List (Lambda α (Option String))) :
    Specification α κ :=
  BaseSpecification.applySearch (BaseSpecification.new none) (some searchTerm) searchProperties

/-- There is no search for a blank term, nor one of no properties. -/
def Idle (searchTerm : String) (searchProperties : List (Lambda α (Option String))) : Prop :=
  isNullOrWhiteSpace (some searchTerm) = true ∨ searchProperties = []

variable {provider : Provider} {r : Runtime κ} {searchTerm : String}
  {searchProperties : List (Lambda α (Option String))}

theorem satisfies_idle (h : Idle searchTerm searchProperties) (a : α) :
    satisfies provider r (searching searchTerm searchProperties) a = some true := by
  have hsearch : search r (searching (κ := κ) searchTerm searchProperties) = none := by
    rcases h with h | rfl
    · simp [search, searching, BaseSpecification.applySearch, h]
    · simp [search, searching, BaseSpecification.applySearch]
  rw [satisfies, hsearch]
  rfl

/-- The lambda of a search is worth the answers of its properties. -/
theorem satisfies_search (provider : Provider) (r : Runtime κ)
    (h : ¬ Idle searchTerm searchProperties) : ∃ f : Lambda α Bool,
    (∀ a, satisfies provider r (searching searchTerm searchProperties) a = holds provider f a) ∧
    ∃ property properties, searchProperties = property :: properties ∧
      ∀ L a, f.apply L a =
        L.any (found L searchTerm a property) (properties.map (found L searchTerm a)) := by
  obtain ⟨hblank, hne⟩ := not_or.mp h
  obtain ⟨property, properties, rfl⟩ := List.exists_cons_of_ne_nil hne
  obtain ⟨e, he, -⟩ := searchExpression_eval strict r.parameter searchTerm property properties
  have hsearch : search r (searching (κ := κ) searchTerm (property :: properties)) =
      some ⟨r.parameter, e.1, e.2⟩ := by
    simp [search, searching, BaseSpecification.applySearch, BaseSpecification.new, hblank, he]
  refine ⟨⟨r.parameter, e.1, e.2⟩, fun a => ?_, property, properties, rfl, fun L a => ?_⟩
  · rw [satisfies, hsearch]
    rfl
  · obtain ⟨e', he', heval⟩ := searchExpression_eval L r.parameter searchTerm property properties
    obtain rfl : e = e' := Option.some.inj (he.symm.trans he')
    exact heval a

/-- A compiled search fails on a row with a selected property that is null. -/
theorem satisfies_isSome (h : ¬ Idle searchTerm searchProperties) (a : α) :
    (satisfies provider r (searching searchTerm searchProperties) a).isSome ↔
      (provider = .objects →
        ∀ property ∈ searchProperties, (selected .objects property a).isSome) := by
  obtain ⟨f, hf, property, properties, rfl, heval⟩ := satisfies_search provider r h
  rw [hf]
  cases provider with
  | database => simp [holds]
  | objects =>
    have hfound := fun p => found_isSome .objects searchTerm a p
    rw [holds, heval, strict_any_isSome]
    simp only [List.forall_mem_cons, List.forall_mem_map, forall_const]
    exact and_congr (hfound property) (forall₂_congr fun p _ => hfound p)

theorem satisfies_true (h : ¬ Idle searchTerm searchProperties) {a : α}
    (hsome : (satisfies provider r (searching searchTerm searchProperties) a).isSome) :
    satisfies provider r (searching searchTerm searchProperties) a = some true ↔
      finds provider (asWritten searchTerm) searchProperties a = true := by
  obtain ⟨f, hf, property, properties, rfl, heval⟩ := satisfies_search provider r h
  have hfound := fun p => found_true provider searchTerm a p
  have hfinds : finds provider (asWritten searchTerm) (property :: properties) a = true ↔
      some true ∈ (property :: properties).map (found (logic provider) searchTerm a) := by
    rw [finds, List.any_eq_true, List.mem_map]
    exact exists_congr fun p => and_congr_right fun _ => (hfound p).symm
  rw [hfinds]
  rw [hf] at hsome ⊢
  cases provider with
  | database =>
    rw [holds, heval, Option.some_inj, beq_iff_eq]
    exact threeValued_any_true _ _
  | objects =>
    rw [holds, heval] at hsome ⊢
    exact strict_any_true ((strict_any_isSome _ _).mp hsome)

/-! ## What the search promises -/

/-- The rows that come out are those with a selected property that contains the term, case
apart. -/
def KeepsMatches (fold : Char → Char) (t : Table α) (r : Runtime κ) (searchTerm : String)
    (searchProperties : List (Lambda α (Option String))) : Prop :=
  ∃ kept, applySpecification t r (searching searchTerm searchProperties) = some kept ∧
    kept.Perm (t.rows.filter (finds t.provider (ignoringCase fold searchTerm) searchProperties))

theorem finds_of_asWritten {fold : Char → Char} {a : α}
    (h : finds provider (asWritten searchTerm) searchProperties a = true) :
    finds provider (ignoringCase fold searchTerm) searchProperties a = true := by
  obtain ⟨property, hmem, hvalue⟩ := List.any_eq_true.mp h
  refine List.any_eq_true.mpr ⟨property, hmem, ?_⟩
  obtain ⟨value, hselected, hcontains⟩ := (Option.any_eq_true _ _).mp hvalue
  exact (Option.any_eq_true _ _).mpr ⟨value, hselected, ignoringCase_of_asWritten hcontains⟩

/-- The rows come out as promised if the predicate says of each what is promised. -/
theorem keepsMatches_iff (fold : Char → Char) (t : Table α) (r : Runtime κ) (searchTerm : String)
    (searchProperties : List (Lambda α (Option String))) :
    KeepsMatches fold t r searchTerm searchProperties ↔ ∀ a ∈ t.rows,
      satisfies t.provider r (searching searchTerm searchProperties) a =
        some (finds t.provider (ignoringCase fold searchTerm) searchProperties a) := by
  have hslice : ∀ arr, slice t.provider (searching (κ := κ) searchTerm searchProperties) arr =
      some arr := fun arr => rfl
  constructor
  · rintro ⟨kept, hkept, hperm⟩ a ha
    cases hsat : keep (satisfies t.provider r (searching searchTerm searchProperties)) t.rows with
    | none =>
      rw [applySpecification_none hsat] at hkept
      cases hkept
    | some sat =>
      obtain ⟨arr, harr, happly⟩ := applySpecification_of_keep hsat
      obtain rfl : arr = kept := by
        rw [happly, hslice] at hkept
        exact Option.some.inj hkept
      obtain ⟨b, hb⟩ := Option.isSome_iff_exists.mp (keep_eq_some hsat a ha)
      have hmem : a ∈ sat ↔ finds t.provider (ignoringCase fold searchTerm) searchProperties a := by
        rw [(harr.perm.symm.trans hperm).mem_iff, List.mem_filter]
        exact and_iff_right ha
      rw [keep_filter hsat, List.mem_filter, hb] at hmem
      rw [hb, Option.some_inj, Bool.eq_iff_iff, ← hmem]
      simp [ha]
  · intro h
    obtain ⟨arr, harr, happly⟩ := applySpecification_of_keep (keep_of_total h)
    exact ⟨arr, by rw [happly, hslice], harr.perm⟩

/-- A row without a term is kept by a blank search; otherwise compiled searches need every
property, and searches find terms as they are written. -/
theorem search_keeps_iff (fold : Char → Char) (t : Table α) (r : Runtime κ) (searchTerm : String)
    (searchProperties : List (Lambda α (Option String))) :
    KeepsMatches fold t r searchTerm searchProperties ↔
      if isNullOrWhiteSpace (some searchTerm) ∨ searchProperties = [] then
        ∀ a ∈ t.rows, finds t.provider (ignoringCase fold searchTerm) searchProperties a = true
      else ∀ a ∈ t.rows,
        (t.provider = .objects →
          ∀ property ∈ searchProperties, (selected .objects property a).isSome) ∧
        (finds t.provider (ignoringCase fold searchTerm) searchProperties a = true →
          finds t.provider (asWritten searchTerm) searchProperties a = true) := by
  rw [keepsMatches_iff]
  split
  · case isTrue hidle =>
    refine forall₂_congr fun a _ => ?_
    rw [satisfies_idle hidle, Option.some_inj, eq_comm]
  · case isFalse hsearch =>
    refine forall₂_congr fun a _ => ?_
    rw [← satisfies_isSome (r := r) hsearch]
    constructor
    · intro h
      have hsome : (satisfies t.provider r (searching searchTerm searchProperties) a).isSome := by
        rw [h]
        rfl
      refine ⟨hsome, fun hfinds => ?_⟩
      rw [← satisfies_true hsearch hsome, h, hfinds]
    · rintro ⟨hsome, hwritten⟩
      obtain ⟨b, hb⟩ := Option.isSome_iff_exists.mp hsome
      have htrue := satisfies_true hsearch hsome
      rw [hb, Option.some_inj] at htrue
      rw [hb, Option.some_inj, Bool.eq_iff_iff, htrue]
      exact ⟨finds_of_asWritten, hwritten⟩

/-! ## A product that is not found -/

def phone : Product where
  id := 1
  status := .active
  created := 0
  createdBy := none
  lastModified := 0
  lastModifiedBy := none
  title := "Phone"
  price := 1
  description := ""
  category := "Men's"
  image := ""
  rating := ⟨0, 0⟩

def unsorted : Runtime Product := ⟨.none, 0⟩

def title : Lambda Product (Option String) := .of 1 fun p => some p.title

def createdBy : Lambda Product (Option String) := .of 2 Product.createdBy

/-- The term differs in case from the title; and a product without an author fails. -/
theorem phone_not_found :
    ¬ KeepsMatches Char.toLower (.of .database [phone]) unsorted "phone" [title] ∧
    ¬ KeepsMatches Char.toLower (.of .objects [phone]) unsorted "Phone" [title, createdBy] := by
  constructor
  · intro h
    have hphone := (keepsMatches_iff _ _ _ _ _).mp h phone List.mem_cons_self
    revert hphone
    decide
  · intro h
    have hphone := (keepsMatches_iff _ _ _ _ _).mp h phone List.mem_cons_self
    revert hphone
    decide

end SpecificationSearch
