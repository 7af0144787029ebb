import Mathlib.Data.List.TakeWhile
import ShoppingProject.LocalAtomicity

/-!
# Products that are saved and read again

The queries name the columns of the rating `rating.rate` and `rating.count`. These are two
fields of the object that comes back, and it has no rating.
-/
namespace LocalProducts

open LocalDatabase
open LocalAtomicity (written productsLeft saveProducts_eq)
open OrderedQueries

/-- A product as the application has it. -/
def productJson (p : Product) : Json :=
  .obj [("id", .num p.id), ("title", .str p.title), ("price", .num p.price),
    ("description", .str p.description), ("category", .str p.category), ("image", .str p.image),
    ("rating", .obj [("rate", .num p.rating.rate), ("count", .num p.rating.count)])]

/-- A row as the queries name its columns. -/
def resultRow (r : ProductRow) : Json :=
  .obj [("id", .num r.id), ("title", .str r.title), ("price", .num r.price),
    ("description", .str r.description), ("category", .str r.category), ("image", .str r.image),
    ("rating.rate", .num r.ratingRate), ("rating.count", .num r.ratingCount)]

def getProduct (id : Int) (d : Database) : Option Json := (d.products.find id).map resultRow

/-- `ORDER BY created_at DESC`; `answer` is a possible answer of `getProducts`. -/
def IsProducts (d : Database) (answer : List Json) : Prop :=
  ∃ rows, Arranged (fun r => - r.createdAt) d.products.rows rows ∧ answer = rows.map resultRow

def fields : List String :=
  ["id", "title", "price", "description", "category", "image", "rating"]

/-- The object is the product in every field. -/
def Same (p : Product) (j : Json) : Prop :=
  ∀ name ∈ fields, j.field name = (productJson p).field name

/-- The object is the product in every field but the rating, which it has in two fields. -/
structure Flat (p : Product) (j : Json) : Prop where
  fields : ∀ name ∈ fields, name ≠ "rating" → j.field name = (productJson p).field name
  rating : j.field "rating" = none
  rate : j.field "rating.rate" = some (.num p.rating.rate)
  count : j.field "rating.count" = some (.num p.rating.count)

def toProduct (r : ProductRow) : Product :=
  ⟨r.id, r.title, r.price, r.description, r.category, r.image, ⟨r.ratingRate, r.ratingCount⟩⟩

theorem flat_resultRow (r : ProductRow) : Flat (toProduct r) (resultRow r) where
  fields name hname hrating := by
    simp only [LocalProducts.fields, List.mem_cons, List.not_mem_nil, or_false] at hname
    rcases hname with rfl | rfl | rfl | rfl | rfl | rfl | rfl
    · rfl
    · rfl
    · rfl
    · rfl
    · rfl
    · rfl
    · exact absurd rfl hrating
  rating := rfl
  rate := rfl
  count := rfl

theorem Flat.not_same {p : Product} {j : Json} (h : Flat p j) : ¬ Same p j := by
  intro hsame
  have hrating := hsame "rating" (by simp [LocalProducts.fields])
  rw [h.rating] at hrating
  cases hrating

/-- What is saved comes back, one by one and as a list, related to the products by `R`. -/
structure RoundTrip (R : Product → Json → Prop) (products : List Product) (d : Database) :
    Prop where
  single : ∀ p ∈ products, ∃ j, getProduct p.id d = some j ∧ R p j
  list : ∀ answer, IsProducts d answer → ∃ order : List Product,
    order.Perm products ∧ List.Forall₂ R order answer

theorem written_eq {saves : List (Product × Answer)}
    (hsucceed : ∀ s ∈ saves, s.2.succeeds = true) :
    written saves = saves.map fun s => productRow s.2 s.1 := by
  rw [written, List.takeWhile_eq_self_iff.mpr (by simpa using hsucceed)]

section

variable {saves : List (Product × Answer)} (hdistinct : (saves.map fun s => s.1.id).Nodup)
  (hsucceed : ∀ s ∈ saves, s.2.succeeds = true) {d : Database} (hempty : d.products.rows = [])

include hsucceed hempty

theorem saveProducts_succeeds : saveProducts saves d = .ok { d with
    products := (saves.map fun s => productRow s.2 s.1).foldl Keyed.replace .empty } := by
  have hproducts : d.products = .empty := Keyed.rows_injective hempty
  rw [saveProducts_eq, if_pos (by simpa using hsucceed), productsLeft, written_eq hsucceed,
    hproducts]

include hdistinct

/-- Everything comes back, without its rating. -/
theorem roundTrip_flat : ∃ d', saveProducts saves d = .ok d' ∧
    RoundTrip Flat (saves.map Prod.fst) d' := by
  have hkeys : ((saves.map fun s => productRow s.2 s.1).map ProductRow.id).Nodup := by
    rw [List.map_map]
    exact hdistinct
  refine ⟨_, saveProducts_succeeds hsucceed hempty, fun p hp => ?_, fun answer hanswer => ?_⟩
  · obtain ⟨s, hs, rfl⟩ := List.mem_map.mp hp
    refine ⟨resultRow (productRow s.2 s.1), ?_, flat_resultRow (productRow s.2 s.1)⟩
    have hfind := (Keyed.find_foldl_empty hkeys s.1.id (productRow s.2 s.1)).mpr
      ⟨List.mem_map_of_mem hs, rfl⟩
    simp [getProduct, hfind]
  · obtain ⟨rows, harranged, rfl⟩ := hanswer
    refine ⟨rows.map toProduct, ?_, ?_⟩
    · have hrows := (harranged.perm.trans (Keyed.foldl_replace_empty hkeys)).map toProduct
      rwa [List.map_map] at hrows
    · rw [List.forall₂_map_left_iff, List.forall₂_map_right_iff, List.forall₂_same]
      exact fun r _ => flat_resultRow r

/-- Products that are saved with distinct ids come back as they were exactly if there are none. -/
theorem roundTrip_iff : ∃ d', saveProducts saves d = .ok d' ∧
    (RoundTrip Same (saves.map Prod.fst) d' ↔ saves = []) := by
  obtain ⟨d', hd', hflat⟩ := roundTrip_flat hdistinct hsucceed hempty
  refine ⟨d', hd', fun hsame => ?_, ?_⟩
  · cases saves with
    | nil => rfl
    | cons s saves =>
      obtain ⟨j, hj, hs⟩ := hsame.single s.1 List.mem_cons_self
      obtain ⟨j', hj', hs'⟩ := hflat.single s.1 List.mem_cons_self
      obtain rfl : j = j' := Option.some.inj (hj.symm.trans hj')
      exact absurd hs hs'.not_same
  · rintro rfl
    refine ⟨fun p hp => (nomatch hp), fun answer hanswer => ?_⟩
    obtain ⟨order, horder, hforall⟩ := hflat.list answer hanswer
    obtain rfl : order = [] := horder.eq_nil
    exact ⟨[], horder, by cases hforall; exact .nil⟩

end

/-- One product is saved. -/
def oneBag : List (Product × Answer) := [(LocalAtomicity.bag, ⟨true, 0, 0⟩)]

theorem roundTrip_oneBag : ∃ d', saveProducts oneBag ⟨.empty, .empty, Table.empty⟩ = .ok d' ∧
    (RoundTrip Same (oneBag.map Prod.fst) d' ↔ oneBag = []) := by
  have hdistinct : (oneBag.map fun s => s.1.id).Nodup := List.nodup_singleton 1
  exact roundTrip_iff hdistinct (by simp [oneBag]) rfl

/-- A saved product comes back without its rating. -/
theorem rating_lost : ¬ ∀ (saves : List (Product × Answer)) (d d' : Database),
    (saves.map fun s => s.1.id).Nodup → d.products.rows = [] → saveProducts saves d = .ok d' →
      RoundTrip Same (saves.map Prod.fst) d' := by
  intro hall
  have hsame := hall oneBag ⟨.empty, .empty, Table.empty⟩ _ (List.nodup_singleton 1) rfl rfl
  obtain ⟨j, hj, hbag⟩ := hsame.single LocalAtomicity.bag List.mem_cons_self
  obtain rfl := Option.some.inj hj
  have hrating := hbag "rating" (by simp [fields])
  exact absurd hrating (by decide)

end LocalProducts
