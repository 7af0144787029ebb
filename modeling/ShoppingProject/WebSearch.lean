import ShoppingProject.CartSync
import ShoppingProject.DynamicQueries
import ShoppingProject.OrderedQueries

/-!
# The search of the web client

`ProductAPIRepository.search` sends a body of `filters` and `sorts`; the endpoint binds
it to a `DynamicQuery`, which has a `Filter` and a `Sort`. Nothing of the body arrives,
and of the page that comes back the client reads a field that is not there.
-/
namespace WebSearch

open DomainEvents (Product)
open CartSync (bindString bindNullableString)
open DynamicQueries Lexing

inductive SortKey where
  | price | rating | title
  deriving DecidableEq

inductive SortOrder where
  | asc | desc
  deriving DecidableEq

def SortKey.name : SortKey → String
  | .price => "price"
  | .rating => "rating"
  | .title => "title"

def SortOrder.name : SortOrder → String
  | .asc => "asc"
  | .desc => "desc"

structure ProductSearchParams where
  query : Option String
  category : Option String
  minPrice : Option ℚ
  maxPrice : Option ℚ
  sortBy : Option SortKey
  sortOrder : Option SortOrder

def filterJson (field operator : String) (value : Json) : Json :=
  .obj [("field", .str field), ("operator", .str operator), ("value", value)]

/-- The query and the category that count as given. -/
def ProductSearchParams.givenQuery (params : ProductSearchParams) : Option String :=
  params.query.filter (· ≠ "")

def ProductSearchParams.givenCategory (params : ProductSearchParams) : Option String :=
  params.category.filter fun c => c ≠ "" && c ≠ "all"

def filters (params : ProductSearchParams) : List Json :=
  (params.givenQuery.map fun q => filterJson "title" "contains" (.str q)).toList ++
  (params.givenCategory.map fun c => filterJson "category" "equals" (.str c)).toList ++
  (params.minPrice.map fun p => filterJson "price" "greaterThanOrEqual" (.num p)).toList ++
  (params.maxPrice.map fun p => filterJson "price" "lessThanOrEqual" (.num p)).toList

def sorts (params : ProductSearchParams) : List Json :=
  (params.sortBy.map fun key => .obj
    [("field", .str key.name), ("dir", .str (params.sortOrder.getD .asc).name)]).toList

def searchBody (params : ProductSearchParams) : Json :=
  .obj [("filters", .arr (filters params)), ("sorts", .arr (sorts params))]

/-! ## The endpoint -/

def bindSort : Json → Option SortBy
  | .obj fields => do
    let field ← bindString "Field" (some "") (.obj fields)
    let dir ← bindString "Dir" (some "") (.obj fields)
    return ⟨field, dir⟩
  | _ => none

/-- The serializer gives up below a certain depth. -/
def bindFilter : Nat → Json → Option Filter
  | 0, _ => none
  | _ + 1, .null => some .null
  | depth + 1, .obj fields => do
    let field ← bindString "Field" (some "") (.obj fields)
    let value ← bindNullableString "Value" (.obj fields)
    let operator ← bindString "Operator" (some "") (.obj fields)
    let logic ← bindNullableString "Logic" (.obj fields)
    let filters ← match (Json.obj fields).fieldIgnoreCase "Filters" with
      | none => some []
      | some .null => some []
      | some (.arr items) => items.mapM (bindFilter depth)
      | some _ => none
    return .mk field value operator logic filters
  | _ + 1, _ => none

def maxDepth : Nat := 32

def bindDynamicQuery : Json → Option DynamicQuery
  | .obj fields => do
    let sort ← match (Json.obj fields).fieldIgnoreCase "Sort" with
      | none => some none
      | some .null => some none
      | some (.arr items) => (items.mapM bindSort).map some
      | some _ => none
    let filter ← match (Json.obj fields).fieldIgnoreCase "Filter" with
      | none => some .null
      | some value => bindFilter maxDepth value
    return ⟨sort, filter⟩
  | _ => none

/-- What `Where` and `OrderBy` make of a text; `none` when they throw. -/
structure Linq where
  filter : String → List Product → Option (List Product)
  orderBy : String → List Product → Option (List Product)

variable {A : Alphabet} (T : EntityType A) (linq : Linq)

/-- `ToDynamic` on the rows as the database returns them. -/
def toDynamic (q : DynamicQuery) (rows : List Product) : Option (List Product) := do
  let filtered ← match whereClause T q with
    | none => some rows
    | some clause => linq.filter clause rows
  match DynamicQueries.orderBy q with
  | none => some filtered
  | some ordering => linq.orderBy ordering filtered

structure Paginate (α : Type) where
  index : Int
  size : Int
  count : Int
  items : List α

namespace Paginate

variable {α : Type} (p : Paginate α)

/-- `From` keeps its default. -/
def indexFrom : Int := 0

/-- `Math.Ceiling(totalCount / (double)request.Size)`. -/
def pages : Int := -((-p.count) / p.size)

def hasPrevious : Bool := decide (0 < p.index - indexFrom)

def hasNext : Bool := decide (p.index - indexFrom + 1 < p.pages)

end Paginate

/-- `SearchProductsQueryHandler.Handle`, behind its validator. -/
def searchProducts (q : DynamicQuery) (index size : Int) (rows : List Product) :
    Option (Paginate Product) :=
  if 0 ≤ index ∧ 0 < size ∧ size ≤ 100 then do
    let products ← toDynamic T linq q rows
    return ⟨index, size, products.length, (products.drop (index * size).toNat).take size.toNat⟩
  else none

/-- The fields of `ProductDto`. -/
def productJson (p : Product) : Json :=
  .obj [("id", .num p.id), ("title", .str p.title), ("price", .num p.price),
    ("description", .str p.description), ("category", .str p.category), ("image", .str p.image),
    ("rating", .obj [("rate", .num p.rating.rate), ("count", .num p.rating.count)])]

def pageJson (p : Paginate Product) : Json :=
  .obj [("from", .num Paginate.indexFrom), ("index", .num p.index), ("size", .num p.size),
    ("count", .num p.count), ("pages", .num p.pages), ("items", .arr (p.items.map productJson)),
    ("hasPrevious", .bool p.hasPrevious), ("hasNext", .bool p.hasNext)]

def resultJson (data : Json) : Json :=
  .obj [("isSuccess", .bool true), ("data", data), ("message", .str "Operation successful"),
    ("statusCode", .num 200), ("location", .str "")]

/-! ## The client again -/

def truthy : Json → Bool
  | .null => false
  | .bool b => b
  | .num n => n ≠ 0
  | .str s => s ≠ ""
  | _ => true

def emptyResult : Json :=
  .obj [("items", .arr []), ("totalCount", .num 0), ("pageIndex", .num 0), ("pageSize", .num 100)]

/-- `response.data.data || { items: [], ... }`. -/
def readResult (response : Json) : Json :=
  match response.field "data" with
  | some data => if truthy data then data else emptyResult
  | none => emptyResult

/-- What `search` resolves to; `none` when it rejects. -/
def search (params : ProductSearchParams) (rows : List Product) : Option Json := do
  let q ← bindDynamicQuery (searchBody params)
  let page ← searchProducts T linq q 0 100 rows
  return readResult (resultJson (pageJson page))

/-- The binder knows neither `filters` nor `sorts`. -/
theorem bind_searchBody (params : ProductSearchParams) :
    bindDynamicQuery (searchBody params) = some ⟨none, .null⟩ := by
  have hfilters : Json.equalsIgnoreCase "filters" "Sort" = false ∧
      Json.equalsIgnoreCase "filters" "Filter" = false := by decide
  have hsorts : Json.equalsIgnoreCase "sorts" "Sort" = false ∧
      Json.equalsIgnoreCase "sorts" "Filter" = false := by decide
  simp [bindDynamicQuery, searchBody, Json.fieldIgnoreCase, hfilters, hsorts]

/-- A query without a filter and a sort leaves the rows as they are. -/
theorem toDynamic_empty (rows : List Product) :
    toDynamic T linq ⟨none, .null⟩ rows = some rows := by
  simp [toDynamic, whereClause, buildWhereClause, DynamicQueries.orderBy]

/-- The client gets the first hundred rows of the table, whatever it asks for. -/
theorem search_eq (params : ProductSearchParams) (rows : List Product) :
    search T linq params rows =
      some (pageJson ⟨0, 100, rows.length, rows.take 100⟩) := by
  simp only [search, bind_searchBody, Option.bind_eq_bind, Option.bind_some, searchProducts,
    toDynamic_empty]
  rfl

/-- The products that the parameters ask for; case does not matter, as in the clauses
that the endpoint writes. -/
def Satisfies (A : Alphabet) (params : ProductSearchParams) (p : Product) : Prop :=
  (∀ q ∈ params.givenQuery, q.toList.map A.toLower <:+: p.title.toList.map A.toLower) ∧
  (∀ c ∈ params.givenCategory, equalsIgnoreCase A c p.category = true) ∧
  (∀ low ∈ params.minPrice, low ≤ p.price) ∧ ∀ high ∈ params.maxPrice, p.price ≤ high

instance (A : Alphabet) (params : ProductSearchParams) : DecidablePred (Satisfies A params) :=
  fun _ => inferInstanceAs (Decidable (_ ∧ _ ∧ _ ∧ _))

/-- Whether one product may stand before another; titles are compared by a collation. -/
def InOrder (collation : String → String → Bool) (params : ProductSearchParams) (a b : Product) :
    Prop :=
  let le := fun a b : Product => match params.sortBy with
    | none => True
    | some .price => a.price ≤ b.price
    | some .rating => a.rating.rate ≤ b.rating.rate
    | some .title => collation a.title b.title = true
  match params.sortOrder with
  | some .desc => le b a
  | _ => le a b

/-- The result holds the first hundred of the products asked for, in the order asked
for, and their number. -/
structure SearchAgrees (A : Alphabet) (collation : String → String → Bool)
    (params : ProductSearchParams) (rows : List Product) (result : Json) : Prop where
  items : ∃ found : List Product, found.Perm (rows.filter (Satisfies A params)) ∧
    found.Pairwise (InOrder collation params) ∧
    result.field "items" = some (.arr ((found.take 100).map productJson))
  totalCount : result.field "totalCount" =
    some (.num (rows.filter (Satisfies A params)).length)

theorem pageJson_items (p : Paginate Product) :
    (pageJson p).field "items" = some (.arr (p.items.map productJson)) := by
  simp [pageJson, Json.field]

theorem pageJson_totalCount (p : Paginate Product) : (pageJson p).field "totalCount" = none := by
  simp [pageJson, Json.field]

/-- Without an order the items are right exactly if the first hundred rows of the table
happen to be asked for. -/
theorem items_right_iff (params : ProductSearchParams) (rows : List Product) :
    (∃ found : List Product, found.Perm (rows.filter (Satisfies A params)) ∧
      found.take 100 = rows.take 100) ↔ ∀ p ∈ rows.take 100, Satisfies A params p := by
  constructor
  · rintro ⟨found, hperm, htake⟩ p hp
    rw [← htake] at hp
    have hin := hperm.mem_iff.mp (List.mem_of_mem_take hp)
    simpa using (List.mem_filter.mp hin).2
  · intro hall
    have hkeep : ∀ p ∈ rows.take 100, decide (Satisfies A params p) = true := by
      intro p hp
      simpa using hall p hp
    refine ⟨_, .refl _, ?_⟩
    rw [← OrderedQueries.filter_take_eq (.inl hkeep)]
    exact List.filter_eq_self.mpr hkeep

/-- No search returns what it was asked for: the page has no `totalCount`. -/
theorem search_never_agrees (A : Alphabet) (T : EntityType A) (linq : Linq)
    (collation : String → String → Bool) (params : ProductSearchParams) (rows : List Product) :
    ¬ ∃ result, search T linq params rows = some result ∧
      SearchAgrees A collation params rows result := by
  rintro ⟨result, hresult, hagrees⟩
  rw [search_eq] at hresult
  obtain rfl := Option.some.inj hresult
  have htotal := hagrees.totalCount
  rw [pageJson_totalCount] at htotal
  cases htotal

/-- A search for phones among chairs. -/
def phones : ProductSearchParams := ⟨some "phone", none, none, none, none, none⟩

def chair : Product :=
  ⟨1, .active, 0, none, 0, none, "Chair", 40, "", "furniture", "", ⟨0, 0⟩⟩

theorem chair_for_phone : ¬ ∀ (A : Alphabet) (T : EntityType A) (linq : Linq)
    (collation : String → String → Bool) (params : ProductSearchParams) (rows : List Product),
    ∃ result, search T linq params rows = some result ∧
      SearchAgrees A collation params rows result := by
  intro hall
  let linq : Linq := ⟨fun _ rows => some rows, fun _ rows => some rows⟩
  obtain ⟨result, hresult, hagrees⟩ := hall ascii product linq (fun _ _ => true) phones [chair]
  rw [search_eq] at hresult
  obtain rfl := Option.some.inj hresult
  obtain ⟨found, hperm, -, hitems⟩ := hagrees.items
  have hnone : [chair].filter (Satisfies ascii phones) = [] := by decide
  rw [hnone] at hperm
  rw [hperm.eq_nil, pageJson_items] at hitems
  cases hitems

end WebSearch
