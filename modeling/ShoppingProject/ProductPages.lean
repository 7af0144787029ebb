import ShoppingProject.AuditChain
import ShoppingProject.Paging
import ShoppingProject.ProductCache
import ShoppingProject.WebSearch

/-!
# The paginated endpoints

Products by title, the search for products, and the audit logs. Each request asks the
database anew; `answer` is what the database returns for the whole query, before `Skip`
and `Take`. Collation and Dynamic LINQ are parameters.
-/
namespace ProductPages

open AuditChain (AuditLog)
open DomainEvents (DateTime Product)
open DynamicQueries Lexing
open Paging
open ProductCache (ProductDto toDto)
open WebSearch (Paginate)

structure PaginatedList (α : Type) where
  items : List α
  pageNumber : Int
  totalPages : Int
  totalCount : Int
  deriving DecidableEq

/-- `(int)Math.Ceiling(count / (double)pageSize)`. -/
def totalPages (count pageSize : Int) : Int := -((-count) / pageSize)

def hasPreviousPage (list : PaginatedList α) : Bool := decide (1 < list.pageNumber)

def hasNextPage (list : PaginatedList α) : Bool := decide (list.pageNumber < list.totalPages)

/-- `PaginatedList.CreateAsync`, as far as the offset fits into an `int`; the database
refuses a negative offset or limit. -/
def createAsync (answer : List α) (pageNumber pageSize : Int) : Option (PaginatedList α) :=
  if 0 ≤ (pageNumber - 1) * pageSize ∧ 0 ≤ pageSize then
    some {
      items := (answer.drop ((pageNumber - 1) * pageSize).toNat).take pageSize.toNat
      pageNumber := pageNumber
      totalPages := totalPages answer.length pageSize
      totalCount := answer.length }
  else none

/-! ## Products by title -/

structure GetProductsWithPaginationQuery where
  pageNumber : Int
  pageSize : Int

def GetProductsWithPaginationQuery.isValid (request : GetProductsWithPaginationQuery) : Bool :=
  decide (1 ≤ request.pageNumber) && decide (1 ≤ request.pageSize)

/-- `OrderBy(x => x.Title)`. -/
def byTitle (collation : Sorting String) : Sorting Product := collation.by' Product.title

def getProductsWithPagination (request : GetProductsWithPaginationQuery) (answer : List Product) :
    Option (PaginatedList ProductDto) :=
  if request.isValid then createAsync (answer.map toDto) request.pageNumber request.pageSize
  else none

/-! ## Search -/

/-- What Dynamic LINQ makes of the texts of `Where` and `OrderBy`; `none` if it throws. -/
structure DynamicLinq where
  condition : String → Option (Product → Bool)
  ordering : String → Option (Sorting Product)

variable {A : Alphabet} (T : EntityType A) (linq : DynamicLinq)

def matching (q : DynamicQuery) (rows : List Product) : Option (List Product) :=
  match whereClause T q with
  | none => some rows
  | some clause => (linq.condition clause).map rows.filter

theorem matching_sublist {q : DynamicQuery} {rows selected : List Product}
    (h : matching T linq q rows = some selected) :
    selected.Sublist rows := by
  unfold matching at h
  cases hclause : whereClause T q with
  | none =>
    rw [hclause] at h
    obtain rfl := Option.some.inj h
    exact .refl _
  | some clause =>
    rw [hclause] at h
    obtain ⟨p, -, rfl⟩ := Option.map_eq_some_iff.mp h
    exact List.filter_sublist

def sorting (q : DynamicQuery) : Option (Sorting Product) :=
  match DynamicQueries.orderBy q with
  | none => some Sorting.none
  | some text => linq.ordering text

/-- `SearchProductsQueryHandler.Handle` after `ToDynamic`, behind its validator, as far as
the offset fits into an `int`. -/
def searchPage (index size : Int) (answer : List Product) : Option (Paginate Product) :=
  if 0 ≤ index ∧ 0 < size ∧ size ≤ 100 then
    some ⟨index, size, answer.length, (answer.drop (index * size).toNat).take size.toNat⟩
  else none

/-- The search is this page of what `ToDynamic` answers. -/
theorem searchProducts_eq (db : WebSearch.Linq) (q : DynamicQuery) (index size : Int)
    (rows : List Product) :
    WebSearch.searchProducts T db q index size rows =
      (WebSearch.toDynamic T db q rows).bind (searchPage index size) := by
  unfold WebSearch.searchProducts searchPage
  by_cases hvalid : 0 ≤ index ∧ 0 < size ∧ size ≤ 100
  · simp only [if_pos hvalid]
    rfl
  · simp only [if_neg hvalid]
    cases WebSearch.toDynamic T db q rows <;> rfl

/-! ## Audit logs -/

structure AuditLogDto where
  id : Int
  userId : Option String
  userEmail : Option String
  action : Option String
  entityName : Option String
  entityId : Option String
  oldValues : Option String
  newValues : Option String
  timestamp : DateTime
  correlationId : Option String
  remoteIp : Option String
  userAgent : Option String
  hash : Option String
  deriving DecidableEq

def toAuditLogDto (log : AuditLog) : AuditLogDto where
  id := log.id
  userId := log.userId
  userEmail := log.userEmail
  action := log.action
  entityName := log.entityName
  entityId := log.entityId
  oldValues := log.oldValues
  newValues := log.newValues
  timestamp := log.timestamp
  correlationId := log.correlationId
  remoteIp := log.remoteIp
  userAgent := log.userAgent
  hash := log.hash

def ascending : Sorting DateTime where
  le a b := decide (a ≤ b)
  total a b := by simpa using le_total a b
  trans a b c hab hbc := by
    simp only [decide_eq_true_eq] at hab hbc ⊢
    exact le_trans hab hbc

/-- `OrderByDescending(x => x.Timestamp)`. -/
def newestFirst : Sorting AuditLog := ascending.descending.by' AuditLog.timestamp

/-- The query has no validator. -/
def getAuditLogs (pageNumber pageSize : Int) (answer : List AuditLog) :
    Option (PaginatedList AuditLogDto) :=
  createAsync (answer.map toAuditLogDto) pageNumber pageSize

end ProductPages
