import ShoppingProject.Paginators

/-!
# Where a page begins

Every endpoint with pages skips `(page - first page) * size` rows, with a first page of
its own, and multiplies on `int`. The database refuses a negative number of rows; a
query over objects in memory takes it for none.
-/
namespace PageOffsets

variable {α : Type}

/-- What a query runs on. -/
inductive Provider where
  | database | objects
  deriving DecidableEq, Repr

/-- How many rows `Skip(n)` or `Take(n)` means; `none` if the query fails. -/
def Provider.rowCount (provider : Provider) (n : Int32) : Option ℕ :=
  match provider with
  | .database => if 0 ≤ n then some n.toNatClampNeg else none
  | .objects => some n.toNatClampNeg

/-- `source.Count()`, which throws for more rows than an `int` counts. -/
def count (source : List α) : Option Int32 :=
  if source.length < 2 ^ 31 then some (Int32.ofNat source.length) else none

/-- `source.Skip(skip).Take(take).ToList()`. -/
def skipTake (provider : Provider) (source : List α) (skip take : Int32) : Option (List α) := do
  let skipped ← provider.rowCount skip
  let taken ← provider.rowCount take
  return (source.drop skipped).take taken

/-- `PaginatedList.CreateAsync`. -/
def createAsync (provider : Provider) (source : List α) (pageNumber pageSize : Int32) :
    Option (Paginators.Models.PaginatedList α) := do
  let count ← count source
  let items ← skipTake provider source ((pageNumber - 1) * pageSize) pageSize
  return .new items count pageNumber pageSize

/-- The end of `SearchProductsQueryHandler.Handle`. -/
def searchProducts (products : List α) (index size : Int32) :
    Option (Paginators.Domain.Paginate α) := do
  let totalCount ← count products
  let paginatedProducts ← skipTake .database products (index * size) size
  return {
    indexFrom := 0
    index := index
    size := size
    count := totalCount
    pages := Paginators.ceilingPages totalCount size
    items := paginatedProducts }

/-- `GetAllUsersAsync`. -/
def getAllUsersAsync (users : List α) (pageNumber pageSize : Int32) :
    Option (Paginators.Models.PaginatedList α) := do
  let totalCount ← count users
  let users ← skipTake .database users ((pageNumber - 1) * pageSize) pageSize
  return .new users totalCount pageNumber pageSize

/-- The constructor of `Paginate` over any source; its exception is not told apart. -/
def paginate (provider : Provider) (source : List α) (index size indexFrom : Int32) :
    Option (Paginators.Domain.Paginate α) :=
  if index < indexFrom then none
  else do
    let count ← count source
    let items ← skipTake provider source ((index - indexFrom) * size) size
    return {
      indexFrom := indexFrom
      index := index
      size := size
      count := count
      pages := Paginators.ceilingPages count size
      items := items }

inductive Request where
  | products (pageNumber pageSize : Int32) : Request
  | auditLogs (pageNumber pageSize : Int32) : Request
  | users (pageNumber pageSize : Int32) : Request
  | search (index size : Int32) : Request
  | paginate (provider : Provider) (index size indexFrom : Int32) : Request

namespace Request

/-- The validators of the two queries that have one, and the check of the constructor. -/
def isAdmitted : Request → Bool
  | .products pageNumber pageSize => decide (1 ≤ pageNumber) && decide (1 ≤ pageSize)
  | .auditLogs _ _ => true
  | .users _ _ => true
  | .search index size => decide (0 ≤ index) && decide (0 < size) && decide (size ≤ 100)
  | .paginate _ index _ indexFrom => decide (indexFrom ≤ index)

def provider : Request → Provider
  | .paginate provider _ _ _ => provider
  | _ => .database

def page : Request → Int32
  | .products pageNumber _ => pageNumber
  | .auditLogs pageNumber _ => pageNumber
  | .users pageNumber _ => pageNumber
  | .search index _ => index
  | .paginate _ index _ _ => index

def firstPage : Request → Int32
  | .products _ _ => 1
  | .auditLogs _ _ => 1
  | .users _ _ => 1
  | .search _ _ => 0
  | .paginate _ _ _ indexFrom => indexFrom

def size : Request → Int32
  | .products _ pageSize => pageSize
  | .auditLogs _ pageSize => pageSize
  | .users _ pageSize => pageSize
  | .search _ size => size
  | .paginate _ _ size _ => size

/-- The rows that the endpoint answers with; `none` if it refuses or fails. -/
def items (r : Request) (rows : List α) : Option (List α) :=
  if r.isAdmitted then
    match r with
    | .products pageNumber pageSize =>
      (createAsync .database rows pageNumber pageSize).map (·.items)
    | .auditLogs pageNumber pageSize =>
      (createAsync .database rows pageNumber pageSize).map (·.items)
    | .users pageNumber pageSize => (getAllUsersAsync rows pageNumber pageSize).map (·.items)
    | .search index size => (searchProducts rows index size).map (·.items)
    | .paginate provider index size indexFrom =>
      (PageOffsets.paginate provider rows index size indexFrom).map (·.items)
  else none

/-- The offset as the code computes it. -/
def offset (r : Request) : Int32 := (r.page - r.firstPage) * r.size

/-- The offset without a limit to the integers. -/
def exactOffset (r : Request) : ℤ := (r.page.toInt - r.firstPage.toInt) * r.size.toInt

/-- All endpoints take the same window, of as many rows as the offset says. -/
theorem items_eq {r : Request} (hadmitted : r.isAdmitted = true) {rows : List α}
    (hrows : rows.length < 2 ^ 31) :
    r.items rows = skipTake r.provider rows r.offset r.size := by
  have hcount : count rows = some (Int32.ofNat rows.length) := if_pos hrows
  simp only [items, hadmitted, if_true]
  cases r with
  | products pageNumber pageSize | auditLogs pageNumber pageSize =>
    simp only [createAsync, hcount, provider, offset, page, firstPage, size]
    cases skipTake .database rows ((pageNumber - 1) * pageSize) pageSize <;> rfl
  | users pageNumber pageSize =>
    simp only [getAllUsersAsync, hcount, provider, offset, page, firstPage, size]
    cases skipTake .database rows ((pageNumber - 1) * pageSize) pageSize <;> rfl
  | search index size =>
    simp only [searchProducts, hcount, provider, offset, page, firstPage, Request.size,
      Int32.sub_zero]
    cases skipTake .database rows (index * size) size <;> rfl
  | paginate provider index size indexFrom =>
    have hle : ¬ index < indexFrom := by simpa [isAdmitted] using hadmitted
    simp only [PageOffsets.paginate, hle, if_false, hcount, Request.provider, offset, page,
      firstPage, Request.size]
    cases skipTake provider rows ((index - indexFrom) * size) size <;> rfl

theorem items_counted {r : Request} {rows page : List α} (h : r.items rows = some page) :
    r.isAdmitted = true ∧ rows.length < 2 ^ 31 := by
  obtain ⟨hadmitted, h⟩ := Option.ite_none_right_eq_some.mp h
  refine ⟨hadmitted, ?_⟩
  by_contra hrows
  have hcount : count rows = none := if_neg hrows
  cases r with
  | products | auditLogs => simp [createAsync, hcount] at h
  | users => simp [getAllUsersAsync, hcount] at h
  | search => simp [searchProducts, hcount] at h
  | paginate => simp [PageOffsets.paginate, hcount] at h

/-- The computed offset is the exact one, wrapped around once at the end. -/
theorem offset_toInt (r : Request) : r.offset.toInt = r.exactOffset.bmod (2 ^ 32) := by
  rw [offset, exactOffset, Int32.toInt_mul, Int32.toInt_sub, Int.bmod_mul_bmod]

end Request

theorem rowCount_some {provider : Provider} {n : Int32} {k : ℕ}
    (h : provider.rowCount n = some k) :
    k = n.toInt.toNat ∧ (provider = .database → 0 ≤ n) := by
  cases provider with
  | objects =>
    cases h
    exact ⟨rfl, fun hdatabase => by cases hdatabase⟩
  | database =>
    obtain ⟨hle, hk⟩ := Option.ite_none_right_eq_some.mp h
    cases hk
    exact ⟨rfl, fun _ => hle⟩

/-- What a request is answered with is the window at the computed offset. -/
theorem Request.items_window {r : Request} {rows page : List α} (h : r.items rows = some page) :
    page = (rows.drop r.offset.toNatClampNeg).take r.size.toNatClampNeg := by
  obtain ⟨hadmitted, hrows⟩ := Request.items_counted h
  rw [r.items_eq hadmitted hrows] at h
  obtain ⟨skipped, hskipped, h⟩ := Option.bind_eq_some_iff.mp h
  obtain ⟨taken, htaken, h⟩ := Option.bind_eq_some_iff.mp h
  obtain ⟨rfl, -⟩ := rowCount_some hskipped
  obtain ⟨rfl, -⟩ := rowCount_some htaken
  exact (Option.some.inj h).symm

/-- A page is the window at the exact offset: past the end it is empty, and it has no row
of the pages before it, which are the rows up to the offset. -/
structure Exact (α : Type) (r : Request) : Prop where
  skipped : ∃ n : ℕ, r.provider.rowCount r.offset = some n ∧ (n : ℤ) = r.exactOffset
  answered : ∀ rows : List α, rows.length < 2 ^ 31 →
    r.items rows = some ((rows.drop r.exactOffset.toNat).take r.size.toNatClampNeg)
  beyond : ∀ rows : List α, rows.length < 2 ^ 31 → rows.length ≤ r.exactOffset →
    r.items rows = some []
  fresh : ∀ rows : List α, rows.length < 2 ^ 31 → rows.Nodup →
    ∀ page ∈ r.items rows, page.Disjoint (rows.take r.exactOffset.toNat)

/-- A window is known by the number of rows before it. -/
theorem exact_of_answered {r : Request}
    (skipped : ∃ n : ℕ, r.provider.rowCount r.offset = some n ∧ (n : ℤ) = r.exactOffset)
    (answered : ∀ rows : List α, rows.length < 2 ^ 31 →
      r.items rows = some ((rows.drop r.exactOffset.toNat).take r.size.toNatClampNeg)) :
    Exact α r where
  skipped := skipped
  answered := answered
  beyond := by
    intro rows hrows hpast
    have hnone : rows.drop r.exactOffset.toNat = [] := List.drop_eq_nil_of_le (by omega)
    rw [answered rows hrows, hnone, List.take_nil]
  fresh := by
    intro rows hrows hnodup page hpage
    rw [answered rows hrows] at hpage
    obtain rfl := Option.some.inj hpage
    intro row hafter hbefore
    exact List.disjoint_take_drop hnodup (Nat.le_refl _) hbefore (List.mem_of_mem_take hafter)

theorem rowCount_eq {provider : Provider} {n : Int32} (h : provider = .database → 0 ≤ n) :
    provider.rowCount n = some n.toNatClampNeg := by
  cases provider with
  | objects => rfl
  | database => exact if_pos (h rfl)

theorem exact_of_fits {r : Request} (hadmitted : r.isAdmitted = true)
    (hnonneg : 0 ≤ r.exactOffset) (hlt : r.exactOffset < 2 ^ 31)
    (hsize : r.provider = .database → 0 ≤ r.size) : Exact α r := by
  have hoffset : r.offset.toInt = r.exactOffset := by
    rw [r.offset_toInt]
    exact Int.bmod_eq_of_le (by omega) (by omega)
  have hzero : (0 : Int32).toInt = 0 := rfl
  have hskip : 0 ≤ r.offset := by
    rw [Int32.le_iff_toInt_le, hoffset, hzero]
    exact hnonneg
  have hcast : r.offset.toNatClampNeg = r.exactOffset.toNat := by
    rw [← hoffset]
    rfl
  apply exact_of_answered
  · refine ⟨r.exactOffset.toNat, ?_, Int.toNat_of_nonneg hnonneg⟩
    rw [rowCount_eq fun _ => hskip, hcast]
  · intro rows hrows
    rw [r.items_eq hadmitted hrows, skipTake, rowCount_eq fun _ => hskip, rowCount_eq hsize,
      hcast]
    rfl

/-- An admitted page is exact exactly if its offset fits into an `int`; where no
validator looks at the request, it must not be negative either, nor the size. -/
theorem page_exact_iff {r : Request} (hadmitted : r.isAdmitted = true) :
    Exact α r ↔ 0 ≤ r.exactOffset ∧ r.exactOffset < 2 ^ 31 ∧
      (r.provider = .database → 0 ≤ r.size) := by
  constructor
  · intro h
    obtain ⟨n, hn, hexact⟩ := h.skipped
    obtain ⟨rfl, -⟩ := rowCount_some hn
    have hlt := r.offset.toInt_lt
    refine ⟨by omega, by omega, ?_⟩
    have hnone : ([] : List α).length < 2 ^ 31 := Nat.two_pow_pos 31
    have hempty := h.answered [] hnone
    rw [r.items_eq hadmitted hnone] at hempty
    obtain ⟨_, -, htaken⟩ := Option.bind_eq_some_iff.mp hempty
    obtain ⟨k, hk, -⟩ := Option.bind_eq_some_iff.mp htaken
    exact (rowCount_some hk).2
  · rintro ⟨hnonneg, hlt, hsize⟩
    exact exact_of_fits hadmitted hnonneg hlt hsize

/-- The second page of the search. -/
theorem second_page_exact : Exact Nat (.search 1 10) :=
  (page_exact_iff (by decide)).mpr (by decide)

/-- A search far behind the end begins again after four rows. -/
theorem search_wraps : ¬ ∀ r : Request, r.isAdmitted = true → Exact Nat r := by
  intro hall
  obtain ⟨n, hn, hexact⟩ := (hall (.search 42949673 100) (by decide)).skipped
  have hskipped : Provider.rowCount .database (Request.offset (.search 42949673 100)) = some 4 := by
    decide
  have hoffset : Request.exactOffset (.search 42949673 100) = 4294967300 := by decide
  obtain rfl : 4 = n := Option.some.inj (hskipped.symm.trans hn)
  omega

/-! ## The pages with unbounded integers -/

/-- Where the offset fits, the page is the one of `ProductPages`. -/
theorem createAsync_items {rows : List α} (hrows : rows.length < 2 ^ 31)
    {pageNumber pageSize : Int32} (hadmitted : (Request.products pageNumber pageSize).isAdmitted)
    (hfits : (pageNumber.toInt - 1) * pageSize.toInt < 2 ^ 31) :
    (createAsync .database rows pageNumber pageSize).map (·.items) =
      (ProductPages.createAsync rows pageNumber.toInt pageSize.toInt).map (·.items) := by
  have hbounds : 1 ≤ pageNumber.toInt ∧ 1 ≤ pageSize.toInt := by
    simpa [Request.isAdmitted, Int32.le_iff_toInt_le] using hadmitted
  have hnonneg : 0 ≤ (pageNumber.toInt - 1) * pageSize.toInt :=
    Int.mul_nonneg (by omega) (by omega)
  have hsize : 0 ≤ pageSize.toInt := by omega
  have hexact : Exact α (.products pageNumber pageSize) :=
    exact_of_fits hadmitted hnonneg hfits fun _ => Int32.le_iff_toInt_le.mpr hsize
  have hitems := hexact.answered rows hrows
  simp only [Request.items, hadmitted, if_true] at hitems
  rw [hitems, ProductPages.createAsync, if_pos ⟨hnonneg, hsize⟩]
  rfl

theorem searchProducts_items {rows : List DomainEvents.Product} (hrows : rows.length < 2 ^ 31)
    {index size : Int32} (hadmitted : (Request.search index size).isAdmitted)
    (hfits : index.toInt * size.toInt < 2 ^ 31) :
    (searchProducts rows index size).map (·.items) =
      (ProductPages.searchPage index.toInt size.toInt rows).map (·.items) := by
  obtain ⟨⟨hindex, hpositive⟩, hsize⟩ : (0 ≤ index.toInt ∧ 0 < size.toInt) ∧ size.toInt ≤ 100 := by
    simpa [Request.isAdmitted, Int32.le_iff_toInt_le, Int32.lt_iff_toInt_lt] using hadmitted
  have hoffset : (Request.search index size).exactOffset = index.toInt * size.toInt := by
    simp [Request.exactOffset, Request.page, Request.firstPage, Request.size]
  have hexact : Exact DomainEvents.Product (.search index size) :=
    exact_of_fits hadmitted (by rw [hoffset]; exact Int.mul_nonneg hindex (Int.le_of_lt hpositive))
      (by rw [hoffset]; exact hfits) fun _ => Int32.le_iff_toInt_le.mpr (Int.le_of_lt hpositive)
  have hitems := hexact.answered rows hrows
  simp only [Request.items, hadmitted, if_true, hoffset] at hitems
  rw [hitems, ProductPages.searchPage, if_pos ⟨hindex, hpositive, hsize⟩]
  rfl

/-- Over objects the constructor is the one whose flags are compared with the other
paginators. -/
theorem paginate_objects {source : List α} (h : source.length < 2 ^ 31)
    (index size indexFrom : Int32) : paginate .objects source index size indexFrom =
      (Paginators.Domain.Paginate.new source index size indexFrom).toOption := by
  by_cases hrefused : index < indexFrom
  · simp only [paginate, Paginators.Domain.Paginate.new, hrefused, if_true]
    rfl
  · simp only [paginate, Paginators.Domain.Paginate.new, hrefused, if_false, count, h, if_true]
    rfl

end PageOffsets
