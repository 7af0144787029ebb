import ShoppingProject.Doubles
import ShoppingProject.ProductPages

/-!
# Three paginators

`PaginatedList` of the models, `PaginatedList` of the DTOs and `Paginate` of the domain
number the pages of a list from 1, from 0 and from a number of the caller's. All their
arithmetic is on `int`, which wraps around; two of them divide in double precision.
-/
namespace Paginators

variable {α : Type}

/-- `(int)Math.Ceiling(count / (double)size)`. -/
def ceilingPages (count size : Int32) : Int32 :=
  Int32.ofInt ⌈Doubles.divide count.toInt size.toInt⌉

namespace Models

structure PaginatedList (α : Type) where
  items : List α
  pageNumber : Int32
  totalPages : Int32
  totalCount : Int32

def PaginatedList.new (items : List α) (count pageNumber pageSize : Int32) : PaginatedList α where
  items := items
  pageNumber := pageNumber
  totalPages := ceilingPages count pageSize
  totalCount := count

def PaginatedList.hasPreviousPage (list : PaginatedList α) : Bool := decide (1 < list.pageNumber)

def PaginatedList.hasNextPage (list : PaginatedList α) : Bool :=
  decide (list.pageNumber < list.totalPages)

end Models

namespace Dtos

structure PaginatedList (α : Type) where
  items : List α
  pageIndex : Int32
  pageSize : Int32
  totalCount : Int32

def PaginatedList.totalPages (list : PaginatedList α) : Int32 :=
  (list.totalCount + list.pageSize - 1) / list.pageSize

def PaginatedList.hasPreviousPage (list : PaginatedList α) : Bool := decide (0 < list.pageIndex)

def PaginatedList.hasNextPage (list : PaginatedList α) : Bool :=
  decide (list.pageIndex < list.totalPages - 1)

end Dtos

namespace Domain

/-- `From` is called `indexFrom` here, as in the message of the constructor. -/
structure Paginate (α : Type) where
  indexFrom : Int32
  index : Int32
  size : Int32
  count : Int32
  pages : Int32
  items : List α

def indexFromError (indexFrom index : Int32) : String :=
  "indexFrom: " ++ toString indexFrom ++ " > pageIndex: " ++ toString index ++
    ", must indexFrom <= pageIndex"

/-- The constructor over a list in memory, where a negative number of rows is none. -/
def Paginate.new (source : List α) (index size indexFrom : Int32) : Except String (Paginate α) :=
  if index < indexFrom then .error (indexFromError indexFrom index)
  else .ok {
    indexFrom := indexFrom
    index := index
    size := size
    count := Int32.ofNat source.length
    pages := ceilingPages (Int32.ofNat source.length) size
    items := (source.drop ((index - indexFrom) * size).toNatClampNeg).take size.toNatClampNeg }

def Paginate.hasPrevious (p : Paginate α) : Bool := decide (0 < p.index - p.indexFrom)

def Paginate.hasNext (p : Paginate α) : Bool := decide (p.index - p.indexFrom + 1 < p.pages)

end Domain

/-- The pages that the rows fill. -/
def pageCount (rows : List α) (size : Int32) : ℤ := ⌈(rows.length : ℚ) / size.toInt⌉

/-- What the flags of page `page`, counted from 0, should say. -/
structure Flags (rows : List α) (size : Int32) (page : ℤ) (previous next : Bool) : Prop where
  previous : previous = true ↔ page ≠ 0
  next : next = true ↔ rows.drop ((page + 1) * size.toInt).toNat ≠ []

section Arithmetic

variable {rows : List α} {count size : Int32}

theorem pageCount_eq (hsize : 0 < size.toInt) :
    pageCount rows size = (rows.length + size.toInt - 1) / size.toInt := by
  have hcast : (0 : ℚ) < size.toInt := by exact_mod_cast hsize
  unfold pageCount
  rw [Int.ceil_eq_iff, lt_div_iff₀ hcast, div_le_iff₀ hcast]
  have hlow := Int.ediv_mul_le (rows.length + size.toInt - 1) hsize.ne'
  have hhigh := Int.lt_ediv_add_one_mul_self (rows.length + size.toInt - 1) hsize
  rw [add_mul] at hhigh
  constructor
  · have hlt : ((rows.length + size.toInt - 1) / size.toInt - 1) * size.toInt < rows.length := by
      rw [sub_mul]
      omega
    exact_mod_cast hlt
  · have hle : (rows.length : ℤ) ≤ (rows.length + size.toInt - 1) / size.toInt * size.toInt := by
      omega
    exact_mod_cast hle

variable (rows) in
theorem lt_pageCount_iff (hsize : 0 < size.toInt) (k : ℤ) :
    k < pageCount rows size ↔ k * size.toInt < rows.length := by
  have hcast : (0 : ℚ) < size.toInt := by exact_mod_cast hsize
  rw [pageCount, Int.lt_ceil, lt_div_iff₀ hcast]
  exact_mod_cast Iff.rfl

variable (rows) in
theorem pageCount_nonneg (hsize : 0 < size.toInt) : 0 ≤ pageCount rows size := by
  rw [pageCount_eq hsize]
  exact Int.ediv_nonneg (by omega) hsize.le

variable (rows) in
theorem pageCount_le (hsize : 0 < size.toInt) : pageCount rows size ≤ rows.length := by
  have hnot := (lt_pageCount_iff rows hsize rows.length).not.mpr
    (not_lt.mpr (le_mul_of_one_le_right (Int.natCast_nonneg _) hsize))
  omega

/-- Rounding up a quotient of doubles gives the pages exactly. -/
theorem ceilingPages_toInt (hcount : (rows.length : ℤ) = count.toInt) (hsize : 0 < size.toInt) :
    (ceilingPages count size).toInt = pageCount rows size := by
  have hrows := count.toInt_lt
  have hlt := size.toInt_lt
  obtain ⟨k, hk⟩ := Int.eq_ofNat_of_zero_le hsize.le
  have hdivide : ⌈Doubles.divide count.toInt size.toInt⌉ = pageCount rows size := by
    rw [pageCount, ← hcount, hk]
    exact Doubles.ceil_divide (by omega) (by omega) (by omega)
  have hnonneg := pageCount_nonneg rows hsize
  have hle := pageCount_le rows hsize
  rw [ceilingPages, hdivide]
  exact Int32.toInt_ofInt_of_le (by omega) (by omega)

/-- The exact quotient that stands for it where nothing is near the limits of `int`. -/
theorem ceilingPages_eq_totalPages (hcount : (rows.length : ℤ) = count.toInt)
    (hsize : 0 < size.toInt) :
    (ceilingPages count size).toInt = ProductPages.totalPages rows.length size.toInt := by
  obtain ⟨k, hk⟩ := Int.eq_ofNat_of_zero_le hsize.le
  have hceil := Rat.ceil_intCast_div_natCast rows.length k
  rw [ceilingPages_toInt hcount hsize, pageCount, ProductPages.totalPages, hk]
  exact_mod_cast hceil

/-- The integer division gives the pages exactly if its dividend does not wrap around. -/
theorem totalPages_toInt_iff (hcount : (rows.length : ℤ) = count.toInt) (hsize : 0 < size.toInt)
    (items : List α) (pageIndex : Int32) :
    (Dtos.PaginatedList.totalPages ⟨items, pageIndex, size, count⟩).toInt = pageCount rows size ↔
      count.toInt + size.toInt ≤ 2 ^ 31 := by
  have hrows := count.toInt_lt
  have hlt := size.toInt_lt
  have hne : size ≠ -1 := by
    rintro rfl
    exact absurd hsize (by decide)
  have hdividend : (count + size - 1).toInt = (count.toInt + size.toInt - 1).bmod (2 ^ 32) := by
    rw [Int32.toInt_sub, Int32.toInt_add, Int.bmod_sub_bmod]
    rfl
  rw [Dtos.PaginatedList.totalPages, Int32.toInt_div_of_ne_right _ _ hne, hdividend]
  constructor
  · intro heq
    by_contra hwraps
    have hpages : 0 < pageCount rows size := (lt_pageCount_iff rows hsize 0).mpr (by omega)
    have hnegative : (count.toInt + size.toInt - 1).bmod (2 ^ 32) < 0 := by
      rw [Int.bmod_def]
      split <;> omega
    have hquot := Int.tdiv_nonneg (Int.neg_nonneg_of_nonpos hnegative.le) hsize.le
    rw [Int.neg_tdiv] at hquot
    omega
  · intro hfits
    have hexact : (count.toInt + size.toInt - 1).bmod (2 ^ 32) = count.toInt + size.toInt - 1 :=
      Int.bmod_eq_of_le (by omega) (by omega)
    rw [hexact, Int.tdiv_eq_ediv_of_nonneg (by omega), pageCount_eq hsize, hcount]

variable (rows) in
/-- A row lies after a page exactly if another page follows it. -/
theorem drop_ne_nil_iff (hsize : 0 < size.toInt) {page : ℤ} (hpage : 0 ≤ page) :
    rows.drop ((page + 1) * size.toInt).toNat ≠ [] ↔ page + 1 < pageCount rows size := by
  have hnonneg : 0 ≤ (page + 1) * size.toInt := Int.mul_nonneg (by omega) hsize.le
  rw [lt_pageCount_iff rows hsize, ne_eq, List.drop_eq_nil_iff]
  omega

end Arithmetic

/-- All three know how many pages there are, and where a page stands among them. -/
structure Agree (rows : List α) (size : Int32) (models : Models.PaginatedList α)
    (dtos : Dtos.PaginatedList α) (domain : Domain.Paginate α) : Prop where
  modelsPages : models.totalPages.toInt = pageCount rows size
  dtosPages : dtos.totalPages.toInt = pageCount rows size
  domainPages : domain.pages.toInt = pageCount rows size
  models : Flags rows size (models.pageNumber.toInt - 1) models.hasPreviousPage models.hasNextPage
  dtos : Flags rows size dtos.pageIndex.toInt dtos.hasPreviousPage dtos.hasNextPage
  domain : Flags rows size (domain.index.toInt - domain.indexFrom.toInt) domain.hasPrevious
    domain.hasNext

section Flags

variable {rows : List α} {count size : Int32}

theorem models_flags (hsize : 0 < size.toInt) {list : Models.PaginatedList α}
    (hpages : list.totalPages.toInt = pageCount rows size) (hpage : 1 ≤ list.pageNumber.toInt) :
    Flags rows size (list.pageNumber.toInt - 1) list.hasPreviousPage list.hasNextPage where
  previous := by
    have hone : (1 : Int32).toInt = 1 := rfl
    rw [Models.PaginatedList.hasPreviousPage, decide_eq_true_iff, Int32.lt_iff_toInt_lt, hone]
    omega
  next := by
    rw [Models.PaginatedList.hasNextPage, decide_eq_true_iff, Int32.lt_iff_toInt_lt, hpages,
      drop_ne_nil_iff rows hsize (by omega)]
    omega

theorem dtos_flags (hsize : 0 < size.toInt) {list : Dtos.PaginatedList α}
    (hpages : list.totalPages.toInt = pageCount rows size) (hpage : 0 ≤ list.pageIndex.toInt) :
    Flags rows size list.pageIndex.toInt list.hasPreviousPage list.hasNextPage where
  previous := by
    have hzero : (0 : Int32).toInt = 0 := rfl
    rw [Dtos.PaginatedList.hasPreviousPage, decide_eq_true_iff, Int32.lt_iff_toInt_lt, hzero]
    omega
  next := by
    have hone : (1 : Int32).toInt = 1 := rfl
    have hnonneg := pageCount_nonneg rows hsize
    have hlt := list.totalPages.toInt_lt
    have hlast : (list.totalPages - 1).toInt = pageCount rows size - 1 := by
      rw [Int32.toInt_sub, hpages, hone]
      exact Int.bmod_eq_of_le (by omega) (by omega)
    rw [Dtos.PaginatedList.hasNextPage, decide_eq_true_iff, Int32.lt_iff_toInt_lt, hlast,
      drop_ne_nil_iff rows hsize hpage]
    omega

/-- The flags of the domain's pages are right unless the distance from the first page
wraps around. -/
theorem domain_flags_iff (hsize : 0 < size.toInt) {p : Domain.Paginate α}
    (hpages : p.pages.toInt = pageCount rows size) (hpage : p.indexFrom.toInt ≤ p.index.toInt) :
    Flags rows size (p.index.toInt - p.indexFrom.toInt) p.hasPrevious p.hasNext ↔
      p.index.toInt - p.indexFrom.toInt + 1 < 2 ^ 31 := by
  have hzero : (0 : Int32).toInt = 0 := rfl
  have hone : (1 : Int32).toInt = 1 := rfl
  have hnonneg := pageCount_nonneg rows hsize
  have hpagesLt := p.pages.toInt_lt
  have hindexLt := p.index.toInt_lt
  have hfromLe := p.indexFrom.le_toInt
  have hprevious : p.hasPrevious = true ↔
      0 < (p.index.toInt - p.indexFrom.toInt).bmod (2 ^ 32) := by
    rw [Domain.Paginate.hasPrevious, decide_eq_true_iff, Int32.lt_iff_toInt_lt, Int32.toInt_sub,
      hzero]
  have hnext : p.hasNext = true ↔
      (p.index.toInt - p.indexFrom.toInt + 1).bmod (2 ^ 32) < pageCount rows size := by
    rw [Domain.Paginate.hasNext, decide_eq_true_iff, Int32.lt_iff_toInt_lt, Int32.toInt_add,
      Int32.toInt_sub, hone, Int.bmod_add_bmod, hpages]
  have hafter := drop_ne_nil_iff rows hsize (Int.sub_nonneg_of_le hpage)
  constructor
  · intro hflags
    have hnext' := hnext.symm.trans (hflags.next.trans hafter)
    have hprevious' := hprevious.symm.trans hflags.previous
    rw [Int.bmod_def] at hnext' hprevious'
    by_contra hwraps
    split at hnext' <;> split at hprevious' <;> omega
  · intro hfits
    have hexact : (p.index.toInt - p.indexFrom.toInt).bmod (2 ^ 32) =
        p.index.toInt - p.indexFrom.toInt := Int.bmod_eq_of_le (by omega) (by omega)
    have hexact' : (p.index.toInt - p.indexFrom.toInt + 1).bmod (2 ^ 32) =
        p.index.toInt - p.indexFrom.toInt + 1 := Int.bmod_eq_of_le (by omega) (by omega)
    refine ⟨?_, ?_⟩
    · rw [hprevious, hexact]
      omega
    · rw [hnext, hexact', hafter]

end Flags

/-- What the constructor of the domain gives. -/
theorem new_ok {rows : List α} {index size indexFrom : Int32} {p : Domain.Paginate α}
    (h : Domain.Paginate.new rows index size indexFrom = .ok p) :
    indexFrom.toInt ≤ index.toInt ∧ p.index = index ∧ p.indexFrom = indexFrom ∧
      p.pages = ceilingPages (Int32.ofNat rows.length) size := by
  unfold Domain.Paginate.new at h
  split at h
  · cases h
  · rename_i hle
    cases h
    rw [Int32.lt_iff_toInt_lt] at hle
    exact ⟨by omega, rfl, rfl, rfl⟩

/-- The three agree exactly if neither the dividend of the DTOs nor the domain's number
of pages up to this one wraps around. -/
theorem paginators_agree_iff {rows : List α}
    {count size pageNumber pageIndex index indexFrom : Int32} {p : Domain.Paginate α}
    (items : List α) (hcount : (rows.length : ℤ) = count.toInt)
    (hsize : 0 < size) (hnumber : 1 ≤ pageNumber) (hindex : 0 ≤ pageIndex)
    (hp : Domain.Paginate.new rows index size indexFrom = .ok p) :
    Agree rows size (Models.PaginatedList.new items count pageNumber size)
        ⟨items, pageIndex, size, count⟩ p ↔
      count.toInt + size.toInt ≤ 2 ^ 31 ∧ index.toInt - indexFrom.toInt + 1 < 2 ^ 31 := by
  have hlt := count.toInt_lt
  have hsize : 0 < size.toInt := Int32.lt_iff_toInt_lt.mp hsize
  have hnumber : 1 ≤ pageNumber.toInt := Int32.le_iff_toInt_le.mp hnumber
  have hindex : 0 ≤ pageIndex.toInt := Int32.le_iff_toInt_le.mp hindex
  obtain ⟨hfrom, rfl, rfl, hpages⟩ := new_ok hp
  have hsource : (rows.length : ℤ) = (Int32.ofNat rows.length).toInt :=
    (Int32.toInt_ofNat_of_lt (by omega)).symm
  have hdomain : p.pages.toInt = pageCount rows size := by
    rw [hpages]
    exact ceilingPages_toInt hsource hsize
  have hmodels : (Models.PaginatedList.new items count pageNumber size).totalPages.toInt =
      pageCount rows size := ceilingPages_toInt hcount hsize
  constructor
  · intro h
    exact ⟨(totalPages_toInt_iff hcount hsize items pageIndex).mp h.dtosPages,
      (domain_flags_iff hsize hdomain hfrom).mp h.domain⟩
  · rintro ⟨hdtos, hdistance⟩
    have hdtos := (totalPages_toInt_iff hcount hsize items pageIndex).mpr hdtos
    exact ⟨hmodels, hdtos, hdomain, models_flags hsize hmodels hnumber,
      dtos_flags hsize hdtos hindex, (domain_flags_iff hsize hdomain hfrom).mpr hdistance⟩

/-- The second of three pages of two rows. -/
theorem small_paginators_agree : ∃ p, Domain.Paginate.new [1, 2, 3, 4, 5] 1 2 0 = .ok p ∧
    Agree [1, 2, 3, 4, 5] 2 (Models.PaginatedList.new [3, 4] 5 2 2) ⟨[3, 4], 1, 2, 5⟩ p := by
  have hnew : ∃ p, Domain.Paginate.new [1, 2, 3, 4, 5] 1 2 0 = .ok p := ⟨_, rfl⟩
  obtain ⟨p, hp⟩ := hnew
  refine ⟨p, hp, ?_⟩
  exact (paginators_agree_iff [3, 4] rfl (by decide) (by decide) (by decide) hp).mpr (by decide)

/-- On a page of `int.MaxValue` rows the DTOs count -1 pages for two rows. -/
theorem paginators_disagree : ¬ ∀ (rows : List Bool)
    (count size pageNumber pageIndex index indexFrom : Int32) (p : Domain.Paginate Bool)
    (items : List Bool), (rows.length : ℤ) = count.toInt → 0 < size → 1 ≤ pageNumber →
      0 ≤ pageIndex → Domain.Paginate.new rows index size indexFrom = .ok p →
      Agree rows size (Models.PaginatedList.new items count pageNumber size)
        ⟨items, pageIndex, size, count⟩ p := by
  intro hall
  have hagree := hall [false, true] 2 2147483647 1 0 0 0 _ [false, true] rfl (by decide)
    (by decide) (by decide) rfl
  have hpages := hagree.dtosPages
  have hwrapped : (Dtos.PaginatedList.totalPages
      ⟨[false, true], 0, 2147483647, 2⟩).toInt = -1 := by decide
  have hsize : 0 < (2147483647 : Int32).toInt := by decide
  have hnonneg := pageCount_nonneg [false, true] hsize
  omega

end Paginators
