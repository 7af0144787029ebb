import Mathlib.Algebra.Order.Ring.Rat
import Mathlib.Data.List.Nodup
import Mathlib.Tactic.Linarith
import ShoppingProject.Json
import ShoppingProject.Mirrors
import ShoppingProject.Runs
import ShoppingProject.Splits

/-!
# Tables whose state is in the address

`use-table-url-state.ts` of the administration keeps the page and the filters of a table in the
search parameters. The page is read from there; the filters are a state of the component, which
reads them when it is mounted and writes them when they change. A search is what the route hands
to the page, so that nothing is undefined but what is absent.
-/
namespace TableUrlState

open Runs

/-- The search parameters; a parameter that is absent is `undefined`. -/
abbrev SearchRecord := Entries Json

structure ColumnFilter where
  id : String
  value : Json
  deriving DecidableEq

inductive FilterType where
  | string | array
  deriving DecidableEq, Repr

structure ColumnFilterConfig where
  columnId : String
  searchKey : String
  type : Option FilterType
  serialize : Json → Option Json := some
  deserialize : Option Json → Option Json := id

structure Params where
  pageKey : String := "page"
  pageSizeKey : String := "pageSize"
  defaultPage : ℚ := 1
  defaultPageSize : ℚ := 10
  globalFilterEnabled : Bool := true
  globalFilterKey : String := "filter"
  trimGlobal : Bool := true
  columnFilters : List ColumnFilterConfig := []

structure PaginationState where
  pageIndex : ℚ
  pageSize : ℚ
  deriving DecidableEq

/-- What `String.prototype.trim` takes away. -/
def isSpace (c : Char) : Bool :=
  let n := c.toNat
  (9 ≤ n && n ≤ 13) || n == 0x20 || n == 0xA0 || n == 0x1680 || (0x2000 ≤ n && n ≤ 0x200A) ||
    n == 0x2028 || n == 0x2029 || n == 0x202F || n == 0x205F || n == 0x3000 || n == 0xFEFF

def trim (s : String) : String := String.ofList (Splits.trim isSpace s.toList)

/-- Which values a column takes as a filter; the default is an array. -/
def admits : Option FilterType → Json → Bool
  | some .string, .str value => trim value != ""
  | some .array, .arr value | none, .arr value => !value.isEmpty
  | _, _ => false

section Hook

variable (p : Params) (search : SearchRecord)

/-- The filter of a column according to the search parameters. -/
def collected (cfg : ColumnFilterConfig) : Option ColumnFilter :=
  ((cfg.deserialize (search cfg.searchKey)).filter (admits cfg.type)).map fun value =>
    ⟨cfg.columnId, value⟩

def initialColumnFilters : List ColumnFilter := p.columnFilters.filterMap (collected search)

def number (value : Option Json) (default : ℚ) : ℚ := (value.bind Json.asNum).getD default

def pagination : PaginationState where
  pageIndex := max 0 (number (search p.pageKey) p.defaultPage - 1)
  pageSize := number (search p.pageSizeKey) p.defaultPageSize

def initialGlobalFilter : Option String :=
  if p.globalFilterEnabled then some (((search p.globalFilterKey).bind Json.asStr).getD "")
  else none

/-- `{ ...search, [key]: value }`. -/
def assign (key : String) (value : Option Json) (search : SearchRecord) : SearchRecord :=
  Function.update search key value

/-- The filter that a column has, if it has one. -/
def filterOf (filters : List ColumnFilter) (id : String) : Option Json :=
  (filters.find? fun f => f.id == id).map ColumnFilter.value

/-- The entry of a column in the patch of `onColumnFiltersChange`. -/
def written (next : List ColumnFilter) (cfg : ColumnFilterConfig) : Option Json :=
  ((filterOf next cfg.columnId).filter (admits cfg.type)).bind cfg.serialize

def paginationSearch (next : PaginationState) : SearchRecord :=
  assign p.pageSizeKey
    (if next.pageSize = p.defaultPageSize then none else some (.num next.pageSize))
    (assign p.pageKey
      (if next.pageIndex + 1 ≤ p.defaultPage then none else some (.num (next.pageIndex + 1)))
      search)

def globalFilterSearch (value : String) : SearchRecord :=
  assign p.globalFilterKey (if value = "" then none else some (.str value))
    (assign p.pageKey none search)

def columnFiltersSearch (next : List ColumnFilter) : SearchRecord :=
  p.columnFilters.foldl (fun search cfg => assign cfg.searchKey (written next cfg) search)
    (assign p.pageKey none search)

inductive ResetTo where
  | first | last
  deriving DecidableEq, Repr

def ensurePageInRange (pageCount : Int) (resetTo : ResetTo) : SearchRecord :=
  let pageNum := number (search p.pageKey) p.defaultPage
  if 0 < pageCount ∧ pageCount < pageNum then
    assign p.pageKey (match resetTo with | .last => some (.num pageCount) | .first => none) search
  else search

end Hook

/-- The address, and the state of the component. -/
structure State where
  search : SearchRecord
  columnFilters : List ColumnFilter
  globalFilter : Option String

def mount (p : Params) (search : SearchRecord) : State :=
  ⟨search, initialColumnFilters p search, initialGlobalFilter p search⟩

/-- A new value, or a function of the present one. -/
inductive Updater (α : Type) where
  | value (next : α) : Updater α
  | function (update : α → α) : Updater α

def Updater.apply {α : Type} (present : α) : Updater α → α
  | .value next => next
  | .function update => update present

inductive Label where
  /-- The page is loaded, or comes from another one. -/
  | mount (search : SearchRecord) : Label
  /-- A step through the history, or a link, to the same page. -/
  | navigate (search : SearchRecord) : Label
  | onPaginationChange (updater : Updater PaginationState) : Label
  | onGlobalFilterChange (updater : Updater String) : Label
  | onColumnFiltersChange (updater : Updater (List ColumnFilter)) : Label
  | ensurePageInRange (pageCount : Int) (resetTo : ResetTo) : Label

def nextGlobalFilter (p : Params) (s : State) (updater : Updater String) : String :=
  let next := updater.apply (s.globalFilter.getD "")
  if p.trimGlobal then trim next else next

def step (p : Params) (s : State) : Label → Option State
  | .mount search => some (mount p search)
  | .navigate search => some { s with search := search }
  | .onPaginationChange updater =>
    some { s with search := paginationSearch p s.search (updater.apply (pagination p s.search)) }
  | .onGlobalFilterChange updater =>
    if p.globalFilterEnabled then
      let value := nextGlobalFilter p s updater
      some { s with
        globalFilter := some value
        search := globalFilterSearch p s.search value }
    else none
  | .onColumnFiltersChange updater =>
    let next := updater.apply s.columnFilters
    some { s with
      columnFilters := next
      search := columnFiltersSearch p s.search next }
  | .ensurePageInRange pageCount resetTo =>
    some { s with search := ensurePageInRange p s.search pageCount resetTo }

/-- A table as it is set up: no two columns and no two parameters share a name, and an absent
parameter is no filter. -/
structure Table extends Params where
  columnIds_nodup : (columnFilters.map ColumnFilterConfig.columnId).Nodup
  keys_nodup :
    (pageKey :: pageSizeKey :: globalFilterKey ::
      columnFilters.map ColumnFilterConfig.searchKey).Nodup
  absent : ∀ cfg ∈ columnFilters, (cfg.deserialize none).filter (admits cfg.type) = none

theorem assign_same (key : String) (value : Option Json) (search : SearchRecord) :
    assign key value search key = value := by
  simp [assign]

theorem assign_other {key other : String} (value : Option Json) (search : SearchRecord)
    (h : other ≠ key) : assign key value search other = search other := by
  simp [assign, h]

section Patch

variable {next : List ColumnFilter} {cfgs : List ColumnFilterConfig}

/-- The patch changes the parameters of its columns only. -/
theorem patch_other {key : String} (h : key ∉ cfgs.map ColumnFilterConfig.searchKey)
    (search : SearchRecord) :
    cfgs.foldl (fun search cfg => assign cfg.searchKey (written next cfg) search) search key =
      search key := by
  induction cfgs generalizing search with
  | nil => rfl
  | cons cfg cfgs ih =>
    simp only [List.map_cons, List.mem_cons, not_or] at h
    rw [List.foldl_cons, ih h.2, assign_other _ _ h.1]

theorem patch_mem (hnodup : (cfgs.map ColumnFilterConfig.searchKey).Nodup)
    {cfg : ColumnFilterConfig} (hcfg : cfg ∈ cfgs) (search : SearchRecord) :
    cfgs.foldl (fun search cfg => assign cfg.searchKey (written next cfg) search) search
      cfg.searchKey = written next cfg := by
  induction cfgs generalizing search with
  | nil => cases hcfg
  | cons first cfgs ih =>
    obtain ⟨hfirst, hrest⟩ := List.nodup_cons.mp hnodup
    rw [List.foldl_cons]
    rcases List.mem_cons.mp hcfg with rfl | hcfg
    · rw [patch_other hfirst, assign_same]
    · exact ih hrest hcfg _

end Patch

section Columns

variable (T : Table)

def column (id : String) : Option ColumnFilterConfig :=
  T.columnFilters.find? fun cfg => cfg.columnId == id

/-- What a parameter says of the filter of a column. -/
def stored (cfg : ColumnFilterConfig) (value : Option Json) : Option Json :=
  (cfg.deserialize value).filter (admits cfg.type)

variable {T}

theorem column_spec {id : String} {cfg : ColumnFilterConfig} (h : column T id = some cfg) :
    cfg ∈ T.columnFilters ∧ cfg.columnId = id :=
  ⟨List.mem_of_find?_eq_some h, by simpa using List.find?_some h⟩

theorem filterOf_cons (f : ColumnFilter) (filters : List ColumnFilter) (id : String) :
    filterOf (f :: filters) id = if f.id = id then some f.value else filterOf filters id := by
  by_cases h : f.id = id <;> simp [filterOf, h]

theorem filterOf_collected (cfg : ColumnFilterConfig) (cfgs : List ColumnFilterConfig)
    (search : SearchRecord) (id : String) :
    filterOf ((cfg :: cfgs).filterMap (collected search)) id =
      if cfg.columnId = id ∧ (stored cfg (search cfg.searchKey)).isSome then
        stored cfg (search cfg.searchKey)
      else filterOf (cfgs.filterMap (collected search)) id := by
  have hcollected : collected search cfg =
      (stored cfg (search cfg.searchKey)).map fun value => ⟨cfg.columnId, value⟩ := rfl
  cases hstored : stored cfg (search cfg.searchKey) with
  | none =>
    rw [List.filterMap_cons_none (by rw [hcollected, hstored, Option.map_none])]
    simp
  | some value =>
    rw [List.filterMap_cons_some (by rw [hcollected, hstored, Option.map_some]), filterOf_cons]
    simp

/-- A column is filtered by what its parameter says. -/
theorem filterOf_filterMap {cfgs : List ColumnFilterConfig}
    (hnodup : (cfgs.map ColumnFilterConfig.columnId).Nodup) (search : SearchRecord) (id : String) :
    filterOf (cfgs.filterMap (collected search)) id =
      (cfgs.find? fun cfg => cfg.columnId == id).bind fun cfg =>
        stored cfg (search cfg.searchKey) := by
  induction cfgs with
  | nil => rfl
  | cons cfg cfgs ih =>
    obtain ⟨hfirst, hrest⟩ := List.nodup_cons.mp hnodup
    rw [filterOf_collected, ih hrest]
    by_cases hid : cfg.columnId = id
    · -- no other column has this name
      have hnone : (cfgs.find? fun cfg => cfg.columnId == id) = none := by
        rw [List.find?_eq_none]
        intro other hother heq
        refine hfirst ?_
        rw [hid, ← beq_iff_eq.mp heq]
        exact List.mem_map_of_mem hother
      rw [hnone]
      cases hstored : stored cfg (search cfg.searchKey) <;> simp [hid, hstored]
    · simp [hid]

theorem filterOf_initial (search : SearchRecord) (id : String) :
    filterOf (initialColumnFilters T.toParams search) id =
      (column T id).bind fun cfg => stored cfg (search cfg.searchKey) :=
  filterOf_filterMap T.columnIds_nodup search id

/-- The parameters that hold filters are those of neither the page nor each other. -/
theorem searchKey_ne {cfg : ColumnFilterConfig} (h : cfg ∈ T.columnFilters) :
    cfg.searchKey ≠ T.pageKey ∧ cfg.searchKey ≠ T.pageSizeKey ∧
      cfg.searchKey ≠ T.globalFilterKey := by
  have hmem := List.mem_map_of_mem (f := ColumnFilterConfig.searchKey) h
  have hnodup := T.keys_nodup
  simp only [List.nodup_cons, List.mem_cons, not_or] at hnodup
  obtain ⟨⟨-, -, hpage⟩, ⟨-, hsize⟩, hglobal, -⟩ := hnodup
  refine ⟨?_, ?_, ?_⟩
  · rintro heq
    exact hpage (heq ▸ hmem)
  · rintro heq
    exact hsize (heq ▸ hmem)
  · rintro heq
    exact hglobal (heq ▸ hmem)

theorem globalFilterKey_ne :
    T.globalFilterKey ≠ T.pageKey ∧ T.globalFilterKey ≠ T.pageSizeKey ∧
      T.pageKey ≠ T.pageSizeKey ∧
        T.globalFilterKey ∉ T.columnFilters.map ColumnFilterConfig.searchKey := by
  have hnodup := T.keys_nodup
  simp only [List.nodup_cons, List.mem_cons, not_or] at hnodup
  obtain ⟨⟨hsize, hglobal, -⟩, ⟨hglobal', -⟩, hcolumns, -⟩ := hnodup
  exact ⟨Ne.symm hglobal, Ne.symm hglobal', hsize, hcolumns⟩

theorem searchKeys_nodup : (T.columnFilters.map ColumnFilterConfig.searchKey).Nodup :=
  (List.nodup_cons.mp (List.nodup_cons.mp (List.nodup_cons.mp T.keys_nodup).2).2).2

/-- After a change of the filters the parameter of a column holds its filter. -/
theorem columnFiltersSearch_mem (search : SearchRecord) (next : List ColumnFilter)
    {cfg : ColumnFilterConfig} (h : cfg ∈ T.columnFilters) :
    columnFiltersSearch T.toParams search next cfg.searchKey = written next cfg :=
  patch_mem searchKeys_nodup h _

theorem columnFiltersSearch_global (search : SearchRecord) (next : List ColumnFilter) :
    columnFiltersSearch T.toParams search next T.globalFilterKey = search T.globalFilterKey := by
  obtain ⟨hpage, -, -, hcolumns⟩ := globalFilterKey_ne (T := T)
  rw [columnFiltersSearch, patch_other hcolumns, assign_other _ _ hpage]

variable (T) in
/-- The filter of a column that is read back as it is written. -/
def Storable (id : String) (value : Json) : Prop :=
  ∃ cfg, column T id = some cfg ∧ admits cfg.type value = true ∧
    stored cfg (cfg.serialize value) = some value

theorem stored_written_iff (next : List ColumnFilter) (id : String) :
    ((column T id).bind fun cfg => stored cfg (written next cfg)) = filterOf next id ↔
      ∀ value, filterOf next id = some value → Storable T id value := by
  cases hcolumn : column T id with
  | none =>
    constructor
    · intro h value hvalue
      rw [← h] at hvalue
      cases hvalue
    · intro h
      cases hfilter : filterOf next id with
      | none => rfl
      | some value =>
        obtain ⟨cfg, hcfg, -⟩ := h value hfilter
        rw [hcolumn] at hcfg
        cases hcfg
  | some cfg =>
    obtain ⟨hcfg, rfl⟩ := column_spec hcolumn
    rw [Option.bind_some, written]
    cases hfilter : filterOf next cfg.columnId with
    | none => simpa [stored] using T.absent cfg hcfg
    | some value =>
      simp only [Option.some.injEq, forall_eq', Storable, hcolumn]
      cases hadmits : admits cfg.type value with
      | false =>
        have habsent : stored cfg none = none := T.absent cfg hcfg
        simp [Option.filter, hadmits, habsent]
      | true => simp [Option.filter, hadmits]

end Columns

section Kept

variable (T : Table)

/-- A reload finds the filters of the table as they are. -/
structure Kept (s : State) : Prop where
  columnFilters : ∀ id,
    filterOf (initialColumnFilters T.toParams s.search) id = filterOf s.columnFilters id
  globalFilter : initialGlobalFilter T.toParams s.search = s.globalFilter

/-- The table goes to the page that it is told to. -/
def Obeyed (s : State) : Label → State → Prop
  | .onPaginationChange updater, t =>
    pagination T.toParams t.search = updater.apply (pagination T.toParams s.search)
  | _, _ => True

/-- A step through the history leads to the filters that the table has; a page is not before the
first; a filter is one that its column can read back. -/
def InStep (s : State) : Label → Prop
  | .navigate search => Kept T { s with search := search }
  | .onPaginationChange updater =>
    let next := updater.apply (pagination T.toParams s.search)
    0 ≤ next.pageIndex ∧ T.defaultPage ≤ next.pageIndex + 1
  | .onColumnFiltersChange updater => ∀ id value,
    filterOf (updater.apply s.columnFilters) id = some value → Storable T id value
  | _ => True

variable {T} {s t : State} {l : Label}

theorem mount_kept (search : SearchRecord) : Kept T (mount T.toParams search) :=
  ⟨fun _ => rfl, rfl⟩

/-- The filters do not depend on the parameters of the page. -/
theorem Kept.page (h : Kept T s) {search : SearchRecord}
    (hsearch : ∀ key, key ≠ T.pageKey → key ≠ T.pageSizeKey → search key = s.search key) :
    Kept T { s with search := search } where
  columnFilters := by
    intro id
    rw [← h.columnFilters id, filterOf_initial, filterOf_initial]
    cases hcolumn : column T id with
    | none => rfl
    | some cfg =>
      obtain ⟨hpage, hsize, -⟩ := searchKey_ne (column_spec hcolumn).1
      simp only [Option.bind_some, hsearch cfg.searchKey hpage hsize]
  globalFilter := by
    obtain ⟨hpage, hsize, -, -⟩ := globalFilterKey_ne (T := T)
    rw [← h.globalFilter]
    simp only [initialGlobalFilter, hsearch _ hpage hsize]

theorem pagination_iff (search : SearchRecord) (next : PaginationState) :
    pagination T.toParams (paginationSearch T.toParams search next) = next ↔
      0 ≤ next.pageIndex ∧ T.defaultPage ≤ next.pageIndex + 1 := by
  obtain ⟨-, -, hkeys, -⟩ := globalFilterKey_ne (T := T)
  have hsize : number (paginationSearch T.toParams search next T.pageSizeKey) T.defaultPageSize =
      next.pageSize := by
    rw [paginationSearch, assign_same]
    split
    · next heq => exact heq.symm
    · rfl
  have hpage : number (paginationSearch T.toParams search next T.pageKey) T.defaultPage =
      if next.pageIndex + 1 ≤ T.defaultPage then T.defaultPage else next.pageIndex + 1 := by
    rw [paginationSearch, assign_other _ _ hkeys, assign_same]
    split <;> rfl
  have hiff : pagination T.toParams (paginationSearch T.toParams search next) = next ↔
      max 0 ((if next.pageIndex + 1 ≤ T.defaultPage then T.defaultPage
        else next.pageIndex + 1) - 1) = next.pageIndex := by
    rw [pagination, hsize, hpage]
    constructor
    · intro h
      exact congrArg PaginationState.pageIndex h
    · intro h
      rw [h]
  rw [hiff]
  split
  · next hle =>
    constructor
    · intro h
      have h0 := le_max_left 0 (T.defaultPage - 1)
      have h1 := le_max_right 0 (T.defaultPage - 1)
      constructor <;> linarith
    · rintro ⟨h0, h1⟩
      have heq : T.defaultPage - 1 = next.pageIndex := by linarith
      rw [heq, max_eq_right h0]
  · next hlt =>
    rw [add_sub_cancel_right]
    constructor
    · intro h
      exact ⟨max_eq_right_iff.mp h, by linarith⟩
    · rintro ⟨h0, -⟩
      exact max_eq_right h0

theorem ensurePageInRange_other (search : SearchRecord) (pageCount : Int) (resetTo : ResetTo)
    {key : String} (h : key ≠ T.pageKey) :
    ensurePageInRange T.toParams search pageCount resetTo key = search key := by
  unfold ensurePageInRange
  split
  · exact assign_other _ _ h
  · rfl

theorem globalFilterSearch_kept (h : Kept T s) (henabled : T.globalFilterEnabled = true)
    (value : String) :
    Kept T ⟨globalFilterSearch T.toParams s.search value, s.columnFilters, some value⟩ where
  columnFilters := by
    intro id
    rw [← h.columnFilters id, filterOf_initial, filterOf_initial]
    cases hcolumn : column T id with
    | none => rfl
    | some cfg =>
      obtain ⟨hpage, -, hglobal⟩ := searchKey_ne (column_spec hcolumn).1
      simp only [Option.bind_some, globalFilterSearch, assign_other _ _ hglobal,
        assign_other _ _ hpage]
  globalFilter := by
    simp only [initialGlobalFilter, henabled, if_true, globalFilterSearch, assign_same]
    split
    · next hempty => rw [hempty]; rfl
    · rfl

theorem columnFiltersSearch_kept_iff (h : Kept T s) (next : List ColumnFilter) :
    Kept T ⟨columnFiltersSearch T.toParams s.search next, next, s.globalFilter⟩ ↔
      ∀ id value, filterOf next id = some value → Storable T id value := by
  have hread : ∀ id, filterOf (initialColumnFilters T.toParams
      (columnFiltersSearch T.toParams s.search next)) id =
        (column T id).bind fun cfg => stored cfg (written next cfg) := by
    intro id
    rw [filterOf_initial]
    cases hcolumn : column T id with
    | none => rfl
    | some cfg =>
      simp only [Option.bind_some, columnFiltersSearch_mem _ _ (column_spec hcolumn).1]
  constructor
  · intro hkept id
    exact (stored_written_iff next id).mp ((hread id).symm.trans (hkept.columnFilters id))
  · intro hstorable
    refine ⟨fun id => (hread id).trans ((stored_written_iff next id).mpr (hstorable id)), ?_⟩
    rw [← h.globalFilter]
    simp only [initialGlobalFilter, columnFiltersSearch_global]

/-- A step from a table that a reload finds as it is does what it is told to and leaves it so,
exactly if it meets its condition. -/
theorem step_kept_iff (h : Kept T s) (hstep : step T.toParams s l = some t) :
    Kept T t ∧ Obeyed T s l t ↔ InStep T s l := by
  cases l with
  | mount search =>
    obtain rfl := Option.some.inj hstep
    exact iff_of_true ⟨mount_kept search, trivial⟩ trivial
  | navigate search =>
    obtain rfl := Option.some.inj hstep
    exact and_iff_left trivial
  | onPaginationChange updater =>
    obtain rfl := Option.some.inj hstep
    refine (and_iff_right (h.page ?_)).trans (pagination_iff _ _)
    intro key hpage hsize
    rw [paginationSearch, assign_other _ _ hsize, assign_other _ _ hpage]
  | onGlobalFilterChange updater =>
    obtain ⟨henabled, rfl⟩ := guarded hstep
    exact iff_of_true ⟨globalFilterSearch_kept h henabled _, trivial⟩ trivial
  | onColumnFiltersChange updater =>
    obtain rfl := Option.some.inj hstep
    exact (and_iff_left trivial).trans (columnFiltersSearch_kept_iff h _)
  | ensurePageInRange pageCount resetTo =>
    obtain rfl := Option.some.inj hstep
    exact iff_of_true
      ⟨h.page fun key hpage _ => ensurePageInRange_other _ _ _ hpage, trivial⟩ trivial

/-- Throughout a run the table goes to every page that it is told to and a reload finds its
filters as they are, exactly if every step meets its condition. -/
theorem table_kept_iff (search : SearchRecord) (tr : List Label) :
    (∀ v ∈ visits (step T.toParams) (mount T.toParams search) tr,
        Kept T v.2.2 ∧ Obeyed T v.1 v.2.1 v.2.2) ↔
      ∀ v ∈ visits (step T.toParams) (mount T.toParams search) tr, InStep T v.1 v.2.1 :=
  visits_iff (Kept T) (fun v => Kept T v.2.2 ∧ Obeyed T v.1 v.2.1 v.2.2) (InStep T)
    (fun _ _ _ hs hstep => step_kept_iff hs hstep)
    (fun _ _ _ hs hC hstep => ((step_kept_iff hs hstep).mpr hC).1)
    (mount_kept search) tr

end Kept

/-- `users-table.tsx`. -/
def usersTable : Table where
  globalFilterEnabled := false
  columnFilters := [{ columnId := "userName", searchKey := "userName", type := some .string },
    { columnId := "status", searchKey := "status", type := some .array },
    { columnId := "role", searchKey := "role", type := some .array }]
  columnIds_nodup := by decide
  keys_nodup := by decide
  absent := by simp

/-- `tasks-table.tsx`. -/
def tasksTable : Table where
  columnFilters := [{ columnId := "status", searchKey := "status", type := some .array },
    { columnId := "priority", searchKey := "priority", type := some .array }]
  columnIds_nodup := by decide
  keys_nodup := by decide
  absent := by simp

end TableUrlState
