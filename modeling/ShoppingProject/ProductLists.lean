import ShoppingProject.RecencyLists
import ShoppingProject.WebCartStorage

/-!
# Recently viewed and compared products

The products slice of the web application keeps the ids of the products that were viewed
last and of those that are compared, each with a copy in the local storage.
-/
namespace ProductLists

open RecencyLists Runs
open WebCartStorage (LocalStorage)

inductive SortBy where
  | priceAsc | priceDesc | rating | newest
  deriving DecidableEq

structure ProductFilters where
  category : Option String
  minPrice : Option ℚ
  maxPrice : Option ℚ
  rating : Option ℚ
  searchQuery : Option String
  sortBy : Option SortBy
  deriving DecidableEq

/-- `Partial<ProductFilters>`: a field that is named may be `undefined`. -/
structure FilterUpdate where
  category : Option (Option String)
  minPrice : Option (Option ℚ)
  maxPrice : Option (Option ℚ)
  rating : Option (Option ℚ)
  searchQuery : Option (Option String)
  sortBy : Option (Option SortBy)
  deriving DecidableEq

structure ProductsState where
  filters : ProductFilters
  selectedProductId : Option Int
  compareList : List Int
  recentlyViewed : List Int

def noFilters : ProductFilters := ⟨none, none, none, none, none, none⟩

/-- `{ ...filters, ...update }`. -/
def merge (filters : ProductFilters) (update : FilterUpdate) : ProductFilters where
  category := update.category.getD filters.category
  minPrice := update.minPrice.getD filters.minPrice
  maxPrice := update.maxPrice.getD filters.maxPrice
  rating := update.rating.getD filters.rating
  searchQuery := update.searchQuery.getD filters.searchQuery
  sortBy := update.sortBy.getD filters.sortBy

def idJson (id : Int) : Json := .num id

def idsJson (ids : List Int) : Json := .arr (ids.map idJson)

/-- An array of ids, as the slice takes what it has stored to be. -/
def readIds : Json → Option (List Int)
  | .arr values => values.mapM Json.asInt
  | _ => none

def stored (name : String) (storage : LocalStorage) : List Int :=
  ((storage name).bind readIds).getD []

def initialState (storage : LocalStorage) : ProductsState :=
  ⟨noFilters, none, stored "compareList" storage, stored "recentlyViewed" storage⟩

inductive Action where
  | setFilters (payload : ProductFilters) : Action
  | updateFilter (payload : FilterUpdate) : Action
  | clearFilters : Action
  | setSelectedProduct (payload : Option Int) : Action
  | addToCompare (payload : Int) : Action
  | removeFromCompare (payload : Int) : Action
  | clearCompareList : Action
  | addToRecentlyViewed (payload : Int) : Action
  | clearRecentlyViewed : Action
  deriving DecidableEq

def addToCompare (id : Int) (ids : List Int) : List Int :=
  if id ∉ ids ∧ ids.length < 4 then ids ++ [id] else ids

/-- The id moves to the front, and the first ten stay. -/
def addToRecentlyViewed (id : Int) (ids : List Int) : List Int :=
  let ids := id :: ids.filter fun other => other ≠ id
  if ids.length > 10 then ids.take 10 else ids

def reducer (state : ProductsState) : Action → ProductsState
  | .setFilters payload => { state with filters := payload }
  | .updateFilter payload => { state with filters := merge state.filters payload }
  | .clearFilters => { state with filters := noFilters }
  | .setSelectedProduct payload => { state with selectedProductId := payload }
  | .addToCompare payload => { state with compareList := addToCompare payload state.compareList }
  | .removeFromCompare payload =>
    { state with compareList := state.compareList.filter fun id => id ≠ payload }
  | .clearCompareList => { state with compareList := [] }
  | .addToRecentlyViewed payload =>
    { state with recentlyViewed := addToRecentlyViewed payload state.recentlyViewed }
  | .clearRecentlyViewed => { state with recentlyViewed := [] }

def write (state : ProductsState) (action : Action) (storage : LocalStorage) : LocalStorage :=
  let t := reducer state action
  match action with
  | .addToCompare payload =>
    if payload ∉ state.compareList ∧ state.compareList.length < 4 then
      storage.setItem "compareList" (idsJson t.compareList)
    else storage
  | .removeFromCompare _ => storage.setItem "compareList" (idsJson t.compareList)
  | .clearCompareList => storage.removeItem "compareList"
  | .addToRecentlyViewed _ => storage.setItem "recentlyViewed" (idsJson t.recentlyViewed)
  | .clearRecentlyViewed => storage.removeItem "recentlyViewed"
  | _ => storage

def productsSlice : Slice ProductsState LocalStorage Action where
  initialState := initialState
  reducer := reducer
  write := write

abbrev State := Slice.State ProductsState LocalStorage
abbrev Label := Slice.Label Action

/-! ## What the lists are for -/

/-- The products viewed since the last clear, in the order of the views. -/
def viewed (tr : List Label) : List Int :=
  tr.foldl (fun ids l => match l with
    | .dispatch (.addToRecentlyViewed id) => ids ++ [id]
    | .dispatch .clearRecentlyViewed => []
    | _ => ids) []

/-- The products that additions have put into the list for comparison, in the order in which
this happened last. -/
def added (vs : List (State × Label × State)) : List Int :=
  vs.foldl (fun ids v => match v.2.1 with
    | .dispatch (.addToCompare id) =>
      if v.2.2.slice.compareList = v.1.slice.compareList then ids
      else ids.filter (fun other => other ≠ id) ++ [id]
    | _ => ids) []

/-! ## The copies -/

theorem readIds_idsJson (ids : List Int) : readIds (idsJson ids) = some ids :=
  Json.mapM_map_some (fun id => by simp [idJson, Json.asInt]) ids

@[simp] theorem stored_setItem (name : String) (ids : List Int) (storage : LocalStorage) :
    stored name (storage.setItem name (idsJson ids)) = ids := by
  simp [stored, readIds_idsJson]

@[simp] theorem stored_removeItem (name : String) (storage : LocalStorage) :
    stored name (storage.removeItem name) = [] := by
  simp [stored]

theorem stored_setItem_other {name other : String} (h : other ≠ name) (value : Json)
    (storage : LocalStorage) :
    stored other (storage.setItem name value) = stored other storage := by
  rw [stored, Entries.setItem_other value storage h, stored]

theorem stored_removeItem_other {name other : String} (h : other ≠ name) (storage : LocalStorage) :
    stored other (storage.removeItem name) = stored other storage := by
  rw [stored, Entries.removeItem_other storage h, stored]

/-- The two lists of the slice. -/
def lists (state : ProductsState) : List Int × List Int := (state.compareList, state.recentlyViewed)

/-- At most four distinct products are compared. -/
def Bounded (ids : List Int × List Int) : Prop := ids.1.Nodup ∧ ids.1.length ≤ 4

theorem addToCompare_bounded {ids : List Int} (h : ids.Nodup ∧ ids.length ≤ 4) (id : Int) :
    (addToCompare id ids).Nodup ∧ (addToCompare id ids).length ≤ 4 := by
  unfold addToCompare
  split
  · rename_i hnew
    refine ⟨List.nodup_append_comm.mpr (List.nodup_cons.mpr ⟨hnew.1, h.1⟩), ?_⟩
    rw [List.length_append, List.length_singleton]
    omega
  · exact h

theorem reducer_bounded {state : ProductsState} (h : Bounded (lists state)) (action : Action) :
    Bounded (lists (reducer state action)) := by
  cases action with
  | addToCompare payload => exact addToCompare_bounded h payload
  | removeFromCompare payload =>
    exact ⟨h.1.filter _, (List.length_filter_le _ _).trans h.2⟩
  | clearCompareList => exact ⟨List.nodup_nil, Nat.zero_le 4⟩
  | _ => exact h

theorem lists_write {state : ProductsState} {storage : LocalStorage}
    (h : lists (initialState storage) = lists state) (action : Action) :
    lists (initialState (write state action storage)) = lists (reducer state action) := by
  obtain ⟨hcompare, hrecent⟩ := Prod.mk.inj h
  simp only [initialState] at hcompare hrecent
  cases action with
  | addToCompare payload =>
    simp only [write, reducer, addToCompare, lists, initialState]
    split
    · rw [stored_setItem, stored_setItem_other (by decide), hrecent]
    · rw [hcompare, hrecent]
  | removeFromCompare payload =>
    simp only [write, reducer, lists, initialState]
    rw [stored_setItem, stored_setItem_other (by decide), hrecent]
  | clearCompareList =>
    simp only [write, reducer, lists, initialState]
    rw [stored_removeItem, stored_removeItem_other (by decide), hrecent]
  | addToRecentlyViewed payload =>
    simp only [write, reducer, lists, initialState]
    rw [stored_setItem, stored_setItem_other (by decide), hcompare]
  | clearRecentlyViewed =>
    simp only [write, reducer, lists, initialState]
    rw [stored_removeItem, stored_removeItem_other (by decide), hcompare]
  | _ => exact h

theorem productsSlice_keeps : productsSlice.KeepsMirror lists Bounded := by
  intro s action hs
  have hmirror : lists (initialState s.storage) = lists s.slice := hs.mirror
  exact ⟨reducer_bounded hs.property action, lists_write hmirror action⟩

/-! ## The history -/

theorem addToRecentlyViewed_eq (id : Int) (ids : List Int) :
    addToRecentlyViewed id ids = touch 10 id ids := by
  unfold addToRecentlyViewed touch
  simp only
  split
  · rfl
  · rename_i hlength
    rw [List.take_of_length_le (Nat.le_of_not_lt hlength)]

theorem viewed_snoc (tr : List Label) (l : Label) :
    viewed (tr ++ [l]) = match l with
      | .dispatch (.addToRecentlyViewed id) => viewed tr ++ [id]
      | .dispatch .clearRecentlyViewed => []
      | _ => viewed tr := by
  rw [viewed, List.foldl_append, List.foldl_cons, List.foldl_nil, ← viewed]

theorem recent_next {s t : State} {l : Label} {tr : List Label}
    (hmirrored : productsSlice.Mirrored lists Bounded s)
    (h : s.slice.recentlyViewed = recent 10 (viewed tr))
    (hstep : productsSlice.step s l = some t) :
    t.slice.recentlyViewed = recent 10 (viewed (tr ++ [l])) := by
  rw [viewed_snoc]
  cases l with
  | reload => exact (congrArg Prod.snd (hmirrored.reload hstep)).trans h
  | dispatch action =>
    obtain rfl := Option.some.inj hstep
    cases action with
    | addToRecentlyViewed id =>
      rw [← touch_recent, ← h]
      exact addToRecentlyViewed_eq id s.slice.recentlyViewed
    | clearRecentlyViewed => rfl
    | _ => exact h

theorem added_snoc (vs : List (State × Label × State)) (v : State × Label × State) :
    added (vs ++ [v]) = match v.2.1 with
      | .dispatch (.addToCompare id) =>
        if v.2.2.slice.compareList = v.1.slice.compareList then added vs
        else (added vs).filter (fun other => other ≠ id) ++ [id]
      | _ => added vs := by
  rw [added, List.foldl_append, List.foldl_cons, List.foldl_nil, ← added]

/-- The list keeps the order of the additions. -/
theorem order_next {s t : State} {l : Label} {vs : List (State × Label × State)}
    (hmirrored : productsSlice.Mirrored lists Bounded s)
    (h : s.slice.compareList.Sublist (added vs)) (hstep : productsSlice.step s l = some t) :
    t.slice.compareList.Sublist (added (vs ++ [(s, l, t)])) := by
  rw [added_snoc]
  cases l with
  | reload =>
    have hsame : t.slice.compareList = s.slice.compareList :=
      congrArg Prod.fst (hmirrored.reload hstep)
    rw [hsame]
    exact h
  | dispatch action =>
    obtain rfl := Option.some.inj hstep
    cases action with
    | addToCompare id =>
      by_cases hnew : id ∉ s.slice.compareList ∧ s.slice.compareList.length < 4
      · have hlist : addToCompare id s.slice.compareList = s.slice.compareList ++ [id] :=
          if_pos hnew
        have hkept : (s.slice.compareList.filter fun other => other ≠ id) = s.slice.compareList :=
          List.filter_eq_self.mpr fun other hother => by
            simpa using fun heq : other = id => hnew.1 (heq ▸ hother)
        have hsub := (h.filter fun other => other ≠ id).append_right [id]
        rw [hkept] at hsub
        simpa [productsSlice, reducer, hlist] using hsub
      · have hlist : addToCompare id s.slice.compareList = s.slice.compareList := if_neg hnew
        simpa [productsSlice, reducer, hlist] using h
    | removeFromCompare id => exact List.filter_sublist.trans h
    | clearCompareList => exact List.nil_sublist _
    | _ => exact h

/-- An addition of a product that is there, or beyond four, changes nothing, and any other one
puts the product last. -/
def AddsLast (s : State) : Prop :=
  ∀ id, if id ∈ s.slice.compareList ∨ 4 ≤ s.slice.compareList.length then
      productsSlice.step s (.dispatch (.addToCompare id)) = some s
    else ∃ t, productsSlice.step s (.dispatch (.addToCompare id)) = some t ∧
      t.slice.compareList = s.slice.compareList ++ [id]

theorem addsLast (s : State) : AddsLast s := by
  intro id
  have hiff : id ∈ s.slice.compareList ∨ 4 ≤ s.slice.compareList.length ↔
      ¬ (id ∉ s.slice.compareList ∧ s.slice.compareList.length < 4) := by
    rw [not_and_or, not_not, not_lt]
  split
  · rename_i hold
    have hno := hiff.mp hold
    simp only [Slice.step, productsSlice, reducer, write, addToCompare, if_neg hno]
  · rename_i hold
    have hnew := not_not.mp (mt hiff.mpr hold)
    exact ⟨_, rfl, if_pos hnew⟩

/-- The state after the steps `tr` from an empty storage. -/
structure Remembered (tr : List Label) (t : State) : Prop where
  recent : t.slice.recentlyViewed = recent 10 (viewed tr)
  distinct : t.slice.compareList.Nodup
  atMostFour : t.slice.compareList.length ≤ 4
  order : t.slice.compareList.Sublist
    (added (visits productsSlice.step (productsSlice.start .empty) tr))
  addsLast : AddsLast t
  recentStored : (initialState t.storage).recentlyViewed = t.slice.recentlyViewed
  compareStored : (initialState t.storage).compareList = t.slice.compareList

/-- In every run the recently viewed products are the first ten distinct ones viewed since the
last clear, the compared ones are at most four distinct ones in the order of their additions,
and a reload would find both lists as they are. -/
theorem lists_remembered (tr : List Label) :
    ∃ t, run productsSlice.step (productsSlice.start .empty) tr = some t ∧ Remembered tr t := by
  obtain ⟨t, ht⟩ := productsSlice.exists_run (productsSlice.start .empty) tr
  have hstart : Bounded (lists (initialState .empty)) := ⟨List.nodup_nil, Nat.zero_le 4⟩
  have hmirrored : ∀ {tr u}, run productsSlice.step (productsSlice.start .empty) tr = some u →
      productsSlice.Mirrored lists Bounded u := productsSlice_keeps.run hstart
  have hrecent := history_invariant
    (fun tr (u : State) => u.slice.recentlyViewed = recent 10 (viewed tr)) rfl
    (fun tr u l v hu h hstep => recent_next (hmirrored hu) h hstep) ht
  have horder := history_invariant
    (fun tr (u : State) => u.slice.compareList.Sublist
      (added (visits productsSlice.step (productsSlice.start .empty) tr))) (.refl _)
    (fun tr u l v hu h hstep => by
      rw [visits_snoc hu hstep]
      exact order_next (hmirrored hu) h hstep) ht
  have h := hmirrored ht
  exact ⟨t, ht, hrecent, h.property.1, h.property.2, horder, addsLast t,
    congrArg Prod.snd h.mirror, congrArg Prod.fst h.mirror⟩

end ProductLists
