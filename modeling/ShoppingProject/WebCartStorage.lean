import Mathlib.Data.List.Nodup
import ShoppingProject.Json
import ShoppingProject.KeyedLists
import ShoppingProject.Mirrors
import ShoppingProject.WebCart

/-!
# The cart in the local storage

The entry `cart` always holds the items of the slice, and these have distinct ids, so that a
reload finds the cart as it was.
-/
namespace WebCartStorage

open WebCart

/-- The local storage; what is stored is text, and is kept here as `JSON.stringify` takes it and
`JSON.parse` gives it back. -/
abbrev LocalStorage := Entries Json

/-- `JSON.stringify` of an item. -/
def itemJson (item : CartItem) : Json :=
  .obj [("id", .num item.id), ("title", .str item.title), ("price", .num item.price),
    ("quantity", .num item.quantity), ("image", .str item.image)]

def readItem (j : Json) : Option CartItem := do
  let id ← (← j.field "id").asInt
  let title ← (← j.field "title").asStr
  let price ← (← j.field "price").asNum
  let quantity ← (← j.field "quantity").asNum
  let image ← (← j.field "image").asStr
  return ⟨id, title, price, quantity, image⟩

def itemsJson (items : List CartItem) : Json := .arr (items.map itemJson)

/-- An array of items, as the slice takes what it has stored to be. -/
def readItems : Json → Option (List CartItem)
  | .arr values => values.mapM readItem
  | _ => none

/-- The entry `cart`. -/
def stored (storage : LocalStorage) : Stored := (storage "cart").bind readItems

def store (storage : LocalStorage) : Stored → LocalStorage
  | some items => storage.setItem "cart" (itemsJson items)
  | none => storage.removeItem "cart"

/-- What the writes of an action leave in the storage. -/
def write (state : CartState) (action : Action) (storage : LocalStorage) : LocalStorage :=
  (writes state action).foldl store storage

def cartSlice : Slice CartState LocalStorage Action where
  initialState storage := initialState (stored storage)
  reducer := reducer
  write := write

theorem readItem_itemJson (item : CartItem) : readItem (itemJson item) = some item := by
  simp [readItem, itemJson, Json.field, Json.asInt, Json.asStr, Json.asNum]

theorem readItems_itemsJson (items : List CartItem) :
    readItems (itemsJson items) = some items := Json.mapM_map_some readItem_itemJson items

theorem stored_store (storage : LocalStorage) (entry : Stored) :
    stored (store storage entry) = entry := by
  cases entry with
  | none => simp [store, stored]
  | some items => simp [store, stored, readItems_itemsJson]

/-! ## The items and their ids -/

theorem modifyItem_ids {f : CartItem → CartItem} (hf : ∀ item, (f item).id = item.id) (id : Int)
    (items : List CartItem) :
    (modifyItem id f items).map CartItem.id = items.map CartItem.id := by
  induction items with
  | nil => rfl
  | cons item items ih =>
    unfold modifyItem
    split
    · rw [List.map_cons, List.map_cons, hf]
    · rw [List.map_cons, List.map_cons, ih]

theorem reducer_distinct {state : CartState} (h : (state.items.map CartItem.id).Nodup)
    (action : Action) : ((reducer state action).items.map CartItem.id).Nodup := by
  cases action with
  | addToCart payload =>
    simp only [reducer, addToCart]
    split
    · rw [modifyItem_ids (f := fun item => { item with quantity := item.quantity + 1 })
        fun _ => rfl]
      exact h
    · rename_i hnew
      have hfresh : payload.id ∉ state.items.map CartItem.id := by
        intro hid
        obtain ⟨item, hitem, heq⟩ := List.mem_map.mp hid
        exact hnew (List.any_eq_true.mpr ⟨item, hitem, by simpa using heq⟩)
      exact KeyedLists.distinct_snoc.mpr ⟨h, hfresh⟩
  | removeFromCart id => exact h.sublist (List.filter_sublist.map _)
  | updateQuantity id quantity =>
    simp only [reducer, updateQuantity]
    split
    · simp only
      rw [modifyItem_ids (f := fun item => { item with quantity := quantity }) fun _ => rfl]
      exact h
    · exact h
  | clearCart => exact List.nodup_nil

/-- After an action the entry holds the items, unless it writes nothing, and then the items are
as they were. -/
theorem stored_write (state : CartState) (action : Action) (storage : LocalStorage)
    (h : (stored storage).getD [] = state.items) :
    (stored (write state action storage)).getD [] = (reducer state action).items := by
  cases action with
  | addToCart payload => simp [write, writes, stored_store]
  | removeFromCart id => simp [write, writes, stored_store]
  | updateQuantity id quantity =>
    by_cases hid : state.items.any (fun item => item.id = id) = true
    · simp [write, writes, hid, stored_store]
    · simp [write, writes, hid, reducer, updateQuantity, h]
  | clearCart => simp [write, writes, stored_store, reducer, clearCart]

def Distinct (items : List CartItem) : Prop := (items.map CartItem.id).Nodup

theorem cartSlice_keeps : cartSlice.KeepsMirror CartState.items Distinct := fun s action hs =>
  ⟨reducer_distinct hs.property action, stored_write s.slice action s.storage hs.mirror⟩

/-- In every run of actions and reloads the ids of the items are distinct, and a reload would
find the items as they are. -/
theorem cart_mirrored (tr : List (Slice.Label Action)) :
    ∃ t, Runs.run cartSlice.step (cartSlice.start .empty) tr = some t ∧
      (t.slice.items.map CartItem.id).Nodup ∧
      (initialState (stored t.storage)).items = t.slice.items := by
  have hstart : Distinct (cartSlice.initialState .empty).items := List.nodup_nil
  obtain ⟨t, ht, hmirrored⟩ := cartSlice_keeps.exists_run hstart tr
  exact ⟨t, ht, hmirrored.property, hmirrored.mirror⟩

end WebCartStorage
