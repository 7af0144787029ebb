import Mathlib.Algebra.Order.BigOperators.Group.List
import Mathlib.Algebra.Order.Ring.Rat
import ShoppingProject.Runs

/-!
# The cart slice of the web application

The slice keeps a total beside its items. Every reducer but one writes the items to the
local storage, where the next load of the application finds them. A load may find whatever
the storage has held, since other windows share it. Numbers are exact.
-/
namespace WebCart

open Runs

structure CartItem where
  id : Int
  title : String
  price : ℚ
  quantity : ℚ
  image : String
  deriving DecidableEq

structure CartState where
  items : List CartItem
  total : ℚ
  deriving DecidableEq

/-- What `localStorage.getItem('cart')` gives. -/
abbrev Stored := Option (List CartItem)

def initialState (stored : Stored) : CartState := ⟨stored.getD [], 0⟩

def calculateTotal (items : List CartItem) : ℚ :=
  items.foldl (fun sum item => sum + item.price * item.quantity) 0

/-- A change of the item that `find` gives, which is the first one with the id. -/
def modifyItem (id : Int) (f : CartItem → CartItem) : List CartItem → List CartItem
  | [] => []
  | item :: items => if item.id = id then f item :: items else item :: modifyItem id f items

def addToCart (state : CartState) (payload : CartItem) : CartState :=
  let items :=
    if state.items.any (fun item => item.id = payload.id) then
      modifyItem payload.id (fun item => { item with quantity := item.quantity + 1 }) state.items
    else state.items ++ [{ payload with quantity := 1 }]
  ⟨items, calculateTotal items⟩

def removeFromCart (state : CartState) (id : Int) : CartState :=
  let items := state.items.filter fun item => item.id ≠ id
  ⟨items, calculateTotal items⟩

def updateQuantity (state : CartState) (id : Int) (quantity : ℚ) : CartState :=
  if state.items.any (fun item => item.id = id) then
    let items := modifyItem id (fun item => { item with quantity := quantity }) state.items
    ⟨items, calculateTotal items⟩
  else state

def clearCart : CartState := ⟨[], 0⟩

inductive Action where
  | addToCart (payload : CartItem) : Action
  | removeFromCart (id : Int) : Action
  | updateQuantity (id : Int) (quantity : ℚ) : Action
  | clearCart : Action

def reducer (state : CartState) : Action → CartState
  | .addToCart payload => addToCart state payload
  | .removeFromCart id => removeFromCart state id
  | .updateQuantity id quantity => updateQuantity state id quantity
  | .clearCart => clearCart

/-- What the reducer leaves in the local storage, if it writes there. -/
def writes (state : CartState) (action : Action) : List Stored :=
  match action with
  | .addToCart _ | .removeFromCart _ => [some (reducer state action).items]
  | .updateQuantity id _ =>
    if state.items.any (fun item => item.id = id) then [some (reducer state action).items] else []
  | .clearCart => [none]

/-- The slice and everything that the storage has held. -/
structure State where
  slice : CartState
  written : List Stored

/-- The application in a browser that has never run it. -/
def start : State := ⟨initialState none, [none]⟩

inductive Label where
  | dispatch (action : Action) : Label
  | load (stored : Stored) : Label

def step (s : State) : Label → Option State
  | .dispatch action => some ⟨reducer s.slice action, writes s.slice action ++ s.written⟩
  | .load stored => if stored ∈ s.written then some ⟨initialState stored, s.written⟩ else none

def sumOf (items : List CartItem) : ℚ := (items.map fun item => item.price * item.quantity).sum

/-- The total is that of the items, and there is at least one of each. -/
structure Sound (state : CartState) : Prop where
  total : state.total = sumOf state.items
  quantities : ∀ item ∈ state.items, 1 ≤ item.quantity

theorem calculateTotal_eq (items : List CartItem) : calculateTotal items = sumOf items := by
  have hfold : ∀ start : ℚ, items.foldl (fun sum item => sum + item.price * item.quantity) start =
      start + sumOf items := by
    intro start
    induction items generalizing start with
    | nil => simp [sumOf]
    | cons item items ih =>
      rw [List.foldl_cons, ih, sumOf, sumOf, List.map_cons, List.sum_cons, add_assoc]
  rw [calculateTotal, hfold, zero_add]

theorem forall_modifyItem {P : CartItem → Prop} {f : CartItem → CartItem} {items : List CartItem}
    (id : Int) (h : ∀ item ∈ items, P item) (hf : ∀ item, P item → P (f item)) :
    ∀ item ∈ modifyItem id f items, P item := by
  induction items with
  | nil => exact h
  | cons first items ih =>
    rw [List.forall_mem_cons] at h
    unfold modifyItem
    split
    · exact List.forall_mem_cons.mpr ⟨hf first h.1, h.2⟩
    · exact List.forall_mem_cons.mpr ⟨h.1, ih h.2⟩

/-- The changed item is among the items. -/
theorem exists_mem_modifyItem {f : CartItem → CartItem} {items : List CartItem} {id : Int}
    (hid : items.any (fun item => item.id = id) = true) :
    ∃ item ∈ items, f item ∈ modifyItem id f items := by
  induction items with
  | nil => simp at hid
  | cons first items ih =>
    unfold modifyItem
    split
    · exact ⟨first, .head _, .head _⟩
    · rename_i hne
      obtain ⟨item, hitem, hchanged⟩ := ih (by simpa [hne] using hid)
      exact ⟨item, .tail _ hitem, .tail _ hchanged⟩

/-- When a step leaves the slice sound. -/
def Meets (s : State) : Label → Prop
  | .dispatch (.updateQuantity id quantity) =>
    s.slice.items.any (fun item => item.id = id) = true → 1 ≤ quantity
  | .dispatch _ => True
  | .load stored => sumOf (stored.getD []) = 0

/-- The slice is sound, and so were the items whenever they were stored. -/
structure Kept (s : State) : Prop where
  sound : Sound s.slice
  stored : ∀ stored ∈ s.written, ∀ item ∈ stored.getD [], 1 ≤ item.quantity

theorem addToCart_sound {state : CartState} (h : Sound state) (payload : CartItem) :
    Sound (addToCart state payload) := by
  refine ⟨calculateTotal_eq _, ?_⟩
  unfold addToCart
  split
  · exact forall_modifyItem payload.id h.quantities fun item hitem =>
      le_add_of_le_of_nonneg hitem zero_le_one
  · intro item hitem
    rcases List.mem_append.mp hitem with hold | hnew
    · exact h.quantities item hold
    · obtain rfl := List.mem_singleton.mp hnew
      exact le_refl 1

theorem removeFromCart_sound {state : CartState} (h : Sound state) (id : Int) :
    Sound (removeFromCart state id) :=
  ⟨calculateTotal_eq _, fun item hitem => h.quantities item (List.mem_of_mem_filter hitem)⟩

/-- An update takes the quantity of its caller as it is. -/
theorem updateQuantity_sound_iff {state : CartState} (h : Sound state) (id : Int) (quantity : ℚ) :
    Sound (updateQuantity state id quantity) ↔
      (state.items.any (fun item => item.id = id) = true → 1 ≤ quantity) := by
  unfold updateQuantity
  split
  · rename_i hid
    refine ⟨fun hsound _ => ?_, fun hquantity => ⟨calculateTotal_eq _, ?_⟩⟩
    · obtain ⟨item, -, hchanged⟩ := exists_mem_modifyItem
        (f := fun item => { item with quantity := quantity }) hid
      exact hsound.quantities _ hchanged
    · exact forall_modifyItem id h.quantities fun _ _ => hquantity hid
  · rename_i hid
    exact iff_of_true h fun hid' => absurd hid' hid

theorem clearCart_sound : Sound clearCart := ⟨rfl, fun _ hitem => nomatch hitem⟩

/-- The initial total is that of the stored items only if theirs is zero. -/
theorem initialState_sound_iff {stored : Stored}
    (h : ∀ item ∈ stored.getD [], 1 ≤ item.quantity) :
    Sound (initialState stored) ↔ sumOf (stored.getD []) = 0 :=
  ⟨fun hsound => hsound.total.symm, fun hsum => ⟨hsum.symm, h⟩⟩

/-- What is written is the new items, or nothing. -/
theorem mem_writes {state : CartState} {action : Action} {stored : Stored}
    (h : stored ∈ writes state action) :
    stored = none ∨ stored = some (reducer state action).items := by
  cases action with
  | addToCart payload => exact .inr (List.mem_singleton.mp h)
  | removeFromCart id => exact .inr (List.mem_singleton.mp h)
  | updateQuantity id quantity =>
    by_cases hid : state.items.any (fun item => item.id = id) = true
    · rw [writes, if_pos hid] at h
      exact .inr (List.mem_singleton.mp h)
    · rw [writes, if_neg hid] at h
      cases h
  | clearCart => exact .inl (List.mem_singleton.mp h)

theorem reducer_sound_iff {s : State} (h : Sound s.slice) (action : Action) :
    Sound (reducer s.slice action) ↔ Meets s (.dispatch action) := by
  cases action with
  | addToCart payload => exact iff_of_true (addToCart_sound h payload) trivial
  | removeFromCart id => exact iff_of_true (removeFromCart_sound h id) trivial
  | updateQuantity id quantity => exact updateQuantity_sound_iff h id quantity
  | clearCart => exact iff_of_true clearCart_sound trivial

theorem step_sound_iff {s t : State} {l : Label} (h : Kept s) (hstep : step s l = some t) :
    Sound t.slice ↔ Meets s l := by
  cases l with
  | dispatch action =>
    obtain rfl := Option.some.inj hstep
    exact reducer_sound_iff h.sound action
  | load stored =>
    obtain ⟨hmem, rfl⟩ := guarded hstep
    exact initialState_sound_iff (h.stored stored hmem)

theorem Kept.step {s t : State} {l : Label} (h : Kept s) (hmeets : Meets s l)
    (hstep : step s l = some t) : Kept t := by
  have hsound : Sound t.slice := (step_sound_iff h hstep).mpr hmeets
  cases l with
  | dispatch action =>
    obtain rfl := Option.some.inj hstep
    refine ⟨hsound, fun stored hstored => ?_⟩
    rcases List.mem_append.mp hstored with hnew | hold
    · rcases mem_writes hnew with rfl | rfl
      · exact fun _ hitem => nomatch hitem
      · exact hsound.quantities
    · exact h.stored stored hold
  | load stored =>
    obtain ⟨hmem, rfl⟩ := guarded hstep
    exact ⟨hsound, h.stored⟩

theorem start_kept : Kept start :=
  ⟨clearCart_sound, fun stored hstored item hitem => by
    obtain rfl := List.mem_singleton.mp hstored
    cases hitem⟩

/-- In every run, the slice is sound after every step if and only if every load finds items
whose total is zero and every update of an item asks for at least one. -/
theorem total_throughout_iff (tr : List Label) :
    (∀ v ∈ visits step start tr, Sound v.2.2.slice) ↔
      ∀ v ∈ visits step start tr, Meets v.1 v.2.1 :=
  visits_iff Kept (fun v => Sound v.2.2.slice) Meets
    (fun _ _ _ h hstep => step_sound_iff h hstep)
    (fun _ _ _ h hmeets hstep => h.step hmeets hstep) start_kept tr

/-- Where everything has a price, only a load of nothing finds a total of zero. -/
theorem sumOf_eq_zero_iff {items : List CartItem} (hprice : ∀ item ∈ items, 0 < item.price)
    (hquantity : ∀ item ∈ items, 1 ≤ item.quantity) : sumOf items = 0 ↔ items = [] := by
  constructor
  · intro hzero
    by_contra hne
    have hpos : 0 < sumOf items := by
      refine List.sum_pos _ (fun cost hcost => ?_) (by simpa using hne)
      obtain ⟨item, hitem, rfl⟩ := List.mem_map.mp hcost
      exact mul_pos (hprice item hitem) (lt_of_lt_of_le one_pos (hquantity item hitem))
    exact absurd hzero hpos.ne'
  · rintro rfl
    rfl

def phone : CartItem := ⟨1, "Phone", 10, 1, "phone.png"⟩

/-- A phone is put into the cart, and the application is loaded again. -/
theorem reloaded_total_zero :
    ¬ ∀ v ∈ visits step start [.dispatch (.addToCart phone), .load (some [phone])],
      Sound v.2.2.slice := by
  intro h
  have hload : Sound (initialState (some [phone])) := (h _ (.tail _ (.head _)))
  exact absurd hload.total (by decide +kernel)

end WebCart
