import ShoppingProject.Restarts
import ShoppingProject.WebCartStorage

/-!
# The cart of the web application over its page loads

The store keeps a copy of the cart slice for redux-persist, besides the entry that the
reducers write. A page that finds the copy takes it up with its total; only without it does
the cart come from the entry, and then the total starts at zero.
-/
namespace PersistedCart

open Runs Restarts
open WebCart (CartState Action Sound sumOf)
open WebCartStorage (LocalStorage)

abbrev Page := Slice.State CartState LocalStorage

/-- The items in the entry `cart`. -/
def entry (s : Page) : List WebCart.CartItem := (WebCartStorage.stored s.storage).getD []

def store : Program Page Action CartState where
  step s action := WebCartStorage.cartSlice.step s (.dispatch action)
  slice := Slice.State.slice
  initial s := WebCartStorage.cartSlice.initialState s.storage
  resume s a := ⟨a, s.storage⟩
  slice_resume _ _ := rfl

/-- The shop in a browser that has never run it. -/
def start : State Page CartState := ⟨WebCartStorage.cartSlice.start .empty, [], none⟩

/-- When a step leaves the total right. -/
def InStep (s : State Page CartState) : Label Action → Prop
  | .app (.updateQuantity id quantity) =>
    s.process.slice.items.any (fun item => item.id = id) = true → 1 ≤ quantity
  | .restart readable => readable = true ∧ s.stored.isSome ∨ sumOf (entry s.process) = 0
  | .app _ | .stage | .write => True

/-- The slice, its copies and the entry are those of a right total. -/
structure Right (s : State Page CartState) : Prop where
  sound : Sound s.process.slice
  copied : Copied Sound s
  entry : ∀ item ∈ entry s.process, 1 ≤ item.quantity

theorem taken_sound_iff {s : State Page CartState} (h : Right s) (readable : Bool) :
    Sound (taken store readable s) ↔ InStep s (.restart readable) := by
  have hinitial : Sound (store.initial s.process) ↔ sumOf (entry s.process) = 0 :=
    WebCart.initialState_sound_iff h.entry
  cases readable with
  | false => simpa [taken, InStep] using hinitial
  | true =>
    cases hstored : s.stored with
    | none => simpa [taken, InStep, hstored] using hinitial
    | some a =>
      have hsound := h.copied.stored a hstored
      simpa [taken, InStep, hstored] using hsound

/-- An action writes its items into the entry, or leaves it alone. -/
theorem entry_write (s : Page) (action : Action) {t : Page} (h : store.step s action = some t) :
    entry t = entry s ∨ entry t = t.slice.items := by
  cases h
  cases action with
  | addToCart payload =>
    exact .inr (by simp [entry, WebCartStorage.cartSlice, WebCartStorage.write, WebCart.writes,
      WebCartStorage.stored_store])
  | removeFromCart id =>
    exact .inr (by simp [entry, WebCartStorage.cartSlice, WebCartStorage.write, WebCart.writes,
      WebCartStorage.stored_store])
  | updateQuantity id quantity =>
    by_cases hid : s.slice.items.any (fun item => item.id = id) = true
    · exact .inr (by simp [entry, WebCartStorage.cartSlice, WebCartStorage.write, WebCart.writes,
        hid, WebCartStorage.stored_store])
    · exact .inl (by simp [entry, WebCartStorage.cartSlice, WebCartStorage.write, WebCart.writes,
        hid])
  | clearCart =>
    exact .inr (by simp [entry, WebCartStorage.cartSlice, WebCartStorage.write, WebCart.writes,
      WebCartStorage.stored_store, WebCart.reducer, WebCart.clearCart])

theorem action_sound_iff {s : State Page CartState} (h : Right s) {action : Action} {t : Page}
    (hstep : store.step s.process action = some t) :
    Sound t.slice ↔ InStep s (.app action) := by
  cases hstep
  have hsound := WebCart.reducer_sound_iff (s := ⟨s.process.slice, []⟩) h.sound action
  cases action with
  | updateQuantity id quantity => exact hsound
  | addToCart payload => exact hsound
  | removeFromCart id => exact hsound
  | clearCart => exact hsound

theorem step_sound_iff {s t : State Page CartState} {l : Label Action} (h : Right s)
    (hstep : step store s l = some t) : Sound t.process.slice ↔ InStep s l := by
  rcases step_process store hstep with ⟨a, rfl, hp⟩ | ⟨readable, rfl, hp⟩ | ⟨hl, hp⟩
  · exact action_sound_iff h hp
  · rw [hp]
    exact taken_sound_iff h readable
  · rw [hp]
    rcases hl with rfl | rfl
    · exact iff_of_true h.sound trivial
    · exact iff_of_true h.sound trivial

theorem Right.step {s t : State Page CartState} {l : Label Action} (h : Right s)
    (hl : InStep s l) (hstep : step store s l = some t) : Right t := by
  have hsound : Sound t.process.slice := (step_sound_iff h hstep).mpr hl
  refine ⟨hsound, h.copied.step h.sound hstep, ?_⟩
  rcases step_process store hstep with ⟨a, -, hp⟩ | ⟨readable, -, hp⟩ | ⟨-, hp⟩
  · rcases entry_write s.process a hp with hentry | hentry
    · rw [hentry]
      exact h.entry
    · rw [hentry]
      exact hsound.quantities
  · rw [hp]
    exact h.entry
  · rw [hp]
    exact h.entry

end PersistedCart
