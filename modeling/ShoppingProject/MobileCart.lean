import Mathlib.Data.List.Perm.Basic
import ShoppingProject.MobileSession

/-!
# The cart slice of the mobile application

The thunks of the cart slice, the server that they talk to, and what their answers do to
the slice. The server applies each request when it reaches it; the answers arrive in any
order, and each reducer merges its own payload into the items that it finds.
-/
namespace MobileCart

open Runs
open MobileSession (truthy)

structure CartItem where
  id : Int
  quantity : Int
  deriving DecidableEq

structure CartState where
  cart : Option (List CartItem)
  loading : Bool
  error : Option String
  deriving DecidableEq

def initialState : CartState := ⟨none, false, none⟩

inductive Thunk where
  | fetchCart : Thunk
  | addToCart : Thunk
  | updateCartItem : Thunk
  | removeCartItem : Thunk
  | removeAllCartItems : Thunk
  deriving DecidableEq

/-- A thunk with its argument. -/
inductive Request where
  | fetchCart : Request
  | addToCart (request : CartItem) : Request
  | updateCartItem (cartId quantity : Int) : Request
  | removeCartItem (id : Int) : Request
  | removeAllCartItems : Request
  deriving DecidableEq

def Request.thunk : Request → Thunk
  | .fetchCart => .fetchCart
  | .addToCart _ => .addToCart
  | .updateCartItem _ _ => .updateCartItem
  | .removeCartItem _ => .removeCartItem
  | .removeAllCartItems => .removeAllCartItems

/-- What a thunk returns. -/
inductive Payload where
  | fetchCart (items : List CartItem) : Payload
  | addToCart (item : CartItem) : Payload
  | updateCartItem (cartId quantity : Int) : Payload
  | removeCartItem (id : Int) : Payload
  | removeAllCartItems : Payload
  deriving DecidableEq

def Payload.thunk : Payload → Thunk
  | .fetchCart _ => .fetchCart
  | .addToCart _ => .addToCart
  | .updateCartItem _ _ => .updateCartItem
  | .removeCartItem _ => .removeCartItem
  | .removeAllCartItems => .removeAllCartItems

def Payload.isFetch (p : Payload) : Bool := p.thunk = .fetchCart

/-- An error that was thrown: the message in its answer, if there was one, and its own. -/
structure Failure where
  data : Option String
  message : Option String
  deriving DecidableEq

/-- The first of the texts that is neither absent nor empty. -/
def firstText (texts : List (Option String)) (default : String) : String :=
  (texts.findSome? truthy).getD default

/-- What the thunk's own handler rejects with; `fetchCart` has none. -/
def rejectValue (e : Failure) : Thunk → Option String
  | .fetchCart => none
  | .addToCart => some (firstText [e.data, e.message] "Failed to add item to cart")
  | .updateCartItem => some (firstText [e.data, e.message] "Failed to update cart item")
  | .removeCartItem => some (firstText [e.data, e.message] "Failed to remove from cart")
  | .removeAllCartItems => some (firstText [e.data, e.message] "Failed to remove all cart items")

/-- `action.error.message`: a thunk that has called `rejectWithValue` says so there. -/
def errorMessage (e : Failure) : Thunk → Option String
  | .fetchCart => e.message
  | _ => some "Rejected"

inductive Action where
  | clearCart : Action
  | pending (thunk : Thunk) : Action
  | fulfilled (payload : Payload) : Action
  | rejected (thunk : Thunk) (e : Failure) : Action
  deriving DecidableEq

def reducerPending (state : CartState) : Thunk → CartState
  | .fetchCart | .addToCart | .removeAllCartItems => { state with loading := true, error := none }
  | .updateCartItem | .removeCartItem => { state with error := none }

/-- Assign the quantity of the item that `findIndex` finds. -/
def setQuantity (cartId quantity : Int) : List CartItem → List CartItem
  | [] => []
  | item :: items =>
    if item.id = cartId then { item with quantity } :: items
    else item :: setQuantity cartId quantity items

def reducerFulfilled (state : CartState) : Payload → CartState
  | .fetchCart items => { state with loading := false, cart := some items }
  | .addToCart item =>
    { state with loading := false, cart := some (state.cart.getD [] ++ [item]) }
  | .updateCartItem cartId quantity =>
    { state with cart := state.cart.map (setQuantity cartId quantity) }
  | .removeCartItem id =>
    { state with cart := state.cart.map (List.filter fun item => item.id ≠ id) }
  | .removeAllCartItems => { state with loading := false, cart := some [] }

def reducerRejected (state : CartState) (e : Failure) (thunk : Thunk) : CartState :=
  let error := firstText [rejectValue e thunk, errorMessage e thunk]
  match thunk with
  | .fetchCart => { state with loading := false, error := some (error "Failed to fetch cart") }
  | .addToCart => { state with loading := false, error := some (error "Failed to add to cart") }
  | .updateCartItem => { state with error := some (error "Failed to update cart item") }
  | .removeCartItem => { state with error := some (error "Failed to remove from cart") }
  | .removeAllCartItems =>
    { state with loading := false, error := some (error "Failed to remove all cart items") }

def reducer (state : CartState) : Action → CartState
  | .clearCart => { state with cart := none, error := none }
  | .pending thunk => reducerPending state thunk
  | .fulfilled payload => reducerFulfilled state payload
  | .rejected thunk e => reducerRejected state e thunk

def ids (items : List CartItem) : List Int := items.map CartItem.id

theorem ids_setQuantity (cartId quantity : Int) (items : List CartItem) :
    ids (setQuantity cartId quantity items) = ids items := by
  induction items with
  | nil => rfl
  | cons item items ih =>
    simp only [setQuantity]
    split
    · simp [ids]
    · simpa [ids] using ih

theorem ids_filter (p : CartItem → Bool) (items : List CartItem) :
    (ids (items.filter p)).Sublist (ids items) := List.filter_sublist.map _

/-- The server's cart, one item for each id, and the ids that were ever assigned. -/
structure Server where
  items : List CartItem
  assigned : List Int
  keyed : (ids items).Nodup
  known : ids items ⊆ assigned

namespace Server

variable (server : Server)

def insert (item : CartItem) (fresh : item.id ∉ server.assigned) : Server where
  items := server.items ++ [item]
  assigned := server.assigned ++ [item.id]
  keyed := by
    have hnew : item.id ∉ ids server.items := fun h => fresh (server.known h)
    simpa [ids, List.nodup_append] using ⟨server.keyed, by simpa [ids] using hnew⟩
  known := by
    rw [ids, List.map_append]
    exact List.append_subset.mpr ⟨fun _ h => List.mem_append_left _ (server.known h), by simp⟩

def update (cartId quantity : Int) : Server where
  items := setQuantity cartId quantity server.items
  assigned := server.assigned
  keyed := by
    rw [ids_setQuantity]
    exact server.keyed
  known := by
    rw [ids_setQuantity]
    exact server.known

def remove (id : Int) : Server where
  items := server.items.filter fun item => item.id ≠ id
  assigned := server.assigned
  keyed := server.keyed.sublist (ids_filter _ _)
  known := List.Subset.trans (ids_filter _ _).subset server.known

def clear : Server where
  items := []
  assigned := server.assigned
  keyed := .nil
  known := List.nil_subset _

end Server

/-- What the server is free to choose: the id of a new item, and the order in which it
lists the items. -/
structure Choice where
  id : Int
  listing : List CartItem

/-- The server applies a request that has reached it. A request about an item that it
does not have is not fulfilled. -/
def serve (server : Server) (choice : Choice) : Request → Option (Server × Payload)
  | .fetchCart =>
    if choice.listing.Perm server.items then some (server, .fetchCart choice.listing) else none
  | .addToCart request =>
    if fresh : choice.id ∉ server.assigned then
      some (server.insert ⟨choice.id, request.quantity⟩ fresh,
        .addToCart ⟨choice.id, request.quantity⟩)
    else none
  | .updateCartItem cartId quantity =>
    if cartId ∈ ids server.items then
      some (server.update cartId quantity, .updateCartItem cartId quantity)
    else none
  | .removeCartItem id =>
    if id ∈ ids server.items then some (server.remove id, .removeCartItem id) else none
  | .removeAllCartItems => some (server.clear, .removeAllCartItems)

structure State where
  slice : CartState
  server : Server
  /-- The requests that have not reached the server. -/
  sent : List Request
  /-- The payloads of the answers under way, in the order in which the server has applied
  their requests. -/
  answered : List Payload
  /-- The actions dispatched so far. -/
  actions : List Action

/-- A store with the slice that was persisted. -/
def start (slice : CartState) (server : Server) : State := ⟨slice, server, [], [], []⟩

def dispatch (a : Action) (s : State) : State :=
  { s with slice := reducer s.slice a, actions := s.actions ++ [a] }

inductive Label where
  | call (request : Request) : Label
  /-- The request at this index reaches the server. -/
  | reach (i : Nat) (choice : Choice) : Label
  /-- The answer at this index arrives. -/
  | arrive (i : Nat) : Label
  /-- The request at this index fails without effect. -/
  | refuse (i : Nat) (e : Failure) : Label
  /-- The answer at this index is lost. -/
  | lose (i : Nat) (e : Failure) : Label
  | clearCart : Label

def step (s : State) : Label → Option State
  | .call request => some (dispatch (.pending request.thunk) { s with sent := s.sent ++ [request] })
  | .reach i choice =>
    s.sent[i]?.bind fun request => (serve s.server choice request).map fun (server, payload) =>
      { s with server, sent := s.sent.eraseIdx i, answered := s.answered ++ [payload] }
  | .arrive i => s.answered[i]?.map fun payload =>
      dispatch (.fulfilled payload) { s with answered := s.answered.eraseIdx i }
  | .refuse i e => s.sent[i]?.map fun request =>
      dispatch (.rejected request.thunk e) { s with sent := s.sent.eraseIdx i }
  | .lose i e => s.answered[i]?.map fun payload =>
      dispatch (.rejected payload.thunk e) { s with answered := s.answered.eraseIdx i }
  | .clearCart => some (dispatch .clearCart s)

/-- An action after which the slice is not expected to agree with the server. -/
def Action.Disturbs : Action → Prop
  | .clearCart | .rejected _ _ => True
  | .pending _ | .fulfilled _ => False

instance : DecidablePred Action.Disturbs
  | .clearCart | .rejected _ _ => .isTrue trivial
  | .pending _ | .fulfilled _ => .isFalse not_false

/-- All requests have succeeded and nobody has dispatched `clearCart`. -/
def Undisturbed (s : State) : Prop := ∀ a ∈ s.actions, ¬ a.Disturbs

instance : DecidablePred Undisturbed := fun s => inferInstanceAs (Decidable (∀ a ∈ s.actions, _))

/-- The items of a fetch that was fulfilled. -/
def Action.fetched? : Action → Option (List CartItem)
  | .fulfilled (.fetchCart items) => some items
  | _ => none

def Fetched (s : State) : Prop := ∃ a ∈ s.actions, a.fetched?.isSome

instance : DecidablePred Fetched := fun s => inferInstanceAs (Decidable (∃ a ∈ s.actions, _))

/-- No request is in flight, all have succeeded, and one of them was a fetch. -/
structure Settled (s : State) : Prop where
  sent : s.sent = []
  answered : s.answered = []
  undisturbed : Undisturbed s
  fetched : Fetched s

instance : DecidablePred Settled := fun s =>
  decidable_of_iff (s.sent = [] ∧ s.answered = [] ∧ Undisturbed s ∧ Fetched s)
    ⟨fun ⟨hsent, hanswered, hu, hf⟩ => ⟨hsent, hanswered, hu, hf⟩,
      fun ⟨hsent, hanswered, hu, hf⟩ => ⟨hsent, hanswered, hu, hf⟩⟩

/-- The slice holds the server's items. -/
def Converged (s : State) : Prop := ∃ items ∈ s.slice.cart, items.Perm s.server.items

instance : DecidablePred Converged := fun s =>
  match h : s.slice.cart with
  | none => .isFalse fun ⟨items, hitems, _⟩ => by simp [h] at hitems
  | some items => decidable_of_iff (items.Perm s.server.items) (by simp [Converged, h])

end MobileCart
