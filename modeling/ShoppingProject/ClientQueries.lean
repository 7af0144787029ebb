import ShoppingProject.Json
import ShoppingProject.QueryCaches

/-!
# The query caches of the two web clients

`useProducts.ts` and `useCart.ts` of the shop and the hooks of the administration keep what the
API answers under keys, and their changes invalidate keys by a prefix. What a page shows without
asking is as new as the last change that the page knows of, apart from the queries that a change
concerns and its invalidations miss, and from answers that a change has overtaken.
-/
namespace ClientQueries

open QueryCaches
open Runs

abbrev Key := List Json

/-- `matchQuery`: the key begins with that of the filter. -/
def matchQuery (filter key : Key) : Bool := filter.isPrefixOf key

theorem matchQuery_iff {filter key : Key} :
    matchQuery filter key = true ↔ ∃ rest, filter ++ rest = key := by
  rw [matchQuery, List.isPrefixOf_iff_prefix]
  exact Iff.rfl

theorem matchQuery_self (key : Key) : matchQuery key key = true :=
  matchQuery_iff.mpr ⟨[], List.append_nil key⟩

namespace Shop

namespace productKeys

def all : Key := [.str "products"]

def lists : Key := all ++ [.str "list"]

def details : Key := all ++ [.str "detail"]

def detail (id : Int) : Key := details ++ [.num id]

def search (query : String) : Key := all ++ [.str "search", .str query]

end productKeys

def cart : Key := [.str "cart"]

/-- The mutations of `useProducts.ts` and `useCart.ts`. -/
inductive Change where
  | createProduct : Change
  | updateProduct (id : Int) : Change
  | deleteProduct (id : Int) : Change
  | addToCart : Change
  | updateCartItem : Change
  | removeFromCart : Change
  | clearCart : Change
  deriving DecidableEq, Repr

/-- The keys that `onSuccess` invalidates. -/
def onSuccess : Change → List Key
  | .createProduct => [productKeys.lists]
  | .updateProduct id => [productKeys.detail id, productKeys.lists]
  | .deleteProduct _ => [productKeys.lists]
  | .addToCart | .updateCartItem | .removeFromCart | .clearCart => [cart]

def isSearch (key : Key) : Bool := matchQuery (productKeys.all ++ [.str "search"]) key

/-- The queries whose answers a change may alter. -/
def concerns : Change → Key → Bool
  | .createProduct, key => key == productKeys.lists || isSearch key
  | .updateProduct id, key | .deleteProduct id, key =>
    key == productKeys.lists || key == productKeys.detail id || isSearch key
  | .addToCart, key | .updateCartItem, key | .removeFromCart, key | .clearCart, key => key == cart

/-- Data is fresh for five minutes. -/
def staleTime : Int := 5 * 60 * 1000

def client {σ α : Type} (answers : σ → Key → α → Bool) : Client Key α σ Change where
  answers := answers
  concerns := concerns
  invalidates := fun change key => (onSuccess change).any fun filter => matchQuery filter key
  staleTime := staleTime
  staleTime_pos := by decide

/-- The queries that a change concerns and does not invalidate. -/
def Missed : Change → Key → Prop
  | .createProduct, key | .updateProduct _, key => isSearch key = true
  | .deleteProduct id, key => key = productKeys.detail id ∨ isSearch key = true
  | .addToCart, _ | .updateCartItem, _ | .removeFromCart, _ | .clearCart, _ => False

/-- The searches are under none of the keys that a change of a product invalidates. -/
theorem isSearch_missed {key : Key} (h : isSearch key = true) (id : Int) :
    matchQuery productKeys.lists key = false ∧ matchQuery (productKeys.detail id) key = false := by
  obtain ⟨rest, rfl⟩ := matchQuery_iff.mp h
  simp [matchQuery, List.isPrefixOf, productKeys.lists, productKeys.detail, productKeys.details,
    productKeys.all]

theorem lists_detail (id : Int) : matchQuery productKeys.lists (productKeys.detail id) = false := by
  simp [matchQuery, List.isPrefixOf, productKeys.lists, productKeys.detail, productKeys.details,
    productKeys.all]

theorem missed_iff {σ α : Type} (answers : σ → Key → α → Bool) (change : Change) (key : Key) :
    (client answers).concerns change key = true ∧ (client answers).invalidates change key = false ↔
      Missed change key := by
  cases change with
  | createProduct =>
    simp only [client, concerns, onSuccess, Missed, List.any_cons, List.any_nil, Bool.or_false,
      Bool.or_eq_true, beq_iff_eq]
    constructor
    · rintro ⟨rfl | hsearch, hmissed⟩
      · rw [matchQuery_self] at hmissed
        cases hmissed
      · exact hsearch
    · intro hsearch
      exact ⟨.inr hsearch, (isSearch_missed hsearch 0).1⟩
  | updateProduct id =>
    simp only [client, concerns, onSuccess, Missed, List.any_cons, List.any_nil, Bool.or_false,
      Bool.or_eq_true, Bool.or_eq_false_iff, beq_iff_eq]
    constructor
    · rintro ⟨(rfl | rfl) | hsearch, hdetail, hlists⟩
      · rw [matchQuery_self] at hlists
        cases hlists
      · rw [matchQuery_self] at hdetail
        cases hdetail
      · exact hsearch
    · intro hsearch
      exact ⟨.inr hsearch, (isSearch_missed hsearch id).2, (isSearch_missed hsearch id).1⟩
  | deleteProduct id =>
    simp only [client, concerns, onSuccess, Missed, List.any_cons, List.any_nil, Bool.or_false,
      Bool.or_eq_true, beq_iff_eq]
    constructor
    · rintro ⟨(rfl | rfl) | hsearch, hlists⟩
      · rw [matchQuery_self] at hlists
        cases hlists
      · exact .inl rfl
      · exact .inr hsearch
    · rintro (rfl | hsearch)
      · exact ⟨.inl (.inr rfl), lists_detail id⟩
      · exact ⟨.inr hsearch, (isSearch_missed hsearch id).1⟩
  | addToCart | updateCartItem | removeFromCart | clearCart =>
    simp only [client, concerns, onSuccess, Missed, List.any_cons, List.any_nil, Bool.or_false,
      beq_iff_eq, iff_false, not_and]
    rintro rfl
    simp [matchQuery_self]

/-- The key of the cart is not one of a product. -/
theorem cart_invalidated {σ α : Type} (answers : σ → Key → α → Bool) {change : Change}
    (hcart : concerns change cart = true) : (client answers).invalidates change cart = true := by
  by_contra hinvalidates
  have hmissed := (missed_iff answers change cart).mp ⟨hcart, by simpa using hinvalidates⟩
  cases change <;> simp [Missed, isSearch, matchQuery, List.isPrefixOf, cart, productKeys.all,
    productKeys.detail, productKeys.details] at hmissed

section Pages

variable {σ α : Type} (answers : σ → Key → α → Bool)

/-- The condition on a step: what is shown of a product that has been deleted, or of a search
that a change concerns, is not older than the change; and what is received is not older than the
last change that concerns it. -/
def Attentive (s : State Key α σ Change) : Label Key α σ Change → Prop
  | .settle j => ∀ change result, s.mutations j = some ⟨change, some result⟩ →
    ∀ key a, Missed change key → shown (client answers) s key = some a →
      Answered (client answers) s result key a
  | .receive key => ∀ a, (s.queries key).fetching = some (some a) →
    Answered (client answers) s (s.acknowledged key) key a
  | _ => True

end Pages

/-- A server that numbers its answers. -/
def numbered (source : Nat) (_ : Key) (a : Json) : Bool := a == .num source

/-- The cart is on screen while something is added to it. -/
def adding : List (Label Key Json Nat Change) :=
  [.mount cart, .answer cart (.num 0), .receive cart, .mutate 0 .addToCart, .perform 0 1]

end Shop

namespace Administration

namespace productKeys

def all : Key := [.str "products"]

def lists : Key := all ++ [.str "list"]

def list (filters : List (String × Json)) : Key := lists ++ [.obj filters]

def details : Key := all ++ [.str "detail"]

def detail (id : Int) : Key := details ++ [.num id]

end productKeys

namespace cartKeys

def all : Key := [.str "carts"]

def lists : Key := all ++ [.str "list"]

def details : Key := all ++ [.str "detail"]

def detail (id : Int) : Key := details ++ [.num id]

end cartKeys

namespace userKeys

def all : Key := [.str "users"]

def lists : Key := all ++ [.str "list"]

def list (filters : List (String × Json)) : Key := lists ++ [.obj filters]

end userKeys

namespace auditLogKeys

def all : Key := [.str "audit-logs"]

def lists : Key := all ++ [.str "list"]

def list (filters : List (String × Json)) : Key := lists ++ [.obj filters]

end auditLogKeys

namespace cacheKeys

def all : Key := [.str "cache"]

def detail (key : String) : Key := all ++ [.str key]

end cacheKeys

/-- The mutations of `useProducts.ts`, `useCarts.ts`, `useUsers.ts` and `useCache.ts`. -/
inductive Change where
  | createProduct : Change
  | updateProduct (id : Int) : Change
  | deleteProduct (id : Int) : Change
  | createCart : Change
  | updateCart (id : Int) : Change
  | deleteCart (id : Int) : Change
  | deleteAllCarts : Change
  | assignAdminRole (userId : String) : Change
  | createRole (roleName : String) : Change
  | setCache (key : String) : Change
  | deleteCache (key : String) : Change
  deriving DecidableEq, Repr

/-- The keys that `onSuccess` invalidates. -/
def onSuccess : Change → List Key
  | .createProduct | .deleteProduct _ => [productKeys.lists]
  | .updateProduct id => [productKeys.lists, productKeys.detail id]
  | .createCart | .deleteCart _ | .deleteAllCarts => [cartKeys.lists]
  | .updateCart id => [cartKeys.lists, cartKeys.detail id]
  | .assignAdminRole _ => [userKeys.lists]
  | .createRole _ => []
  | .setCache key | .deleteCache key => [cacheKeys.detail key]

/-- The queries whose answers a change may alter. -/
def concerns : Change → Key → Bool
  | .createProduct, key => matchQuery productKeys.lists key
  | .updateProduct id, key | .deleteProduct id, key =>
    matchQuery productKeys.lists key || key == productKeys.detail id
  | .createCart, key => matchQuery cartKeys.lists key
  | .updateCart id, key | .deleteCart id, key =>
    matchQuery cartKeys.lists key || key == cartKeys.detail id
  | .deleteAllCarts, key => matchQuery cartKeys.lists key || matchQuery cartKeys.details key
  | .assignAdminRole _, key => matchQuery userKeys.lists key
  | .createRole _, _ => false
  | .setCache name, key | .deleteCache name, key => key == cacheKeys.detail name

/-- Data is fresh for ten seconds. -/
def staleTime : Int := 10 * 1000

def client {σ α : Type} (answers : σ → Key → α → Bool) : Client Key α σ Change where
  answers := answers
  concerns := concerns
  invalidates := fun change key => (onSuccess change).any fun filter => matchQuery filter key
  staleTime := staleTime
  staleTime_pos := by decide

/-- What the pages ask for: lists, pages of lists, and values of the cache. -/
def Page (key : Key) : Prop :=
  matchQuery productKeys.lists key = true ∨ matchQuery cartKeys.lists key = true ∨
    matchQuery userKeys.lists key = true ∨ matchQuery auditLogKeys.lists key = true ∨
      ∃ name, key = cacheKeys.detail name

theorem not_detail {key : Key} (h : Page key) :
    matchQuery productKeys.details key = false ∧ matchQuery cartKeys.details key = false := by
  have hprefix : ∃ rest, key = productKeys.lists ++ rest ∨ key = cartKeys.lists ++ rest ∨
      key = userKeys.lists ++ rest ∨ key = auditLogKeys.lists ++ rest ∨
        key = cacheKeys.all ++ rest := by
    rcases h with h | h | h | h | ⟨name, rfl⟩
    · obtain ⟨rest, rfl⟩ := matchQuery_iff.mp h
      exact ⟨rest, .inl rfl⟩
    · obtain ⟨rest, rfl⟩ := matchQuery_iff.mp h
      exact ⟨rest, .inr (.inl rfl)⟩
    · obtain ⟨rest, rfl⟩ := matchQuery_iff.mp h
      exact ⟨rest, .inr (.inr (.inl rfl))⟩
    · obtain ⟨rest, rfl⟩ := matchQuery_iff.mp h
      exact ⟨rest, .inr (.inr (.inr (.inl rfl)))⟩
    · exact ⟨[.str name], .inr (.inr (.inr (.inr rfl)))⟩
  obtain ⟨rest, rfl | rfl | rfl | rfl | rfl⟩ := hprefix <;>
    simp [matchQuery, List.isPrefixOf, productKeys.lists, productKeys.details, productKeys.all,
      cartKeys.lists, cartKeys.details, cartKeys.all, userKeys.lists, userKeys.all,
      auditLogKeys.lists, auditLogKeys.all, cacheKeys.all]

/-- Of what the pages ask for, a change invalidates all that it concerns. -/
theorem page_invalidated {change : Change} {key : Key} (h : Page key)
    (hconcerns : concerns change key = true) :
    (onSuccess change).any (fun filter => matchQuery filter key) = true := by
  obtain ⟨hproduct, hcart⟩ := not_detail h
  have hproducts : ∀ id, key ≠ productKeys.detail id := by
    rintro id rfl
    rw [productKeys.detail, matchQuery_iff.mpr ⟨_, rfl⟩] at hproduct
    cases hproduct
  have hcarts : ∀ id, key ≠ cartKeys.detail id := by
    rintro id rfl
    rw [cartKeys.detail, matchQuery_iff.mpr ⟨_, rfl⟩] at hcart
    cases hcart
  cases change with
  | createProduct | createCart | assignAdminRole => simpa [onSuccess, concerns] using hconcerns
  | createRole => cases hconcerns
  | updateProduct id | deleteProduct id =>
    simp only [concerns, Bool.or_eq_true, beq_iff_eq, hproducts, or_false] at hconcerns
    simp [onSuccess, hconcerns]
  | updateCart id | deleteCart id =>
    simp only [concerns, Bool.or_eq_true, beq_iff_eq, hcarts, or_false] at hconcerns
    simp [onSuccess, hconcerns]
  | deleteAllCarts =>
    simp only [concerns, hcart, Bool.or_false] at hconcerns
    simp [onSuccess, hconcerns]
  | setCache name | deleteCache name =>
    obtain rfl := beq_iff_eq.mp hconcerns
    simp [onSuccess, matchQuery_self]

variable {σ α : Type} (answers : σ → Key → α → Bool)

/-- Product 5 is deleted while the list of the products is on screen. -/
def deleting : List (Label Key Json Nat Change) :=
  [.mount productKeys.lists, .answer productKeys.lists (.num 0), .receive productKeys.lists,
    .mutate 0 (.deleteProduct 5), .perform 0 1, .settle 0]

end Administration

end ClientQueries
