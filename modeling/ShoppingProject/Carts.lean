import ShoppingProject.Identity
import ShoppingProject.Tables

/-!
# Cart requests

`CartsController` with its commands, validators and handlers over the table of
carts. Creating a cart leaves its owner empty; the audit interceptor records the
creator. The user store that a request meets belongs to its environment, so that
roles may change between requests.
-/
namespace Carts

open DomainEvents (DateTime Cart)
open Validation Requests
open Identity (Store CallerIsAdministrator)

abbrev CartTable := Table Cart.id

structure CartDto where
  id : Int
  title : String
  price : ℚ
  image : String
  quantity : Int
  ownerId : String
  deriving DecidableEq

def toDto (c : Cart) : CartDto := ⟨c.id, c.title, c.price, c.image, c.quantity, c.ownerId⟩

structure CreateCartCommand where
  ownerId : Option Int
  quantity : Int
  title : String
  price : ℚ
  image : Option String

structure UpdateCartCommand where
  id : Int
  title : String
  price : ℚ
  image : String
  quantity : Int

structure DeleteCartCommand where
  id : Int

/-- What one request meets: the user store, the clock, the order that the collation
gives to titles, and whether its write is saved. -/
structure Env where
  users : Store
  now : DateTime
  byTitle : List Cart → List Cart
  byTitle_perm : ∀ carts, (byTitle carts).Perm carts
  saved : Bool

inductive Answer where
  | carts : List CartDto → Answer
  | cart : CartDto → Answer
  | created : Int → Answer
  | done : Answer
  deriving DecidableEq

abbrev Response := Reply Answer × CartTable

def getCartsPipeline : Pipeline Unit := ⟨[authorize], [], []⟩

def getCartByIdPipeline : Pipeline Int := ⟨[authorize], [], []⟩

def createCartPipeline : Pipeline CreateCartCommand where
  endpoint := [authorize]
  validators :=
    [notEmpty "Title" "Title is required." CreateCartCommand.title,
      greaterThan 0 "Price" "Price must be greater than zero." CreateCartCommand.price,
      greaterThan 0 "Quantity" "Quantity must be greater than zero." fun c => c.quantity]
  command := [authorizePolicy .canManageClients]

def updateCartPipeline : Pipeline UpdateCartCommand where
  endpoint := [authorize]
  validators :=
    [greaterThan 0 "Id" "Cart Id must be greater than 0." fun c => c.id,
      notZero "Id" "Cart Id is required." UpdateCartCommand.id,
      notEmpty "Title" "Title is required." UpdateCartCommand.title,
      maximumLength 200 "Title" "Title must not exceed 200 characters." UpdateCartCommand.title,
      greaterThan 0 "Price" "Price must be greater than 0." UpdateCartCommand.price,
      greaterThanOrEqualTo 1 "Quantity" "Quantity must be at least 1." fun c => c.quantity]
  command := [authorize]

def deleteCartPipeline : Pipeline DeleteCartCommand where
  endpoint := [authorize]
  validators :=
    [greaterThan 0 "Id" "Cart Id must be greater than 0." fun c => c.id,
      notZero "Id" "Cart Id is required." DeleteCartCommand.id]
  command := [authorize]

def deleteAllCartsPipeline : Pipeline Unit := ⟨[], [], []⟩

/-- The user that the audit interceptor records. -/
def auditUser (caller : Caller) : String := (caller.bind Principal.id).getD "system"

/-- The entity of `CreateCartCommandHandler`, as the interceptor completes it. -/
def newCart (env : Env) (caller : Caller) (c : CreateCartCommand) (id : Int) : Cart where
  id := id
  status := .active
  created := env.now
  createdBy := some (auditUser caller)
  lastModified := 0
  lastModifiedBy := none
  title := c.title
  price := c.price
  image := c.image.getD ""
  quantity := c.quantity
  ownerId := ""

theorem newCart_id (env : Env) (caller : Caller) (c : CreateCartCommand) (id : Int) :
    (newCart env caller c id).id = id := rfl

/-- The entity of `UpdateCartCommandHandler`; an update that changes no value is
not a modification. -/
def updatedCart (env : Env) (caller : Caller) (c : UpdateCartCommand) (cart : Cart) : Cart :=
  let changed : Cart :=
    { cart with title := c.title, price := c.price, image := c.image, quantity := c.quantity }
  if changed = cart then cart
  else { changed with lastModified := env.now, lastModifiedBy := some (auditUser caller) }

theorem updatedCart_id (env : Env) (caller : Caller) (c : UpdateCartCommand) (cart : Cart) :
    (updatedCart env caller c cart).id = cart.id := by
  unfold updatedCart
  simp only
  split <;> rfl

def entityNotFound (name : String) (key : Int) : String :=
  "Entity \"" ++ name ++ "\" (" ++ toString key ++ ") was not found."

def getCarts (env : Env) (s : CartTable) : Response :=
  (.ok (.carts ((env.byTitle s.rows).map toDto)), s)

def getCartById (id : Int) (s : CartTable) : Response :=
  match s.find id with
  | none => (.notFound ("Cart with Id " ++ toString id ++ " was not found."), s)
  | some cart => (.ok (.cart (toDto cart)), s)

def createCart (env : Env) (caller : Caller) (c : CreateCartCommand) (s : CartTable) : Response :=
  if env.saved then
    (.ok (.created s.next), s.insert (newCart env caller c) (newCart_id env caller c))
  else (.error, s)

def updateCart (env : Env) (caller : Caller) (c : UpdateCartCommand) (s : CartTable) : Response :=
  match s.find c.id with
  | none => (.notFound (entityNotFound "entity" c.id), s)
  | some _ =>
    if env.saved then
      (.ok .done, s.modify c.id (updatedCart env caller c) (updatedCart_id env caller c))
    else (.error, s)

def deleteCart (env : Env) (c : DeleteCartCommand) (s : CartTable) : Response :=
  match s.find c.id with
  | none => (.notFound (entityNotFound "CartDto" c.id), s)
  | some _ => if env.saved then (.ok .done, s.delete c.id) else (.error, s)

def deleteAllCarts (env : Env) (s : CartTable) : Response :=
  if env.saved then (.ok .done, s.clear) else (.error, s)

inductive Request where
  | getAll : Request
  | getById (id : Int) : Request
  | create : CreateCartCommand → Request
  | update (id : Int) : UpdateCartCommand → Request
  | delete (id : Int) : Request
  | deleteAll : Request

/-- `CartsController`; the id in the route of an update is not looked at. -/
def serve (env : Env) (caller : Caller) (request : Request) (s : CartTable) : Response :=
  let authorizeAsync := env.users.authorizeAsync
  match request with
  | .getAll => send getCartsPipeline authorizeAsync caller () (getCarts env) s
  | .getById id => send getCartByIdPipeline authorizeAsync caller id (getCartById id) s
  | .create c => send createCartPipeline authorizeAsync caller c (createCart env caller c) s
  | .update _ c => send updateCartPipeline authorizeAsync caller c (updateCart env caller c) s
  | .delete id =>
    send deleteCartPipeline authorizeAsync caller ⟨id⟩ (deleteCart env ⟨id⟩) s
  | .deleteAll => send deleteAllCartsPipeline authorizeAsync caller () (deleteAllCarts env) s

/-- The request passes every check and its write is saved. -/
def Writes (env : Env) (caller : Caller) : Request → Prop
  | .getAll => False
  | .getById _ => False
  | .create c => Admits createCartPipeline env.users.authorizeAsync caller c ∧ env.saved = true
  | .update _ c => Admits updateCartPipeline env.users.authorizeAsync caller c ∧ env.saved = true
  | .delete id => Admits deleteCartPipeline env.users.authorizeAsync caller ⟨id⟩ ∧ env.saved = true
  | .deleteAll => env.saved = true

def write (env : Env) (caller : Caller) : Request → CartTable → CartTable
  | .getAll, s => s
  | .getById _, s => s
  | .create c, s => s.insert (newCart env caller c) (newCart_id env caller c)
  | .update _ c, s => s.modify c.id (updatedCart env caller c) (updatedCart_id env caller c)
  | .delete id, s => s.delete id
  | .deleteAll, s => s.clear

/-- Updating or deleting a cart that is not there changes nothing. -/
theorem write_absent {env : Env} {caller : Caller} {s : CartTable} {id : Int}
    (h : s.find id = none) (c : UpdateCartCommand) :
    s.modify id (updatedCart env caller c) (updatedCart_id env caller c) = s ∧ s.delete id = s := by
  rw [Table.find_eq_none_iff] at h
  refine ⟨Table.ext ?_ rfl, Table.ext ?_ rfl⟩
  · refine (List.map_congr_left fun a ha => ?_).trans (List.map_id s.rows)
    simp [h a ha]
  · exact List.filter_eq_self.mpr fun a ha => by simpa using h a ha

/-- A request that writes does this. -/
theorem serve_writes {env : Env} {caller : Caller} {request : Request} (s : CartTable)
    (h : Writes env caller request) :
    (serve env caller request s).2 = write env caller request s := by
  cases request with
  | getAll => exact h.elim
  | getById id => exact h.elim
  | create c =>
    simp only [serve, send_admitted h.1, createCart, h.2, if_true]
    rfl
  | update id c =>
    simp only [serve, send_admitted h.1, updateCart, h.2, if_true]
    split
    · rename_i hnone
      exact (write_absent hnone c).1.symm
    · rfl
  | delete id =>
    simp only [serve, send_admitted h.1, deleteCart, h.2, if_true]
    split
    · rename_i hnone
      exact (@write_absent env caller _ _ hnone ⟨0, "", 0, "", 0⟩).2.symm
    · rfl
  | deleteAll =>
    have hadmitted : Admits deleteAllCartsPipeline env.users.authorizeAsync caller () :=
      ⟨rfl, rfl, rfl⟩
    have hsaved : env.saved = true := h
    simp only [serve, send_admitted hadmitted, deleteAllCarts, hsaved, if_true]
    rfl

/-- Any other request changes nothing. -/
theorem serve_silent {env : Env} {caller : Caller} {request : Request} (s : CartTable)
    (h : ¬ Writes env caller request) : (serve env caller request s).2 = s := by
  cases request with
  | getAll => cases caller <;> rfl
  | getById id =>
    change (send getCartByIdPipeline env.users.authorizeAsync caller id (getCartById id) s).2 = s
    refine send_keeps (fun t : CartTable => t = s) rfl fun _ => ?_
    unfold getCartById
    split <;> rfl
  | create c =>
    refine send_keeps (fun t : CartTable => t = s) rfl fun admitted => ?_
    have hsaved : env.saved ≠ true := fun hsaved => h ⟨admitted, hsaved⟩
    simp [createCart, hsaved]
  | update id c =>
    refine send_keeps (fun t : CartTable => t = s) rfl fun admitted => ?_
    have hsaved : env.saved ≠ true := fun hsaved => h ⟨admitted, hsaved⟩
    unfold updateCart
    split <;> simp [hsaved]
  | delete id =>
    refine send_keeps (fun t : CartTable => t = s) rfl fun admitted => ?_
    have hsaved : env.saved ≠ true := fun hsaved => h ⟨admitted, hsaved⟩
    unfold deleteCart
    split <;> simp [hsaved]
  | deleteAll =>
    refine send_keeps (fun t : CartTable => t = s) rfl fun _ => ?_
    have hsaved : env.saved ≠ true := h
    simp [deleteAllCarts, hsaved]

def Request.isQuery : Request → Bool
  | .getAll => true
  | .getById _ => true
  | _ => false

/-- A command that is answered with success has written. -/
theorem writes_of_ok {env : Env} {caller : Caller} {request : Request} {s : CartTable} {r : Answer}
    (hcommand : request.isQuery = false) (h : (serve env caller request s).1 = .ok r) :
    Writes env caller request := by
  cases request with
  | getAll => simp [Request.isQuery] at hcommand
  | getById id => simp [Request.isQuery] at hcommand
  | create c =>
    obtain ⟨hadmits, hok⟩ := send_ok h
    refine ⟨hadmits, ?_⟩
    by_contra hsaved
    simp [createCart, hsaved] at hok
  | update id c =>
    obtain ⟨hadmits, hok⟩ := send_ok h
    refine ⟨hadmits, ?_⟩
    by_contra hsaved
    unfold updateCart at hok
    split at hok <;> simp [hsaved] at hok
  | delete id =>
    obtain ⟨hadmits, hok⟩ := send_ok h
    refine ⟨hadmits, ?_⟩
    by_contra hsaved
    unfold deleteCart at hok
    split at hok <;> simp [hsaved] at hok
  | deleteAll =>
    obtain ⟨-, hok⟩ := send_ok h
    change env.saved = true
    by_contra hsaved
    simp [deleteAllCarts, hsaved] at hok

structure Label where
  caller : Caller
  request : Request
  env : Env

def step (s : CartTable) (l : Label) : Option CartTable :=
  some (serve l.env l.caller l.request s).2

/-- A user store with one administrator. -/
def someUsers : Store where
  users := [⟨"a1", "admin", "admin@test.com", none, none, none, none, "", none, none, 0⟩]
  roles := [Roles.administrator, Roles.client]
  userRoles := [("a1", Roles.administrator)]
  keyed := by decide
  memberKnown := by decide
  roleKnown := by decide

/-- What a request of this administrator meets when nothing fails. -/
def someEnv : Env := ⟨someUsers, 5, id, fun _ => .refl _, true⟩

def someAdministrator : Caller := some ⟨some "a1", [Roles.administrator]⟩

end Carts
