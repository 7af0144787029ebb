import ShoppingProject.Carts
import ShoppingProject.LocalStorage

/-!
# Replaying a queued operation

`SyncManager.syncOperation` against `CartsController`. A queued operation becomes
an HTTP request, whose body is bound to the command of the endpoint; the names of
its fields are matched without regard to case, and what the body does not mention
keeps the default of the command.
-/
namespace CartSync

open Requests Carts OfflineQueue

def int32 (n : Int) : Bool := -2147483648 ≤ n && n ≤ 2147483647

/-- A field of type `int`. -/
def bindInt (name : String) (body : Json) : Option Int :=
  match body.fieldIgnoreCase name with
  | none => some 0
  | some value => value.asInt.filter int32

/-- A field of type `int?`. -/
def bindNullableInt (name : String) (body : Json) : Option (Option Int) :=
  match body.fieldIgnoreCase name with
  | none => some none
  | some .null => some none
  | some value => (value.asInt.filter int32).map some

/-- A field of type `decimal`. -/
def bindDecimal (name : String) (body : Json) : Option ℚ :=
  match body.fieldIgnoreCase name with
  | none => some 0
  | some value => value.asNum

/-- A field of type `string?`. -/
def bindNullableString (name : String) (body : Json) : Option (Option String) :=
  match body.fieldIgnoreCase name with
  | none => some none
  | some .null => some none
  | some value => value.asStr.map some

/-- A field of type `string`, which model validation requires not to be null. -/
def bindString (name : String) (default : Option String) (body : Json) : Option String :=
  match body.fieldIgnoreCase name with
  | none => default
  | some value => value.asStr

def bindCreateCart : Json → Option CreateCartCommand
  | .obj fields => do
    let ownerId ← bindNullableInt "ownerId" (.obj fields)
    let quantity ← bindInt "quantity" (.obj fields)
    let title ← bindString "title" none (.obj fields)
    let price ← bindDecimal "price" (.obj fields)
    let image ← bindNullableString "image" (.obj fields)
    return ⟨ownerId, quantity, title, price, image⟩
  | _ => none

def bindUpdateCart : Json → Option UpdateCartCommand
  | .obj fields => do
    let id ← bindInt "id" (.obj fields)
    let title ← bindString "title" (some "") (.obj fields)
    let price ← bindDecimal "price" (.obj fields)
    let image ← bindString "image" (some "") (.obj fields)
    let quantity ← bindInt "quantity" (.obj fields)
    return ⟨id, title, price, image, quantity⟩
  | _ => none

/-- The request that reaches the controller, if there is one. -/
def requestOf (op : Operation) : Option Request :=
  match op.entityType, op.operationType with
  | .product, _ => none
  | .cartItem, .add => (bindCreateCart op.payload).map .create
  | .cartItem, .update => do
    let id ← op.entityId.asInt.filter int32
    let command ← bindUpdateCart op.payload
    return .update id command
  | .cartItem, .delete => (op.entityId.asInt.filter int32).map .delete
  | .cartItem, .deleteAll => some .deleteAll
  | .cartItem, .other _ => none

def isSuccess {ρ : Type} : Reply ρ → Bool
  | .ok _ => true
  | _ => false

/-- Whether the operation succeeds, and what it leaves on the server. -/
def syncOperation (op : Operation) (caller : Caller) (env : Env) (s : CartTable) :
    Bool × CartTable :=
  match requestOf op with
  | none => (false, s)
  | some request =>
    let (reply, s') := serve env caller request s
    (isSuccess reply, s')

/-- The server of carts, for the system of `SyncManager`. -/
def respond (row : QueueRow) (request : Caller × Env) (s : CartTable) : Bool × CartTable :=
  syncOperation row.operation request.1 request.2 s

/-- A request that is not answered with success changes nothing. -/
theorem serve_refused {caller : Caller} {env : Env} {request : Request} {s : CartTable}
    (h : isSuccess (serve env caller request s).1 = false) :
    (serve env caller request s).2 = s := by
  by_cases hwrites : Writes env caller request
  · cases request with
    | getAll => exact hwrites.elim
    | getById id => exact hwrites.elim
    | create c =>
      simp only [serve, send_admitted hwrites.1, createCart, hwrites.2, if_true] at h
      cases h
    | update id c =>
      simp only [serve, send_admitted hwrites.1, updateCart, hwrites.2, if_true] at h ⊢
      split
      · rfl
      · rename_i hfind
        rw [hfind] at h
        cases h
    | delete id =>
      simp only [serve, send_admitted hwrites.1, deleteCart, hwrites.2, if_true] at h ⊢
      split
      · rfl
      · rename_i hfind
        rw [hfind] at h
        cases h
    | deleteAll =>
      have hadmitted : Admits deleteAllCartsPipeline env.users.authorizeAsync caller () :=
        ⟨rfl, rfl, rfl⟩
      have hsaved : env.saved = true := hwrites
      simp only [serve, send_admitted hadmitted, deleteAllCarts, hsaved, if_true] at h
      cases h
  · exact serve_silent s hwrites

theorem respond_refused {row : QueueRow} {request : Caller × Env} {s : CartTable}
    (h : (respond row request s).1 = false) : (respond row request s).2 = s := by
  unfold respond syncOperation at h ⊢
  cases hrequest : requestOf row.operation with
  | none => rfl
  | some r =>
    rw [hrequest] at h
    exact serve_refused h

/-- An accepted operation was a request that wrote. -/
theorem respond_accepted {row : QueueRow} {request : Caller × Env} {s : CartTable}
    (h : (respond row request s).1 = true) :
    ∃ r answer, requestOf row.operation = some r ∧
      (serve request.2 request.1 r s).1 = .ok answer ∧
        (respond row request s).2 = (serve request.2 request.1 r s).2 := by
  unfold respond syncOperation at h ⊢
  cases hrequest : requestOf row.operation with
  | none =>
    rw [hrequest] at h
    cases h
  | some r =>
    rw [hrequest] at h
    cases hreply : (serve request.2 request.1 r s).1 with
    | ok answer => exact ⟨r, answer, rfl, hreply, rfl⟩
    | unauthorized => simp [hreply, isSuccess] at h
    | forbidden => simp [hreply, isSuccess] at h
    | invalid failures => simp [hreply, isSuccess] at h
    | notFound message => simp [hreply, isSuccess] at h
    | error => simp [hreply, isSuccess] at h

theorem requestOf_delete {op : Operation} (hop : op.operationType = .delete) {r : Request}
    (h : requestOf op = some r) : ∃ k, op.entityId.asInt = some k ∧ r = .delete k := by
  cases hentity : op.entityType with
  | product =>
    rw [requestOf, hentity] at h
    cases h
  | cartItem =>
    simp only [requestOf, hentity, hop, Option.map_eq_some_iff, Option.filter_eq_some_iff] at h
    obtain ⟨k, ⟨hk, -⟩, rfl⟩ := h
    exact ⟨k, hk, rfl⟩

/-- A removal that is answered with success has found its cart, and takes it away. -/
theorem respond_delete {row : QueueRow} {request : Caller × Env} {s : CartTable}
    (hrow : row.operation.operationType = .delete) (h : (respond row request s).1 = true) :
    ∃ k, row.operation.entityId.asInt = some k ∧ (s.find k).isSome ∧
      (respond row request s).2 = s.delete k := by
  obtain ⟨r, answer, hrequest, hok, hserved⟩ := respond_accepted h
  obtain ⟨k, hk, rfl⟩ := requestOf_delete hrow hrequest
  have hwrites := writes_of_ok rfl hok
  rw [serve_writes s hwrites] at hserved
  refine ⟨k, hk, ?_, hserved⟩
  obtain ⟨-, hok⟩ := send_ok hok
  cases hfind : s.find k with
  | some cart => rfl
  | none =>
    simp only [deleteCart, hfind] at hok
    cases hok

end CartSync
