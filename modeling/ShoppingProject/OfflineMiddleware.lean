import Mathlib.Data.List.Infix
import ShoppingProject.LocalStorage
import ShoppingProject.Runs

/-!
# Which actions the offline middleware queues

The thunk middleware stands before `offlineMiddleware` and consumes the thunks of
`cartSlice`; what goes on are their lifecycle actions, whose types are the prefix
of the thunk with a suffix. The middleware looks for the prefixes alone, so it never
sees a mutation, and only plain actions of these types are queued.
-/
namespace OfflineMiddleware

open OfflineQueue LocalStorage Runs

/-- A payload may be undefined. -/
structure Action where
  type : Option String
  payload : Option Json

/-- How the two statements of a local mutation end, and when. -/
structure Database where
  now : Int
  stored : Bool
  queued : Bool

def startsWith (s start : String) : Bool := decide (start.toList <+: s.toList)

def includes (s part : String) : Bool := decide (part.toList <:+: s.toList)

def isCartAction : Option String → Bool
  | none => false
  | some type => startsWith type "cart/" && !includes type "fulfilled" && !includes type "rejected"

/-- `value.name`, which throws on `undefined` and `null`. -/
def property (name : String) : Option Json → Option (Option Json)
  | none => none
  | some .null => none
  | some value => some (value.field name)

/-- The operation that the middleware queues for an action of this type; `none` when
it has no branch for the type, or the branch throws. -/
def requested (type : String) (payload : Option Json) : Option Operation :=
  if type = "cart/addCartItemAsync" ∨ type = "cart/addToCart" then
    (property "id" payload).map fun id =>
      ⟨.add, .cartItem, integerColumn id, payload.getD .null⟩
  else if type = "cart/updateCartItem" then do
    let cartId ← property "cartId" payload
    let quantity ← property "quantity" payload
    return ⟨.update, .cartItem, integerColumn cartId,
      .obj (quantity.toList.map fun q => ("quantity", q))⟩
  else if type = "cart/removeCartItem" then
    (property "id" payload).map fun id => ⟨.delete, .cartItem, integerColumn id, .obj []⟩
  else if type = "cart/clearCart" then
    some ⟨.deleteAll, .cartItem, .num 0, .obj []⟩
  else none

/-- The queue after the middleware has seen an action; errors are logged only. -/
def offlineMiddleware (db : Database) (a : Action) (q : Queue) : Queue :=
  if isCartAction a.type then
    match requested (a.type.getD "") a.payload with
    | none => q
    | some op => if db.stored && db.queued then addToQueue db.now op q else q
  else q

/-- The thunks of `cartSlice`, with their arguments. -/
inductive Thunk where
  | fetchCart (username : String) : Thunk
  | addToCart (request : CartItem) : Thunk
  | updateCartItem (cartId quantity : Int) : Thunk
  | removeCartItem (id : Int) : Thunk
  | removeAllCartItems : Thunk

def Thunk.typePrefix : Thunk → String
  | .fetchCart _ => "cart/fetchCart"
  | .addToCart _ => "cart/addCartItemAsync"
  | .updateCartItem .. => "cart/updateCartItem"
  | .removeCartItem _ => "cart/removeCartItem"
  | .removeAllCartItems => "cart/removeAllCartItems"

inductive Stage where
  | pending | fulfilled | rejected

def Stage.suffix : Stage → String
  | .pending => "/pending"
  | .fulfilled => "/fulfilled"
  | .rejected => "/rejected"

/-- A lifecycle action of a thunk; what it carries depends on the request. -/
def Thunk.lifecycle (t : Thunk) (stage : Stage) (payload : Option Json) : Action :=
  ⟨some (t.typePrefix ++ stage.suffix), payload⟩

/-- The mutation that a thunk stands for. -/
def Thunk.mutation : Thunk → Option Mutation
  | .fetchCart _ => none
  | .addToCart request => some (.addCartItem request)
  | .updateCartItem cartId quantity => some (.updateCartItem cartId quantity)
  | .removeCartItem id => some (.removeCartItem id)
  | .removeAllCartItems => some .clearCartItems

/-- What reaches the store, in order: a thunk with the id of its request, a lifecycle
action of one, or a plain action. -/
inductive Label where
  | thunk (requestId : Nat) : Thunk → Label
  | lifecycle (requestId : Nat) (t : Thunk) (stage : Stage) (payload : Option Json) :
    Database → Label
  | action : Action → Database → Label

def step (q : Queue) : Label → Option Queue
  | .thunk _ _ => some q
  | .lifecycle _ t stage payload db => some (offlineMiddleware db (t.lifecycle stage payload) q)
  | .action a db => some (offlineMiddleware db a q)

theorem step_total (q : Queue) (l : Label) : (step q l).isSome := by
  cases l <;> rfl

/-- What one step adds to the queue. -/
def newEntries (v : Queue × Label × Queue) : List Operation :=
  (v.2.2.rows.drop v.1.rows.length).map QueueRow.operation

def Label.belongsTo (requestId : Nat) : Label → Bool
  | .thunk id _ => id == requestId
  | .lifecycle id _ _ _ _ => id == requestId
  | .action _ _ => false

def Label.ofMutation : Label → Bool
  | .thunk _ t => t.mutation.isSome
  | .lifecycle _ t _ _ _ => t.mutation.isSome
  | .action _ _ => false

/-- Every mutation that is dispatched adds its own operation, once, and nothing
else adds an entry. -/
structure AllQueued (q : Queue) (tr : List Label) : Prop where
  mutations : ∀ requestId t m, .thunk requestId t ∈ tr → t.mutation = some m →
    ((visits step q tr).filter fun v => v.2.1.belongsTo requestId).flatMap newEntries =
      [m.operation]
  others : ∀ v ∈ visits step q tr, v.2.1.ofMutation = false → newEntries v = []

/-- The middleware has a branch for the action, and both statements end well. -/
def Queues (db : Database) (a : Action) : Prop :=
  isCartAction a.type = true ∧ (requested (a.type.getD "") a.payload).isSome ∧
    db.stored = true ∧ db.queued = true

/-- No mutation is dispatched, and no plain action that the middleware queues. -/
structure Untouched (tr : List Label) : Prop where
  thunks : ∀ requestId t, .thunk requestId t ∈ tr → t.mutation = none
  actions : ∀ a db, .action a db ∈ tr → ¬ Queues db a

/-- No lifecycle action has a type that the middleware looks for. -/
theorem lifecycle_not_requested (t : Thunk) (stage : Stage) (payload : Option Json) :
    requested (t.typePrefix ++ stage.suffix) payload = none := by
  cases t <;> cases stage <;> simp [requested, Thunk.typePrefix, Stage.suffix]

theorem lifecycle_keeps (db : Database) (t : Thunk) (stage : Stage) (payload : Option Json)
    (q : Queue) : offlineMiddleware db (t.lifecycle stage payload) q = q := by
  have hrequested := lifecycle_not_requested t stage payload
  simp only [offlineMiddleware, Thunk.lifecycle, Option.getD_some, hrequested, ite_self]

/-- A plain action adds an entry exactly if the middleware queues it. -/
theorem newEntries_action {a : Action} {db : Database} {q : Queue} {l : Label} :
    newEntries (q, l, offlineMiddleware db a q) = [] ↔ ¬ Queues db a := by
  unfold offlineMiddleware Queues
  by_cases hcart : isCartAction a.type
  · cases hrequested : requested (a.type.getD "") a.payload with
    | none => simp [hcart, newEntries]
    | some op =>
      by_cases hdb : db.stored = true ∧ db.queued = true
      · simp [hcart, hdb.1, hdb.2, newEntries, addToQueue, Table.insert]
      · have hdb' : (db.stored && db.queued) = false := by
          simpa only [Bool.eq_false_iff, ne_eq, Bool.and_eq_true] using hdb
        simp [hcart, hdb', hdb, newEntries]
  · simp [hcart, newEntries]

example : Queues ⟨100, true, true⟩ ⟨some "cart/clearCart", none⟩ :=
  ⟨by decide +kernel, rfl, rfl, rfl⟩

/-- What a thunk does in the store adds no entry. -/
theorem newEntries_of_thunk {v : Queue × Label × Queue} (h : step v.1 v.2.1 = some v.2.2)
    (hthunk : ∀ a db, v.2.1 ≠ .action a db) : newEntries v = [] := by
  obtain ⟨q, l, q'⟩ := v
  have hkept : q' = q := by
    cases l with
    | thunk requestId t => exact (Option.some.inj h).symm
    | lifecycle requestId t stage payload db =>
      exact (Option.some.inj h).symm.trans (lifecycle_keeps db t stage payload q)
    | action a db => exact absurd rfl (hthunk a db)
  simp [newEntries, hkept]

/-- A step adds an entry exactly if it is a plain action that the middleware queues. -/
theorem newEntries_eq_nil_iff {v : Queue × Label × Queue} (h : step v.1 v.2.1 = some v.2.2) :
    newEntries v = [] ↔ ∀ a db, v.2.1 = .action a db → ¬ Queues db a := by
  by_cases haction : ∃ a db, v.2.1 = .action a db
  · obtain ⟨q, l, q'⟩ := v
    obtain ⟨a, db, rfl⟩ := haction
    obtain rfl : offlineMiddleware db a q = q' := Option.some.inj h
    rw [newEntries_action]
    constructor
    · intro hnot a' db' heq
      obtain ⟨rfl, rfl⟩ := Label.action.inj heq
      exact hnot
    · intro hall
      exact hall a db rfl
  · have hthunk : ∀ a db, v.2.1 ≠ .action a db := fun a db heq => haction ⟨a, db, heq⟩
    exact iff_of_true (newEntries_of_thunk h hthunk) fun a db heq => absurd heq (hthunk a db)

/-- In no run does a thunk add an entry, whatever its lifecycle. -/
theorem thunk_entries (q : Queue) (tr : List Label) (requestId : Nat) :
    ((visits step q tr).filter fun v => v.2.1.belongsTo requestId).flatMap newEntries = [] := by
  apply List.flatMap_eq_nil_iff.mpr
  intro v hv
  obtain ⟨hvisit, hbelongs⟩ := List.mem_filter.mp hv
  apply newEntries_of_thunk (step_of_mem_visits hvisit)
  intro a db haction
  simp [haction, Label.belongsTo] at hbelongs

theorem mem_labels {q : Queue} {tr : List Label} {l : Label} :
    l ∈ tr ↔ ∃ v ∈ visits step q tr, v.2.1 = l := by
  have hlabels := visits_labels step_total q tr
  rw [← List.mem_map, hlabels]

/-- The queue is as it should be exactly if nobody touches the cart. -/
theorem allQueued_iff (q : Queue) (tr : List Label) : AllQueued q tr ↔ Untouched tr := by
  constructor
  · intro hall
    refine ⟨?_, ?_⟩
    · intro requestId t hmem
      cases hmutation : t.mutation with
      | none => rfl
      | some m =>
        have hentries := hall.mutations requestId t m hmem hmutation
        rw [thunk_entries] at hentries
        simp at hentries
    · intro a db hmem
      obtain ⟨v, hv, hl⟩ := (@mem_labels q tr _).mp hmem
      have hnone := hall.others v hv (by simp [hl, Label.ofMutation])
      exact (newEntries_eq_nil_iff (step_of_mem_visits hv)).mp hnone a db hl
  · intro huntouched
    refine ⟨?_, ?_⟩
    · intro requestId t m hmem hmutation
      rw [huntouched.thunks requestId t hmem] at hmutation
      simp at hmutation
    · intro v hv _
      apply (newEntries_eq_nil_iff (step_of_mem_visits hv)).mpr
      intro a db hl
      exact huntouched.actions a db (mem_labels.mpr ⟨v, hv, hl⟩)

/-- An item is added while the device is offline: the request fails, nothing is queued. -/
theorem offline_addition_not_queued : ¬ ∀ (q : Queue) (tr : List Label), AllQueued q tr := by
  intro hall
  let bag := someItem 7
  let db : Database := ⟨100, true, true⟩
  let tr : List Label := [.thunk 0 (.addToCart bag),
    .lifecycle 0 (.addToCart bag) .pending none db,
    .lifecycle 0 (.addToCart bag) .rejected (some (.str "Network Error")) db]
  have hentries := (hall Table.empty tr).mutations 0 (.addToCart bag) _ List.mem_cons_self rfl
  rw [thunk_entries] at hentries
  simp at hentries

end OfflineMiddleware
