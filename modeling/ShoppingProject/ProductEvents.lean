import ShoppingProject.ProductCache
import ShoppingProject.SaveChanges

/-!
# What product commands leave in the outbox

A handler attaches events to the product it changes, and the save moves them into the
outbox before the last write gives a new product its key. Events are objects: the list
of a product removes one by reference. What a row tells is what its readers can see of
it: the name of a class, and the properties in its content.
-/
namespace ProductEvents

open DomainEvents
open Outbox (OutboxMessage)
open OutboxEncoding (outboxMessage serialize)
open ProductCache (Command CreateProductCommand UpdateProductCommand Write begin commit findAsync)
open SaveChanges (Faults saveChangesAsync)

structure Env where
  utcNow : DateTime
  userId : Option String
  /-- When each event object was made. -/
  occurredOnUtc : ℕ → DateTime
  faults : Faults

/-- An event as the handlers hold it. -/
structure EventObject where
  address : ℕ
  event : DomainEvent

/-- A product with its events, and how many event objects have been made. -/
structure Entity where
  product : Product
  domainEvents : List EventObject
  allocated : ℕ

namespace Entity

def loaded (p : Product) : Entity := ⟨p, [], 0⟩

/-- `new`: an object that no list holds yet. -/
def newEvent (env : Env) (body : EventBody) (e : Entity) : EventObject × Entity :=
  (⟨e.allocated, env.occurredOnUtc e.allocated, body⟩, { e with allocated := e.allocated + 1 })

def addDomainEvent (domainEvent : EventObject) (e : Entity) : Entity :=
  { e with domainEvents := e.domainEvents ++ [domainEvent] }

/-- `List.Remove`; the events define no equality of their own. -/
def removeDomainEvent (domainEvent : EventObject) (e : Entity) : Entity :=
  { e with domainEvents := e.domainEvents.eraseP fun o => o.address == domainEvent.address }

def raise (env : Env) (body : EventBody) (e : Entity) : Entity :=
  let (domainEvent, e) := e.newEvent env body
  e.addDomainEvent domainEvent

/-- `Product.Create`: the key is 0 until the product is saved. -/
def create (env : Env) (title : String) (price : ℚ) (description category image : String) :
    Entity :=
  let product : Product :=
    { id := 0, status := .active, created := 0, createdBy := none, lastModified := 0,
      lastModifiedBy := none, title, price, description, category, image, rating := ⟨0, 0⟩ }
  (loaded product).raise env (.productCreated product)

def updateDetails (env : Env) (title description category image : String) (e : Entity) : Entity :=
  let e := { e with product := { e.product with title, description, category, image } }
  e.raise env (.productUpdated e.product.id e.product.title)

def updatePrice (env : Env) (newPrice : ℚ) (e : Entity) : Entity :=
  if newPrice ≠ e.product.price then
    let e := e.raise env (.productPriceChanged e.product.id e.product.price newPrice)
    { e with product := { e.product with price := newPrice } }
  else e

def updateStatus (env : Env) (newStatus : EntityStatus) (e : Entity) : Entity :=
  let e := { e with product := { e.product with status := newStatus } }
  e.raise env (.productStatusChanged e.product.id newStatus)

end Entity

def handleCreate (env : Env) (c : CreateProductCommand) : Entity :=
  Entity.create env (c.title.getD "") c.price (c.description.getD "") (c.category.getD "")
    (c.image.getD "")

def handleUpdate (env : Env) (c : UpdateProductCommand) (p : Product) : Entity :=
  ((Entity.loaded p).updateDetails env (c.title.getD p.title) (c.description.getD p.description)
    (c.category.getD p.category) (c.image.getD p.image)).updatePrice env c.price

def handleDelete (env : Env) (p : Product) : Entity :=
  let e := (Entity.loaded p).updateStatus env .deleted
  let (domainEvent, e) := e.newEvent env (.productDeleted e.product)
  e.removeDomainEvent domainEvent

structure Handled where
  write : Write
  entity : Entity

/-- The handler of a command up to its save, events included. -/
def handle (env : Env) (rows : List Product) : Command → Option Handled
  | .create c => some ⟨.creating c, handleCreate env c⟩
  | .update c => (findAsync c.id rows).map fun p =>
    ⟨.changing p (handleUpdate env c p).product, handleUpdate env c p⟩
  | .delete id => (findAsync id rows).map fun p =>
    ⟨.changing p (handleDelete env p).product, handleDelete env p⟩

/-- What the save has to write: nothing if no property was changed. -/
def change : Write → Option Write
  | .creating c => some (.creating c)
  | .changing read changed => if changed = read then none else some (.changing read changed)
  | .committed => none

def Handled.tracked (h : Handled) : SaveChanges.Entity Write :=
  ⟨change h.write, h.entity.domainEvents.map EventObject.event⟩

structure Database where
  products : Table Product.id
  outbox : List OutboxMessage

/-- A command with its save, on a context that the outbox store does not share. -/
def execute (env : Env) (c : Command) (d : Database) : Option (Database × Bool) :=
  (handle env d.products.rows c).map fun h =>
    let o := saveChangesAsync { env.faults with sharedContext := false } ⟨[], d.outbox⟩ [h.tracked]
    (⟨o.session.database.entities.foldl (fun t w => commit env.utcNow env.userId w t) d.products,
      o.session.database.outbox⟩, o.returned)

/-- An event that a command means, by the product that is in the database. -/
inductive Meant where
  | created (id : Int) : Meant
  | updated (id : Int) (title : String) : Meant
  | priceChanged (id : Int) (oldPrice newPrice : ℚ) : Meant
  | statusChanged (id : Int) : Meant
  | deleted (id : Int) : Meant

def meant (products : Table Product.id) : Command → List Meant
  | .create _ => [.created products.next]
  | .update c => match findAsync c.id products.rows with
    | none => []
    | some p => .updated c.id (c.title.getD p.title) ::
      if c.price ≠ p.price then [.priceChanged c.id p.price c.price] else []
  | .delete id => [.statusChanged id, .deleted id]

/-- A row tells an event by its class and by the properties of the event. -/
def Tells (m : OutboxMessage) : Meant → Prop
  | .created id => m.type = "ShoppingProject.Domain.Events.ProductCreatedEvent" ∧
    (m.content.field "Item").bind (Json.field "Id") = some (.num id)
  | .updated id title => m.type = "ShoppingProject.Domain.Events.ProductUpdatedEvent" ∧
    m.content.field "ProductId" = some (.num id) ∧
    m.content.field "ProductName" = some (.str title)
  | .priceChanged id oldPrice newPrice =>
    m.type = "ShoppingProject.Domain.Events.ProductPriceChangedEvent" ∧
    m.content.field "ProductId" = some (.num id) ∧
    m.content.field "OldPrice" = some (.num oldPrice) ∧
    m.content.field "NewPrice" = some (.num newPrice)
  | .statusChanged id => m.type = "ShoppingProject.Domain.Events.ProductStatusChangedEvent" ∧
    m.content.field "ProductId" = some (.num id)
  | .deleted id => m.type = "ShoppingProject.Domain.Events.ProductDeletedEvent" ∧
    (m.content.field "Item").bind (Json.field "Id") = some (.num id)

/-- The outbox gains the events that are meant, each once and no others. -/
def Recorded (c : Command) (d d' : Database) : Prop :=
  ∃ gained, d'.outbox = d.outbox ++ gained ∧
    ∃ events, events.Perm (meant d.products c) ∧ List.Forall₂ Tells gained events

/-- The handlers make the writes that the reads through the caches know. -/
theorem handle_write (env : Env) (rows : List Product) (c : Command) :
    (handle env rows c).map Handled.write = begin rows c := by
  cases c with
  | create c => rfl
  | delete id =>
    simp only [handle, begin, Option.map_map]
    congr 1
  | update c =>
    simp only [handle, begin, Option.map_map]
    congr 1
    funext p
    by_cases hprice : c.price = p.price
    · simp [handleUpdate, Entity.updatePrice, Entity.updateDetails, Entity.raise, Entity.newEvent,
        Entity.addDomainEvent, Entity.loaded, ProductCache.updateDetails, hprice]
    · simp [handleUpdate, Entity.updatePrice, Entity.updateDetails, Entity.raise, Entity.newEvent,
        Entity.addDomainEvent, Entity.loaded, ProductCache.updateDetails, hprice]

def bodies (e : Entity) : List EventBody := e.domainEvents.map fun o => o.event.body

/-- A new product is named by the key that it does not have yet. -/
theorem bodies_create (env : Env) (c : CreateProductCommand) :
    ∃ p, bodies (handleCreate env c) = [.productCreated p] ∧ p.id = 0 := ⟨_, rfl, rfl⟩

theorem bodies_update (env : Env) (c : UpdateProductCommand) (p : Product) :
    bodies (handleUpdate env c p) = .productUpdated p.id (c.title.getD p.title) ::
      if c.price ≠ p.price then [.productPriceChanged p.id p.price c.price] else [] := by
  by_cases hprice : c.price = p.price
  · simp [bodies, handleUpdate, Entity.updatePrice, Entity.updateDetails, Entity.raise,
      Entity.newEvent, Entity.addDomainEvent, Entity.loaded, hprice]
  · simp [bodies, handleUpdate, Entity.updatePrice, Entity.updateDetails, Entity.raise,
      Entity.newEvent, Entity.addDomainEvent, Entity.loaded, hprice]

/-- The event of the deletion is removed from a list that it was never added to. -/
theorem bodies_delete (env : Env) (p : Product) :
    bodies (handleDelete env p) = [.productStatusChanged p.id .deleted] := rfl

/-- A command that returns has left one row for each event of its product. -/
theorem execute_outbox {env : Env} {c : Command} {d d' : Database}
    (h : execute env c d = some (d', true)) :
    ∃ handled, handle env d.products.rows c = some handled ∧ d'.outbox = d.outbox ++
      (handled.entity.domainEvents.map EventObject.event).map (outboxMessage none) := by
  obtain ⟨handled, hhandled, heq⟩ := Option.map_eq_some_iff.mp h
  obtain ⟨rfl, hreturned⟩ := Prod.mk.inj heq
  have hcommits := (SaveChanges.saveChangesAsync_commits hreturned).2
  refine ⟨handled, hhandled, ?_⟩
  rw [SaveChanges.pendingEvents_eq] at hcommits
  simpa [Handled.tracked] using hcommits

/-- The content of a row has one property, which no event is told by. -/
theorem outboxMessage_tells (correlationId : Option String) (e : DomainEvent) (m : Meant) :
    ¬ Tells (outboxMessage correlationId e) m := by
  have hitem : (serialize e).field "Item" = none := by simp [serialize, Json.field]
  have hproduct : (serialize e).field "ProductId" = none := by simp [serialize, Json.field]
  intro htells
  cases m with
  | created id => simp [Tells, outboxMessage, hitem] at htells
  | updated id title => simp [Tells, outboxMessage, hproduct] at htells
  | priceChanged id oldPrice newPrice => simp [Tells, outboxMessage, hproduct] at htells
  | statusChanged id => simp [Tells, outboxMessage, hproduct] at htells
  | deleted id => simp [Tells, outboxMessage, hitem] at htells

/-- A command that finds its product means something. -/
theorem meant_ne_nil {env : Env} {products : Table Product.id} {c : Command} {handled : Handled}
    (h : handle env products.rows c = some handled) : meant products c ≠ [] := by
  cases c with
  | create c => simp [meant]
  | delete id => simp [meant]
  | update c =>
    obtain ⟨p, hp, -⟩ := Option.map_eq_some_iff.mp h
    simp [meant, hp]

/-- Every event that is told is told by some row. -/
theorem exists_row {gained : List OutboxMessage} {events : List Meant}
    (h : List.Forall₂ Tells gained events) {m : Meant} (hm : m ∈ events) :
    ∃ row ∈ gained, Tells row m := by
  induction h with
  | nil => cases hm
  | @cons row event gained events hrow hrest ih =>
    rcases List.mem_cons.mp hm with rfl | hm
    · exact ⟨row, List.mem_cons_self, hrow⟩
    · obtain ⟨row', hmem, htells⟩ := ih hm
      exact ⟨row', List.mem_cons_of_mem _ hmem, htells⟩

/-- No command that returns has recorded its events. -/
theorem command_not_recorded {env : Env} {c : Command} {d d' : Database}
    (h : execute env c d = some (d', true)) : ¬ Recorded c d d' := by
  obtain ⟨handled, hhandled, houtbox⟩ := execute_outbox h
  rintro ⟨gained, hgained, events, hperm, htells⟩
  obtain rfl := List.append_cancel_left (houtbox.symm.trans hgained)
  obtain ⟨m, hm⟩ := List.exists_mem_of_ne_nil _ (meant_ne_nil hhandled)
  obtain ⟨row, hrow, htold⟩ := exists_row htells (hperm.mem_iff.mpr hm)
  obtain ⟨e, -, rfl⟩ := List.mem_map.mp hrow
  exact outboxMessage_tells none e m htold

/-- A shop with one product, and a command that nothing disturbs. -/
def shop : Database :=
  ⟨Table.empty.insert (fun k => ⟨k, .active, 0, none, 0, none, "phone", 10, "", "", "", ⟨0, 0⟩⟩)
    fun _ => rfl, []⟩

def quietEnv : Env := ⟨0, none, fun _ => 0, ⟨false, false, fun _ => .succeeds, false⟩⟩

theorem deletion_not_recorded :
    ∃ d', execute quietEnv (.delete 1) shop = some (d', true) ∧ ¬ Recorded (.delete 1) shop d' :=
  ⟨_, rfl, @command_not_recorded quietEnv (.delete 1) shop _ rfl⟩

/-- The outbox learns of the status and not of the deletion. -/
theorem deletion_lost : ¬ ∀ (env : Env) (c : Command) (d d' : Database),
    execute env c d = some (d', true) → Recorded c d d' := by
  intro hall
  obtain ⟨d', hrun, htypes⟩ : ∃ d', execute quietEnv (.delete 1) shop = some (d', true) ∧
      d'.outbox.map OutboxMessage.type =
        ["ShoppingProject.Domain.Events.ProductStatusChangedEvent"] := ⟨_, rfl, rfl⟩
  obtain ⟨gained, hgained, events, hperm, htells⟩ := hall _ _ _ _ hrun
  obtain rfl : d'.outbox = gained := hgained
  have hmeant : Meant.deleted 1 ∈ events := hperm.mem_iff.mpr (by simp [meant])
  obtain ⟨row, hrow, htype, -⟩ := exists_row htells hmeant
  have hother : row.type ∈ d'.outbox.map OutboxMessage.type := List.mem_map_of_mem hrow
  rw [htypes, htype] at hother
  exact absurd hother (by decide)

/-- What an event would tell if all its properties were written. -/
def Means : EventBody → Meant → Prop
  | .productCreated item, .created id => item.id = id
  | .productUpdated productId productName, .updated id title =>
    productId = id ∧ productName = title
  | .productPriceChanged productId oldPrice newPrice, .priceChanged id old new =>
    productId = id ∧ oldPrice = old ∧ newPrice = new
  | .productStatusChanged productId _, .statusChanged id => productId = id
  | .productDeleted item, .deleted id => item.id = id
  | _, _ => False

/-- Of the three commands only an update attaches what it means: the key of a new product
is not there yet, and the deletion of a product is no event. -/
theorem attached_iff {env : Env} {c : Command} {products : Table Product.id} {handled : Handled}
    (hkeys : 0 < products.next) (h : handle env products.rows c = some handled) :
    (∃ events, events.Perm (meant products c) ∧
        List.Forall₂ Means (bodies handled.entity) events) ↔ ∃ u, c = .update u := by
  cases c with
  | create c =>
    obtain rfl := Option.some.inj h
    refine iff_of_false ?_ (by simp)
    rintro ⟨events, hperm, hmeans⟩
    obtain ⟨p, hbodies, hp⟩ := bodies_create env c
    obtain rfl : events = [.created products.next] := List.perm_singleton.mp hperm
    rw [hbodies] at hmeans
    have hkey : p.id = products.next := by simpa [Means] using hmeans
    omega
  | update c =>
    obtain ⟨p, hp, rfl⟩ := Option.map_eq_some_iff.mp h
    refine iff_of_true ⟨_, .refl _, ?_⟩ ⟨c, rfl⟩
    have hid : p.id = c.id := by simpa [findAsync] using List.find?_some hp
    rw [bodies_update]
    by_cases hprice : c.price = p.price
    · simp [meant, hp, hprice, Means, hid]
    · simp [meant, hp, hprice, Means, hid]
  | delete id =>
    obtain ⟨p, -, rfl⟩ := Option.map_eq_some_iff.mp h
    refine iff_of_false ?_ (by simp)
    rintro ⟨events, hperm, hmeans⟩
    have hone := hmeans.length_eq
    have htwo := hperm.length_eq
    rw [bodies_delete] at hone
    simp [meant] at hone htwo
    omega

end ProductEvents
