import ShoppingProject.Json

/-!
# Entities and domain events

The records of `Domain/Entities` and the event classes of `Domain/Events`, with
the data that the outbox, the cart requests and the audit trail read. Instants
are ticks of 100 nanoseconds, amounts of money are exact.
-/
namespace DomainEvents

abbrev DateTime := Int

def ticksPerMinute : Int := 600000000

inductive EntityStatus where
  | draft | active | passive | deleted
  deriving DecidableEq, Repr

structure Rating where
  rate : ℚ
  count : Int
  deriving DecidableEq

structure Cart where
  id : Int
  status : EntityStatus
  created : DateTime
  createdBy : Option String
  lastModified : DateTime
  lastModifiedBy : Option String
  title : String
  price : ℚ
  image : String
  quantity : Int
  ownerId : String
  deriving DecidableEq

structure Product where
  id : Int
  status : EntityStatus
  created : DateTime
  createdBy : Option String
  lastModified : DateTime
  lastModifiedBy : Option String
  title : String
  price : ℚ
  description : String
  category : String
  image : String
  rating : Rating
  deriving DecidableEq

/-- One constructor for each class derived from `BaseEvent`, with its own fields. -/
inductive EventBody where
  | cartCreated : Cart → EventBody
  | cartDeleted : Cart → EventBody
  | cartUpdated : Cart → EventBody
  | cartItemAdded (cartId productId quantity : Int) : EventBody
  | cartItemRemoved (cartId productId : Int) : EventBody
  | cartItemQuantityChanged (cartId productId oldQuantity newQuantity : Int) : EventBody
  | cartCleared (cartId : Int) : EventBody
  | productAdded : Product → EventBody
  | productCompleted : Product → EventBody
  | productCreated : Product → EventBody
  | productDeleted : Product → EventBody
  | productPriceChanged (productId : Int) (oldPrice newPrice : ℚ) : EventBody
  | productUpdated (productId : Int) (productName : String) : EventBody
  | productRatingUpdated (productId : Int) (newRating : ℚ) (totalRatings : Int) : EventBody
  | productStatusChanged (productId : Int) (status : EntityStatus) : EventBody
  deriving DecidableEq

/-- `BaseEvent` with its runtime class. -/
structure DomainEvent where
  occurredOnUtc : DateTime
  body : EventBody
  deriving DecidableEq

/-- `GetType().Name` of an event. -/
def EventBody.name : EventBody → String
  | .cartCreated _ => "CartCreatedEvent"
  | .cartDeleted _ => "CartDeletedEvent"
  | .cartUpdated _ => "CartUpdatedEvent"
  | .cartItemAdded .. => "CartItemAddedEvent"
  | .cartItemRemoved .. => "CartItemRemovedEvent"
  | .cartItemQuantityChanged .. => "CartItemQuantityChangedEvent"
  | .cartCleared _ => "CartClearedEvent"
  | .productAdded _ => "ProductAddedEvent"
  | .productCompleted _ => "ProductCompletedEvent"
  | .productCreated _ => "ProductCreatedEvent"
  | .productDeleted _ => "ProductDeletedEvent"
  | .productPriceChanged .. => "ProductPriceChangedEvent"
  | .productUpdated .. => "ProductUpdatedEvent"
  | .productRatingUpdated .. => "ProductRatingUpdatedEvent"
  | .productStatusChanged .. => "ProductStatusChangedEvent"

/-- `GetType().FullName`: all event classes share one namespace. -/
def EventBody.fullName (b : EventBody) : String := "ShoppingProject.Domain.Events." ++ b.name

end DomainEvents
