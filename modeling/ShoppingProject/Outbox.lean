import Mathlib.Algebra.Group.Int.Defs
import ShoppingProject.DomainEvents
import ShoppingProject.OrderedQueries

/-!
# The outbox table

`OutboxMessage` with its own methods, and the store's query for the next batch.
The database answers an `ORDER BY` with any arrangement of the rows, chosen
separately in each query.
-/
namespace Outbox

open DomainEvents (DateTime ticksPerMinute)
open OrderedQueries

structure OutboxMessage where
  id : Nat
  type : String
  content : Json
  correlationId : Option String
  occurredOnUtc : DateTime
  processedOnUtc : Option DateTime
  error : Option String
  retryCount : Int
  nextRetryUtc : Option DateTime
  deriving DecidableEq

namespace OutboxMessage

def isProcessed (m : OutboxMessage) : Bool := m.processedOnUtc.isSome

/-- `!NextRetryUtc.HasValue || NextRetryUtc <= utcNow`. -/
def isDue (utcNow : DateTime) (m : OutboxMessage) : Bool :=
  match m.nextRetryUtc with
  | none => true
  | some next => decide (next ≤ utcNow)

def canRetry (utcNow : DateTime) (m : OutboxMessage) : Bool :=
  decide (m.retryCount < 5) && m.isDue utcNow

def markAsProcessed (utcNow : DateTime) (m : OutboxMessage) : OutboxMessage :=
  { m with processedOnUtc := some utcNow, error := none }

/-- `Math.Pow(2, RetryCount)` minutes; a negative count gives a part of a minute. -/
def backoff (retryCount : Int) : Int :=
  if 0 ≤ retryCount then 2 ^ retryCount.toNat * ticksPerMinute
  else ticksPerMinute / 2 ^ (-retryCount).toNat

def markAsFailed (error : String) (utcNow : DateTime) (m : OutboxMessage) : OutboxMessage :=
  { m with
    error := some error
    retryCount := m.retryCount + 1
    nextRetryUtc := some (utcNow + backoff (m.retryCount + 1)) }

def markAsDeadLetter (error : String) (utcNow : DateTime) (m : OutboxMessage) : OutboxMessage :=
  { m with error := some error, processedOnUtc := some utcNow, retryCount := 5 }

/-- What the processor's client-side filter asks of a row. -/
def isEligible (utcNow : DateTime) (m : OutboxMessage) : Bool :=
  !m.isProcessed && m.canRetry utcNow

end OutboxMessage

/-- One ordering of the outbox by `OccurredOnUtc`, as a database may choose it. -/
structure ByOccurrence where
  arrange : List OutboxMessage → List OutboxMessage
  arranged : ∀ rows, Arranged OutboxMessage.occurredOnUtc rows (arrange rows)

/-- The two `Where` clauses of `GetUnprocessedMessagesAsync`. -/
def unprocessed (utcNow : DateTime) (table : List OutboxMessage) : List OutboxMessage :=
  (table.filter fun m => !m.isProcessed).filter (OutboxMessage.isDue utcNow)

def getUnprocessedMessagesAsync (order : ByOccurrence) (utcNow : DateTime) (batchSize : Nat)
    (table : List OutboxMessage) : List OutboxMessage :=
  (order.arrange (unprocessed utcNow table)).take batchSize

/-- Any arrangement of any list of rows is what some database answers. -/
theorem ByOccurrence.exists_arrange {rows arr : List OutboxMessage}
    (h : Arranged OutboxMessage.occurredOnUtc rows arr) :
    ∃ order : ByOccurrence, order.arrange rows = arr := by
  have hall (xs : List OutboxMessage) := exists_arranged OutboxMessage.occurredOnUtc xs
  choose any hany using hall
  refine ⟨⟨fun xs => if xs = rows then arr else any xs, ?_⟩, by simp⟩
  intro xs
  by_cases hx : xs = rows
  · simpa [hx] using h
  · simpa [hx] using hany xs

/-- If no unprocessed row has used up its retries, the store's filters and the
processor's filter are the same. -/
theorem unprocessed_eq_eligible (utcNow : DateTime) (table : List OutboxMessage)
    (h : ∀ m ∈ table, m.isProcessed = false → m.retryCount < 5) :
    unprocessed utcNow table = table.filter (OutboxMessage.isEligible utcNow) := by
  rw [unprocessed, List.filter_filter]
  apply List.filter_congr
  intro m hm
  cases hp : m.isProcessed with
  | true => simp [OutboxMessage.isEligible, hp]
  | false => simp [OutboxMessage.isEligible, OutboxMessage.canRetry, hp, h m hm hp]

end Outbox
