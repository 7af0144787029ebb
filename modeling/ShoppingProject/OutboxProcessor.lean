import ShoppingProject.Outbox

/-!
# The outbox processor

One pass of the background service: it reads the oldest rows of the table, keeps
those that may be tried, tries each of them, and saves the marks. What resolving
the type, decoding the content and publishing do to a row is left to the
environment of the pass.
-/
namespace OutboxProcessor

open DomainEvents (DateTime)
open OrderedQueries
open Outbox

def batchSize : Nat := 20

/-- How the body of the loop ends for one message. -/
inductive Attempt where
  | typeNotFound : Attempt
  | undecodable : Attempt
  | published : Attempt
  | threw : String → Attempt
  deriving DecidableEq

structure Environment where
  now : DateTime
  attempt : OutboxMessage → Attempt
  markedAt : OutboxMessage → DateTime
  saved : Bool

structure Pass where
  attempted : List OutboxMessage
  table : List OutboxMessage

/-- The loop body with its three ways to mark a failure. -/
def processMessage (attempt : Attempt) (utcNow : DateTime) (m : OutboxMessage) : OutboxMessage :=
  match attempt with
  | .typeNotFound => m.markAsFailed ("Event type " ++ m.type ++ " not found") utcNow
  | .undecodable => m.markAsFailed "Failed to deserialize message" utcNow
  | .published => m.markAsProcessed utcNow
  | .threw error =>
    -- the count is raised here and once more by MarkAsFailed
    let m : OutboxMessage := { m with retryCount := m.retryCount + 1 }
    if 5 ≤ m.retryCount then m.markAsDeadLetter error utcNow else m.markAsFailed error utcNow

/-- The whole loop: each message with the row it becomes. -/
def processMessages (env : Environment) (messages : List OutboxMessage) :
    List (OutboxMessage × OutboxMessage) :=
  messages.map fun m => (m, processMessage (env.attempt m) (env.markedAt m) m)

@[simp] theorem processMessages_fst (env : Environment) (messages : List OutboxMessage) :
    (processMessages env messages).map Prod.fst = messages := by
  simp [processMessages, Function.comp_def]

/-- `SaveChangesAsync`: the tracked rows replace the stored ones by key. -/
def saveChanges (updated table : List OutboxMessage) : List OutboxMessage :=
  table.map fun m => (updated.find? fun u => u.id == m.id).getD m

def processOutboxMessagesAsync (order : ByOccurrence) (env : Environment)
    (table : List OutboxMessage) : Pass :=
  let allMessages := (order.arrange table).take batchSize
  let unprocessedMessages := allMessages.filter (OutboxMessage.isEligible env.now)
  if unprocessedMessages.isEmpty then ⟨[], table⟩
  else
    let processed := processMessages env unprocessedMessages
    ⟨processed.map Prod.fst,
      if env.saved then saveChanges (processed.map Prod.snd) table else table⟩

/-- The rows tried are the eligible ones among the first `batchSize` of the
whole table, processed rows included. -/
theorem attempted_eq (order : ByOccurrence) (env : Environment) (table : List OutboxMessage) :
    (processOutboxMessagesAsync order env table).attempted =
      ((order.arrange table).take batchSize).filter (OutboxMessage.isEligible env.now) := by
  simp only [processOutboxMessagesAsync]
  split
  · rename_i h
    exact (List.isEmpty_iff.mp h).symm
  · simp

/-- What a pass should try: the oldest eligible rows, which is the batch the
store would give when no row is exhausted, and something if anything is eligible. -/
structure OldestEligible (now : DateTime) (table batch : List OutboxMessage) : Prop where
  oldest : Oldest OutboxMessage.occurredOnUtc batchSize
    (table.filter (OutboxMessage.isEligible now)) batch
  asStore : (∀ m ∈ table, m.isProcessed = false → m.retryCount < 5) →
    ∃ order, getUnprocessedMessagesAsync order now batchSize table = batch
  progress : (∃ m ∈ table, m.isEligible now = true) → batch ≠ []

/-- The first requirement carries the other two. -/
theorem oldestEligible_iff (now : DateTime) (table batch : List OutboxMessage) :
    OldestEligible now table batch ↔
      Oldest OutboxMessage.occurredOnUtc batchSize
        (table.filter (OutboxMessage.isEligible now)) batch := by
  refine ⟨OldestEligible.oldest, fun h => ⟨h, ?_, ?_⟩⟩
  · intro hretry
    obtain ⟨arr, harr, htake⟩ := h.exists_arranged
    obtain ⟨order, horder⟩ := ByOccurrence.exists_arrange harr
    refine ⟨order, ?_⟩
    rw [getUnprocessedMessagesAsync, unprocessed_eq_eligible now table hretry, horder, htake]
  · rintro ⟨m, hm, he⟩
    exact h.ne_nil (by decide) (List.mem_filter.mpr ⟨hm, he⟩)

/-- The limit is taken before the filter, so a pass tries the oldest eligible
rows exactly when the twenty oldest rows are all eligible or no row after them is. -/
theorem attempts_oldest_iff (order : ByOccurrence) (env : Environment)
    (table : List OutboxMessage) :
    OldestEligible env.now table (processOutboxMessagesAsync order env table).attempted ↔
      (∀ m ∈ (order.arrange table).take batchSize, m.isEligible env.now = true) ∨
      (∀ m ∈ (order.arrange table).drop batchSize, m.isEligible env.now = false) := by
  rw [oldestEligible_iff, attempted_eq]
  exact oldest_filter_take_iff (order.arranged table) _ _

/-- Twenty delivered rows, and one that waits behind them. -/
def blockedTable : List OutboxMessage :=
  (List.range 21).map fun n =>
    { id := n, type := "ShoppingProject.Domain.Events.CartClearedEvent", content := .null,
      correlationId := none, occurredOnUtc := n,
      processedOnUtc := if n < 20 then some 100 else none,
      error := none, retryCount := 0, nextRetryUtc := none }

/-- Behind twenty delivered rows a fresh row is never tried. -/
theorem attempts_not_oldest : ¬ ∀ (order : ByOccurrence) (env : Environment)
    (table : List OutboxMessage),
    OldestEligible env.now table (processOutboxMessagesAsync order env table).attempted := by
  intro hall
  have harr : Arranged OutboxMessage.occurredOnUtc blockedTable blockedTable :=
    ⟨.refl _, by decide⟩
  obtain ⟨order, horder⟩ := ByOccurrence.exists_arrange harr
  let env : Environment := ⟨200, fun _ => .published, fun _ => 200, true⟩
  have htried := (hall order env blockedTable).progress (by decide)
  have hnone : (blockedTable.take batchSize).filter (OutboxMessage.isEligible 200) = [] := by
    decide
  rw [attempted_eq, horder] at htried
  exact htried hnone

end OutboxProcessor
