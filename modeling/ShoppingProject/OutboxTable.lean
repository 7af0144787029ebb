import ShoppingProject.OutboxEncoding

/-!
# The outbox table as the database keeps it

The rows with the keys the database gave them: no key is given twice. Rows come
from `AddEventAsync`, or have been stored by something else; they are changed in
place, and leave by the clean-up of what was processed long enough ago.
-/
namespace OutboxTable

open DomainEvents (DateTime DomainEvent)
open Outbox
open OutboxEncoding (outboxMessage)

structure OutboxMessages where
  rows : List OutboxMessage
  next : Nat
  keyed : (rows.map OutboxMessage.id).Nodup
  bounded : ∀ m ∈ rows, m.id < next

def empty : OutboxMessages := ⟨[], 0, .nil, by simp⟩

/-- The row of `AddEventAsync` with its generated key. -/
def newRow (t : OutboxMessages) (correlationId : Option String) (e : DomainEvent) : OutboxMessage :=
  { outboxMessage correlationId e with id := t.next }

/-- A row is inserted under the next key. -/
def insert (m : OutboxMessage) (t : OutboxMessages) : OutboxMessages where
  rows := t.rows ++ [{ m with id := t.next }]
  next := t.next + 1
  keyed := by
    rw [List.map_append, List.nodup_append]
    refine ⟨t.keyed, List.nodup_singleton _, ?_⟩
    intro a ha b hb hab
    obtain ⟨m, hm, rfl⟩ := List.mem_map.mp ha
    have hlt := t.bounded m hm
    have hb : b = t.next := by simpa using hb
    omega
  bounded := by
    intro m hm
    rcases List.mem_append.mp hm with hm | hm
    · exact Nat.lt_succ_of_lt (t.bounded m hm)
    · obtain rfl := List.mem_singleton.mp hm
      exact Nat.lt_succ_self _

def addEventAsync (correlationId : Option String) (e : DomainEvent) (t : OutboxMessages) :
    OutboxMessages := insert (outboxMessage correlationId e) t

/-- A row of any type that has not been tried yet. -/
def untried (type : String) (content : Json) (correlationId : Option String)
    (occurredOnUtc : DateTime) : OutboxMessage where
  id := 0
  type := type
  content := content
  correlationId := correlationId
  occurredOnUtc := occurredOnUtc
  processedOnUtc := none
  error := none
  retryCount := 0
  nextRetryUtc := none

/-- Rows changed in place keep their keys. -/
def OutboxMessages.update (t : OutboxMessages) (rows : List OutboxMessage)
    (h : rows.map OutboxMessage.id = t.rows.map OutboxMessage.id) : OutboxMessages where
  rows := rows
  next := t.next
  keyed := by rw [h]; exact t.keyed
  bounded := by
    intro m hm
    have hid : m.id ∈ t.rows.map OutboxMessage.id := h ▸ List.mem_map_of_mem hm
    obtain ⟨m', hm', heq⟩ := List.mem_map.mp hid
    rw [← heq]
    exact t.bounded m' hm'

/-- What the clean-up deletes: rows with `ProcessedOnUtc <= cutoffDate`. -/
def isOld (cutoffDate : DateTime) (m : OutboxMessage) : Bool :=
  match m.processedOnUtc with
  | none => false
  | some processedOnUtc => decide (processedOnUtc ≤ cutoffDate)

def cleanupProcessedMessagesAsync (cutoffDate : DateTime) (t : OutboxMessages) :
    OutboxMessages where
  rows := t.rows.filter fun m => !isOld cutoffDate m
  next := t.next
  keyed := t.keyed.sublist (List.filter_sublist.map _)
  bounded := fun m hm => t.bounded m (List.mem_filter.mp hm).1

theorem mem_insert {m m' : OutboxMessage} {t : OutboxMessages} :
    m ∈ (insert m' t).rows ↔ m ∈ t.rows ∨ m = { m' with id := t.next } := by
  simp [insert]

theorem mem_addEventAsync {correlationId : Option String} {e : DomainEvent} {t : OutboxMessages}
    {m : OutboxMessage} :
    m ∈ (addEventAsync correlationId e t).rows ↔ m ∈ t.rows ∨ m = newRow t correlationId e :=
  mem_insert

/-- A key identifies its row. -/
theorem OutboxMessages.key_injective (t : OutboxMessages) {a b : OutboxMessage} (ha : a ∈ t.rows)
    (hb : b ∈ t.rows) (h : a.id = b.id) : a = b := List.inj_on_of_nodup_map t.keyed ha hb h

end OutboxTable
