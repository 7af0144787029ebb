import ShoppingProject.OutboxProcessor

/-!
# Encoding events into the outbox and back

`AddEventAsync` writes the row, the processor reads it in another class. The two
meet in two strings: the type name, which the processor resolves with
`Type.GetType`, and the content, which was serialized at the static type
`BaseEvent`. A `Runtime` is what the processor finds outside this repository.
-/
namespace OutboxEncoding

open DomainEvents
open Outbox
open OutboxProcessor

def startsWith (start s : String) : Bool := start.toList.isPrefixOf s.toList

/-- `JsonSerializer.Serialize<BaseEvent>`: the properties of the static type only.
An instant is represented by its ticks. -/
def serialize (e : DomainEvent) : Json := .obj [("OccurredOnUtc", .num e.occurredOnUtc)]

/-- The row that `AddEventAsync` adds; the database gives it its key. -/
def outboxMessage (correlationId : Option String) (e : DomainEvent) : OutboxMessage where
  id := 0
  type := e.body.fullName
  content := serialize e
  correlationId := correlationId
  occurredOnUtc := e.occurredOnUtc
  processedOnUtc := none
  error := none
  retryCount := 0
  nextRetryUtc := none

/-- The type names that a lookup can find from the processor. Without an assembly these
are names in its own assembly and in the core library, neither of which has any below
`ShoppingProject.Domain`; a name with its assembly has a comma. -/
structure SearchedTypes where
  infrastructure : List String
  coreLibrary : List String
  qualified : List String
  infrastructure_outside : ∀ n ∈ infrastructure, startsWith "ShoppingProject.Domain." n = false
  coreLibrary_outside : ∀ n ∈ coreLibrary, startsWith "ShoppingProject.Domain." n = false
  qualified_comma : ∀ n ∈ qualified, ',' ∈ n.toList

/-- `Type.GetType(name)`. -/
def getType (types : SearchedTypes) (name : String) : Option String :=
  (types.infrastructure ++ types.coreLibrary ++ types.qualified).find? (· == name)

inductive Deserialized where
  | event : DomainEvent → Deserialized
  | otherObject : Deserialized
  | null : Deserialized
  | error : String → Deserialized

structure Runtime where
  types : SearchedTypes
  deserialize : String → Json → Deserialized
  publish : OutboxMessage → Option String

/-- The `try` block of the loop for one row. -/
def attempt (rt : Runtime) (m : OutboxMessage) : Attempt :=
  match getType rt.types m.type with
  | none => .typeNotFound
  | some type => match rt.deserialize type m.content with
    | .error message => .threw message
    | .null => .undecodable
    | .event _ | .otherObject => match rt.publish m with
      | none => .published
      | some message => .threw message

/-- The row is turned back into the event `e` before it is published. -/
def DecodesTo (rt : Runtime) (m : OutboxMessage) (e : DomainEvent) : Prop :=
  ∃ type, getType rt.types m.type = some type ∧ rt.deserialize type m.content = .event e

/-- An attempt ends at the type exactly if no type of that name is found. -/
def fits (types : SearchedTypes) (m : OutboxMessage) (attempt : Attempt) : Bool :=
  decide (attempt = .typeNotFound) == (getType types m.type).isNone

/-- A prefix no longer than the first part is settled by the first part. -/
theorem startsWith_append {start a : String} (b : String)
    (h : start.toList.length ≤ a.toList.length) :
    startsWith start (a ++ b) = startsWith start a := by
  rw [Bool.eq_iff_iff]
  simp only [startsWith, List.isPrefixOf_iff_prefix, String.toList_append]
  constructor
  · intro hp
    exact List.prefix_of_prefix_length_le hp (List.prefix_append _ _) h
  · intro hp
    exact hp.trans (List.prefix_append _ _)

/-- Every event class is in a namespace that the lookup does not search. -/
theorem fullName_below (b : EventBody) :
    startsWith "ShoppingProject.Domain." b.fullName = true := by
  have hnamespace : startsWith "ShoppingProject.Domain." b.fullName =
      startsWith "ShoppingProject.Domain." "ShoppingProject.Domain.Events." :=
    startsWith_append b.name (by decide)
  exact hnamespace.trans (by decide)

/-- The full name of a class is without its assembly. -/
theorem fullName_unqualified (b : EventBody) : ',' ∉ b.fullName.toList := by
  have hname : ',' ∉ b.name.toList := by cases b <;> simp [EventBody.name]
  have hsplit : b.fullName.toList = "ShoppingProject.Domain.Events.".toList ++ b.name.toList :=
    String.toList_append
  intro hcomma
  rw [hsplit] at hcomma
  rcases List.mem_append.mp hcomma with hcomma | hcomma
  · simp at hcomma
  · exact hname hcomma

theorem getType_fullName (types : SearchedTypes) (b : EventBody) :
    getType types b.fullName = none := by
  have hbelow := fullName_below b
  rw [getType, List.find?_eq_none]
  intro n hn heq
  obtain rfl : n = b.fullName := by simpa using heq
  rw [List.mem_append, List.mem_append] at hn
  rcases hn with (hn | hn) | hn
  · simp [types.infrastructure_outside _ hn] at hbelow
  · simp [types.coreLibrary_outside _ hn] at hbelow
  · exact fullName_unqualified b (types.qualified_comma _ hn)

/-- Every row written for an event is recorded as one of unknown type, so no
event survives the way through the outbox. -/
theorem row_never_decodes (rt : Runtime) (correlationId : Option String) (e : DomainEvent)
    (utcNow : DateTime) :
    ¬ DecodesTo rt (outboxMessage correlationId e) e ∧
      processMessage (attempt rt (outboxMessage correlationId e)) utcNow
          (outboxMessage correlationId e) =
        (outboxMessage correlationId e).markAsFailed
          ("Event type " ++ e.body.fullName ++ " not found") utcNow := by
  have hnone : getType rt.types (outboxMessage correlationId e).type = none :=
    getType_fullName rt.types e.body
  constructor
  · rintro ⟨type, htype, -⟩
    simp [hnone] at htype
  · rw [attempt, hnone]
    rfl

/-- The name of a class with its assembly. -/
def cartClearedType : String :=
  "ShoppingProject.Domain.Events.CartClearedEvent, ShoppingProject.Domain"

/-- Some of the names that a lookup finds. -/
def sampleTypes : SearchedTypes where
  infrastructure := ["ShoppingProject.Infrastructure.Bus.ServiceBus"]
  coreLibrary := ["System.String"]
  qualified := [cartClearedType]
  infrastructure_outside := by decide
  coreLibrary_outside := by decide
  qualified_comma := by decide

/-- An ordinary runtime with a lookup that would accept any of its own types. -/
def sampleRuntime : Runtime where
  types := sampleTypes
  deserialize := fun _ _ => .event ⟨0, .cartCleared 7⟩
  publish := fun _ => none

/-- Clearing cart 7 is already lost. -/
theorem cartCleared_not_decoded : ¬ ∀ (rt : Runtime) (e : DomainEvent),
    DecodesTo rt (outboxMessage none e) e := by
  intro hall
  obtain ⟨type, htype, -⟩ := hall sampleRuntime ⟨0, .cartCleared 7⟩
  have hnone : getType sampleRuntime.types
      (outboxMessage none ⟨0, .cartCleared 7⟩).type = none := by decide
  simp [hnone] at htype

/-- The content keeps the instant of an event and nothing else. -/
theorem serialize_eq_iff (a b : DomainEvent) :
    serialize a = serialize b ↔ a.occurredOnUtc = b.occurredOnUtc := by
  simp [serialize]

/-- Even a decoder that knew every type could not recover the events. -/
theorem content_not_decodable (decoder : String → Json → DomainEvent) :
    ∃ e : DomainEvent, decoder e.body.fullName (serialize e) ≠ e := by
  by_contra hall
  push Not at hall
  have h₁ := hall ⟨0, .cartCleared 1⟩
  have h₂ := hall ⟨0, .cartCleared 2⟩
  have hname : (EventBody.cartCleared 1).fullName = (EventBody.cartCleared 2).fullName := rfl
  have hsame : serialize ⟨0, .cartCleared 1⟩ = serialize ⟨0, .cartCleared 2⟩ :=
    (serialize_eq_iff _ _).mpr rfl
  rw [hname, hsame, h₂] at h₁
  exact absurd h₁ (by decide)

end OutboxEncoding
