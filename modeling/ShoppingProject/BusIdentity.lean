import ShoppingProject.Guids
import ShoppingProject.OutboxInstances
import ShoppingProject.Validation

/-!
# The identity of a message on the bus

The processor hands the key of an outbox row, as decimal digits, to `PublishAsync`, which
sets the `MessageId` of what it publishes if that text is a GUID. Otherwise the bus keeps
the id that it made for this message, one that no other message has. Only a row whose
type is found comes as far as the bus; no row of `AddEventAsync` is one of them, but a
stored row may be. What has been sent is part of the state, with the row that it was
sent for.
-/
namespace BusIdentity

open DomainEvents (DateTime DomainEvent)
open Guids (Guid)
open Outbox OutboxProcessor Runs
open OutboxEncoding (SearchedTypes fits getType)
open OutboxInstances (Good)

variable (types : SearchedTypes)

/-- The callback in `ServiceBus.PublishAsync`; `generated` is the id that the bus made. -/
def messageIdOf (messageId : Option String) (generated : Guid) : Guid :=
  match messageId with
  | none => generated
  | some text =>
    if text = "" then generated
    else (Guids.tryParse Validation.isWhiteSpace text).getD generated

/-- `message.Id.ToString()`. -/
def rowMessageId (m : OutboxMessage) (generated : Guid) : Guid :=
  messageIdOf (some (toString m.id)) generated

structure State where
  outbox : OutboxInstances.State
  /-- The keys of the rows for which something was sent, and the ids that it had. -/
  sent : List (ℕ × Guid)

def start : State := ⟨OutboxInstances.start, []⟩

inductive Label where
  /-- Anything else: rows are added, a pass begins, an attempt fails before it publishes,
  a pass is saved or stopped. -/
  | quiet : OutboxInstances.Label → Label
  /-- A pass publishes its next row. A failure may come after the message was sent. -/
  | publish (i : ℕ) (generated : Guid) (failure : Option String) (markedAt : DateTime) : Label

def outcome : Option String → Attempt
  | none => .published
  | some error => .threw error

def nextRow (s : OutboxInstances.State) (i : ℕ) : Option OutboxMessage :=
  (s.passes i).bind fun pass => pass.remaining.head?

/-- The label of the outbox has the bus do nothing, and finds a key for a new row. -/
def isQuiet (s : OutboxInstances.State) : OutboxInstances.Label → Bool
  | .attempt i attempt _ =>
    decide (attempt ≠ .published) && (nextRow s i).all fun m => fits types m attempt
  | .add _ _ | .insert _ _ _ _ => s.table.next < 2 ^ 31
  | _ => true

def step (s : State) : Label → Option State
  | .quiet l =>
    if isQuiet types s.outbox l then
      (OutboxInstances.step s.outbox l).map fun outbox => { s with outbox }
    else none
  | .publish i generated failure markedAt => match nextRow s.outbox i with
    | none => none
    | some m =>
      if (getType types m.type).isSome ∧ generated ∉ s.sent.map Prod.snd then
        (OutboxInstances.step s.outbox (.attempt i (outcome failure) markedAt)).map fun outbox =>
          ⟨outbox, (m.id, rowMessageId m generated) :: s.sent⟩
      else none

/-- What was sent for one row has one id, and what was sent for two rows has two. -/
structure Identified (sent : List (ℕ × Guid)) : Prop where
  derived : ∃ idOf : ℕ → Guid, ∀ p ∈ sent, p.2 = idOf p.1
  distinct : ∀ p ∈ sent, ∀ q ∈ sent, p.1 ≠ q.1 → p.2 ≠ q.2

/-- The condition on a step: nothing has been sent for the row before. -/
def FirstSent (s : State) : Label → Prop
  | .quiet _ => True
  | .publish i _ _ _ => ∀ m, nextRow s.outbox i = some m → m.id ∉ s.sent.map Prod.fst

/-- The decimal key of a row is never taken for a GUID. -/
theorem rowMessageId_eq {m : OutboxMessage} (h : m.id < 2 ^ 31) (generated : Guid) :
    rowMessageId m generated = generated := by
  have hdecimal : Guids.tryParse Validation.isWhiteSpace (toString m.id) = none :=
    Guids.tryParse_decimal _ (h.trans (by decide))
  simp only [rowMessageId, messageIdOf, hdecimal]
  split <;> rfl

/-- Keys are given to new rows only. -/
theorem step_next {s t : OutboxInstances.State} {l : OutboxInstances.Label}
    (hadd : ∀ correlationId e, l = .add correlationId e → s.table.next < 2 ^ 31)
    (hinsert : ∀ type content correlationId occurredOnUtc,
      l = .insert type content correlationId occurredOnUtc → s.table.next < 2 ^ 31)
    (h : s.table.next ≤ 2 ^ 31) (hstep : OutboxInstances.step s l = some t) :
    t.table.next ≤ 2 ^ 31 := by
  cases l with
  | add correlationId e =>
    cases hstep
    exact hadd correlationId e rfl
  | insert type content correlationId occurredOnUtc =>
    cases hstep
    exact hinsert type content correlationId occurredOnUtc rfl
  | cleanup cutoffDate =>
    cases hstep
    exact h
  | load i order now =>
    simp only [OutboxInstances.step] at hstep
    split at hstep <;> cases hstep
    exact h
  | attempt i attempt markedAt =>
    simp only [OutboxInstances.step] at hstep
    split at hstep <;> cases hstep
    exact h
  | save i =>
    simp only [OutboxInstances.step] at hstep
    split at hstep
    · obtain ⟨-, rfl⟩ := guarded hstep
      exact h
    · cases hstep
  | stop i =>
    simp only [OutboxInstances.step] at hstep
    split at hstep <;> cases hstep
    exact h

/-- All keys are those of an `int`. -/
structure Keyed (s : State) : Prop where
  good : Good s.outbox
  next : s.outbox.table.next ≤ 2 ^ 31

theorem start_keyed : Keyed start := ⟨OutboxInstances.start_good, by decide⟩

theorem step_keyed {s t : State} {l : Label} (h : Keyed s) (hstep : step types s l = some t) :
    Keyed t := by
  cases l with
  | quiet l =>
    simp only [step] at hstep
    split at hstep
    · rename_i hquiet
      obtain ⟨outbox, houtbox, rfl⟩ := Option.map_eq_some_iff.mp hstep
      refine ⟨OutboxInstances.step_good h.good houtbox, step_next ?_ ?_ h.next houtbox⟩
      · rintro correlationId e rfl
        simpa [isQuiet] using hquiet
      · rintro type content correlationId occurredOnUtc rfl
        simpa [isQuiet] using hquiet
    · cases hstep
  | publish i generated failure markedAt =>
    simp only [step] at hstep
    split at hstep
    · cases hstep
    · split at hstep
      · obtain ⟨outbox, houtbox, rfl⟩ := Option.map_eq_some_iff.mp hstep
        exact ⟨OutboxInstances.step_good h.good houtbox,
          step_next (by simp) (by simp) h.next houtbox⟩
      · cases hstep

/-- The row that a pass tries next has a key that was given. -/
theorem nextRow_lt {s : State} (h : Keyed s) {i : ℕ} {m : OutboxMessage}
    (hm : nextRow s.outbox i = some m) : m.id < 2 ^ 31 := by
  obtain ⟨pass, hpass, hhead⟩ := Option.bind_eq_some_iff.mp hm
  have hknown := ((h.good.inFlight i pass hpass).remaining m (List.mem_of_head? hhead)).known
  have hnext := h.next
  omega

/-- What a step sends: nothing, or the next row of a pass under an id that is new. -/
theorem step_sent {s t : State} {l : Label} (h : Keyed s) (hstep : step types s l = some t) :
    (∃ l', l = .quiet l' ∧ t.sent = s.sent) ∨
      ∃ i generated failure markedAt m, l = .publish i generated failure markedAt ∧
        nextRow s.outbox i = some m ∧ generated ∉ s.sent.map Prod.snd ∧
        t.sent = (m.id, generated) :: s.sent := by
  cases l with
  | quiet l =>
    simp only [step] at hstep
    split at hstep
    · obtain ⟨outbox, -, rfl⟩ := Option.map_eq_some_iff.mp hstep
      exact .inl ⟨l, rfl, rfl⟩
    · cases hstep
  | publish i generated failure markedAt =>
    simp only [step] at hstep
    split at hstep
    · cases hstep
    · rename_i m hm
      split at hstep
      · rename_i hsends
        obtain ⟨outbox, -, rfl⟩ := Option.map_eq_some_iff.mp hstep
        refine .inr ⟨i, generated, failure, markedAt, m, rfl, hm, hsends.2, ?_⟩
        rw [rowMessageId_eq (nextRow_lt h hm)]
      · cases hstep

/-- A new id keeps the messages identified exactly if its row is new too. -/
theorem identified_cons_iff {sent : List (ℕ × Guid)} (h : Identified sent) {n : ℕ} {g : Guid}
    (hnew : g ∉ sent.map Prod.snd) : Identified ((n, g) :: sent) ↔ n ∉ sent.map Prod.fst := by
  have hother : ∀ p ∈ sent, p.2 ≠ g := by
    rintro p hp rfl
    exact hnew (List.mem_map_of_mem hp)
  constructor
  · intro hidentified hn
    obtain ⟨p, hp, rfl⟩ := List.mem_map.mp hn
    obtain ⟨idOf, hidOf⟩ := hidentified.derived
    have hold := hidOf p (List.mem_cons_of_mem _ hp)
    have hthis := hidOf (p.1, g) List.mem_cons_self
    exact hother p hp (hold.trans hthis.symm)
  · intro hn
    obtain ⟨idOf, hidOf⟩ := h.derived
    refine ⟨⟨fun k => if k = n then g else idOf k, ?_⟩, ?_⟩
    · intro p hp
      rcases List.mem_cons.mp hp with rfl | hp
      · exact (if_pos rfl).symm
      · have hne : p.1 ≠ n := fun heq => hn (heq ▸ List.mem_map_of_mem hp)
        exact (hidOf p hp).trans (if_neg hne).symm
    · intro p hp q hq hne
      rcases List.mem_cons.mp hp with rfl | hp <;> rcases List.mem_cons.mp hq with rfl | hq
      · exact absurd rfl hne
      · exact (hother q hq).symm
      · exact hother p hp
      · exact h.distinct p hp q hq hne

theorem step_identified_iff {s t : State} {l : Label} (h : Keyed s) (hsent : Identified s.sent)
    (hstep : step types s l = some t) : Identified t.sent ↔ FirstSent s l := by
  rcases step_sent types h hstep with
    ⟨l', rfl, heq⟩ | ⟨i, g, failure, markedAt, m, rfl, hm, hnew, heq⟩
  · rw [heq]
    exact iff_of_true hsent trivial
  · rw [heq, identified_cons_iff hsent hnew]
    simp [FirstSent, hm]

/-- In a run the messages are identified after every step exactly if nothing is ever
sent a second time for a row. -/
theorem identified_throughout_iff (tr : List Label) :
    (∀ v ∈ visits (step types) start tr, Identified v.2.2.sent) ↔
      ∀ v ∈ visits (step types) start tr, FirstSent v.1 v.2.1 := by
  refine visits_iff (fun s => Keyed s ∧ Identified s.sent) (fun v => Identified v.2.2.sent)
    FirstSent ?_ ?_ ⟨start_keyed, ?_⟩ tr
  · intro s l t h hstep
    exact step_identified_iff types h.1 h.2 hstep
  · intro s l t h hC hstep
    exact ⟨step_keyed types h.1 hstep, (step_identified_iff types h.1 h.2 hstep).mpr hC⟩
  · exact ⟨⟨fun _ => 0, fun p hp => by cases hp⟩, fun p hp => by cases hp⟩

/-- A stored row whose type is found is published, the pass stops before it is saved, and
another one publishes the row again. -/
def republishedTrace : List Label :=
  [.quiet (.insert OutboxEncoding.cartClearedType (.obj []) none 0),
    .quiet (.load 0 OutboxLifecycle.insertionOrder 1),
    .publish 0 1 none 2, .quiet (.stop 0), .quiet (.load 0 OutboxLifecycle.insertionOrder 11),
    .publish 0 2 none 12]

/-- The message that is sent again has another id. -/
theorem republished_differs : ¬ ∀ (types : SearchedTypes) (tr : List Label),
    ∀ v ∈ visits (step types) start tr, Identified v.2.2.sent := by
  intro hall
  have hsent : ∃ v ∈ visits (step OutboxEncoding.sampleTypes) start republishedTrace,
      v.2.2.sent = [(0, 2), (0, 1)] := by
    decide +kernel
  obtain ⟨v, hv, hsent⟩ := hsent
  obtain ⟨idOf, hidOf⟩ := (hall OutboxEncoding.sampleTypes republishedTrace v hv).derived
  rw [hsent] at hidOf
  have htwo : (2 : Guid) = idOf 0 := hidOf (0, 2) (by decide)
  have hone : (1 : Guid) = idOf 0 := hidOf (0, 1) (by decide)
  exact absurd (htwo.trans hone.symm) (by decide)

end BusIdentity
