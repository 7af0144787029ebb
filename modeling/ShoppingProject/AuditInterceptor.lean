import ShoppingProject.AuditChain
import ShoppingProject.SaveChanges

/-!
# The audit interceptor

Before a save writes anything, `AuditableEntityInterceptor` goes through the changed
carts and products, stamps each and publishes an audit event for it. It runs again in
the save that the outbox store makes for each domain event; a store with a context of
its own tracks only outbox rows, one that shares the saver's context tracks the same
entries. The text that `JsonSerializer` prints is a parameter. Forgetting the audit
events leaves a save of `SaveChanges`.
-/
namespace AuditInterceptor

open AuditChain (AuditEvent)
open DomainEvents (DateTime DomainEvent)
open Outbox (OutboxMessage)
open OutboxEncoding (outboxMessage)
open SaveChanges (Database Dispatch Entity Faults)

/-- The classes derived from `BaseAuditableEntity`. -/
inductive EntityType where
  | product | cart
  deriving DecidableEq, Repr

def EntityType.name : EntityType → String
  | .product => "Product"
  | .cart => "Cart"

inductive EntityState where
  | detached | unchanged | deleted | modified | added
  deriving DecidableEq, Repr

def EntityState.toString : EntityState → String
  | .detached => "Detached"
  | .unchanged => "Unchanged"
  | .deleted => "Deleted"
  | .modified => "Modified"
  | .added => "Added"

abbrev PropertyValues := List (String × Json)

def setProperty (name : String) (value : Json) (values : PropertyValues) : PropertyValues :=
  values.map fun p => if p.1 = name then (name, value) else p

/-- A tracked entity; an added one has a temporary key until it is saved. `ownedChanged`
is `HasChangedOwnedEntities`: a product owns its rating. -/
structure Entry where
  type : EntityType
  id : Int
  state : EntityState
  ownedChanged : Bool
  originalValues : PropertyValues
  currentValues : PropertyValues
  domainEvents : List DomainEvent
  deriving DecidableEq

inductive ChangeKind where
  | create | update | delete
  deriving DecidableEq, Repr

/-- What a write does to one row, under the key that its entity had in the tracker. -/
structure Change where
  type : EntityType
  id : Int
  kind : ChangeKind
  deriving DecidableEq, Repr

namespace Entry

/-- Asking the tracker for its entries detects the changed properties first. -/
def detectChanges (e : Entry) : Entry :=
  if e.state = .unchanged ∧ e.currentValues ≠ e.originalValues then { e with state := .modified }
  else e

/-- The condition on the entries that are audited. -/
def isAuditable (e : Entry) : Bool :=
  e.state == .added || e.state == .modified || e.state == .deleted || e.ownedChanged

def kind (e : Entry) : Option ChangeKind :=
  match e.state with
  | .added => some .create
  | .modified => some .update
  | .deleted => some .delete
  | .unchanged | .detached => if e.ownedChanged then some .update else none

/-- The change that a write makes. A rating is stored in the row of its product, so
that a new rating updates that row. -/
def change (e : Entry) : Option Change :=
  e.detectChanges.kind.map fun kind => ⟨e.type, e.id, kind⟩

/-- Only an owned entity has changed. -/
def OwnedOnly (e : Entry) : Prop :=
  e.detectChanges.state ≠ .added ∧ e.detectChanges.state ≠ .modified ∧
    e.detectChanges.state ≠ .deleted ∧ e.ownedChanged = true

instance (e : Entry) : Decidable e.OwnedOnly := inferInstanceAs (Decidable (_ ∧ _))

def toEntity (e : Entry) : Entity Change := ⟨e.change, e.domainEvents⟩

/-- The entry after its change was written. -/
def accept (generatedKey : EntityType → Int → Int) (e : Entry) : Entry :=
  let e := e.detectChanges
  match e.state with
  | .added =>
    let values := setProperty "Id" (.num (generatedKey e.type e.id)) e.currentValues
    { e with
      id := generatedKey e.type e.id
      state := .unchanged
      ownedChanged := false
      originalValues := values
      currentValues := values }
  | .deleted => { e with state := .detached, ownedChanged := false }
  | .detached => { e with ownedChanged := false }
  | .unchanged | .modified =>
    { e with state := .unchanged, ownedChanged := false, originalValues := e.currentValues }

end Entry

/-- What the interceptor reads from `IUser` and `IRequestContext`. -/
structure Request where
  userId : Option String
  userEmail : Option String
  correlationId : Option String
  remoteIp : Option String
  userAgent : Option String

def Request.user (r : Request) : String := r.userId.getD "system"

/-- The first half of the loop's body. -/
def stamp (r : Request) (utcNow : DateTime) (e : Entry) : Entry :=
  if e.state = .added then
    { e with
      currentValues := setProperty "Created" (.num utcNow)
        (setProperty "CreatedBy" (.str r.user) e.currentValues) }
  else if e.state = .modified ∨ e.ownedChanged then
    { e with
      currentValues := setProperty "LastModified" (.num utcNow)
        (setProperty "LastModifiedBy" (.str r.user) e.currentValues) }
  else e

/-- The properties marked with `[AuditIgnore]`: there are none. -/
def auditIgnored : EntityType → List String
  | .product => []
  | .cart => []

section Interceptor

variable (serialize : Json → String) (r : Request) (utcNow : DateTime)

def serializeValues (type : EntityType) (values : PropertyValues) : String :=
  serialize <| .obj <| values.map fun p =>
    if p.1 ∈ auditIgnored type then (p.1, .str "[MASKED]") else p

/-- The event for an entry that has been stamped. -/
def auditEvent (e : Entry) : AuditEvent where
  userId := some r.user
  userEmail := some (r.userEmail.getD "system@local")
  action := e.state.toString
  entityName := e.type.name
  entityId := toString e.id
  oldValues :=
    match e.state with
    | .modified | .deleted => some (serializeValues serialize e.type e.originalValues)
    | _ => none
  newValues :=
    match e.state with
    | .added | .modified => some (serializeValues serialize e.type e.currentValues)
    | _ => none
  timestamp := utcNow
  correlationId := r.correlationId
  remoteIp := r.remoteIp
  userAgent := r.userAgent

/-- The loop over the entries, of which `upTo` are published before one throws. -/
def auditEntries : Nat → List Entry → List Entry × List AuditEvent
  | _, [] => ([], [])
  | upTo, e :: es =>
    if e.isAuditable then
      match upTo with
      | 0 => (stamp r utcNow e :: es, [])
      | n + 1 =>
        let rest := auditEntries n es
        (stamp r utcNow e :: rest.1, auditEvent serialize r utcNow (stamp r utcNow e) :: rest.2)
    else
      let rest := auditEntries upTo es
      (e :: rest.1, rest.2)

def updateEntitiesAsync (upTo : Nat) (tracked : List Entry) : List Entry × List AuditEvent :=
  auditEntries serialize r utcNow upTo (tracked.map Entry.detectChanges)

end Interceptor

/-- A save together with the audit events published so far. -/
structure Session where
  database : Database Change
  tracked : List Entry
  outboxRows : List OutboxMessage
  published : List AuditEvent

structure Outcome where
  session : Session
  returned : Bool

/-- How a save goes: `utcNow` and `published` belong to the save itself at 0 and to the
nested save for event `i` at `i + 1`; `published` is how many audit events that save
publishes if it fails, at most. -/
structure Circumstances where
  faults : Faults
  request : Request
  serialize : Json → String
  utcNow : Nat → DateTime
  published : Nat → Nat
  generatedKey : EntityType → Int → Int

def pendingChanges (tracked : List Entry) : List Change := tracked.filterMap Entry.change

def withEvents (tracked : List Entry) : List Entry :=
  tracked.filter fun e => !e.domainEvents.isEmpty

def pendingEvents (tracked : List Entry) : List DomainEvent :=
  (withEvents tracked).flatMap Entry.domainEvents

def clearDomainEvents (tracked : List Entry) : List Entry :=
  tracked.map fun e => { e with domainEvents := [] }

def acceptAllChanges (generatedKey : EntityType → Int → Int) (tracked : List Entry) : List Entry :=
  tracked.map (Entry.accept generatedKey)

/-- The interceptor's part of save `i`, when `upTo` of its entries are published. -/
def intercept (c : Circumstances) (i upTo : Nat) (s : Session) : Session :=
  let updated := updateEntitiesAsync c.serialize c.request (c.utcNow i) upTo s.tracked
  { s with tracked := updated.1, published := s.published ++ updated.2 }

/-- Nothing throws in the interceptor. -/
def interceptAll (c : Circumstances) (i : Nat) (s : Session) : Session :=
  intercept c i s.tracked.length s

/-- One transaction over everything that the saver's context tracks. -/
def write (c : Circumstances) (s : Session) : Session :=
  { s with
    database := ⟨s.database.entities ++ pendingChanges s.tracked, s.database.outbox ++ s.outboxRows⟩
    tracked := acceptAllChanges c.generatedKey s.tracked
    outboxRows := [] }

/-- The save that the outbox store makes after adding the row of event `i`. -/
def storeSave (c : Circumstances) (i : Nat) (s : Session) : Session :=
  if c.faults.sharedContext then write c (interceptAll c (i + 1) s)
  else
    { s with
      database := ⟨s.database.entities, s.database.outbox ++ s.outboxRows⟩
      outboxRows := [] }

/-- That save when it fails. -/
def storeSaveFails (c : Circumstances) (i : Nat) (s : Session) : Session :=
  if c.faults.sharedContext then intercept c (i + 1) (c.published (i + 1)) s else s

def trackRow (e : DomainEvent) (s : Session) : Session :=
  { s with outboxRows := s.outboxRows ++ [outboxMessage none e] }

def dispatchEvents (c : Circumstances) : Nat → List DomainEvent → Session → Outcome
  | _, [], s => ⟨s, true⟩
  | i, e :: es, s => match c.faults.dispatch i with
    | .encodeFails => ⟨s, false⟩
    | .writeFails => ⟨storeSaveFails c i (trackRow e s), false⟩
    | .handlerFails => ⟨storeSave c i (trackRow e s), false⟩
    | .succeeds => dispatchEvents c (i + 1) es (storeSave c i (trackRow e s))

def dispatchDomainEvents (c : Circumstances) (s : Session) : Outcome :=
  if (withEvents s.tracked).isEmpty then ⟨s, true⟩
  else
    let domainEvents := pendingEvents s.tracked
    dispatchEvents c 0 domainEvents { s with tracked := clearDomainEvents s.tracked }

def ownRows (c : Circumstances) (s : Session) : List OutboxMessage :=
  if c.faults.sharedContext then s.outboxRows else []

def finalWrite (c : Circumstances) (s : Session) : Outcome :=
  if (pendingChanges s.tracked).isEmpty && (ownRows c s).isEmpty then ⟨s, true⟩
  else if c.faults.finalWriteFails then ⟨s, false⟩
  else
    ⟨{ s with
      database :=
        ⟨s.database.entities ++ pendingChanges s.tracked, s.database.outbox ++ ownRows c s⟩
      tracked := acceptAllChanges c.generatedKey s.tracked
      outboxRows := if c.faults.sharedContext then [] else s.outboxRows }, true⟩

def saveChangesAsync (c : Circumstances) (db : Database Change) (tracked : List Entry) : Outcome :=
  let s : Session := ⟨db, tracked, [], []⟩
  if c.faults.auditFails then ⟨intercept c 0 (c.published 0) s, false⟩
  else
    let dispatched := dispatchDomainEvents c (interceptAll c 0 s)
    if dispatched.returned then finalWrite c dispatched.session else dispatched

namespace Entry

@[simp] theorem detectChanges_twice (e : Entry) :
    e.detectChanges.detectChanges = e.detectChanges := by
  by_cases h : e.state = .unchanged ∧ e.currentValues ≠ e.originalValues
  · simp [detectChanges, h]
  · simp [detectChanges, h]

@[simp] theorem detectChanges_type (e : Entry) : e.detectChanges.type = e.type := by
  unfold detectChanges
  split <;> rfl

@[simp] theorem detectChanges_id (e : Entry) : e.detectChanges.id = e.id := by
  unfold detectChanges
  split <;> rfl

@[simp] theorem detectChanges_owned (e : Entry) :
    e.detectChanges.ownedChanged = e.ownedChanged := by
  unfold detectChanges
  split <;> rfl

@[simp] theorem detectChanges_events (e : Entry) :
    e.detectChanges.domainEvents = e.domainEvents := by
  unfold detectChanges
  split <;> rfl

@[simp] theorem change_detectChanges (e : Entry) : e.detectChanges.change = e.change := by
  simp [change]

@[simp] theorem toEntity_detectChanges (e : Entry) : e.detectChanges.toEntity = e.toEntity := by
  simp [toEntity]

/-- The audited entries are those with a change to write. -/
theorem isAuditable_eq (e : Entry) : e.isAuditable = e.kind.isSome := by
  cases hs : e.state <;> cases ho : e.ownedChanged <;> simp [isAuditable, kind, hs, ho]

/-- Nothing is written for an entry whose values are those of its row. -/
theorem change_eq_none {e : Entry} (howned : e.ownedChanged = false)
    (hstate : e.state = .detached ∨ e.state = .unchanged ∧ e.currentValues = e.originalValues) :
    e.change = none := by
  rcases hstate with hs | ⟨hs, hvalues⟩
  · simp [change, detectChanges, kind, hs, howned]
  · simp [change, detectChanges, kind, hs, hvalues, howned]

/-- An audited entry is written as its state says, whatever its values are. -/
theorem change_of_isAuditable {e : Entry} (h : e.isAuditable = true) :
    e.change = e.kind.map fun kind => ⟨e.type, e.id, kind⟩ := by
  by_cases hd : e.state = .unchanged ∧ e.currentValues ≠ e.originalValues
  · have ho : e.ownedChanged = true := by simpa [isAuditable, hd.1] using h
    simp [change, detectChanges, kind, hd, ho]
  · simp [change, detectChanges, hd]

theorem accept_change (generatedKey : EntityType → Int → Int) (e : Entry) :
    (e.accept generatedKey).change = none := by
  cases hs : e.detectChanges.state with
  | detached =>
    simp only [accept, hs]
    exact change_eq_none rfl (.inl rfl)
  | deleted =>
    simp only [accept, hs]
    exact change_eq_none rfl (.inl rfl)
  | added | unchanged | modified =>
    simp only [accept, hs]
    exact change_eq_none rfl (.inr ⟨rfl, rfl⟩)

theorem toEntity_accept (generatedKey : EntityType → Int → Int) (e : Entry) :
    (e.accept generatedKey).toEntity = { e.toEntity with change := none } := by
  have hevents : (e.accept generatedKey).domainEvents = e.domainEvents := by
    cases hs : e.detectChanges.state <;> simp [accept, hs]
  simp [toEntity, accept_change, hevents]

end Entry

/-- A stamp alters the current values of an entry and nothing else. -/
theorem exists_stamp (r : Request) (utcNow : DateTime) (e : Entry) :
    ∃ values, stamp r utcNow e = { e with currentValues := values } := by
  unfold stamp
  split
  · exact ⟨_, rfl⟩
  · split
    · exact ⟨_, rfl⟩
    · exact ⟨e.currentValues, rfl⟩

/-- Only entries with a change to write are stamped, so that no stamp adds a change. -/
theorem stamp_toEntity (r : Request) (utcNow : DateTime) (e : Entry) :
    (stamp r utcNow e).toEntity = e.toEntity := by
  cases ha : e.isAuditable with
  | false =>
    have hsame : stamp r utcNow e = e := by
      simp only [Entry.isAuditable, Bool.or_eq_false_iff, beq_eq_false_iff_ne] at ha
      simp [stamp, ha]
    rw [hsame]
  | true =>
    obtain ⟨values, hvalues⟩ := exists_stamp r utcNow e
    have hstamped : (stamp r utcNow e).isAuditable = true := by rw [hvalues]; exact ha
    have hchange : (stamp r utcNow e).change = e.change := by
      rw [Entry.change_of_isAuditable ha, Entry.change_of_isAuditable hstamped, hvalues]
      rfl
    rw [Entry.toEntity, hchange, hvalues]
    rfl

section Erasure

variable (serialize : Json → String) (r : Request) (utcNow : DateTime)

theorem auditEntries_toEntity (upTo : Nat) (es : List Entry) :
    (auditEntries serialize r utcNow upTo es).1.map Entry.toEntity = es.map Entry.toEntity := by
  induction es generalizing upTo with
  | nil => simp [auditEntries]
  | cons e es ih =>
    simp only [auditEntries]
    split
    · cases upTo with
      | zero => simp [stamp_toEntity]
      | succ n => simp [stamp_toEntity, ih]
    · simp [ih]

@[simp] theorem updateEntitiesAsync_toEntity (upTo : Nat) (tracked : List Entry) :
    (updateEntitiesAsync serialize r utcNow upTo tracked).1.map Entry.toEntity =
      tracked.map Entry.toEntity := by
  rw [updateEntitiesAsync, auditEntries_toEntity, List.map_map]
  congr 1
  funext e
  exact Entry.toEntity_detectChanges e

end Erasure

def Session.erase (s : Session) : SaveChanges.Session Change :=
  ⟨s.database, s.tracked.map Entry.toEntity, s.outboxRows⟩

def Outcome.erase (o : Outcome) : SaveChanges.Outcome Change := ⟨o.session.erase, o.returned⟩

theorem pendingChanges_erase (tracked : List Entry) :
    SaveChanges.pendingChanges (tracked.map Entry.toEntity) = pendingChanges tracked := by
  rw [SaveChanges.pendingChanges, List.filterMap_map]
  rfl

theorem withEvents_erase (tracked : List Entry) :
    SaveChanges.withEvents (tracked.map Entry.toEntity) =
      (withEvents tracked).map Entry.toEntity := by
  rw [SaveChanges.withEvents, List.filter_map]
  rfl

theorem pendingEvents_erase (tracked : List Entry) :
    SaveChanges.pendingEvents (tracked.map Entry.toEntity) = pendingEvents tracked := by
  rw [SaveChanges.pendingEvents, withEvents_erase, List.flatMap_map]
  rfl

theorem clearDomainEvents_erase (tracked : List Entry) :
    SaveChanges.clearDomainEvents (tracked.map Entry.toEntity) =
      (clearDomainEvents tracked).map Entry.toEntity := by
  simp only [SaveChanges.clearDomainEvents, clearDomainEvents, List.map_map]
  congr 1
  funext e
  have hchange : Entry.change { e with domainEvents := [] } = e.change := by
    unfold Entry.change Entry.detectChanges
    split <;> rfl
  simp [Entry.toEntity, hchange]

theorem acceptAllChanges_erase (generatedKey : EntityType → Int → Int) (tracked : List Entry) :
    (acceptAllChanges generatedKey tracked).map Entry.toEntity =
      SaveChanges.acceptAllChanges (tracked.map Entry.toEntity) := by
  rw [SaveChanges.acceptAllChanges, acceptAllChanges, List.map_map, List.map_map]
  congr 1
  funext e
  exact Entry.toEntity_accept generatedKey e

/-- The interceptor by itself writes nothing. -/
@[simp] theorem intercept_erase (c : Circumstances) (i upTo : Nat) (s : Session) :
    (intercept c i upTo s).erase = s.erase := by
  simp [intercept, Session.erase]

theorem pendingChanges_intercept (c : Circumstances) (i upTo : Nat) (s : Session) :
    pendingChanges (intercept c i upTo s).tracked = pendingChanges s.tracked := by
  rw [← pendingChanges_erase, ← pendingChanges_erase]
  exact congrArg (fun t => SaveChanges.pendingChanges t.tracked) (intercept_erase c i upTo s)

theorem write_erase (c : Circumstances) (s : Session) :
    (write c s).erase = SaveChanges.storeSave true s.erase := by
  simp [write, Session.erase, SaveChanges.storeSave, pendingChanges_erase, acceptAllChanges_erase]

theorem storeSave_erase (c : Circumstances) (i : Nat) (s : Session) :
    (storeSave c i s).erase = SaveChanges.storeSave c.faults.sharedContext s.erase := by
  cases hs : c.faults.sharedContext with
  | true => simp [storeSave, hs, interceptAll, write_erase]
  | false => simp [storeSave, hs, SaveChanges.storeSave, Session.erase]

theorem storeSaveFails_erase (c : Circumstances) (i : Nat) (s : Session) :
    (storeSaveFails c i s).erase = s.erase := by
  unfold storeSaveFails
  split
  · exact intercept_erase c _ _ s
  · rfl

theorem dispatchEvents_erase (c : Circumstances) (i : Nat) (es : List DomainEvent) (s : Session) :
    (dispatchEvents c i es s).erase = SaveChanges.dispatchEvents c.faults i es s.erase := by
  induction es generalizing i s with
  | nil => rfl
  | cons e es ih =>
    have hrow : (trackRow e s).erase = SaveChanges.trackRow e s.erase := rfl
    simp only [dispatchEvents, SaveChanges.dispatchEvents]
    cases c.faults.dispatch i with
    | encodeFails => rfl
    | writeFails => simp only [Outcome.erase, storeSaveFails_erase, hrow]
    | handlerFails => simp only [Outcome.erase, storeSave_erase, hrow]
    | succeeds => simp only [ih, storeSave_erase, hrow]

theorem dispatchDomainEvents_erase (c : Circumstances) (s : Session) :
    (dispatchDomainEvents c s).erase = SaveChanges.dispatchDomainEvents c.faults s.erase := by
  have hnone : (SaveChanges.withEvents s.erase.tracked).isEmpty =
      (withEvents s.tracked).isEmpty := by
    simp [Session.erase, withEvents_erase]
  have hevents : SaveChanges.pendingEvents s.erase.tracked = pendingEvents s.tracked :=
    pendingEvents_erase s.tracked
  simp only [dispatchDomainEvents, SaveChanges.dispatchDomainEvents, hnone, hevents]
  split
  · rfl
  · rw [dispatchEvents_erase]
    simp [Session.erase, clearDomainEvents_erase]

theorem finalWrite_erase (c : Circumstances) (s : Session) :
    (finalWrite c s).erase = SaveChanges.finalWrite c.faults s.erase := by
  have hchanges : SaveChanges.pendingChanges s.erase.tracked = pendingChanges s.tracked :=
    pendingChanges_erase s.tracked
  have hrows : SaveChanges.ownRows c.faults s.erase = ownRows c s := rfl
  simp only [finalWrite, SaveChanges.finalWrite, hchanges, hrows]
  split
  · rfl
  · split
    · rfl
    · simp [Outcome.erase, Session.erase, acceptAllChanges_erase]

/-- Forgetting the audit events leaves the save as it was modelled without them. -/
theorem saveChangesAsync_erase (c : Circumstances) (db : Database Change) (tracked : List Entry) :
    (saveChangesAsync c db tracked).erase =
      SaveChanges.saveChangesAsync c.faults db (tracked.map Entry.toEntity) := by
  cases haudit : c.faults.auditFails with
  | true =>
    simp [saveChangesAsync, SaveChanges.saveChangesAsync, haudit, Outcome.erase, Session.erase,
      intercept]
  | false =>
    simp only [saveChangesAsync, SaveChanges.saveChangesAsync, haudit, Bool.false_eq_true, if_false]
    set d := dispatchDomainEvents c (interceptAll c 0 ⟨db, tracked, [], []⟩) with hd
    have hdispatch : d.erase =
        SaveChanges.dispatchDomainEvents c.faults ⟨db, tracked.map Entry.toEntity, []⟩ := by
      rw [hd, dispatchDomainEvents_erase, interceptAll, intercept_erase]
      rfl
    rw [← hdispatch]
    cases hr : d.returned with
    | true => simp only [Outcome.erase, hr, if_true, ← finalWrite_erase]
    | false => simp only [Outcome.erase, hr, Bool.false_eq_true, if_false]

end AuditInterceptor
