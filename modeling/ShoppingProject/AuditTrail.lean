import ShoppingProject.AuditInterceptor
import ShoppingProject.Runs
import ShoppingProject.Slots

/-!
# Published audit events and committed changes

Requests work in scopes of their own: they track carts and products, change them and
save, in any order and as often as they like. Bulk deletions go to the database past
every tracker. All audit events ever published and all changes ever committed are kept
in the order in which they happened, and should be the same up to that order.
-/
namespace AuditTrail

open AuditChain (AuditEvent)
open AuditInterceptor
open DomainEvents (DateTime DomainEvent)
open Runs

structure Row where
  type : EntityType
  id : Int
  deriving DecidableEq, Repr

/-- The tracker of the context that a request saves through. -/
structure Scope where
  sharedContext : Bool
  tracked : List Entry

structure State where
  rows : List Row
  scopes : Slots Scope
  published : List AuditEvent
  committed : List Change

def start (rows : List Row) : State := ⟨rows, Slots.idle, [], []⟩

/-- What the code between two saves does to the tracker; entries are numbered in the
order in which they were tracked. -/
inductive Tracking where
  | attach (type : EntityType) (id : Int) (values : PropertyValues) : Tracking
  | add (type : EntityType) (temporaryId : Int) (values : PropertyValues) : Tracking
  | setProperty (n : Nat) (name : String) (value : Json) : Tracking
  | setRating (n : Nat) : Tracking
  | setModified (n : Nat) : Tracking
  | remove (n : Nat) : Tracking
  | addDomainEvent (n : Nat) (domainEvent : DomainEvent) : Tracking

def isTracked (type : EntityType) (id : Int) (tracked : List Entry) : Bool :=
  tracked.any fun e => e.type == type && e.id == id

/-- `Remove`: an entity that was never saved is forgotten. -/
def remove (n : Nat) (tracked : List Entry) : List Entry :=
  match tracked[n]? with
  | none => tracked
  | some e =>
    if e.state = .added then tracked.eraseIdx n
    else
      tracked.set n
        { e with state := .deleted, ownedChanged := e.ownedChanged || e.type == .product }

def track : Tracking → List Entry → List Entry
  | .attach type id values, tracked =>
    if isTracked type id tracked then tracked
    else tracked ++ [⟨type, id, .unchanged, false, values, values, []⟩]
  | .add type temporaryId values, tracked =>
    tracked ++ [⟨type, temporaryId, .added, type == .product, values, values, []⟩]
  | .setProperty n name value, tracked =>
    tracked.modify n fun e =>
      { e with currentValues := AuditInterceptor.setProperty name value e.currentValues }
  | .setRating n, tracked =>
    tracked.modify n fun e => { e with ownedChanged := e.ownedChanged || e.type == .product }
  | .setModified n, tracked =>
    tracked.modify n fun e => if e.state = .added then e else { e with state := .modified }
  | .remove n, tracked => remove n tracked
  | .addDomainEvent n domainEvent, tracked =>
    tracked.modify n fun e => { e with domainEvents := e.domainEvents ++ [domainEvent] }

/-- The rows after a change was committed; the database chooses the key of a new row. -/
def applyChange (generatedKey : EntityType → Int → Int) (rows : List Row) (c : Change) : List Row :=
  match c.kind with
  | .create => rows ++ [⟨c.type, generatedKey c.type c.id⟩]
  | .update => rows
  | .delete => rows.filter fun row => row ≠ ⟨c.type, c.id⟩

def selected (type : EntityType) (criteria : Int → Bool) (rows : List Row) : List Row :=
  rows.filter fun row => row.type == type && criteria row.id

/-- One `DELETE` statement. -/
def executeDeleteAsync (type : EntityType) (criteria : Int → Bool) (fails : Bool) (s : State) :
    State :=
  if fails then s
  else
    { s with
      rows := s.rows.filter fun row => !(row.type == type && criteria row.id)
      committed := s.committed ++ (selected type criteria s.rows).map fun row =>
        ⟨row.type, row.id, .delete⟩ }

/-- `Repository<T>.DeleteRangeAsync`, for the rows that meet a specification. -/
def deleteRangeAsync (type : EntityType) (specification : Int → Bool) (fails : Bool) :
    State → State :=
  executeDeleteAsync type specification fails

/-- `CartRepository.DeleteAllAsync`. -/
def deleteAllAsync (fails : Bool) : State → State :=
  executeDeleteAsync .cart (fun _ => true) fails

/-- Whether the outbox store shares the saver's context is settled by the scope. -/
def within (scope : Scope) (c : Circumstances) : Circumstances :=
  { c with faults := { c.faults with sharedContext := scope.sharedContext } }

inductive Label where
  | beginScope (i : Nat) (sharedContext : Bool) : Label
  | track (i : Nat) (tracking : Tracking) : Label
  | saveChangesAsync (i : Nat) (circumstances : Circumstances) : Label
  | endScope (i : Nat) : Label
  | deleteRangeAsync (type : EntityType) (specification : Int → Bool) (fails : Bool) : Label
  | deleteAllAsync (fails : Bool) : Label

def saveStep (i : Nat) (scope : Scope) (c : Circumstances) (s : State) : State :=
  let saved := (saveChangesAsync (within scope c) ⟨[], []⟩ scope.tracked).session
  { rows := saved.database.entities.foldl (applyChange c.generatedKey) s.rows
    scopes := s.scopes.put i
      (some { scope with tracked := saved.tracked.filter fun e => e.state ≠ .detached })
    published := s.published ++ saved.published
    committed := s.committed ++ saved.database.entities }

def step (s : State) : Label → Option State
  | .beginScope i sharedContext => match s.scopes i with
    | none => some { s with scopes := s.scopes.put i (some ⟨sharedContext, []⟩) }
    | some _ => none
  | .track i tracking => match s.scopes i with
    | none => none
    | some scope => some
      { s with
        scopes := s.scopes.put i (some { scope with tracked := track tracking scope.tracked }) }
  | .saveChangesAsync i c => match s.scopes i with
    | none => none
    | some scope => some (saveStep i scope c s)
  | .endScope i => some { s with scopes := s.scopes.put i none }
  | .deleteRangeAsync type specification fails => some (deleteRangeAsync type specification fails s)
  | .deleteAllAsync fails => some (deleteAllAsync fails s)

def ChangeKind.action : ChangeKind → String
  | .create => "Added"
  | .update => "Modified"
  | .delete => "Deleted"

/-- The row and the action that an audit event names. -/
def eventSubject (e : AuditEvent) : String × String × String :=
  (e.entityName, e.entityId, e.action)

/-- The row of a change, and the action that its audit event should name. -/
def changeSubject (c : Change) : String × String × String :=
  (c.type.name, toString c.id, ChangeKind.action c.kind)

/-- One event for each change, and none besides. -/
def Matches (published : List AuditEvent) (committed : List Change) : Prop :=
  (published.map eventSubject).Perm (committed.map changeSubject)

def Exact (s : State) : Prop := Matches s.published s.committed

/-- A save has nothing to write, or throws before it publishes anything; or no entry
has only a new rating, every event succeeds and none is saved by the saver's own
context, and the last write succeeds. -/
def Reconciled (c : Circumstances) (tracked : List Entry) : Prop :=
  pendingChanges tracked = [] ∨
  (c.faults.auditFails = true ∧ c.published 0 = 0) ∨
  (c.faults.auditFails = false ∧ c.faults.finalWriteFails = false ∧
    (∀ e ∈ tracked, ¬ e.OwnedOnly) ∧
    (pendingEvents tracked = [] ∨ c.faults.sharedContext = false ∧
      ∀ i < (pendingEvents tracked).length, c.faults.dispatch i = .succeeds))

/-- The condition on a step: saves are reconciled, and bulk deletions delete nothing. -/
def InStep (s : State) : Label → Prop
  | .saveChangesAsync i c =>
    ∀ scope, s.scopes i = some scope → Reconciled (within scope c) scope.tracked
  | .deleteRangeAsync type specification fails =>
    fails = true ∨ selected type specification s.rows = []
  | .deleteAllAsync fails => fails = true ∨ selected .cart (fun _ => true) s.rows = []
  | _ => True

section Events

variable (serialize : Json → String) (r : Request) (utcNow : DateTime)

/-- The interceptor publishes one event for each audited entry, as far as it gets. -/
theorem auditEntries_length (upTo : Nat) (es : List Entry) :
    (auditEntries serialize r utcNow upTo es).2.length =
      min upTo (es.countP Entry.isAuditable) := by
  induction es generalizing upTo with
  | nil => simp [auditEntries]
  | cons e es ih =>
    simp only [auditEntries, List.countP_cons]
    cases ha : e.isAuditable with
    | false => simp [ih]
    | true =>
      cases upTo with
      | zero => simp
      | succ n => simp [ih]

theorem pendingChanges_cons (e : Entry) (es : List Entry) :
    pendingChanges (e :: es) = e.change.toList ++ pendingChanges es := by
  cases hc : e.change <;> simp [pendingChanges, hc]

theorem countP_detectChanges (tracked : List Entry) :
    (tracked.map Entry.detectChanges).countP Entry.isAuditable =
      (pendingChanges tracked).length := by
  induction tracked with
  | nil => rfl
  | cons e es ih =>
    rw [List.map_cons, List.countP_cons, ih, pendingChanges_cons, Entry.isAuditable_eq]
    cases hk : e.detectChanges.kind <;> simp [Entry.change, hk]

theorem updateEntitiesAsync_length (upTo : Nat) (tracked : List Entry) :
    (updateEntitiesAsync serialize r utcNow upTo tracked).2.length =
      min upTo (pendingChanges tracked).length := by
  rw [updateEntitiesAsync, auditEntries_length, countP_detectChanges]

/-- A pass in which nothing throws publishes an event for every audited entry. -/
theorem auditEntries_complete (upTo : Nat) (es : List Entry) (hupTo : es.length ≤ upTo) :
    (auditEntries serialize r utcNow upTo es).2 =
      (es.filter Entry.isAuditable).map fun e =>
        auditEvent serialize r utcNow (stamp r utcNow e) := by
  induction es generalizing upTo with
  | nil => simp [auditEntries]
  | cons e es ih =>
    rw [List.length_cons] at hupTo
    simp only [auditEntries]
    cases ha : e.isAuditable with
    | false => simp [ha, ih upTo (by omega)]
    | true =>
      cases upTo with
      | zero => omega
      | succ n => simp [ha, ih n (by omega)]

theorem updateEntitiesAsync_complete (tracked : List Entry) :
    (updateEntitiesAsync serialize r utcNow tracked.length tracked).2 =
      ((tracked.map Entry.detectChanges).filter Entry.isAuditable).map fun e =>
        auditEvent serialize r utcNow (stamp r utcNow e) :=
  auditEntries_complete serialize r utcNow _ _ (by simp)

/-- An event names its entry and the state of it. -/
theorem auditEvent_subject (e : Entry) :
    eventSubject (auditEvent serialize r utcNow (stamp r utcNow e)) =
      (e.type.name, toString e.id, e.state.toString) := by
  obtain ⟨values, hvalues⟩ := exists_stamp r utcNow e
  rw [hvalues]
  rfl

/-- The state of an entry is the action on its row, unless only its rating is new. -/
theorem action_of_plain {e : Entry} (hplain : ¬ e.OwnedOnly) {kind : ChangeKind}
    (hkind : e.detectChanges.kind = some kind) :
    e.detectChanges.state.toString = ChangeKind.action kind := by
  cases hs : e.detectChanges.state with
  | added | modified | deleted =>
    simp only [Entry.kind, hs, Option.some.injEq] at hkind
    subst hkind
    rfl
  | unchanged | detached =>
    have howned : e.ownedChanged = false := by simpa [Entry.OwnedOnly, hs] using hplain
    simp [Entry.kind, hs, howned] at hkind

/-- If no entry has only a new rating, the events are those of the changes. -/
theorem subjects_eq (tracked : List Entry) (hplain : ∀ e ∈ tracked, ¬ e.OwnedOnly) :
    (updateEntitiesAsync serialize r utcNow tracked.length tracked).2.map eventSubject =
      (pendingChanges tracked).map changeSubject := by
  rw [updateEntitiesAsync_complete, List.map_map]
  induction tracked with
  | nil => rfl
  | cons e es ih =>
    simp only [List.mem_cons, forall_eq_or_imp] at hplain
    rw [List.map_cons, List.filter_cons, pendingChanges_cons, Entry.isAuditable_eq,
      List.map_append, ← ih hplain.2]
    cases hk : e.detectChanges.kind with
    | none => simp [Entry.change, hk]
    | some kind =>
      have haction := action_of_plain hplain.1 hk
      simp [Entry.change, hk, auditEvent_subject, changeSubject, haction]

/-- An entry of which only the rating is new gets an event that names no action. -/
theorem subject_of_ownedOnly {e : Entry} {tracked : List Entry} (he : e ∈ tracked)
    (howned : e.OwnedOnly) :
    ∃ a ∈ (updateEntitiesAsync serialize r utcNow tracked.length tracked).2,
      ∀ c, eventSubject a ≠ changeSubject c := by
  refine ⟨auditEvent serialize r utcNow (stamp r utcNow e.detectChanges), ?_, ?_⟩
  · rw [updateEntitiesAsync_complete]
    refine List.mem_map_of_mem (List.mem_filter.mpr ⟨List.mem_map_of_mem he, ?_⟩)
    simp [Entry.isAuditable, howned.2.2.2]
  · intro c heq
    rw [auditEvent_subject] at heq
    have haction : e.detectChanges.state.toString = ChangeKind.action c.kind :=
      congrArg (fun t => t.2.2) heq
    obtain ⟨hadded, hmodified, hdeleted, -⟩ := howned
    cases hs : e.detectChanges.state with
    | added => exact hadded hs
    | modified => exact hmodified hs
    | deleted => exact hdeleted hs
    | unchanged | detached =>
      rw [hs] at haction
      cases hk : c.kind <;> simp [EntityState.toString, ChangeKind.action, hk] at haction

end Events

/-- Neither an event nor a change was added, and the same is left to write. -/
structure Silent (s t : Session) : Prop where
  published : t.published = s.published
  entities : t.database.entities = s.database.entities
  pending : pendingChanges t.tracked = pendingChanges s.tracked

theorem Silent.refl (s : Session) : Silent s s := ⟨rfl, rfl, rfl⟩

theorem Silent.trans {s t u : Session} (h : Silent s t) (h' : Silent t u) : Silent s u :=
  ⟨h'.published.trans h.published, h'.entities.trans h.entities, h'.pending.trans h.pending⟩

theorem intercept_length (c : Circumstances) (i upTo : Nat) (s : Session) :
    (intercept c i upTo s).published.length =
      s.published.length + min upTo (pendingChanges s.tracked).length := by
  simp [intercept, updateEntitiesAsync_length]

theorem interceptAll_length (c : Circumstances) (i : Nat) (s : Session) :
    (interceptAll c i s).published.length =
      s.published.length + (pendingChanges s.tracked).length := by
  have hle : (pendingChanges s.tracked).length ≤ s.tracked.length := List.length_filterMap_le _ _
  rw [interceptAll, intercept_length, Nat.min_eq_right hle]

/-- Where nothing waits to be written the interceptor has nothing to publish. -/
theorem intercept_silent (c : Circumstances) (i upTo : Nat) {s : Session}
    (h : pendingChanges s.tracked = []) : Silent s (intercept c i upTo s) where
  published := by
    have hnone :
        (updateEntitiesAsync c.serialize c.request (c.utcNow i) upTo s.tracked).2 = [] := by
      rw [← List.length_eq_zero_iff, updateEntitiesAsync_length, h]
      simp
    simp [intercept, hnone]
  entities := rfl
  pending := pendingChanges_intercept c i upTo s

theorem pendingChanges_accept (generatedKey : EntityType → Int → Int) (tracked : List Entry) :
    pendingChanges (acceptAllChanges generatedKey tracked) = [] := by
  simp [pendingChanges, acceptAllChanges, Entry.accept_change]

theorem write_silent (c : Circumstances) {s : Session} (h : pendingChanges s.tracked = []) :
    Silent s (write c s) where
  published := rfl
  entities := by simp [write, h]
  pending := by simp [write, pendingChanges_accept, h]

/-- A nested save is silent on a context of its own, and where nothing is left to write. -/
theorem storeSave_silent (c : Circumstances) (i : Nat) {s : Session}
    (h : c.faults.sharedContext = false ∨ pendingChanges s.tracked = []) :
    Silent s (storeSave c i s) := by
  cases hs : c.faults.sharedContext with
  | false =>
    simp only [storeSave, hs, Bool.false_eq_true, if_false]
    exact ⟨rfl, rfl, rfl⟩
  | true =>
    have hp : pendingChanges s.tracked = [] := by simpa [hs] using h
    have hpass := intercept_silent c (i + 1) s.tracked.length hp
    simp only [storeSave, hs, if_true]
    exact hpass.trans (write_silent c (hpass.pending.trans hp))

theorem storeSaveFails_silent (c : Circumstances) (i : Nat) {s : Session}
    (h : c.faults.sharedContext = false ∨ pendingChanges s.tracked = []) :
    Silent s (storeSaveFails c i s) := by
  cases hs : c.faults.sharedContext with
  | false =>
    simp only [storeSaveFails, hs, Bool.false_eq_true, if_false]
    exact Silent.refl s
  | true =>
    simp only [storeSaveFails, hs, if_true]
    exact intercept_silent c _ _ (by simpa [hs] using h)

theorem dispatchEvents_silent (c : Circumstances) (i : Nat) (es : List DomainEvent) {s : Session}
    (h : c.faults.sharedContext = false ∨ pendingChanges s.tracked = []) :
    Silent s (dispatchEvents c i es s).session := by
  induction es generalizing i s with
  | nil => exact Silent.refl s
  | cons e es ih =>
    have hrow : Silent s (trackRow e s) := ⟨rfl, rfl, rfl⟩
    have hrow' : c.faults.sharedContext = false ∨ pendingChanges (trackRow e s).tracked = [] := h
    simp only [dispatchEvents]
    cases c.faults.dispatch i with
    | encodeFails => exact Silent.refl s
    | writeFails => exact hrow.trans (storeSaveFails_silent c i hrow')
    | handlerFails => exact hrow.trans (storeSave_silent c i hrow')
    | succeeds =>
      have hsave := hrow.trans (storeSave_silent c i hrow')
      refine hsave.trans (ih (i + 1) ?_)
      rw [hsave.pending]
      exact h

/-- A nested save on the saver's context publishes an event for each change again, before
it writes the changes. -/
theorem storeSave_length (c : Circumstances) (i : Nat) (s : Session) :
    s.published.length + (storeSave c i s).database.entities.length =
      (storeSave c i s).published.length + s.database.entities.length := by
  cases hs : c.faults.sharedContext with
  | false =>
    simp only [storeSave, hs, Bool.false_eq_true, if_false]
  | true =>
    simp only [storeSave, hs, if_true, write, interceptAll_length]
    rw [List.length_append, interceptAll, pendingChanges_intercept]
    have hentities : (intercept c (i + 1) s.tracked.length s).database = s.database := rfl
    rw [hentities]
    omega

theorem storeSaveFails_length (c : Circumstances) (i : Nat) (s : Session) :
    s.published.length + (storeSaveFails c i s).database.entities.length ≤
      (storeSaveFails c i s).published.length + s.database.entities.length := by
  cases hs : c.faults.sharedContext with
  | false => simp [storeSaveFails, hs]
  | true =>
    have hentities : (storeSaveFails c i s).database = s.database := by
      simp [storeSaveFails, hs, intercept]
    rw [hentities]
    simp only [storeSaveFails, hs, if_true, intercept_length]
    omega

/-- The events that are ahead of the changes stay ahead. -/
theorem dispatchEvents_length (c : Circumstances) (i : Nat) (es : List DomainEvent) (s : Session) :
    s.published.length + (dispatchEvents c i es s).session.database.entities.length ≤
      (dispatchEvents c i es s).session.published.length + s.database.entities.length := by
  induction es generalizing i s with
  | nil => exact Nat.le_refl _
  | cons e es ih =>
    simp only [dispatchEvents]
    cases c.faults.dispatch i with
    | encodeFails => exact Nat.le_refl _
    | writeFails => exact storeSaveFails_length c i (trackRow e s)
    | handlerFails => exact Nat.le_of_eq (storeSave_length c i (trackRow e s))
    | succeeds =>
      have hsave := storeSave_length c i (trackRow e s)
      have hrest := ih (i + 1) (storeSave c i (trackRow e s))
      have hrow : (trackRow e s).published = s.published := rfl
      have hentities : (trackRow e s).database = s.database := rfl
      rw [hrow, hentities] at hsave
      dsimp only
      omega

theorem not_matches_of_length {published : List AuditEvent} {committed : List Change}
    (h : committed.length < published.length) : ¬ Matches published committed := by
  intro hmatches
  have hlength := hmatches.length_eq
  simp only [List.length_map] at hlength
  omega

/-- The events of a save that throws have no changes. -/
theorem matches_nil (published : List AuditEvent) : Matches published [] ↔ published = [] := by
  simp [Matches]

/-- The events of one pass match its changes unless only a rating is new. -/
theorem matches_pass_iff (c : Circumstances) (tracked : List Entry) :
    Matches (interceptAll c 0 ⟨⟨[], []⟩, tracked, [], []⟩).published (pendingChanges tracked) ↔
      ∀ e ∈ tracked, ¬ e.OwnedOnly := by
  have hpublished : (interceptAll c 0 ⟨⟨[], []⟩, tracked, [], []⟩).published =
      (updateEntitiesAsync c.serialize c.request (c.utcNow 0) tracked.length tracked).2 := rfl
  rw [hpublished]
  constructor
  · intro hmatches e he howned
    obtain ⟨a, ha, hdiffers⟩ := subject_of_ownedOnly c.serialize c.request (c.utcNow 0) he howned
    obtain ⟨change, -, heq⟩ := List.mem_map.mp (hmatches.subset (List.mem_map_of_mem ha))
    exact hdiffers change heq.symm
  · intro hplain
    rw [Matches, subjects_eq _ _ _ _ hplain]

theorem finalWrite_silent (c : Circumstances) {s : Session} (h : pendingChanges s.tracked = []) :
    Silent s (finalWrite c s).session := by
  unfold finalWrite
  split
  · exact Silent.refl s
  · split
    · exact Silent.refl s
    · exact ⟨rfl, by simp [h], by simp [pendingChanges_accept, h]⟩

theorem finalWrite_published (c : Circumstances) (s : Session) :
    (finalWrite c s).session.published = s.published := by
  unfold finalWrite
  split
  · rfl
  · split <;> rfl

theorem finalWrite_entities (c : Circumstances) {s : Session} (h : pendingChanges s.tracked ≠ []) :
    (finalWrite c s).session.database.entities =
      if c.faults.finalWriteFails then s.database.entities
      else s.database.entities ++ pendingChanges s.tracked := by
  have hne : (pendingChanges s.tracked).isEmpty = false := by simpa using h
  cases hf : c.faults.finalWriteFails <;> simp [finalWrite, hne, hf]

/-- After a pass whose events have no changes yet, the last write settles them. -/
theorem finalWrite_matches_iff (c : Circumstances) {s : Session}
    (hpending : pendingChanges s.tracked ≠ []) (hentities : s.database.entities = [])
    (hpublished : s.published ≠ []) :
    Matches (finalWrite c s).session.published (finalWrite c s).session.database.entities ↔
      c.faults.finalWriteFails = false ∧ Matches s.published (pendingChanges s.tracked) := by
  rw [finalWrite_published, finalWrite_entities c hpending, hentities]
  cases c.faults.finalWriteFails with
  | true => simpa [matches_nil] using hpublished
  | false => simp

theorem dispatchEvents_returned (c : Circumstances) (es : List DomainEvent) (s : Session) :
    (dispatchEvents c 0 es s).returned = true ↔
      ∀ i < es.length, c.faults.dispatch i = .succeeds := by
  have herase := congrArg SaveChanges.Outcome.returned (dispatchEvents_erase c 0 es s)
  have hreturned := SaveChanges.dispatchEvents_returned c.faults 0 es s.erase
  simp only [Nat.zero_add] at hreturned
  rw [← hreturned, ← herase]
  rfl

theorem pendingEvents_intercept (c : Circumstances) (i upTo : Nat) (s : Session) :
    pendingEvents (intercept c i upTo s).tracked = pendingEvents s.tracked := by
  rw [← pendingEvents_erase, ← pendingEvents_erase]
  exact congrArg (fun t => SaveChanges.pendingEvents t.tracked) (intercept_erase c i upTo s)

theorem pendingChanges_clear (tracked : List Entry) :
    pendingChanges (clearDomainEvents tracked) = pendingChanges tracked := by
  rw [← pendingChanges_erase, ← pendingChanges_erase, ← clearDomainEvents_erase,
    SaveChanges.pendingChanges_clear]

theorem withEvents_eq_nil (tracked : List Entry) :
    withEvents tracked = [] ↔ pendingEvents tracked = [] := by
  rw [← pendingEvents_erase, ← SaveChanges.withEvents_eq_nil, withEvents_erase, List.map_eq_nil_iff]

/-- After a nested save on the saver's context nothing is left to the last write. -/
theorem dispatchEvents_shared (c : Circumstances) (hshared : c.faults.sharedContext = true)
    {es : List DomainEvent} (s : Session) (hes : es ≠ [])
    (h : (dispatchEvents c 0 es s).returned = true) :
    pendingChanges (dispatchEvents c 0 es s).session.tracked = [] := by
  have herase := dispatchEvents_erase c 0 es s
  have hreturned := congrArg SaveChanges.Outcome.returned herase
  have hsession := congrArg SaveChanges.Outcome.session herase
  have hnone := SaveChanges.dispatchEvents_shared c.faults hshared 0 es s.erase (.inl hes)
    (hreturned.symm.trans h)
  rw [← hsession] at hnone
  exact (pendingChanges_erase _).symm.trans hnone

section Save

variable (c : Circumstances) (tracked : List Entry)

/-- The save after its own pass of the interceptor. -/
def intercepted : Session := interceptAll c 0 ⟨⟨[], []⟩, tracked, [], []⟩

theorem intercepted_length :
    (intercepted c tracked).published.length = (pendingChanges tracked).length := by
  simp [intercepted, interceptAll_length]

theorem saveChangesAsync_of_auditFails (h : c.faults.auditFails = true) :
    (saveChangesAsync c ⟨[], []⟩ tracked).session =
      intercept c 0 (c.published 0) ⟨⟨[], []⟩, tracked, [], []⟩ := by
  simp [saveChangesAsync, h]

theorem saveChangesAsync_of_pass (h : c.faults.auditFails = false) :
    saveChangesAsync c ⟨[], []⟩ tracked =
      let dispatched := dispatchDomainEvents c (intercepted c tracked)
      if dispatched.returned then finalWrite c dispatched.session else dispatched := by
  simp only [saveChangesAsync, h, Bool.false_eq_true, if_false]
  rfl

theorem saveChangesAsync_of_no_events (h : c.faults.auditFails = false)
    (hevents : pendingEvents tracked = []) :
    saveChangesAsync c ⟨[], []⟩ tracked = finalWrite c (intercepted c tracked) := by
  have hnone : withEvents (intercepted c tracked).tracked = [] := by
    rw [withEvents_eq_nil, intercepted, interceptAll, pendingEvents_intercept]
    exact hevents
  have hdispatch : dispatchDomainEvents c (intercepted c tracked) =
      ⟨intercepted c tracked, true⟩ := by
    simp [dispatchDomainEvents, hnone]
  rw [saveChangesAsync_of_pass c tracked h, hdispatch]
  rfl

/-- Its domain events have been taken from the entities. -/
def detached : Session :=
  { intercepted c tracked with tracked := clearDomainEvents (intercepted c tracked).tracked }

/-- The loop over the events of a save that has some. -/
def dispatched : Outcome := dispatchEvents c 0 (pendingEvents tracked) (detached c tracked)

theorem intercepted_pending :
    pendingChanges (intercepted c tracked).tracked = pendingChanges tracked :=
  pendingChanges_intercept c 0 _ _

theorem detached_silent : Silent (intercepted c tracked) (detached c tracked) :=
  ⟨rfl, rfl, pendingChanges_clear _⟩

theorem dispatched_silent
    (h : c.faults.sharedContext = false ∨ pendingChanges tracked = []) :
    Silent (intercepted c tracked) (dispatched c tracked).session := by
  refine (detached_silent c tracked).trans (dispatchEvents_silent c 0 _ ?_)
  rw [(detached_silent c tracked).pending, intercepted_pending]
  exact h

theorem saveChangesAsync_of_events (h : c.faults.auditFails = false)
    (hevents : pendingEvents tracked ≠ []) :
    saveChangesAsync c ⟨[], []⟩ tracked =
      if (dispatched c tracked).returned then finalWrite c (dispatched c tracked).session
      else dispatched c tracked := by
  have hpending : pendingEvents (intercepted c tracked).tracked = pendingEvents tracked := by
    rw [intercepted, interceptAll, pendingEvents_intercept]
  have hsome : withEvents (intercepted c tracked).tracked ≠ [] := by
    rw [ne_eq, withEvents_eq_nil, hpending]
    exact hevents
  have hdispatch : dispatchDomainEvents c (intercepted c tracked) = dispatched c tracked := by
    simp [dispatchDomainEvents, hsome, hpending, dispatched, detached]
  rw [saveChangesAsync_of_pass c tracked h, hdispatch]

/-- With nothing to write a save publishes nothing and commits nothing. -/
theorem saveChangesAsync_quiet (h : pendingChanges tracked = []) :
    Silent ⟨⟨[], []⟩, tracked, [], []⟩ (saveChangesAsync c ⟨[], []⟩ tracked).session := by
  cases haudit : c.faults.auditFails with
  | true =>
    rw [saveChangesAsync_of_auditFails c tracked haudit]
    exact intercept_silent c 0 _ h
  | false =>
    have hpass : Silent ⟨⟨[], []⟩, tracked, [], []⟩ (intercepted c tracked) :=
      intercept_silent c 0 _ h
    by_cases hevents : pendingEvents tracked = []
    · rw [saveChangesAsync_of_no_events c tracked haudit hevents]
      exact hpass.trans (finalWrite_silent c (hpass.pending.trans h))
    · rw [saveChangesAsync_of_events c tracked haudit hevents]
      have hloop := hpass.trans (dispatched_silent c tracked (.inr h))
      split
      · exact hloop.trans (finalWrite_silent c (hloop.pending.trans h))
      · exact hloop

/-- A save on a shared context, with changes and with domain events, has published more
events than it commits changes. -/
theorem shared_not_matches (hshared : c.faults.sharedContext = true)
    (haudit : c.faults.auditFails = false) (hpending : pendingChanges tracked ≠ [])
    (hevents : pendingEvents tracked ≠ []) :
    ¬ Matches (saveChangesAsync c ⟨[], []⟩ tracked).session.published
      (saveChangesAsync c ⟨[], []⟩ tracked).session.database.entities := by
  have hsome : 0 < (pendingChanges tracked).length := List.length_pos_iff.mpr hpending
  have hpass : (detached c tracked).published.length = (pendingChanges tracked).length :=
    intercepted_length c tracked
  have hahead : (pendingChanges tracked).length +
      (dispatched c tracked).session.database.entities.length ≤
        (dispatched c tracked).session.published.length :=
    hpass ▸ dispatchEvents_length c 0 (pendingEvents tracked) (detached c tracked)
  rw [saveChangesAsync_of_events c tracked haudit hevents]
  cases hr : (dispatched c tracked).returned with
  | false =>
    simp only [Bool.false_eq_true, if_false]
    exact not_matches_of_length (by omega)
  | true =>
    have hnone : pendingChanges (dispatched c tracked).session.tracked = [] :=
      dispatchEvents_shared c hshared (detached c tracked) hevents hr
    have hlast := finalWrite_silent c hnone
    simp only [if_true]
    apply not_matches_of_length
    rw [hlast.published, hlast.entities]
    omega

/-- Where every change still waits, the last write decides. -/
theorem settled_iff (hpending : pendingChanges tracked ≠ []) {s : Session}
    (hs : Silent (intercepted c tracked) s) :
    Matches (finalWrite c s).session.published (finalWrite c s).session.database.entities ↔
      c.faults.finalWriteFails = false ∧ ∀ e ∈ tracked, ¬ e.OwnedOnly := by
  have hwaits : pendingChanges s.tracked = pendingChanges tracked :=
    hs.pending.trans (intercepted_pending c tracked)
  have hsome : s.published ≠ [] := by
    rw [hs.published, ← List.length_pos_iff, intercepted_length, List.length_pos_iff]
    exact hpending
  rw [finalWrite_matches_iff c (hwaits ▸ hpending) hs.entities hsome, hwaits, hs.published,
    intercepted, matches_pass_iff]

/-- On a context of its own, a save with changes and with domain events reaches the last
write if every event succeeds. -/
theorem separate_matches_iff (hseparate : c.faults.sharedContext = false)
    (haudit : c.faults.auditFails = false) (hpending : pendingChanges tracked ≠ [])
    (hevents : pendingEvents tracked ≠ []) :
    Matches (saveChangesAsync c ⟨[], []⟩ tracked).session.published
        (saveChangesAsync c ⟨[], []⟩ tracked).session.database.entities ↔
      (∀ i < (pendingEvents tracked).length, c.faults.dispatch i = .succeeds) ∧
        c.faults.finalWriteFails = false ∧ ∀ e ∈ tracked, ¬ e.OwnedOnly := by
  have hloop := dispatched_silent c tracked (.inl hseparate)
  have hreturned : (dispatched c tracked).returned = true ↔ _ :=
    dispatchEvents_returned c (pendingEvents tracked) (detached c tracked)
  rw [saveChangesAsync_of_events c tracked haudit hevents, ← hreturned]
  cases hr : (dispatched c tracked).returned with
  | false =>
    simp only [Bool.false_eq_true, if_false, false_and, iff_false]
    apply not_matches_of_length
    have hsome : 0 < (pendingChanges tracked).length := List.length_pos_iff.mpr hpending
    have hnone : (intercepted c tracked).database.entities = [] := rfl
    rw [hloop.published, hloop.entities, hnone, intercepted_length]
    exact hsome
  | true =>
    simp only [if_true, true_and]
    exact settled_iff c tracked hpending hloop

/-- The audit events of a save match its changes exactly if it is reconciled. -/
theorem saveChangesAsync_matches_iff :
    Matches (saveChangesAsync c ⟨[], []⟩ tracked).session.published
        (saveChangesAsync c ⟨[], []⟩ tracked).session.database.entities ↔
      Reconciled c tracked := by
  by_cases hpending : pendingChanges tracked = []
  · have hquiet := saveChangesAsync_quiet c tracked hpending
    rw [hquiet.published, hquiet.entities]
    simp [Reconciled, hpending, Matches]
  · simp only [Reconciled, hpending, false_or]
    cases haudit : c.faults.auditFails with
    | true =>
      have hsome : (pendingChanges tracked).length ≠ 0 := by simpa using hpending
      rw [saveChangesAsync_of_auditFails c tracked haudit]
      have hnone : (intercept c 0 (c.published 0) ⟨⟨[], []⟩, tracked, [], []⟩).database.entities =
        [] := rfl
      rw [hnone, matches_nil, ← List.length_eq_zero_iff, intercept_length]
      simp only [List.length_nil, true_and, Bool.true_eq_false, false_and, or_false]
      omega
    | false =>
      by_cases hevents : pendingEvents tracked = []
      · rw [saveChangesAsync_of_no_events c tracked haudit hevents,
          settled_iff c tracked hpending (Silent.refl _)]
        simp [hevents]
      · cases hs : c.faults.sharedContext with
        | true =>
          have hnot := shared_not_matches c tracked hs haudit hpending hevents
          simp [hnot, hevents]
        | false =>
          rw [separate_matches_iff c tracked hs haudit hpending hevents]
          simp only [hevents, false_or, Bool.false_eq_true, false_and, true_and]
          tauto

end Save

theorem start_exact (rows : List Row) : Exact (start rows) := List.Perm.refl _

/-- Adding events and changes to ones that match. -/
theorem matches_append_iff {published : List AuditEvent} {committed : List Change}
    (h : Matches published committed) (events : List AuditEvent) (changes : List Change) :
    Matches (published ++ events) (committed ++ changes) ↔ Matches events changes := by
  unfold Matches at h ⊢
  rw [List.map_append, List.map_append]
  constructor
  · intro happended
    exact (List.perm_append_left_iff _).mp (((h.symm.append_right _).trans happended))
  · intro hevents
    exact h.append hevents

/-- A bulk deletion has no events. -/
theorem executeDeleteAsync_exact_iff (type : EntityType) (criteria : Int → Bool) (fails : Bool)
    {s : State} (h : Exact s) :
    Exact (executeDeleteAsync type criteria fails s) ↔
      fails = true ∨ selected type criteria s.rows = [] := by
  cases fails with
  | true => simpa [executeDeleteAsync] using h
  | false =>
    have happend := matches_append_iff h [] ((selected type criteria s.rows).map fun row =>
      ⟨row.type, row.id, .delete⟩)
    rw [List.append_nil] at happend
    simp only [executeDeleteAsync, Bool.false_eq_true, if_false, false_or]
    rw [Exact, happend]
    simp [Matches]

/-- From a state where they match, events and changes match after a step exactly if the
step meets its condition. -/
theorem step_exact_iff {s t : State} {l : Label} (h : Exact s) (hstep : step s l = some t) :
    Exact t ↔ InStep s l := by
  cases l with
  | beginScope i sharedContext =>
    cases hscope : s.scopes i with
    | none =>
      simp only [step, hscope, Option.some.injEq] at hstep
      subst hstep
      exact iff_of_true h trivial
    | some scope => simp [step, hscope] at hstep
  | track i tracking =>
    cases hscope : s.scopes i with
    | none => simp [step, hscope] at hstep
    | some scope =>
      simp only [step, hscope, Option.some.injEq] at hstep
      subst hstep
      exact iff_of_true h trivial
  | saveChangesAsync i c =>
    cases hscope : s.scopes i with
    | none => simp [step, hscope] at hstep
    | some scope =>
      simp only [step, hscope, Option.some.injEq] at hstep
      subst hstep
      have hcondition : InStep s (.saveChangesAsync i c) ↔
          Reconciled (within scope c) scope.tracked := by simp [InStep, hscope]
      rw [hcondition, ← saveChangesAsync_matches_iff]
      exact matches_append_iff h _ _
  | endScope i =>
    cases hstep
    exact iff_of_true h trivial
  | deleteRangeAsync type specification fails =>
    cases hstep
    exact executeDeleteAsync_exact_iff type specification fails h
  | deleteAllAsync fails =>
    cases hstep
    exact executeDeleteAsync_exact_iff .cart _ fails h

/-- Published audit events and committed changes match after every step of a run
exactly if all its steps meet their conditions. -/
theorem exact_throughout_iff (rows : List Row) (tr : List Label) :
    (∀ v ∈ visits step (start rows) tr, Exact v.2.2) ↔
      ∀ v ∈ visits step (start rows) tr, InStep v.1 v.2.1 :=
  visits_iff Exact (fun v => Exact v.2.2) InStep
    (fun _ _ _ h hstep => step_exact_iff h hstep)
    (fun _ _ _ h hC hstep => (step_exact_iff h hstep).mpr hC)
    (start_exact rows) tr

/-- Emptying all carts deletes cart 1, and nobody is told. -/
theorem emptied_carts_unaudited :
    ¬ ∀ (rows : List Row) (tr : List Label), ∀ v ∈ visits step (start rows) tr, Exact v.2.2 := by
  intro hall
  have h := hall [⟨.cart, 1⟩] [.deleteAllAsync false] _ List.mem_cons_self
  exact absurd h.length_eq (by decide)

/-- Nothing fails in this save on the outbox store's own context. -/
def undisturbed : Circumstances where
  faults := ⟨true, false, fun _ => .succeeds, false⟩
  request := ⟨none, none, none, none, none⟩
  serialize := fun _ => ""
  utcNow := fun _ => 0
  published := fun _ => 0
  generatedKey := fun _ _ => 1

/-- A product that a seeder saves is created once and announced twice. -/
example : ∃ v ∈ visits step (start []) [.beginScope 0 true, .track 0 (.add .product (-1) []),
    .track 0 (.addDomainEvent 0 ⟨0, .productRatingUpdated 0 3 400⟩),
    .saveChangesAsync 0 undisturbed],
    v.2.2.published.map eventSubject = [("Product", "-1", "Added"), ("Product", "-1", "Added")] ∧
      v.2.2.committed = [⟨.product, -1, .create⟩] := by
  decide

end AuditTrail
