import ShoppingProject.OutboxEncoding

/-!
# Saving changes with pending domain events

`SaveChangesAsync` runs the audit interceptor, then the interceptor that moves
the pending domain events of the tracked entities into the outbox and publishes
them in process, then writes what is left. The outbox store saves on a context
of its own: where a repository saves it is the same scoped instance, where a
handler saves through `IApplicationDbContext` it is another one. Each save of a
context is one transaction.
-/
namespace SaveChanges

open DomainEvents (DomainEvent)
open Outbox (OutboxMessage)
open OutboxEncoding (outboxMessage)

variable {δ : Type}

/-- A tracked entity: the change it waits to have written, and its events. -/
structure Entity (δ : Type) where
  change : Option δ
  domainEvents : List DomainEvent

structure Database (δ : Type) where
  entities : List δ
  outbox : List OutboxMessage

/-- Committed data, the saver's tracked entities, and the outbox rows that the
store's context tracks but has not saved. -/
structure Session (δ : Type) where
  database : Database δ
  tracked : List (Entity δ)
  outboxRows : List OutboxMessage

structure Outcome (δ : Type) where
  session : Session δ
  returned : Bool

/-- How recording and publishing one event goes. A nested save that fails, in its
interceptors or in the database, leaves the row tracked. -/
inductive Dispatch where
  | encodeFails : Dispatch
  | writeFails : Dispatch
  | handlerFails : Dispatch
  | succeeds : Dispatch
  deriving DecidableEq

structure Faults where
  sharedContext : Bool
  auditFails : Bool
  dispatch : Nat → Dispatch
  finalWriteFails : Bool

def pendingChanges (tracked : List (Entity δ)) : List δ := tracked.filterMap Entity.change

def withEvents (tracked : List (Entity δ)) : List (Entity δ) :=
  tracked.filter fun e => !e.domainEvents.isEmpty

def pendingEvents (tracked : List (Entity δ)) : List DomainEvent :=
  (withEvents tracked).flatMap Entity.domainEvents

def clearDomainEvents (tracked : List (Entity δ)) : List (Entity δ) :=
  tracked.map fun e => { e with domainEvents := [] }

def acceptAllChanges (tracked : List (Entity δ)) : List (Entity δ) :=
  tracked.map fun e => { e with change := none }

/-- The nested save of the store: with a shared context it writes the entity
changes as well. -/
def storeSave (shared : Bool) (s : Session δ) : Session δ :=
  if shared then
    ⟨⟨s.database.entities ++ pendingChanges s.tracked, s.database.outbox ++ s.outboxRows⟩,
      acceptAllChanges s.tracked, []⟩
  else
    ⟨⟨s.database.entities, s.database.outbox ++ s.outboxRows⟩, s.tracked, []⟩

def trackRow (e : DomainEvent) (s : Session δ) : Session δ :=
  { s with outboxRows := s.outboxRows ++ [outboxMessage none e] }

/-- The `foreach` over the collected events; `i` counts them. -/
def dispatchEvents (f : Faults) : Nat → List DomainEvent → Session δ → Outcome δ
  | _, [], s => ⟨s, true⟩
  | i, e :: es, s => match f.dispatch i with
    | .encodeFails => ⟨s, false⟩
    | .writeFails => ⟨trackRow e s, false⟩
    | .handlerFails => ⟨storeSave f.sharedContext (trackRow e s), false⟩
    | .succeeds => dispatchEvents f (i + 1) es (storeSave f.sharedContext (trackRow e s))

def dispatchDomainEvents (f : Faults) (s : Session δ) : Outcome δ :=
  if (withEvents s.tracked).isEmpty then ⟨s, true⟩
  else
    let domainEvents := pendingEvents s.tracked
    dispatchEvents f 0 domainEvents { s with tracked := clearDomainEvents s.tracked }

/-- The outbox rows that the saver's own context tracks. -/
def ownRows (f : Faults) (s : Session δ) : List OutboxMessage :=
  if f.sharedContext then s.outboxRows else []

/-- The save's own write, which is skipped when nothing is left to write. -/
def finalWrite (f : Faults) (s : Session δ) : Outcome δ :=
  if (pendingChanges s.tracked).isEmpty && (ownRows f s).isEmpty then ⟨s, true⟩
  else if f.finalWriteFails then ⟨s, false⟩
  else
    ⟨⟨⟨s.database.entities ++ pendingChanges s.tracked, s.database.outbox ++ ownRows f s⟩,
      acceptAllChanges s.tracked, if f.sharedContext then [] else s.outboxRows⟩, true⟩

def saveChangesAsync (f : Faults) (db : Database δ) (tracked : List (Entity δ)) : Outcome δ :=
  let s : Session δ := ⟨db, tracked, []⟩
  if f.auditFails then ⟨s, false⟩
  else
    let dispatched := dispatchDomainEvents f s
    if dispatched.returned then finalWrite f dispatched.session else dispatched

/-- A save that returns has committed every change and one row for each pending
event; one that throws has committed nothing and left its entities as they were. -/
def Atomic (db : Database δ) (tracked : List (Entity δ)) (o : Outcome δ) : Prop :=
  (o.returned = true →
    o.session.database.entities = db.entities ++ pendingChanges tracked ∧
    o.session.database.outbox = db.outbox ++ (pendingEvents tracked).map (outboxMessage none)) ∧
  (o.returned = false → o.session.database = db ∧ o.session.tracked = tracked)

/-- No event fails, and the last write does not fail or is not needed. -/
def Undisturbed (f : Faults) (tracked : List (Entity δ)) : Prop :=
  (∀ i < (pendingEvents tracked).length, f.dispatch i = .succeeds) ∧
  (f.finalWriteFails = false ∨ f.sharedContext = true ∨ pendingChanges tracked = [])

theorem pendingEvents_eq (tracked : List (Entity δ)) :
    pendingEvents tracked = tracked.flatMap Entity.domainEvents := by
  induction tracked with
  | nil => rfl
  | cons e es ih =>
    simp only [pendingEvents, withEvents, List.filter_cons] at ih ⊢
    cases h : e.domainEvents <;> simp [h, ih]

@[simp] theorem pendingEvents_clear (tracked : List (Entity δ)) :
    pendingEvents (clearDomainEvents tracked) = [] := by
  simp [pendingEvents_eq, clearDomainEvents]

@[simp] theorem pendingEvents_accept (tracked : List (Entity δ)) :
    pendingEvents (acceptAllChanges tracked) = pendingEvents tracked := by
  simp [pendingEvents_eq, acceptAllChanges, List.flatMap_map]

@[simp] theorem pendingChanges_clear (tracked : List (Entity δ)) :
    pendingChanges (clearDomainEvents tracked) = pendingChanges tracked := by
  simp [pendingChanges, clearDomainEvents, List.filterMap_map]

@[simp] theorem pendingChanges_accept (tracked : List (Entity δ)) :
    pendingChanges (acceptAllChanges tracked) = [] := by
  simp [pendingChanges, acceptAllChanges]

theorem withEvents_eq_nil (tracked : List (Entity δ)) :
    withEvents tracked = [] ↔ pendingEvents tracked = [] := by
  rw [pendingEvents_eq]
  simp [withEvents, List.filter_eq_nil_iff, List.flatMap_eq_nil_iff]

@[simp] theorem storeSave_outboxRows (shared : Bool) (s : Session δ) :
    (storeSave shared s).outboxRows = [] := by cases shared <;> rfl

@[simp] theorem storeSave_outbox (shared : Bool) (s : Session δ) :
    (storeSave shared s).database.outbox = s.database.outbox ++ s.outboxRows := by
  cases shared <;> rfl

/-- A nested save moves changes from the tracker to the database, or none. -/
theorem storeSave_conserves (shared : Bool) (s : Session δ) :
    (storeSave shared s).database.entities ++ pendingChanges (storeSave shared s).tracked =
      s.database.entities ++ pendingChanges s.tracked := by
  cases shared <;> simp [storeSave]

theorem storeSave_events (shared : Bool) (s : Session δ) :
    pendingEvents (storeSave shared s).tracked = pendingEvents s.tracked := by
  cases shared <;> simp [storeSave]

/-- Whatever happens to the events, the loop attaches none again. -/
theorem dispatchEvents_events (f : Faults) (i : Nat) (es : List DomainEvent) (s : Session δ) :
    pendingEvents (dispatchEvents f i es s).session.tracked = pendingEvents s.tracked := by
  induction es generalizing i s with
  | nil => rfl
  | cons e es ih =>
    simp only [dispatchEvents]
    cases f.dispatch i with
    | encodeFails => rfl
    | writeFails => rfl
    | handlerFails => exact storeSave_events _ _
    | succeeds => rw [ih, storeSave_events]; rfl

/-- The loop returns exactly if every event succeeds. -/
theorem dispatchEvents_returned (f : Faults) (i : Nat) (es : List DomainEvent) (s : Session δ) :
    (dispatchEvents f i es s).returned = true ↔
      ∀ j < es.length, f.dispatch (i + j) = .succeeds := by
  induction es generalizing i s with
  | nil => simp [dispatchEvents]
  | cons e es ih =>
    rw [List.length_cons, Nat.forall_lt_succ_left, Nat.add_zero]
    simp only [dispatchEvents]
    cases hd : f.dispatch i with
    | encodeFails => simp
    | writeFails => simp
    | handlerFails => simp
    | succeeds =>
      simp only [true_and]
      rw [ih]
      simp only [Nat.add_assoc, Nat.add_comm 1]

/-- What a loop that returns has done: one row for each event, and no change lost
between tracker and database. -/
theorem dispatchEvents_effect (f : Faults) (i : Nat) (es : List DomainEvent) (s : Session δ)
    (hrows : s.outboxRows = []) (h : (dispatchEvents f i es s).returned = true) :
    (dispatchEvents f i es s).session.outboxRows = [] ∧
    (dispatchEvents f i es s).session.database.outbox =
      s.database.outbox ++ es.map (outboxMessage none) ∧
    (dispatchEvents f i es s).session.database.entities ++
        pendingChanges (dispatchEvents f i es s).session.tracked =
      s.database.entities ++ pendingChanges s.tracked := by
  induction es generalizing i s with
  | nil => simp [dispatchEvents, hrows]
  | cons e es ih =>
    simp only [dispatchEvents] at h ⊢
    cases hd : f.dispatch i with
    | encodeFails => simp [hd] at h
    | writeFails => simp [hd] at h
    | handlerFails => simp [hd] at h
    | succeeds =>
      simp only [hd] at h ⊢
      obtain ⟨ho, hb, hc⟩ := ih (i + 1) _ (storeSave_outboxRows _ _) h
      refine ⟨ho, ?_, ?_⟩
      · rw [hb, storeSave_outbox]
        simp [trackRow, hrows]
      · rw [hc, storeSave_conserves]
        rfl

/-- After one nested save on a shared context nothing is left to the last write. -/
theorem dispatchEvents_shared (f : Faults) (hshared : f.sharedContext = true) (i : Nat)
    (es : List DomainEvent) (s : Session δ) (hne : es ≠ [] ∨ pendingChanges s.tracked = [])
    (h : (dispatchEvents f i es s).returned = true) :
    pendingChanges (dispatchEvents f i es s).session.tracked = [] := by
  induction es generalizing i s with
  | nil => simpa [dispatchEvents] using hne
  | cons e es ih =>
    simp only [dispatchEvents] at h ⊢
    cases hd : f.dispatch i with
    | encodeFails => simp [hd] at h
    | writeFails => simp [hd] at h
    | handlerFails => simp [hd] at h
    | succeeds =>
      simp only [hd] at h ⊢
      exact ih (i + 1) _ (.inr (by simp [storeSave, hshared])) h

/-- With a separate context the changes wait for the last write. -/
theorem dispatchEvents_separate (f : Faults) (hshared : f.sharedContext = false) (i : Nat)
    (es : List DomainEvent) (s : Session δ) :
    (dispatchEvents f i es s).session.tracked = s.tracked := by
  induction es generalizing i s with
  | nil => rfl
  | cons e es ih =>
    simp only [dispatchEvents]
    cases f.dispatch i with
    | encodeFails => rfl
    | writeFails => rfl
    | handlerFails => simp [storeSave, hshared, trackRow]
    | succeeds => rw [ih]; simp [storeSave, hshared, trackRow]

@[simp] theorem ownRows_nil (f : Faults) (s : Session δ) (h : s.outboxRows = []) :
    ownRows f s = [] := by simp [ownRows, h]

theorem finalWrite_returned (f : Faults) (s : Session δ) (hrows : s.outboxRows = []) :
    (finalWrite f s).returned = true ↔
      f.finalWriteFails = false ∨ pendingChanges s.tracked = [] := by
  cases hp : pendingChanges s.tracked with
  | nil => simp [finalWrite, hp, hrows]
  | cons c cs => cases hf : f.finalWriteFails <;> simp [finalWrite, hp, hf]

theorem finalWrite_commits (f : Faults) (s : Session δ) (hrows : s.outboxRows = [])
    (h : (finalWrite f s).returned = true) :
    (finalWrite f s).session.database =
      ⟨s.database.entities ++ pendingChanges s.tracked, s.database.outbox⟩ := by
  rcases (finalWrite_returned f s hrows).mp h with hf | hp
  · cases hp : pendingChanges s.tracked <;> simp [finalWrite, hp, hf, hrows]
  · simp [finalWrite, hp, hrows]

theorem finalWrite_throws (f : Faults) (s : Session δ)
    (h : (finalWrite f s).returned = false) : (finalWrite f s).session = s := by
  unfold finalWrite at h ⊢
  split at h
  · simp at h
  · rename_i hskip
    split at h
    · rename_i hf
      rw [if_neg hskip, if_pos hf]
    · simp at h

/-- Without events a save is one transaction. -/
theorem finalWrite_atomic (f : Faults) (db : Database δ) (tracked : List (Entity δ))
    (hev : pendingEvents tracked = []) : Atomic db tracked (finalWrite f ⟨db, tracked, []⟩) := by
  constructor
  · intro h
    simp [finalWrite_commits f _ rfl h, hev]
  · intro h
    simp [finalWrite_throws f _ h]

/-- A save that throws after the events were detached has lost them. -/
theorem detached_not_atomic {db : Database δ} {tracked : List (Entity δ)} {o : Outcome δ}
    (hev : pendingEvents tracked ≠ []) (hthrows : o.returned = false)
    (hgone : pendingEvents o.session.tracked = []) : ¬ Atomic db tracked o := by
  intro h
  rw [(h.2 hthrows).2] at hgone
  exact hev hgone

/-- With pending events the save is the loop over the detached entities, and the
last write when the loop returns. -/
theorem saveChangesAsync_dispatches (f : Faults) (db : Database δ) (tracked : List (Entity δ))
    (haudit : f.auditFails = false) (hev : pendingEvents tracked ≠ []) :
    saveChangesAsync f db tracked =
      let d := dispatchEvents f 0 (pendingEvents tracked) ⟨db, clearDomainEvents tracked, []⟩
      if d.returned then finalWrite f d.session else d := by
  have hne : (withEvents tracked).isEmpty = false := by
    simpa [withEvents_eq_nil] using hev
  simp [saveChangesAsync, haudit, dispatchDomainEvents, hne]

/-- What the loop over all pending events has done when it returns. -/
theorem dispatched_effect {f : Faults} {db : Database δ} {tracked : List (Entity δ)} {d : Outcome δ}
    (hd : d = dispatchEvents f 0 (pendingEvents tracked) ⟨db, clearDomainEvents tracked, []⟩)
    (hr : d.returned = true) :
    d.session.outboxRows = [] ∧
    d.session.database.outbox = db.outbox ++ (pendingEvents tracked).map (outboxMessage none) ∧
    d.session.database.entities ++ pendingChanges d.session.tracked =
      db.entities ++ pendingChanges tracked := by
  obtain ⟨hrows, hbox, hents⟩ := dispatchEvents_effect f 0 _ _ rfl (hd ▸ hr)
  rw [pendingChanges_clear] at hents
  rw [hd]
  exact ⟨hrows, hbox, hents⟩

/-- With pending events a save is atomic exactly if nothing disturbs it. -/
theorem dispatching_atomic_iff (f : Faults) (db : Database δ) (tracked : List (Entity δ))
    (haudit : f.auditFails = false) (hev : pendingEvents tracked ≠ []) :
    Atomic db tracked (saveChangesAsync f db tracked) ↔ Undisturbed f tracked := by
  rw [saveChangesAsync_dispatches f db tracked haudit hev]
  set d := dispatchEvents f 0 (pendingEvents tracked) ⟨db, clearDomainEvents tracked, []⟩ with hd
  have hgone : pendingEvents d.session.tracked = [] := by
    rw [hd, dispatchEvents_events, pendingEvents_clear]
  have hreturns := dispatchEvents_returned f 0 (pendingEvents tracked)
    ⟨db, clearDomainEvents tracked, []⟩
  rw [← hd] at hreturns
  simp only [Nat.zero_add] at hreturns
  cases hr : d.returned with
  | false =>
    have hfails : ¬ Undisturbed f tracked := by
      intro h
      simp [hreturns.mpr h.1] at hr
    simpa [hr, hfails] using detached_not_atomic hev hr hgone
  | true =>
    obtain ⟨hrows, hbox, hents⟩ := dispatched_effect hd hr
    -- the last write is needed exactly if the nested saves left it the changes
    have hneeded : pendingChanges d.session.tracked = [] ↔
        f.sharedContext = true ∨ pendingChanges tracked = [] := by
      cases hs : f.sharedContext with
      | true => simpa using dispatchEvents_shared f hs 0 _ _ (.inl hev) (hd ▸ hr)
      | false => simp [hd, dispatchEvents_separate f hs]
    have hwrites := finalWrite_returned f d.session hrows
    have hquiet : Undisturbed f tracked ↔ (finalWrite f d.session).returned = true := by
      rw [hwrites, hneeded]
      exact ⟨fun h => h.2, fun h => ⟨hreturns.mp hr, h⟩⟩
    rw [hquiet]
    simp only [hr, if_true]
    cases hw : (finalWrite f d.session).returned with
    | true =>
      have hdb := finalWrite_commits f d.session hrows hw
      simp only [iff_true]
      exact ⟨fun _ => by simp [hdb, hents, hbox], by simp [hw]⟩
    | false =>
      rw [← finalWrite_throws f d.session hw] at hgone
      simpa using detached_not_atomic hev hw hgone

theorem saveChangesAsync_of_no_events (f : Faults) (db : Database δ) (tracked : List (Entity δ))
    (haudit : f.auditFails = false) (hev : pendingEvents tracked = []) :
    saveChangesAsync f db tracked = finalWrite f ⟨db, tracked, []⟩ := by
  have hnone := (withEvents_eq_nil tracked).mpr hev
  simp [saveChangesAsync, haudit, dispatchDomainEvents, hnone]

/-- A save is atomic exactly if there is no event to dispatch, or it throws before
the events are touched, or no event and no later write fails. -/
theorem saveChanges_atomic_iff (f : Faults) (db : Database δ) (tracked : List (Entity δ)) :
    Atomic db tracked (saveChangesAsync f db tracked) ↔
      pendingEvents tracked = [] ∨ f.auditFails = true ∨ Undisturbed f tracked := by
  cases haudit : f.auditFails with
  | true => simp [saveChangesAsync, haudit, Atomic]
  | false =>
    by_cases hev : pendingEvents tracked = []
    · rw [saveChangesAsync_of_no_events f db tracked haudit hev]
      simpa [hev] using finalWrite_atomic f db tracked hev
    · simpa [hev] using dispatching_atomic_iff f db tracked haudit hev

/-- A save that returns has committed every change and one row for each event. -/
theorem saveChangesAsync_commits {f : Faults} {db : Database δ} {tracked : List (Entity δ)}
    (h : (saveChangesAsync f db tracked).returned = true) :
    (saveChangesAsync f db tracked).session.database.entities =
        db.entities ++ pendingChanges tracked ∧
      (saveChangesAsync f db tracked).session.database.outbox =
        db.outbox ++ (pendingEvents tracked).map (outboxMessage none) := by
  cases haudit : f.auditFails with
  | true => simp [saveChangesAsync, haudit] at h
  | false =>
    by_cases hev : pendingEvents tracked = []
    · rw [saveChangesAsync_of_no_events f db tracked haudit hev] at h ⊢
      exact (finalWrite_atomic f db tracked hev).1 h
    · rw [saveChangesAsync_dispatches f db tracked haudit hev] at h ⊢
      set d := dispatchEvents f 0 (pendingEvents tracked) ⟨db, clearDomainEvents tracked, []⟩
        with hd
      have hr : d.returned = true := by
        by_contra hr
        simp [hr] at h
      simp only [hr, if_true] at h ⊢
      obtain ⟨hrows, hbox, hents⟩ := dispatched_effect hd hr
      rw [finalWrite_commits f d.session hrows h]
      exact ⟨hents, hbox⟩

/-- One changed entity with one event, saved where the notification handler throws:
the change and the row are committed, and the event is gone. -/
theorem handler_failure_not_atomic :
    ¬ @Atomic String ⟨[], []⟩ [⟨some "cart 1", [⟨0, .cartCleared 1⟩]⟩]
      (saveChangesAsync ⟨true, false, fun _ => .handlerFails, false⟩ ⟨[], []⟩
        [⟨some "cart 1", [⟨0, .cartCleared 1⟩]⟩]) := by
  intro h
  have hdb := (h.2 rfl).1
  simp [saveChangesAsync, dispatchDomainEvents, withEvents, pendingEvents, dispatchEvents,
    storeSave, trackRow, clearDomainEvents, pendingChanges] at hdb

end SaveChanges
