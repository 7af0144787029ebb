import ShoppingProject.AuditTrail
import ShoppingProject.Numerals

/-!
# The row that an audit event names

An event is made from the entity that the tracker holds, before its change is written. The
row it is about is the one that this entity has in the database: for an entity that is
created the database may choose another key than the one that the tracker knew.
-/
namespace AuditIdentity

open AuditChain (AuditEvent)
open AuditInterceptor
open AuditTrail
open DomainEvents (DateTime DomainEvent)
open Numerals (toString_inj)
open Runs

/-- The event was made from this entity, whatever values it had by then. -/
def MadeFrom (e : Entry) (a : AuditEvent) : Prop :=
  ∃ (serialize : Json → String) (r : Request) (utcNow : DateTime) (e' : Entry),
    e'.type = e.type ∧ e'.id = e.id ∧ a = auditEvent serialize r utcNow e'

def saved (c : Circumstances) (tracked : List Entry) : Session :=
  (saveChangesAsync c ⟨[], []⟩ tracked).session

/-- The row of a tracked entity in a save; an entity whose creation is not committed has
none. -/
def IsRow (c : Circumstances) (tracked : List Entry) (e : Entry) (row : Row) : Prop :=
  if e.state = .added then
    ⟨e.type, e.id, .create⟩ ∈ (saved c tracked).database.entities ∧
      row = ⟨e.type, c.generatedKey e.type e.id⟩
  else row = ⟨e.type, e.id⟩

/-- A save publishes an event for a row. -/
def PublishesFor (c : Circumstances) (tracked : List Entry) (a : AuditEvent) (row : Row) : Prop :=
  a ∈ (saved c tracked).published ∧ ∃ e ∈ tracked, MadeFrom e a ∧ IsRow c tracked e row

/-- An event is published for a row in the course of a run. -/
def PublishedFor (rows : List Row) (tr : List Label) (a : AuditEvent) (row : Row) : Prop :=
  ∃ v ∈ visits step (start rows) tr, ∃ i c scope, v.2.1 = .saveChangesAsync i c ∧
    v.1.scopes i = some scope ∧ PublishesFor (within scope c) scope.tracked a row

/-- The events of one row carry its key, and those of two rows of one type differ. -/
structure Identified (rows : List Row) (tr : List Label) : Prop where
  key : ∀ a row, PublishedFor rows tr a row → a.entityId = toString row.id
  distinct : ∀ a b row other, PublishedFor rows tr a row → PublishedFor rows tr b other →
    row.type = other.type → row ≠ other → a.entityId ≠ b.entityId

/-- The condition on a step: what a save creates has its key already. -/
def Preset (s : State) : Label → Prop
  | .saveChangesAsync i c => ∀ scope, s.scopes i = some scope →
    ∀ change ∈ (saved (within scope c) scope.tracked).database.entities, change.kind = .create →
      c.generatedKey change.type change.id = change.id
  | _ => True

theorem MadeFrom.entityId {e : Entry} {a : AuditEvent} (h : MadeFrom e a) :
    a.entityId = toString e.id := by
  obtain ⟨serialize, r, utcNow, e', -, hid, rfl⟩ := h
  exact congrArg toString hid

/-- A pass makes its event from the entity that it has stamped. -/
theorem madeFrom_stamp (serialize : Json → String) (r : Request) (utcNow : DateTime) (e : Entry) :
    MadeFrom e (auditEvent serialize r utcNow (stamp r utcNow e.detectChanges)) := by
  obtain ⟨values, hvalues⟩ := exists_stamp r utcNow e.detectChanges
  refine ⟨serialize, r, utcNow, _, ?_, ?_, rfl⟩
  · rw [hvalues]
    exact Entry.detectChanges_type e
  · rw [hvalues]
    exact Entry.detectChanges_id e

theorem MadeFrom.same {e e' : Entry} {a : AuditEvent} (h : MadeFrom e a) (htype : e.type = e'.type)
    (hid : e.id = e'.id) : MadeFrom e' a := by
  obtain ⟨serialize, r, utcNow, source, hsource, hsource', rfl⟩ := h
  exact ⟨serialize, r, utcNow, source, hsource.trans htype, hsource'.trans hid, rfl⟩

/-- Everything that a save has done so far, or has left to do, comes from what it was
given. -/
structure Sourced (tracked : List Entry) (s : Session) : Prop where
  committed : ∀ change ∈ s.database.entities, change ∈ pendingChanges tracked
  pending : ∀ change ∈ pendingChanges s.tracked, change ∈ pendingChanges tracked
  published : ∀ a ∈ s.published, ∃ e ∈ tracked, e.change.isSome ∧ MadeFrom e a

theorem mem_pendingChanges {tracked : List Entry} {change : Change} :
    change ∈ pendingChanges tracked ↔ ∃ e ∈ tracked, e.change = some change :=
  List.mem_filterMap

/-- An event of a pass is made from an audited entry. -/
theorem mem_auditEntries {serialize : Json → String} {r : Request} {utcNow : DateTime}
    {upTo : ℕ} {es : List Entry} {a : AuditEvent}
    (h : a ∈ (auditEntries serialize r utcNow upTo es).2) :
    ∃ e ∈ es, e.isAuditable = true ∧ a = auditEvent serialize r utcNow (stamp r utcNow e) := by
  induction es generalizing upTo with
  | nil => simp [auditEntries] at h
  | cons e es ih =>
    simp only [auditEntries] at h
    cases ha : e.isAuditable with
    | false =>
      obtain ⟨e', he', hrest⟩ := ih (by simpa [ha] using h)
      exact ⟨e', List.mem_cons_of_mem _ he', hrest⟩
    | true =>
      cases upTo with
      | zero => simp [ha] at h
      | succ n =>
        simp only [ha, if_true] at h
        rcases List.mem_cons.mp h with rfl | h
        · exact ⟨e, List.mem_cons_self, ha, rfl⟩
        · obtain ⟨e', he', hrest⟩ := ih h
          exact ⟨e', List.mem_cons_of_mem _ he', hrest⟩

theorem Sourced.intercept {tracked : List Entry} {s : Session} (h : Sourced tracked s)
    (c : Circumstances) (i upTo : ℕ) : Sourced tracked (intercept c i upTo s) where
  committed := h.committed
  pending := by
    rw [pendingChanges_intercept]
    exact h.pending
  published := by
    intro a ha
    rcases List.mem_append.mp ha with ha | ha
    · exact h.published a ha
    · obtain ⟨e', he', haudited, rfl⟩ := mem_auditEntries ha
      obtain ⟨e, he, rfl⟩ := List.mem_map.mp he'
      have hchange := Entry.change_of_isAuditable haudited
      rw [Entry.change_detectChanges, Entry.detectChanges_type, Entry.detectChanges_id] at hchange
      rw [Entry.isAuditable_eq] at haudited
      obtain ⟨kind, hkind⟩ := Option.isSome_iff_exists.mp haudited
      rw [hkind, Option.map_some] at hchange
      -- the change that this entry waits to have written
      obtain ⟨source, hsource, hsame⟩ := mem_pendingChanges.mp
        (h.pending _ (mem_pendingChanges.mpr ⟨e, he, hchange⟩))
      obtain ⟨kind', -, hfields⟩ := Option.map_eq_some_iff.mp hsame
      obtain ⟨htype, hid, -⟩ := Change.mk.inj hfields
      exact ⟨source, hsource, by simp [hsame],
        (madeFrom_stamp _ _ _ e).same htype.symm hid.symm⟩

theorem Sourced.write {tracked : List Entry} {s : Session} (h : Sourced tracked s)
    (c : Circumstances) : Sourced tracked (write c s) where
  committed := by
    intro change hchange
    rcases List.mem_append.mp hchange with hchange | hchange
    · exact h.committed change hchange
    · exact h.pending change hchange
  pending := by
    intro change hchange
    rw [AuditInterceptor.write, pendingChanges_accept] at hchange
    cases hchange
  published := h.published

theorem Sourced.storeSave {tracked : List Entry} {s : Session} (h : Sourced tracked s)
    (c : Circumstances) (i : ℕ) : Sourced tracked (storeSave c i s) := by
  unfold AuditInterceptor.storeSave
  split
  · exact (h.intercept c (i + 1) s.tracked.length).write c
  · exact ⟨h.committed, h.pending, h.published⟩

theorem Sourced.storeSaveFails {tracked : List Entry} {s : Session} (h : Sourced tracked s)
    (c : Circumstances) (i : ℕ) : Sourced tracked (storeSaveFails c i s) := by
  unfold AuditInterceptor.storeSaveFails
  split
  · exact h.intercept c (i + 1) _
  · exact h

theorem Sourced.dispatchEvents {tracked : List Entry} (c : Circumstances) (i : ℕ)
    (es : List DomainEvent) {s : Session} (h : Sourced tracked s) :
    Sourced tracked (dispatchEvents c i es s).session := by
  induction es generalizing i s with
  | nil => exact h
  | cons e es ih =>
    have hrow : Sourced tracked (trackRow e s) := ⟨h.committed, h.pending, h.published⟩
    simp only [AuditInterceptor.dispatchEvents]
    cases c.faults.dispatch i with
    | encodeFails => exact h
    | writeFails => exact hrow.storeSaveFails c i
    | handlerFails => exact hrow.storeSave c i
    | succeeds => exact ih (i + 1) (hrow.storeSave c i)

theorem Sourced.dispatchDomainEvents {tracked : List Entry} {s : Session} (h : Sourced tracked s)
    (c : Circumstances) : Sourced tracked (dispatchDomainEvents c s).session := by
  unfold AuditInterceptor.dispatchDomainEvents
  split
  · exact h
  · refine Sourced.dispatchEvents c 0 _ ⟨h.committed, ?_, h.published⟩
    rw [pendingChanges_clear]
    exact h.pending

theorem Sourced.finalWrite {tracked : List Entry} {s : Session} (h : Sourced tracked s)
    (c : Circumstances) : Sourced tracked (finalWrite c s).session := by
  unfold AuditInterceptor.finalWrite
  split
  · exact h
  · split
    · exact h
    · exact ⟨(h.write c).committed, (h.write c).pending, h.published⟩

/-- Every event of a save was made from an entity that had a change to write, and every
change that it commits is one of those. -/
theorem saved_sourced (c : Circumstances) (tracked : List Entry) :
    Sourced tracked (saved c tracked) := by
  have hstart : Sourced tracked ⟨⟨[], []⟩, tracked, [], []⟩ :=
    ⟨fun _ h => (List.not_mem_nil h).elim, fun _ h => h, fun _ h => (List.not_mem_nil h).elim⟩
  unfold saved saveChangesAsync
  split
  · exact hstart.intercept c 0 _
  · have hdispatched := (hstart.intercept c 0 tracked.length).dispatchDomainEvents c
    dsimp only [interceptAll]
    split
    · exact hdispatched.finalWrite c
    · exact hdispatched

theorem dispatchEvents_subset (c : Circumstances) (i : ℕ) (es : List DomainEvent) (s : Session) :
    s.published ⊆ (dispatchEvents c i es s).session.published := by
  have hpass (j upTo : ℕ) (t : Session) : t.published ⊆ (intercept c j upTo t).published :=
    List.subset_append_left _ _
  have hstore (j : ℕ) (t : Session) : t.published ⊆ (storeSave c j t).published := by
    unfold storeSave
    split
    · exact hpass (j + 1) _ t
    · exact List.Subset.refl _
  have hfails (j : ℕ) (t : Session) : t.published ⊆ (storeSaveFails c j t).published := by
    unfold storeSaveFails
    split
    · exact hpass (j + 1) _ t
    · exact List.Subset.refl _
  induction es generalizing i s with
  | nil => exact List.Subset.refl _
  | cons e es ih =>
    simp only [dispatchEvents]
    cases c.faults.dispatch i with
    | encodeFails => exact List.Subset.refl _
    | writeFails => exact hfails i (trackRow e s)
    | handlerFails => exact hstore i (trackRow e s)
    | succeeds => exact List.Subset.trans (hstore i (trackRow e s)) (ih (i + 1) _)

/-- A save that gets past its own pass has published all events of that pass. -/
theorem saved_subset {c : Circumstances} (tracked : List Entry)
    (haudit : c.faults.auditFails = false) :
    (intercepted c tracked).published ⊆ (saved c tracked).published := by
  have hdispatch : (intercepted c tracked).published ⊆
      (dispatchDomainEvents c (intercepted c tracked)).session.published := by
    unfold dispatchDomainEvents
    split
    · exact List.Subset.refl _
    · exact dispatchEvents_subset c 0 _ (detached c tracked)
  have hwrite (t : Session) : (finalWrite c t).session.published = t.published := by
    unfold finalWrite
    split
    · rfl
    · split <;> rfl
  rw [saved, saveChangesAsync_of_pass c tracked haudit]
  dsimp only
  split
  · rw [hwrite]
    exact hdispatch
  · exact hdispatch

/-- For every creation that is committed an event was published. -/
theorem creation_published {c : Circumstances} {tracked : List Entry} {change : Change}
    (h : change ∈ (saved c tracked).database.entities) (hkind : change.kind = .create) :
    ∃ e ∈ tracked, e.state = .added ∧ e.type = change.type ∧ e.id = change.id ∧
      ∃ a ∈ (saved c tracked).published, MadeFrom e a := by
  obtain ⟨e, he, hchange⟩ := mem_pendingChanges.mp ((saved_sourced c tracked).committed _ h)
  obtain ⟨kind, hkind', rfl⟩ := Option.map_eq_some_iff.mp hchange
  obtain rfl : kind = .create := hkind
  have hadded : e.detectChanges.state = .added := by
    cases hs : e.detectChanges.state <;> simp [Entry.kind, hs] at hkind' ⊢
  have hstate : e.state = .added := by
    unfold Entry.detectChanges at hadded
    split at hadded
    · cases hadded
    · exact hadded
  have haudit : c.faults.auditFails = false := by
    by_contra hfails
    rw [saved, saveChangesAsync_of_auditFails c tracked (by simpa using hfails)] at h
    cases h
  refine ⟨e, he, hstate, rfl, rfl, auditEvent c.serialize c.request (c.utcNow 0)
    (stamp c.request (c.utcNow 0) e.detectChanges), saved_subset tracked haudit ?_, ?_⟩
  · refine List.mem_append_right _ ?_
    rw [updateEntitiesAsync_complete]
    refine List.mem_map_of_mem (List.mem_filter.mpr ⟨List.mem_map_of_mem he, ?_⟩)
    simp [Entry.isAuditable, hadded]
  · exact madeFrom_stamp _ _ _ e

/-- The events of a save carry the keys of their rows exactly if what it creates has its
key already. -/
theorem save_key_iff (c : Circumstances) (tracked : List Entry) :
    (∀ a row, PublishesFor c tracked a row → a.entityId = toString row.id) ↔
      ∀ change ∈ (saved c tracked).database.entities, change.kind = .create →
        c.generatedKey change.type change.id = change.id := by
  constructor
  · intro hkey change hchange hkind
    obtain ⟨e, he, hadded, htype, hid, a, ha, hmade⟩ := creation_published hchange hkind
    have hcommitted : ⟨e.type, e.id, .create⟩ ∈ (saved c tracked).database.entities := by
      rw [htype, hid, ← hkind]
      exact hchange
    have hrow : IsRow c tracked e ⟨e.type, c.generatedKey e.type e.id⟩ := by
      rw [IsRow, if_pos hadded]
      exact ⟨hcommitted, rfl⟩
    have hnamed := hkey a _ ⟨ha, e, he, hmade, hrow⟩
    rw [hmade.entityId, toString_inj] at hnamed
    rw [← htype, ← hid]
    exact hnamed.symm
  · rintro hpreset a row ⟨-, e, -, hmade, hrow⟩
    rw [hmade.entityId]
    unfold IsRow at hrow
    split at hrow
    · obtain ⟨hcommitted, rfl⟩ := hrow
      exact congrArg toString (hpreset _ hcommitted rfl).symm
    · rw [hrow]

/-- In a run every event carries the key of its row, and the keys tell the rows of a type
apart, exactly if nothing is created under another key than the tracker knew. -/
theorem identified_iff (rows : List Row) (tr : List Label) :
    Identified rows tr ↔ ∀ v ∈ visits step (start rows) tr, Preset v.1 v.2.1 := by
  constructor
  · rintro hidentified ⟨s, l, t⟩ hv
    cases l with
    | saveChangesAsync i c =>
      intro scope hscope
      refine (save_key_iff (within scope c) scope.tracked).mp fun a row hpublishes => ?_
      exact hidentified.key a row ⟨_, hv, i, c, scope, rfl, hscope, hpublishes⟩
    | _ => trivial
  · intro hpreset
    have hkey : ∀ a row, PublishedFor rows tr a row → a.entityId = toString row.id := by
      rintro a row ⟨⟨s, l, t⟩, hv, i, c, scope, rfl, hscope, hpublishes⟩
      have hstep := hpreset _ hv scope hscope
      exact (save_key_iff (within scope c) scope.tracked).mpr hstep a row hpublishes
    refine ⟨hkey, fun a b row other ha hb htype hne hsame => ?_⟩
    rw [hkey a row ha, hkey b other hb, toString_inj] at hsame
    cases row
    cases other
    obtain rfl := htype
    obtain rfl := hsame
    exact hne rfl

/-- The first key that the tracker makes up. -/
def temporaryKey : ℤ := -2147482647

/-- A product is created under the key 1, which the tracker did not know. -/
def creationTrace : List Label :=
  [.beginScope 0 false, .track 0 (.add .product temporaryKey []), .saveChangesAsync 0 undisturbed]

def newProduct : Entry := ⟨.product, temporaryKey, .added, true, [], [], []⟩

/-- The event of the creation carries the temporary key. -/
theorem creation_misnamed : ¬ ∀ (rows : List Row) (tr : List Label), Identified rows tr := by
  intro hall
  have hpublishes : PublishesFor (within ⟨false, [newProduct]⟩ undisturbed) [newProduct]
      (auditEvent (fun _ => "") undisturbed.request 0 newProduct) ⟨.product, 1⟩ := by
    refine ⟨List.mem_singleton.mpr rfl, newProduct, List.mem_singleton.mpr rfl,
      ⟨_, _, _, _, rfl, rfl, rfl⟩, ?_⟩
    have hadded : newProduct.state = .added := rfl
    rw [IsRow, if_pos hadded]
    exact ⟨by decide, rfl⟩
  have hkey := (hall [] creationTrace).key _ _
    ⟨_, List.mem_of_getLast? rfl, 0, undisturbed, ⟨false, [newProduct]⟩, rfl, rfl, hpublishes⟩
  have hsame : temporaryKey = 1 := toString_inj.mp hkey
  exact absurd hsame (by decide)

end AuditIdentity
