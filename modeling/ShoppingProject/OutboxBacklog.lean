import ShoppingProject.OutboxLifecycle

/-!
# What becomes of the outbox in operation

The passes of the processor as they are deployed: each tries its rows with what `Type.GetType`
and the serializer of some runtime make of them. No type is found, so no row is ever processed,
no clean-up ever deletes one, and the twenty oldest rows are all that is ever tried.
-/
namespace OutboxBacklog

open DomainEvents (DateTime DomainEvent)
open OrderedQueries Outbox OutboxProcessor OutboxEncoding OutboxLifecycle Runs
open OutboxTable (OutboxMessages addEventAsync newRow cleanupProcessedMessagesAsync
  mem_addEventAsync)

/-- The passes are those of a runtime, and all rows come from `AddEventAsync`. -/
def Deployed : Label → Prop
  | .pass _ env => ∃ rt, env.attempt = attempt rt
  | .add _ _ | .cleanup _ => True
  | .insert _ _ _ _ => False

/-- The columns that `AddEventAsync` fills. -/
def recorded (m : OutboxMessage) : String × Json × Option String × DateTime :=
  (m.type, m.content, m.correlationId, m.occurredOnUtc)

/-- The rows of the events that a run adds. -/
def added (tr : List Label) : List OutboxMessage := tr.filterMap fun l =>
  match l with
  | .add correlationId e => some (outboxMessage correlationId e)
  | .insert _ _ _ _ | .pass _ _ | .cleanup _ => none

/-- A row of an event that has been tried up to five times, always without finding its type. -/
structure Undelivered (m : OutboxMessage) : Prop where
  type : ∃ b : DomainEvents.EventBody, m.type = b.fullName
  unprocessed : m.processedOnUtc = none
  bound : 0 ≤ m.retryCount ∧ m.retryCount ≤ 5
  error : m.error =
    if m.retryCount = 0 then none else some ("Event type " ++ m.type ++ " not found")

theorem attempt_undelivered (rt : Runtime) {m : OutboxMessage} (h : Undelivered m) :
    attempt rt m = .typeNotFound := by
  obtain ⟨b, hb⟩ := h.type
  rw [attempt, hb, getType_fullName]

theorem undelivered_failed {m : OutboxMessage} (h : Undelivered m) (hcount : m.retryCount < 5)
    (utcNow : DateTime) : Undelivered (processMessage .typeNotFound utcNow m) := by
  refine ⟨h.type, h.unprocessed, ?_, ?_⟩
  · have hbound := h.bound.1
    simp only [processMessage, OutboxMessage.markAsFailed]
    omega
  · have hne : m.retryCount + 1 ≠ 0 := by
      have hbound := h.bound.1
      omega
    simp [processMessage, OutboxMessage.markAsFailed, hne]

theorem undelivered_outboxMessage (correlationId : Option String) (e : DomainEvent) (id : Nat) :
    Undelivered { outboxMessage correlationId e with id := id } :=
  ⟨⟨e.body, rfl⟩, rfl, by simp [outboxMessage], rfl⟩

/-- What a deployed pass leaves of an undelivered row. -/
theorem pass_row {order : ByOccurrence} {env : Environment} {t : OutboxMessages} {rt : Runtime}
    (hrt : env.attempt = attempt rt) {m : OutboxMessage} (h : Undelivered m) :
    Undelivered (if env.saved = true ∧
        m ∈ (processOutboxMessagesAsync order env t.rows).attempted then
      processMessage (env.attempt m) (env.markedAt m) m else m) := by
  split
  · rename_i htried
    have helig := (mem_attempted htried.2).2
    rw [hrt, attempt_undelivered rt h]
    refine undelivered_failed h ?_ _
    simp only [OutboxMessage.isEligible, OutboxMessage.canRetry, Bool.and_eq_true,
      decide_eq_true_eq] at helig
    exact helig.2.1
  · exact h

theorem recorded_processMessage (attempt : Attempt) (utcNow : DateTime) (m : OutboxMessage) :
    recorded (processMessage attempt utcNow m) = recorded m := by
  cases attempt with
  | threw error =>
    simp only [processMessage]
    split <;> rfl
  | _ => rfl

theorem recorded_pass (order : ByOccurrence) (env : Environment) (t : OutboxMessages) :
    (processOutboxMessagesAsync order env t.rows).table.map recorded = t.rows.map recorded := by
  rw [pass_rows, List.map_map]
  refine List.map_congr_left fun m _ => ?_
  rw [Function.comp_apply]
  split
  · exact recorded_processMessage _ _ m
  · rfl

/-- A clean-up finds nothing to delete. -/
theorem cleanup_rows {t : OutboxMessages} (h : ∀ m ∈ t.rows, Undelivered m)
    (cutoffDate : DateTime) : (cleanupProcessedMessagesAsync cutoffDate t).rows = t.rows := by
  refine List.filter_eq_self.mpr fun m hm => ?_
  simp [OutboxTable.isOld, (h m hm).unprocessed]

theorem next_undelivered {t : OutboxMessages} {l : Label} (h : ∀ m ∈ t.rows, Undelivered m)
    (hl : Deployed l) : ∀ m ∈ (next t l).rows, Undelivered m := by
  intro m hm
  cases l with
  | add correlationId e =>
    rcases mem_addEventAsync.mp hm with hm | rfl
    · exact h m hm
    · exact undelivered_outboxMessage correlationId e t.next
  | insert => exact hl.elim
  | pass order env =>
    obtain ⟨rt, hrt⟩ := hl
    have hm : m ∈ (processOutboxMessagesAsync order env t.rows).table := hm
    rw [pass_rows] at hm
    obtain ⟨m', hm', rfl⟩ := List.mem_map.mp hm
    exact pass_row hrt (h m' hm')
  | cleanup cutoffDate =>
    have hm : m ∈ (cleanupProcessedMessagesAsync cutoffDate t).rows := hm
    rw [cleanup_rows h] at hm
    exact h m hm

theorem next_recorded {t : OutboxMessages} {l : Label} (h : ∀ m ∈ t.rows, Undelivered m)
    (hl : Deployed l) :
    (next t l).rows.map recorded = t.rows.map recorded ++ (added [l]).map recorded := by
  cases l with
  | add correlationId e => simp [next, addEventAsync, OutboxTable.insert, added, recorded]
  | insert => exact hl.elim
  | pass order env =>
    have hpass := recorded_pass order env t
    simpa [next, OutboxMessages.update, added] using hpass
  | cleanup cutoffDate =>
    have hrows := cleanup_rows h cutoffDate
    simp [next, hrows, added]

theorem added_cons (l : Label) (tr : List Label) : added (l :: tr) = added [l] ++ added tr := by
  rw [← List.singleton_append, added, List.filterMap_append]
  rfl

/-- From rows that are undelivered a run keeps all of them, and adds those of its events. -/
theorem run_undelivered {t u : OutboxMessages} {tr : List Label}
    (h : ∀ m ∈ t.rows, Undelivered m) (htr : ∀ l ∈ tr, Deployed l)
    (hrun : run step t tr = some u) :
    (∀ m ∈ u.rows, Undelivered m) ∧
      u.rows.map recorded = t.rows.map recorded ++ (added tr).map recorded := by
  induction tr generalizing t with
  | nil =>
    obtain rfl : t = u := by simpa using hrun
    exact ⟨h, by simp [added]⟩
  | cons l tr ih =>
    rw [List.forall_mem_cons] at htr
    have hnext := next_undelivered h htr.1
    obtain ⟨hrows, hrecorded⟩ := ih hnext htr.2 hrun
    refine ⟨hrows, ?_⟩
    rw [hrecorded, next_recorded h htr.1, added_cons l tr, List.map_append, List.append_assoc]

/-- In operation the outbox is a log: after any adds, passes and clean-ups it has the row of
every event that was ever added, in their order, and not one of them has been delivered. -/
theorem outbox_is_log {tr : List Label} {u : OutboxMessages} (htr : ∀ l ∈ tr, Deployed l)
    (hrun : run step OutboxTable.empty tr = some u) :
    u.rows.map recorded = (added tr).map recorded ∧ ∀ m ∈ u.rows, Undelivered m := by
  have hempty : ∀ m ∈ OutboxTable.empty.rows, Undelivered m := by simp [OutboxTable.empty]
  obtain ⟨hrows, hrecorded⟩ := run_undelivered hempty htr hrun
  exact ⟨by simpa [OutboxTable.empty] using hrecorded, hrows⟩

/-- Clearing cart 7, tried once. -/
def clearedAndTried : List Label :=
  [.add none ⟨0, .cartCleared 7⟩, .pass insertionOrder ⟨0, attempt sampleRuntime, fun _ => 0, true⟩]

theorem deployed_clearedAndTried : ∀ l ∈ clearedAndTried, Deployed l := by
  simp only [clearedAndTried, List.forall_mem_cons]
  exact ⟨trivial, ⟨sampleRuntime, rfl⟩, by simp⟩

theorem cleared_still_logged : ∃ u, run step OutboxTable.empty clearedAndTried = some u ∧
    u.rows.map recorded = (added clearedAndTried).map recorded ∧ ∀ m ∈ u.rows, Undelivered m :=
  ⟨_, rfl, outbox_is_log deployed_clearedAndTried rfl⟩

/-! ## Behind twenty older rows -/

/-- The rows that come before a time in every order by `OccurredOnUtc`. -/
def older (instant : DateTime) (t : OutboxMessages) : Nat :=
  t.rows.countP fun m => m.occurredOnUtc < instant

theorem not_attempted {order : ByOccurrence} {env : Environment} {t : OutboxMessages}
    {m : OutboxMessage} (h : batchSize ≤ older m.occurredOnUtc t) :
    m ∉ (processOutboxMessagesAsync order env t.rows).attempted := by
  rw [attempted_eq]
  intro hm
  have hcount := (order.arranged t.rows).count_older (List.mem_filter.mp hm).1
  unfold older at h
  omega

theorem older_eq (instant : DateTime) (t : OutboxMessages) :
    older instant t = (t.rows.map recorded).countP fun r => r.2.2.2 < instant := by
  rw [older, List.countP_map]
  rfl

theorem older_next {t : OutboxMessages} {l : Label} (h : ∀ m ∈ t.rows, Undelivered m)
    (hl : Deployed l) (instant : DateTime) : older instant t ≤ older instant (next t l) := by
  rw [older_eq, older_eq, next_recorded h hl, List.countP_append]
  exact Nat.le_add_right _ _

/-- A step leaves a row behind twenty older ones as it is. -/
theorem next_behind {t : OutboxMessages} {l : Label} (h : ∀ m ∈ t.rows, Undelivered m)
    {m : OutboxMessage} (hm : m ∈ t.rows) (hbehind : batchSize ≤ older m.occurredOnUtc t) :
    m ∈ (next t l).rows := by
  cases l with
  | add correlationId e => exact mem_addEventAsync.mpr (.inl hm)
  | insert => exact OutboxTable.mem_insert.mpr (.inl hm)
  | pass order env =>
    show m ∈ (processOutboxMessagesAsync order env t.rows).table
    rw [pass_rows, List.mem_map]
    exact ⟨m, hm, if_neg fun htried => not_attempted hbehind htried.2⟩
  | cleanup cutoffDate =>
    show m ∈ (cleanupProcessedMessagesAsync cutoffDate t).rows
    rwa [cleanup_rows h]

/-- In operation an event that is added behind twenty older ones is never even tried: its row
stays for ever as it was written. -/
theorem never_tried {tr tr' : List Label} {t u : OutboxMessages} {correlationId : Option String}
    {e : DomainEvent} (htr : ∀ l ∈ tr, Deployed l) (htr' : ∀ l ∈ tr', Deployed l)
    (hrun : run step OutboxTable.empty tr = some t) (hbehind : batchSize ≤ older e.occurredOnUtc t)
    (hrun' : run step t (.add correlationId e :: tr') = some u) :
    newRow t correlationId e ∈ u.rows := by
  have hrows := (run_undelivered (by simp [OutboxTable.empty]) htr hrun).1
  have hnew := next_undelivered (l := .add correlationId e) hrows trivial
  have hmore := older_next (l := .add correlationId e) hrows trivial e.occurredOnUtc
  have hend := run_keeps
    (fun v : OutboxMessages => (∀ m ∈ v.rows, Undelivered m) ∧
      newRow t correlationId e ∈ v.rows ∧ batchSize ≤ older e.occurredOnUtc v)
    Deployed ?_ ⟨hnew, mem_addEventAsync.mpr (.inr rfl), hbehind.trans hmore⟩ htr' hrun'
  · exact hend.2.1
  · rintro v l w ⟨hv, hmem, holder⟩ hl hstep
    obtain rfl : next v l = w := Option.some.inj hstep
    exact ⟨next_undelivered hv hl, next_behind hv hmem holder, holder.trans (older_next hv hl _)⟩

/-- Twenty events, one at each instant. -/
def twenty : List Label := (List.range 20).map fun n => .add none ⟨n, .cartCleared n⟩

theorem deployed_twenty : ∀ l ∈ twenty, Deployed l := by
  intro l hl
  obtain ⟨n, -, rfl⟩ := List.mem_map.mp hl
  trivial

theorem twenty_first_waits : ∃ t u, run step OutboxTable.empty twenty = some t ∧
    run step t [.add none ⟨20, .cartCleared 20⟩, .cleanup 30] = some u ∧
      newRow t none ⟨20, .cartCleared 20⟩ ∈ u.rows :=
  ⟨_, _, rfl, rfl, never_tried deployed_twenty
    (show ∀ l ∈ [Label.cleanup 30], Deployed l by simp [Deployed]) rfl (by decide) rfl⟩

end OutboxBacklog
