import ShoppingProject.OutboxLifecycle
import ShoppingProject.Slots

/-!
# Several processors over one outbox

Each instance loads a batch, works on its own copies, and writes at the end of the
pass the columns in which a copy differs from what was loaded, all in one
transaction. Passes interleave freely and may stop at any point. What the bus has
accepted is part of the state, so that a row marked as delivered can be compared
with it.
-/
namespace OutboxInstances

open DomainEvents (DateTime DomainEvent)
open Outbox OutboxProcessor Runs
open OutboxTable (OutboxMessages addEventAsync newRow cleanupProcessedMessagesAsync untried)
open OutboxLifecycle (ProcessedWithoutError processMessage_id)

/-- A loaded row and the copy that the pass has marked. -/
structure Tracked where
  loaded : OutboxMessage
  current : OutboxMessage

/-- A pass: the rows marked so far and the rows it has still to try. -/
structure Pass where
  marked : List Tracked
  remaining : List OutboxMessage

structure State where
  table : OutboxMessages
  passes : Slots Pass
  /-- The keys of the messages for which `PublishAsync` has returned. -/
  published : List Nat

def start : State := ⟨OutboxTable.empty, Slots.idle, []⟩

def column {α : Type} [DecidableEq α] (loaded current stored : α) : α :=
  if current = loaded then stored else current

/-- The row after an update of the columns that differ from the loaded ones. -/
def written (t : Tracked) (m : OutboxMessage) : OutboxMessage where
  id := m.id
  type := column t.loaded.type t.current.type m.type
  content := column t.loaded.content t.current.content m.content
  correlationId := column t.loaded.correlationId t.current.correlationId m.correlationId
  occurredOnUtc := column t.loaded.occurredOnUtc t.current.occurredOnUtc m.occurredOnUtc
  processedOnUtc := column t.loaded.processedOnUtc t.current.processedOnUtc m.processedOnUtc
  error := column t.loaded.error t.current.error m.error
  retryCount := column t.loaded.retryCount t.current.retryCount m.retryCount
  nextRetryUtc := column t.loaded.nextRetryUtc t.current.nextRetryUtc m.nextRetryUtc

def writeRow (marked : List Tracked) (m : OutboxMessage) : OutboxMessage :=
  match marked.find? fun t => t.loaded.id == m.id with
  | none => m
  | some t => written t m

theorem writeRow_id (marked : List Tracked) (m : OutboxMessage) :
    (writeRow marked m).id = m.id := by
  unfold writeRow
  split <;> rfl

/-- An update of a row that is gone fails, and with it the whole transaction. -/
def rowsExist (marked : List Tracked) (t : OutboxMessages) : Bool :=
  marked.all fun m => t.rows.any fun row => row.id == m.loaded.id

def writeRows (marked : List Tracked) (t : OutboxMessages) : OutboxMessages :=
  t.update (t.rows.map (writeRow marked)) (by simp [writeRow_id, Function.comp_def])

inductive Label where
  | add (correlationId : Option String) (e : DomainEvent) : Label
  /-- Something other than `AddEventAsync` stores a row. -/
  | insert (type : String) (content : Json) (correlationId : Option String)
    (occurredOnUtc : DateTime) : Label
  | cleanup (cutoffDate : DateTime) : Label
  | load (i : Nat) (order : ByOccurrence) (now : DateTime) : Label
  | attempt (i : Nat) (attempt : Attempt) (markedAt : DateTime) : Label
  | save (i : Nat) : Label
  /-- The process stops, or the save fails: the pass and its marks are gone. -/
  | stop (i : Nat) : Label

def loadBatch (order : ByOccurrence) (now : DateTime) (t : OutboxMessages) : List OutboxMessage :=
  ((order.arrange t.rows).take batchSize).filter (OutboxMessage.isEligible now)

def step (s : State) : Label → Option State
  | .add correlationId e => some { s with table := addEventAsync correlationId e s.table }
  | .insert type content correlationId occurredOnUtc =>
    some { s with
      table := OutboxTable.insert (untried type content correlationId occurredOnUtc) s.table }
  | .cleanup cutoffDate =>
    some { s with table := cleanupProcessedMessagesAsync cutoffDate s.table }
  | .load i order now => match s.passes i with
    | none => some { s with passes := s.passes.put i (some ⟨[], loadBatch order now s.table⟩) }
    | some _ => none
  | .attempt i attempt markedAt => match s.passes i with
    | some ⟨marked, m :: remaining⟩ => some
      { s with
        passes := s.passes.put i
          (some ⟨marked ++ [⟨m, processMessage attempt markedAt m⟩], remaining⟩)
        published := if attempt = .published then m.id :: s.published else s.published }
    | _ => none
  | .save i => match s.passes i with
    | some ⟨marked, []⟩ =>
      if rowsExist marked s.table then
        some { s with table := writeRows marked s.table, passes := s.passes.put i none }
      else none
    | _ => none
  | .stop i => match s.passes i with
    | some _ => some { s with passes := s.passes.put i none }
    | none => none

/-- Only a delivery leaves a row without an error. -/
theorem processMessage_error_none {attempt : Attempt} {utcNow : DateTime} {m : OutboxMessage}
    (h : (processMessage attempt utcNow m).error = none) : attempt = .published := by
  cases attempt with
  | published => rfl
  | typeNotFound => simp [processMessage, OutboxMessage.markAsFailed] at h
  | undecodable => simp [processMessage, OutboxMessage.markAsFailed] at h
  | threw error =>
    simp only [processMessage] at h
    split at h
    · simp [OutboxMessage.markAsDeadLetter] at h
    · simp [OutboxMessage.markAsFailed] at h

/-- What the table and the bus say about a row that a pass has loaded. If the row had
an error then, the stored error can have been cleared since by a delivery only. -/
structure LoadedGood (t : OutboxMessages) (published : List Nat) (a : OutboxMessage) : Prop where
  known : a.id < t.next
  cleared : a.error ≠ none → ∀ m ∈ t.rows, m.id = a.id → m.error = none → m.id ∈ published

structure MarkedGood (t : OutboxMessages) (published : List Nat) (x : Tracked) : Prop where
  loaded : LoadedGood t published x.loaded
  mark : ∃ attempt utcNow, x.current = processMessage attempt utcNow x.loaded ∧
    (attempt = .published → x.loaded.id ∈ published)

structure PassGood (t : OutboxMessages) (published : List Nat) (p : Pass) : Prop where
  remaining : ∀ a ∈ p.remaining, LoadedGood t published a
  marked : ∀ x ∈ p.marked, MarkedGood t published x

structure Good (s : State) : Prop where
  delivered : ∀ m ∈ s.table.rows, ProcessedWithoutError m → m.id ∈ s.published
  inFlight : s.passes.All (PassGood s.table s.published)

/-- Passes stay good when what is said about loaded rows stays true. -/
theorem PassGood.mono {t t' : OutboxMessages} {published published' : List Nat} {p : Pass}
    (h : PassGood t published p)
    (hloaded : ∀ a, LoadedGood t published a → LoadedGood t' published' a)
    (hpublished : ∀ n ∈ published, n ∈ published') : PassGood t' published' p := by
  refine ⟨fun a ha => hloaded a (h.remaining a ha), fun x hx => ?_⟩
  obtain ⟨hx, attempt, utcNow, hcurrent, hmark⟩ := h.marked x hx
  exact ⟨hloaded _ hx, attempt, utcNow, hcurrent, fun hp => hpublished _ (hmark hp)⟩

theorem LoadedGood.insert {t : OutboxMessages} {published : List Nat} {a : OutboxMessage}
    (h : LoadedGood t published a) (row : OutboxMessage) :
    LoadedGood (OutboxTable.insert row t) published a := by
  refine ⟨Nat.lt_succ_of_lt h.known, ?_⟩
  intro herror m hm hid hnone
  rcases OutboxTable.mem_insert.mp hm with hm | rfl
  · exact h.cleared herror m hm hid hnone
  · have hnew : t.next = a.id := hid
    have hknown := h.known
    omega

theorem LoadedGood.cleanup {t : OutboxMessages} {published : List Nat} {a : OutboxMessage}
    (h : LoadedGood t published a) (cutoffDate : DateTime) :
    LoadedGood (cleanupProcessedMessagesAsync cutoffDate t) published a :=
  ⟨h.known, fun herror m hm => h.cleared herror m (List.mem_filter.mp hm).1⟩

theorem LoadedGood.publish {t : OutboxMessages} {published published' : List Nat}
    {a : OutboxMessage} (h : LoadedGood t published a)
    (hpublished : ∀ n ∈ published, n ∈ published') : LoadedGood t published' a :=
  ⟨h.known, fun herror m hm hid hnone =>
    hpublished _ (h.cleared herror m hm hid hnone)⟩

/-- An update clears the stored error only if the copy was marked as delivered. -/
theorem written_error_none {x : Tracked} {m : OutboxMessage} (h : (written x m).error = none) :
    m.error = none ∨ (x.current.error = none ∧ x.loaded.error ≠ none) := by
  simp only [written, column] at h
  by_cases hsame : x.current.error = x.loaded.error
  · rw [if_pos hsame] at h
    exact .inl h
  · rw [if_neg hsame] at h
    refine .inr ⟨h, fun hloaded => ?_⟩
    apply hsame
    rw [h, hloaded]

/-- The two ways in which an update can leave a row that looks delivered. -/
theorem written_delivered {x : Tracked} {m : OutboxMessage}
    (h : ProcessedWithoutError (written x m)) :
    x.current.error = none ∨ (x.loaded.error ≠ none ∧ m.error = none) := by
  have herror := h.2
  rcases written_error_none herror with hm | ⟨hcurrent, -⟩
  · by_cases hloaded : x.loaded.error = none
    · by_cases hcurrent : x.current.error = none
      · exact .inl hcurrent
      · -- the error column is written, and what is written is not null
        have hdiff : x.current.error ≠ x.loaded.error := by
          rw [hloaded]
          exact hcurrent
        simp only [written, column, if_neg hdiff] at herror
        exact absurd herror hcurrent
    · exact .inr ⟨hloaded, hm⟩
  · exact .inl hcurrent

theorem MarkedGood.published_of_error_none {t : OutboxMessages} {published : List Nat}
    {x : Tracked} (h : MarkedGood t published x) (hnone : x.current.error = none) :
    x.loaded.id ∈ published := by
  obtain ⟨attempt, utcNow, hcurrent, hmark⟩ := h.mark
  rw [hcurrent] at hnone
  exact hmark (processMessage_error_none hnone)

/-- A row after a save is as it was, or one marked row of its key was written to it. -/
theorem writeRow_cases (marked : List Tracked) (m : OutboxMessage) :
    writeRow marked m = m ∨
      ∃ x ∈ marked, x.loaded.id = m.id ∧ writeRow marked m = written x m := by
  unfold writeRow
  split
  · exact .inl rfl
  · rename_i x hfind
    have hid : x.loaded.id = m.id := by simpa using List.find?_some hfind
    exact .inr ⟨x, List.mem_of_find?_eq_some hfind, hid, rfl⟩

theorem LoadedGood.write {t : OutboxMessages} {published : List Nat} {a : OutboxMessage}
    {marked : List Tracked} (h : LoadedGood t published a)
    (hmarked : ∀ x ∈ marked, MarkedGood t published x) :
    LoadedGood (writeRows marked t) published a := by
  refine ⟨h.known, ?_⟩
  intro herror m' hm' hid hnone
  obtain ⟨m, hm, rfl⟩ := List.mem_map.mp hm'
  rw [writeRow_id] at hid ⊢
  rcases writeRow_cases marked m with heq | ⟨x, hx, hxid, heq⟩
  · rw [heq] at hnone
    exact h.cleared herror m hm hid hnone
  · rw [heq] at hnone
    rcases written_error_none hnone with hnone | ⟨hnone, -⟩
    · exact h.cleared herror m hm hid hnone
    · rw [← hxid]
      exact (hmarked x hx).published_of_error_none hnone

/-- After a save every row that looks delivered has been published. -/
theorem write_delivered {s : State} {marked : List Tracked} (h : Good s)
    (hmarked : ∀ x ∈ marked, MarkedGood s.table s.published x) :
    ∀ m ∈ (writeRows marked s.table).rows, ProcessedWithoutError m → m.id ∈ s.published := by
  intro m' hm' hdelivered
  obtain ⟨m, hm, rfl⟩ := List.mem_map.mp hm'
  rw [writeRow_id]
  rcases writeRow_cases marked m with heq | ⟨x, hx, hxid, heq⟩
  · rw [heq] at hdelivered
    exact h.delivered m hm hdelivered
  · rw [heq] at hdelivered
    have hgood := hmarked x hx
    rcases written_delivered hdelivered with hnone | ⟨herror, hnone⟩
    · rw [← hxid]
      exact hgood.published_of_error_none hnone
    · exact hgood.loaded.cleared herror m hm hxid.symm hnone

theorem mem_loadBatch {order : ByOccurrence} {now : DateTime} {t : OutboxMessages}
    {m : OutboxMessage} (h : m ∈ loadBatch order now t) : m ∈ t.rows :=
  (order.arranged t.rows).mem_iff.mp (List.mem_of_mem_take (List.mem_filter.mp h).1)

/-- A freshly loaded row is one of the stored rows. -/
theorem loadBatch_good {order : ByOccurrence} {now : DateTime} {t : OutboxMessages}
    {published : List Nat} {a : OutboxMessage} (h : a ∈ loadBatch order now t) :
    LoadedGood t published a := by
  have ha := mem_loadBatch h
  refine ⟨t.bounded a ha, ?_⟩
  intro herror m hm hid hnone
  rw [t.key_injective hm ha hid] at hnone
  exact absurd hnone herror

/-- The pass has tried its next message, and published it if nothing went wrong. -/
theorem PassGood.attempt {t : OutboxMessages} {published : List Nat} {marked : List Tracked}
    {m : OutboxMessage} {remaining : List OutboxMessage}
    (h : PassGood t published ⟨marked, m :: remaining⟩) {attempt : Attempt} (markedAt : DateTime)
    (hpublished : attempt = .published → m.id ∈ published) :
    PassGood t published ⟨marked ++ [⟨m, processMessage attempt markedAt m⟩], remaining⟩ := by
  refine ⟨fun a ha => h.remaining a (List.mem_cons_of_mem _ ha), ?_⟩
  intro x hx
  rcases List.mem_append.mp hx with hx | hx
  · exact h.marked x hx
  · obtain rfl := List.mem_singleton.mp hx
    exact ⟨h.remaining m List.mem_cons_self, attempt, markedAt, rfl, hpublished⟩

/-- A row that is inserted unprocessed is not one that looks delivered. -/
theorem Good.insert {s : State} (h : Good s) {row : OutboxMessage}
    (hrow : row.processedOnUtc = none) :
    Good { s with table := OutboxTable.insert row s.table } := by
  refine ⟨?_, h.inFlight.mono fun p hp => hp.mono (fun a ha => ha.insert row) fun _ hn => hn⟩
  intro m hm hdelivered
  rcases OutboxTable.mem_insert.mp hm with hm | rfl
  · exact h.delivered m hm hdelivered
  · have hprocessed : row.processedOnUtc.isSome = true := hdelivered.1
    rw [hrow] at hprocessed
    cases hprocessed

theorem step_good {s s' : State} {l : Label} (h : Good s) (hstep : step s l = some s') :
    Good s' := by
  cases l with
  | add correlationId e =>
    cases hstep
    exact h.insert rfl
  | insert type content correlationId occurredOnUtc =>
    cases hstep
    exact h.insert rfl
  | cleanup cutoffDate =>
    cases hstep
    refine ⟨?_, h.inFlight.mono fun p hp => hp.mono (fun a ha => ha.cleanup _) fun _ hn => hn⟩
    exact fun m hm => h.delivered m (List.mem_filter.mp hm).1
  | load i order now =>
    simp only [step] at hstep
    split at hstep
    · cases hstep
      exact ⟨h.delivered, h.inFlight.start i
        ⟨fun a ha => loadBatch_good ha, fun x hx => absurd hx List.not_mem_nil⟩⟩
    · cases hstep
  | attempt i attempt markedAt =>
    simp only [step] at hstep
    split at hstep
    · rename_i marked m remaining hi
      cases hstep
      have hmono : ∀ n ∈ s.published,
          n ∈ if attempt = .published then m.id :: s.published else s.published := by
        intro n hn
        split
        · exact List.mem_cons_of_mem _ hn
        · exact hn
      refine ⟨fun m' hm' hd => hmono _ (h.delivered m' hm' hd), ?_⟩
      have hpasses := h.inFlight.mono fun p hp => hp.mono (fun a ha => ha.publish hmono) hmono
      apply hpasses.start i
      apply (hpasses i _ hi).attempt markedAt
      intro hattempt
      rw [if_pos hattempt]
      exact List.mem_cons_self
    · cases hstep
  | save i =>
    simp only [step] at hstep
    split at hstep
    · rename_i marked hi
      obtain ⟨-, rfl⟩ := guarded hstep
      have hmarked := (h.inFlight i _ hi).marked
      refine ⟨write_delivered h hmarked, ?_⟩
      exact (h.inFlight.mono fun p hp => hp.mono (fun a ha => ha.write hmarked)
        fun _ hn => hn).finish i
    · cases hstep
  | stop i =>
    simp only [step] at hstep
    split at hstep
    · cases hstep
      exact ⟨h.delivered, h.inFlight.finish i⟩
    · cases hstep

theorem start_good : Good start := by
  refine ⟨?_, Slots.all_idle _⟩
  intro m hm
  cases hm

/-- No step changes both the table and what has been published. -/
theorem step_separates {s s' : State} {l : Label} (hstep : step s l = some s') :
    s'.published = s.published ∨ s'.table = s.table := by
  cases l with
  | add correlationId e => cases hstep; exact .inl rfl
  | insert => cases hstep; exact .inl rfl
  | cleanup cutoffDate => cases hstep; exact .inl rfl
  | load i order now =>
    simp only [step] at hstep
    split at hstep <;> cases hstep
    exact .inl rfl
  | attempt i attempt markedAt =>
    simp only [step] at hstep
    split at hstep <;> cases hstep
    exact .inr rfl
  | save i =>
    simp only [step] at hstep
    split at hstep
    · obtain ⟨-, rfl⟩ := guarded hstep
      exact .inl rfl
    · cases hstep
  | stop i =>
    simp only [step] at hstep
    split at hstep <;> cases hstep
    exact .inl rfl

/-- Whatever the instances write over each other, a row stored as processed without an
error had been published before the step after which it is stored so. -/
theorem delivered_after_published (tr : List Label) : ∀ v ∈ visits step start tr,
    ∀ m ∈ v.2.2.table.rows, ProcessedWithoutError m → m.id ∈ v.1.published := by
  intro v hv m hm hdelivered
  obtain ⟨hbefore, hstep, hafter⟩ := visits_invariant Good (fun _ _ => True)
    (fun s l t h _ hl => step_good h hl) start_good (fun _ _ => trivial) v hv
  rcases step_separates hstep with hpublished | htable
  · rw [← hpublished]
    exact hafter.delivered m hm hdelivered
  · rw [htable] at hm
    exact hbefore.delivered m hm hdelivered

/-- Two instances load a row whose type is found, and both deliver it. -/
def sharedTrace : List Label :=
  [.insert OutboxEncoding.cartClearedType (.obj []) none 0,
    .load 0 OutboxLifecycle.insertionOrder 1, .load 1 OutboxLifecycle.insertionOrder 2,
    .attempt 0 .published 3, .save 0, .attempt 1 .published 4, .save 1]

theorem delivered_after_published_shared : ∃ v ∈ visits step start sharedTrace,
    ∃ m ∈ v.2.2.table.rows, ProcessedWithoutError m ∧ m.id ∈ v.1.published := by
  have hdelivered : ∃ v ∈ visits step start sharedTrace, ∃ m ∈ v.2.2.table.rows,
      ProcessedWithoutError m := by decide
  obtain ⟨v, hv, m, hm, hd⟩ := hdelivered
  exact ⟨v, hv, m, hm, hd, delivered_after_published sharedTrace v hv m hm hd⟩

/-- The labels of a pass that nothing disturbs. -/
def passLabels (i : Nat) (order : ByOccurrence) (env : Environment) (t : OutboxMessages) :
    List Label :=
  .load i order env.now ::
    ((loadBatch order env.now t).map fun m => .attempt i (env.attempt m) (env.markedAt m)) ++
    [.save i]

def markedBy (env : Environment) (m : OutboxMessage) : Tracked :=
  ⟨m, processMessage (env.attempt m) (env.markedAt m) m⟩

/-- The loop of a pass marks every row of its batch. -/
theorem run_attempts (i : Nat) (env : Environment) (s : State) (marked : List Tracked)
    (batch : List OutboxMessage) : ∃ published,
    run step { s with passes := s.passes.put i (some ⟨marked, batch⟩) }
        (batch.map fun m => .attempt i (env.attempt m) (env.markedAt m)) =
      some ⟨s.table, s.passes.put i (some ⟨marked ++ batch.map (markedBy env), []⟩),
        published⟩ := by
  induction batch generalizing s marked with
  | nil => exact ⟨s.published, by simp⟩
  | cons m batch ih =>
    obtain ⟨published, hrun⟩ := ih
      { s with published := if env.attempt m = .published then m.id :: s.published
                            else s.published }
      (marked ++ [markedBy env m])
    refine ⟨published, ?_⟩
    rw [List.map_cons, run_cons]
    simp only [step, Slots.put_same, Slots.put_put, Option.bind_some]
    rw [show marked ++ [⟨m, processMessage (env.attempt m) (env.markedAt m) m⟩] =
      marked ++ [markedBy env m] from rfl, hrun]
    simp

/-- Nothing was written to the row since it was loaded. -/
theorem written_loaded (m current : OutboxMessage) (h : current.id = m.id) :
    written ⟨m, current⟩ m = current := by
  have hcolumn : ∀ {α : Type} [DecidableEq α] (a b : α), column a b a = b := by
    intro α _ a b
    by_cases hab : b = a <;> simp [column, hab]
  cases current
  simp only [written, hcolumn]
  exact congrArg (fun k => (⟨k, _, _, _, _, _, _, _, _⟩ : OutboxMessage)) h.symm

/-- If the table is as it was loaded, saving replaces the rows of the batch. -/
theorem writeRow_loaded {rows batch : List OutboxMessage} (env : Environment)
    (hkeys : ∀ a ∈ batch, ∀ b ∈ rows, a.id = b.id → a = b) {m : OutboxMessage} (hm : m ∈ rows) :
    writeRow (batch.map (markedBy env)) m =
      if m ∈ batch then processMessage (env.attempt m) (env.markedAt m) m else m := by
  unfold writeRow
  split
  · rename_i hnone
    have hout : m ∉ batch := by
      intro hin
      have hne := List.find?_eq_none.mp hnone _ (List.mem_map_of_mem hin)
      exact hne (by simp [markedBy])
    rw [if_neg hout]
  · rename_i x hfind
    obtain ⟨a, ha, rfl⟩ := List.mem_map.mp (List.mem_of_find?_eq_some hfind)
    have hid : a.id = m.id := by simpa [markedBy] using List.find?_some hfind
    obtain rfl := hkeys a ha m hm hid
    rw [if_pos ha]
    exact written_loaded a _ (processMessage_id _ _ _)

theorem writeRows_loaded (order : ByOccurrence) {env : Environment} (t : OutboxMessages)
    (hsaved : env.saved = true) :
    t.rows.map (writeRow ((loadBatch order env.now t).map (markedBy env))) =
      (processOutboxMessagesAsync order env t.rows).table := by
  have hkeys : ∀ a ∈ loadBatch order env.now t, ∀ b ∈ t.rows, a.id = b.id → a = b :=
    fun a ha b hb => t.key_injective (mem_loadBatch ha) hb
  have hwrite : t.rows.map (writeRow ((loadBatch order env.now t).map (markedBy env))) =
      t.rows.map fun m => if m ∈ loadBatch order env.now t then
        processMessage (env.attempt m) (env.markedAt m) m else m :=
    List.map_congr_left fun m hm => writeRow_loaded env hkeys hm
  rw [hwrite]
  simp only [processOutboxMessagesAsync, hsaved, if_true]
  split
  · rename_i hempty
    have hnil : loadBatch order env.now t = [] := List.isEmpty_iff.mp hempty
    simp [hnil]
  · simp only [saveChanges, processMessages, List.map_map, Function.comp_def]
    apply List.map_congr_left
    intro m hm
    exact (OutboxLifecycle.saved_row (fun m => processMessage (env.attempt m) (env.markedAt m) m)
      (fun m => processMessage_id _ _ m) hkeys hm).symm

/-- An undisturbed pass of one instance is the pass of the sequential processor. -/
theorem undisturbed_pass {s : State} {i : Nat} (order : ByOccurrence) {env : Environment}
    (hidle : s.passes i = none) (hsaved : env.saved = true) :
    ∃ s', run step s (passLabels i order env s.table) = some s' ∧
      s'.table.rows = (processOutboxMessagesAsync order env s.table.rows).table ∧
      s'.passes = s.passes := by
  obtain ⟨published, hrun⟩ := run_attempts i env s [] (loadBatch order env.now s.table)
  let marked := (loadBatch order env.now s.table).map (markedBy env)
  have hexist : rowsExist marked s.table = true := by
    simp only [rowsExist, List.all_eq_true, List.any_eq_true, beq_iff_eq]
    intro x hx
    obtain ⟨m, hm, rfl⟩ := List.mem_map.mp hx
    exact ⟨m, mem_loadBatch hm, rfl⟩
  refine ⟨⟨writeRows marked s.table, s.passes, published⟩, ?_, ?_, rfl⟩
  · have hload : step s (.load i order env.now) =
        some { s with passes := s.passes.put i (some ⟨[], loadBatch order env.now s.table⟩) } := by
      simp [step, hidle]
    rw [passLabels, List.cons_append, run_cons, hload, Option.bind_some, run_append, hrun,
      Option.bind_some, List.nil_append]
    simp [step, marked, hexist, Slots.put_idle s.passes hidle]
  · exact writeRows_loaded order s.table hsaved

/-- What a pass meets in which everything succeeds. -/
def quiet : Environment := ⟨1, fun _ => .published, fun _ => 3, true⟩

/-- One row waits, and its type is found. -/
def waiting : State :=
  { start with
    table := OutboxTable.insert (untried OutboxEncoding.cartClearedType (.obj []) none 0)
      start.table }

theorem first_pass_undisturbed : ∃ s', run step waiting
      (passLabels 0 OutboxLifecycle.insertionOrder quiet waiting.table) = some s' ∧
    s'.table.rows = (processOutboxMessagesAsync OutboxLifecycle.insertionOrder quiet
      waiting.table.rows).table ∧ s'.passes = waiting.passes :=
  undisturbed_pass OutboxLifecycle.insertionOrder rfl rfl

end OutboxInstances
