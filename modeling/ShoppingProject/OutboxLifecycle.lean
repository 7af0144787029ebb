import ShoppingProject.OutboxTable
import ShoppingProject.Runs

/-!
# The life of an outbox row

Rows are added, passes mark the rows they try, clean-ups delete processed rows.
A row should always be delivered, given up, or due again at some time. Failures
are counted on three branches of the loop, and only one of them looks at the
limit: these are the marks that strand a row.
-/
namespace OutboxLifecycle

open DomainEvents (DateTime DomainEvent)
open OrderedQueries Outbox OutboxProcessor Runs
open OutboxTable (OutboxMessages addEventAsync newRow cleanupProcessedMessagesAsync untried)

def ProcessedWithoutError (m : OutboxMessage) : Prop :=
  m.processedOnUtc.isSome = true ∧ m.error = none

instance (m : OutboxMessage) : Decidable (ProcessedWithoutError m) :=
  inferInstanceAs (Decidable (_ ∧ _))

def DeadLettered (m : OutboxMessage) : Prop :=
  m.processedOnUtc.isSome = true ∧ m.error.isSome = true

/-- However late it is, there is a time from which the row may be tried. -/
def EligibleLater (m : OutboxMessage) : Prop :=
  ∀ now : DateTime, ∃ later, now ≤ later ∧ m.isEligible later = true

def ExactlyOne (a b c : Prop) : Prop := (a ∧ ¬ b ∧ ¬ c) ∨ (¬ a ∧ b ∧ ¬ c) ∨ (¬ a ∧ ¬ b ∧ c)

structure Accounted (m : OutboxMessage) : Prop where
  one : ExactlyOne (ProcessedWithoutError m) (DeadLettered m) (EligibleLater m)
  notStuck : m.isProcessed = false → m.retryCount < 5

theorem eligibleLater_iff (m : OutboxMessage) :
    EligibleLater m ↔ m.isProcessed = false ∧ m.retryCount < 5 := by
  constructor
  · intro h
    obtain ⟨later, -, helig⟩ := h 0
    simp only [OutboxMessage.isEligible, OutboxMessage.canRetry, Bool.and_eq_true,
      Bool.not_eq_true', decide_eq_true_eq] at helig
    exact ⟨helig.1, helig.2.1⟩
  · rintro ⟨hprocessed, hcount⟩ now
    cases hnext : m.nextRetryUtc with
    | none =>
      refine ⟨now, le_refl _, ?_⟩
      simp [OutboxMessage.isEligible, OutboxMessage.canRetry, OutboxMessage.isDue, hprocessed,
        hcount, hnext]
    | some next =>
      refine ⟨max now next, le_max_left _ _, ?_⟩
      simp [OutboxMessage.isEligible, OutboxMessage.canRetry, OutboxMessage.isDue, hprocessed,
        hcount, hnext]

/-- A row is accounted for unless it is unprocessed with its retries used up. -/
theorem accounted_iff (m : OutboxMessage) :
    Accounted m ↔ m.isProcessed = true ∨ m.retryCount < 5 := by
  have hlater := eligibleLater_iff m
  constructor
  · intro h
    by_cases hp : m.isProcessed = true
    · exact .inl hp
    · exact .inr (h.notStuck (by simpa using hp))
  · intro h
    have hone : ExactlyOne (ProcessedWithoutError m) (DeadLettered m) (EligibleLater m) := by
      rw [hlater]
      unfold ExactlyOne ProcessedWithoutError DeadLettered
      unfold OutboxMessage.isProcessed at h ⊢
      cases hm : m.processedOnUtc with
      | none =>
        have hcount : m.retryCount < 5 := by simpa [hm] using h
        simp [hcount]
      | some processedOnUtc => cases m.error <;> simp
    refine ⟨hone, fun hp => ?_⟩
    rw [hp] at h
    simpa using h

/-- The outcome of an attempt leaves the row accounted for. -/
def Recovers (attempt : Attempt) (m : OutboxMessage) : Prop :=
  match attempt with
  | .typeNotFound => m.retryCount ≠ 4
  | .undecodable => m.retryCount ≠ 4
  | .published => True
  | .threw _ => m.retryCount ≠ 3

/-- What the loop makes of a row that may be tried. -/
theorem processMessage_accounted {attempt : Attempt} {utcNow now : DateTime} {m : OutboxMessage}
    (helig : m.isEligible now = true) :
    Accounted (processMessage attempt utcNow m) ↔ Recovers attempt m := by
  simp only [OutboxMessage.isEligible, OutboxMessage.canRetry, OutboxMessage.isProcessed,
    Bool.and_eq_true, Bool.not_eq_true', decide_eq_true_eq, Option.isSome_eq_false_iff,
    Option.isNone_iff_eq_none] at helig
  obtain ⟨hnone, hcount, -⟩ := helig
  rw [accounted_iff]
  cases attempt with
  | typeNotFound =>
    simp only [processMessage, OutboxMessage.markAsFailed, OutboxMessage.isProcessed, hnone,
      Option.isSome_none, Bool.false_eq_true, false_or, Recovers]
    omega
  | undecodable =>
    simp only [processMessage, OutboxMessage.markAsFailed, OutboxMessage.isProcessed, hnone,
      Option.isSome_none, Bool.false_eq_true, false_or, Recovers]
    omega
  | published => simp [processMessage, OutboxMessage.markAsProcessed, OutboxMessage.isProcessed,
      Recovers]
  | threw error =>
    simp only [processMessage, Recovers]
    by_cases hlimit : 5 ≤ m.retryCount + 1
    · simp only [if_pos hlimit, OutboxMessage.markAsDeadLetter, OutboxMessage.isProcessed,
        Option.isSome_some, true_or, true_iff]
      omega
    · simp only [if_neg hlimit, OutboxMessage.markAsFailed, OutboxMessage.isProcessed, hnone,
        Option.isSome_none, Bool.false_eq_true, false_or]
      omega

/-- Saving a processed batch replaces its rows and no others. -/
theorem saved_row {rows batch : List OutboxMessage} (f : OutboxMessage → OutboxMessage)
    (hf : ∀ m, (f m).id = m.id) (hkeys : ∀ a ∈ batch, ∀ b ∈ rows, a.id = b.id → a = b)
    {m : OutboxMessage} (hm : m ∈ rows) :
    ((batch.map f).find? fun u => u.id == m.id).getD m = if m ∈ batch then f m else m := by
  induction batch with
  | nil => simp
  | cons a batch ih =>
    have ih := ih fun b hb => hkeys b (List.mem_cons_of_mem _ hb)
    by_cases hid : a.id = m.id
    · obtain rfl := hkeys a List.mem_cons_self m hm hid
      simp [hf]
    · have hne : m ≠ a := by
        rintro rfl
        exact hid rfl
      have hskip : (a.id == m.id) = false := by simpa using hid
      rw [List.map_cons, List.find?_cons, hf, hskip]
      simpa [hne] using ih

theorem processMessage_id (attempt : Attempt) (utcNow : DateTime) (m : OutboxMessage) :
    (processMessage attempt utcNow m).id = m.id := by
  cases attempt with
  | threw error =>
    simp only [processMessage]
    split <;> rfl
  | _ => rfl

theorem saveChanges_ids (updated rows : List OutboxMessage) :
    (saveChanges updated rows).map OutboxMessage.id = rows.map OutboxMessage.id := by
  rw [saveChanges, List.map_map]
  apply List.map_congr_left
  intro m _
  cases hfind : updated.find? fun u => u.id == m.id with
  | none => simp [hfind]
  | some u =>
    have hid := List.find?_some hfind
    simpa [hfind] using hid

theorem pass_ids (order : ByOccurrence) (env : Environment) (rows : List OutboxMessage) :
    (processOutboxMessagesAsync order env rows).table.map OutboxMessage.id =
      rows.map OutboxMessage.id := by
  simp only [processOutboxMessagesAsync]
  split
  · rfl
  · split
    · exact saveChanges_ids _ _
    · rfl

inductive Label where
  | add (correlationId : Option String) (e : DomainEvent) : Label
  /-- Something other than `AddEventAsync` stores a row. -/
  | insert (type : String) (content : Json) (correlationId : Option String)
    (occurredOnUtc : DateTime) : Label
  | pass (order : ByOccurrence) (env : Environment) : Label
  | cleanup (cutoffDate : DateTime) : Label

def next (t : OutboxMessages) : Label → OutboxMessages
  | .add correlationId e => addEventAsync correlationId e t
  | .insert type content correlationId occurredOnUtc =>
    OutboxTable.insert (untried type content correlationId occurredOnUtc) t
  | .pass order env =>
    t.update (processOutboxMessagesAsync order env t.rows).table (pass_ids order env t.rows)
  | .cleanup cutoffDate => cleanupProcessedMessagesAsync cutoffDate t

def step (t : OutboxMessages) (l : Label) : Option OutboxMessages := some (next t l)

/-- Every row that a saved pass tries is left accounted for. -/
def Recovering (t : OutboxMessages) : Label → Prop
  | .add _ _ | .insert _ _ _ _ => True
  | .pass order env => env.saved = true →
    ∀ m ∈ (processOutboxMessagesAsync order env t.rows).attempted, Recovers (env.attempt m) m
  | .cleanup _ => True

def AllAccounted (t : OutboxMessages) : Prop := ∀ m ∈ t.rows, Accounted m

theorem mem_attempted {order : ByOccurrence} {env : Environment} {rows : List OutboxMessage}
    {m : OutboxMessage} (h : m ∈ (processOutboxMessagesAsync order env rows).attempted) :
    m ∈ rows ∧ m.isEligible env.now = true := by
  rw [attempted_eq] at h
  obtain ⟨htake, helig⟩ := List.mem_filter.mp h
  exact ⟨(order.arranged rows).mem_iff.mp (List.mem_of_mem_take htake), helig⟩

/-- A pass changes the rows it has tried in place, if it is saved. -/
theorem pass_rows (order : ByOccurrence) (env : Environment) (t : OutboxMessages) :
    (processOutboxMessagesAsync order env t.rows).table = t.rows.map fun m =>
      if env.saved = true ∧ m ∈ (processOutboxMessagesAsync order env t.rows).attempted then
        processMessage (env.attempt m) (env.markedAt m) m else m := by
  have hkeys : ∀ a ∈ (processOutboxMessagesAsync order env t.rows).attempted, ∀ b ∈ t.rows,
      a.id = b.id → a = b := fun a ha b hb => t.key_injective (mem_attempted ha).1 hb
  revert hkeys
  rw [attempted_eq]
  intro hkeys
  simp only [processOutboxMessagesAsync]
  split
  · rename_i hempty
    rw [List.isEmpty_iff] at hempty
    simp [hempty]
  · split
    · rename_i hsaved
      simp only [saveChanges, processMessages, List.map_map, Function.comp_def, hsaved, true_and]
      refine List.map_congr_left fun m hm => ?_
      exact saved_row _ (fun m => processMessage_id _ _ m) hkeys hm
    · rename_i hsaved
      simp [hsaved]

/-- The rows after a pass: the tried ones with their marks, the others as they were. -/
theorem mem_pass {order : ByOccurrence} {env : Environment} {t : OutboxMessages}
    (hsaved : env.saved = true) {m' : OutboxMessage} :
    m' ∈ (processOutboxMessagesAsync order env t.rows).table ↔
      ∃ m ∈ t.rows, m' = if m ∈ (processOutboxMessagesAsync order env t.rows).attempted then
        processMessage (env.attempt m) (env.markedAt m) m else m := by
  rw [pass_rows, List.mem_map]
  simp only [hsaved, true_and, eq_comm]

/-- From rows that are all accounted for, a step leaves one behind exactly if it is
a pass that strands it. -/
theorem next_accounted {t : OutboxMessages} (l : Label) (h : AllAccounted t) :
    AllAccounted (next t l) ↔ Recovering t l := by
  cases l with
  | add correlationId e =>
    simp only [Recovering, iff_true]
    intro m hm
    rcases OutboxTable.mem_addEventAsync.mp hm with hm | rfl
    · exact h m hm
    · rw [accounted_iff]
      exact .inr (show (0 : Int) < 5 by decide)
  | insert type content correlationId occurredOnUtc =>
    simp only [Recovering, iff_true]
    intro m hm
    rcases OutboxTable.mem_insert.mp hm with hm | rfl
    · exact h m hm
    · rw [accounted_iff]
      exact .inr (show (0 : Int) < 5 by decide)
  | cleanup cutoffDate =>
    simp only [Recovering, iff_true]
    exact fun m hm => h m (List.mem_filter.mp hm).1
  | pass order env =>
    by_cases hsaved : env.saved = true
    · simp only [Recovering, hsaved, true_implies]
      constructor
      · intro hall m hm
        obtain ⟨hrow, helig⟩ := mem_attempted hm
        apply (processMessage_accounted helig).mp
        exact hall _ ((mem_pass hsaved).mpr ⟨m, hrow, (if_pos hm).symm⟩)
      · intro hrec m' hm'
        obtain ⟨m, hrow, rfl⟩ := (mem_pass hsaved).mp hm'
        by_cases hm : m ∈ (processOutboxMessagesAsync order env t.rows).attempted
        · rw [if_pos hm]
          exact (processMessage_accounted (mem_attempted hm).2).mpr (hrec m hm)
        · rw [if_neg hm]
          exact h m hrow
    · have hrows : (processOutboxMessagesAsync order env t.rows).table = t.rows := by
        simp only [processOutboxMessagesAsync, hsaved, Bool.false_eq_true, if_false]
        split <;> rfl
      simp only [Recovering, hsaved, Bool.false_eq_true, false_implies, iff_true]
      intro m hm
      have hm : m ∈ (processOutboxMessagesAsync order env t.rows).table := hm
      rw [hrows] at hm
      exact h m hm

/-- In a run from the empty table every stored row is accounted for after each step
exactly if no saved pass strands one. -/
theorem accounted_throughout_iff (tr : List Label) :
    (∀ v ∈ visits step OutboxTable.empty tr, AllAccounted v.2.2) ↔
      ∀ v ∈ visits step OutboxTable.empty tr, Recovering v.1 v.2.1 := by
  refine visits_iff AllAccounted (fun v => AllAccounted v.2.2) Recovering ?_ ?_ ?_ tr
  · intro t l u h hstep
    obtain rfl : next t l = u := Option.some.inj hstep
    exact next_accounted l h
  · intro t l u h hrec hstep
    obtain rfl : next t l = u := Option.some.inj hstep
    exact (next_accounted l h).mpr hrec
  · intro m hm
    simp [OutboxTable.empty] at hm

/-- An ordering that a database may choose. -/
def insertionOrder : ByOccurrence where
  arrange := List.insertionSort fun a b => a.occurredOnUtc ≤ b.occurredOnUtc
  arranged := fun rows => ⟨List.perm_insertionSort _ rows, List.pairwise_insertionSort _ rows⟩

/-- Clearing cart 7 is recorded, and five passes do not find its type. -/
def strandedTrace : List Label :=
  .add none ⟨0, .cartCleared 7⟩ :: [0, 10, 20, 30, 50].map fun minute =>
    .pass insertionOrder
      { now := minute * DomainEvents.ticksPerMinute
        attempt := OutboxEncoding.attempt OutboxEncoding.sampleRuntime
        markedAt := fun _ => minute * DomainEvents.ticksPerMinute
        saved := true }

/-- A row of unknown type is tried five times and then never again. -/
theorem unknown_type_strands : ¬ ∀ tr : List Label,
    ∀ v ∈ visits step OutboxTable.empty tr, AllAccounted v.2.2 := by
  intro hall
  have hstranded : ∃ v ∈ visits step OutboxTable.empty strandedTrace,
      ∃ m ∈ v.2.2.rows, m.isProcessed = false ∧ m.retryCount = 5 := by decide
  obtain ⟨v, hv, m, hm, hprocessed, hcount⟩ := hstranded
  have hlimit := (hall strandedTrace v hv m hm).notStuck hprocessed
  omega

end OutboxLifecycle
