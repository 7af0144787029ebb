import ShoppingProject.OutboxLifecycle

/-!
# Counting the retries of a message

What happened to each row is kept beside the table: when attempts on it failed, and
whether it was delivered. The retry count should be the number of these failures, and
the delay that of the latest one, until five attempts have failed. Only a row whose type
is found can fail by an exception; no row of `AddEventAsync` is one of them.
-/
namespace RetryAccounting

open DomainEvents (DateTime DomainEvent ticksPerMinute)
open OrderedQueries Outbox OutboxProcessor Runs
open OutboxEncoding (SearchedTypes fits)
open OutboxTable (OutboxMessages addEventAsync newRow)
open OutboxLifecycle (mem_attempted mem_pass)

/-- What has happened to a row; the latest failure comes first. -/
structure History where
  failures : List DateTime
  delivered : Bool

/-- A failed attempt has failed even if its mark is lost; a delivery is one when it is saved. -/
def History.attempt (h : History) (attempt : Attempt) (utcNow : DateTime) (saved : Bool) :
    History :=
  if attempt = .published then { h with delivered := h.delivered || saved }
  else { h with failures := utcNow :: h.failures }

/-- `2 ^ k` minutes have passed since the latest of `k` failures, and `k` is below the limit. -/
def isDueAfter (failures : List DateTime) (utcNow : DateTime) : Bool :=
  match failures with
  | [] => true
  | t :: earlier => decide (earlier.length + 1 < 5) &&
      decide (t + 2 ^ (earlier.length + 1) * ticksPerMinute ≤ utcNow)

structure Counted (h : History) (m : OutboxMessage) : Prop where
  count : m.retryCount = h.failures.length
  eligible : ∀ utcNow, m.isEligible utcNow = (!h.delivered && isDueAfter h.failures utcNow)

theorem isDueAfter_later {failures : List DateTime} (h : failures.length < 5) :
    ∃ t, ∀ utcNow, t ≤ utcNow → isDueAfter failures utcNow = true := by
  cases failures with
  | nil => exact ⟨0, fun _ _ => rfl⟩
  | cons t earlier =>
    refine ⟨t + 2 ^ (earlier.length + 1) * ticksPerMinute, fun utcNow hle => ?_⟩
    have hlimit : earlier.length + 1 < 5 := h
    simp only [isDueAfter, hlimit, hle, decide_true, Bool.and_self]

theorem isDueAfter_exhausted {failures : List DateTime} (h : 5 ≤ failures.length)
    (utcNow : DateTime) : isDueAfter failures utcNow = false := by
  cases failures with
  | nil => simp at h
  | cons t earlier =>
    have hlimit : ¬ earlier.length + 1 < 5 := Nat.not_lt.mpr h
    simp only [isDueAfter, hlimit, decide_false, Bool.false_and]

/-- Until the limit is reached a row is processed exactly if it was delivered. -/
theorem Counted.isProcessed_eq {h : History} {m : OutboxMessage} (hm : Counted h m)
    (hlimit : h.failures.length < 5) : m.isProcessed = h.delivered := by
  have hcount : m.retryCount < 5 := by
    rw [hm.count]
    exact_mod_cast hlimit
  obtain ⟨t, ht⟩ := isDueAfter_later hlimit
  cases hnext : m.nextRetryUtc with
  | none =>
    have helig := hm.eligible t
    rw [ht t (le_refl t)] at helig
    simpa [OutboxMessage.isEligible, OutboxMessage.canRetry, OutboxMessage.isDue, hcount, hnext]
      using helig
  | some next =>
    have helig := hm.eligible (max t next)
    rw [ht _ (le_max_left t next)] at helig
    simpa [OutboxMessage.isEligible, OutboxMessage.canRetry, OutboxMessage.isDue, hcount, hnext]
      using helig

/-- `MarkAsFailed` counts one failure and sets its delay. -/
theorem Counted.markAsFailed {h : History} {m : OutboxMessage} (hm : Counted h m)
    (error : String) (utcNow : DateTime) :
    Counted { h with failures := utcNow :: h.failures } (m.markAsFailed error utcNow) := by
  have hcount : (m.markAsFailed error utcNow).retryCount = (h.failures.length + 1 : ℕ) := by
    simp [OutboxMessage.markAsFailed, hm.count]
  refine ⟨hcount, fun now => ?_⟩
  by_cases hlimit : h.failures.length + 1 < 5
  · have hprocessed : (m.markAsFailed error utcNow).isProcessed = h.delivered :=
      hm.isProcessed_eq (Nat.lt_of_succ_lt hlimit)
    have hnext : (m.markAsFailed error utcNow).nextRetryUtc =
        some (utcNow + 2 ^ (h.failures.length + 1) * ticksPerMinute) := by
      have hcast : m.retryCount + 1 = ((h.failures.length + 1 : ℕ) : ℤ) := by
        rw [hm.count, Int.natCast_add, Int.natCast_one]
      simp only [OutboxMessage.markAsFailed, hcast, OutboxMessage.backoff,
        Int.natCast_nonneg, if_true, Int.toNat_natCast]
    have hbelow : (m.markAsFailed error utcNow).retryCount < 5 := by
      rw [hcount]
      exact_mod_cast hlimit
    simp only [OutboxMessage.isEligible, OutboxMessage.canRetry, OutboxMessage.isDue,
      hprocessed, hnext, hbelow, isDueAfter, hlimit, decide_true, Bool.true_and]
  · have habove : ¬ (m.markAsFailed error utcNow).retryCount < 5 := by
      rw [hcount]
      exact_mod_cast hlimit
    have hexhausted : 5 ≤ (utcNow :: h.failures).length := Nat.not_lt.mp hlimit
    rw [isDueAfter_exhausted hexhausted, Bool.and_false]
    simp only [OutboxMessage.isEligible, OutboxMessage.canRetry, habove, decide_false,
      Bool.false_and, Bool.and_false]

/-- The branch counts the failure once; the one for exceptions does so only where the
message is given up. -/
def CountsOnce (attempt : Attempt) (m : OutboxMessage) : Prop :=
  match attempt with
  | .threw _ => m.retryCount = 4
  | _ => True

/-- What an attempt makes of a row that is counted and may be tried. -/
theorem processMessage_counted_iff {h : History} {m : OutboxMessage} {attempt : Attempt}
    {now : DateTime} (utcNow : DateTime) (hm : Counted h m) (helig : m.isEligible now = true) :
    Counted (h.attempt attempt utcNow true) (processMessage attempt utcNow m) ↔
      CountsOnce attempt m := by
  cases attempt with
  | typeNotFound => exact iff_of_true (hm.markAsFailed _ utcNow) trivial
  | undecodable => exact iff_of_true (hm.markAsFailed _ utcNow) trivial
  | published =>
    refine iff_of_true ⟨hm.count, fun now' => ?_⟩ trivial
    simp [History.attempt, processMessage, OutboxMessage.markAsProcessed,
      OutboxMessage.isEligible, OutboxMessage.isProcessed]
  | threw error =>
    have hlimit : m.retryCount < 5 := by
      simp only [OutboxMessage.isEligible, OutboxMessage.canRetry, Bool.and_eq_true,
        decide_eq_true_eq] at helig
      exact helig.2.1
    have hcount := hm.count
    by_cases hgiven : 5 ≤ m.retryCount + 1
    · have hfour : m.retryCount = 4 := by omega
      have hfailures : h.failures.length = 4 := by omega
      refine iff_of_true ⟨?_, fun now' => ?_⟩ hfour
      · simp [History.attempt, processMessage, OutboxMessage.markAsDeadLetter, hfour, hfailures]
      · simp [History.attempt, processMessage, OutboxMessage.markAsDeadLetter, hfour,
          OutboxMessage.isEligible, OutboxMessage.isProcessed, isDueAfter, hfailures]
    · refine iff_of_false (fun hcounted => ?_) (fun hfour => hgiven (by rw [hfour]; decide))
      -- counted by the handler of the exception and by `MarkAsFailed`
      have htwice : (processMessage (.threw error) utcNow m).retryCount = m.retryCount + 1 + 1 := by
        simp [processMessage, hgiven, OutboxMessage.markAsFailed]
      have hlength : ((h.attempt (.threw error) utcNow true).failures.length : ℤ) =
          h.failures.length + 1 := by
        simp [History.attempt]
      have := hcounted.count
      omega

structure State where
  table : OutboxMessages
  /-- What has happened to the row with this key. -/
  history : ℕ → History

def start : State := ⟨OutboxTable.empty, fun _ => ⟨[], false⟩⟩

inductive Label where
  | outbox : OutboxLifecycle.Label → Label
  | markAsFailedAsync (messageId : ℕ) (error : String) (failedAtUtc : DateTime) (saved : Bool) :
      Label

/-- `DateTime.MaxValue.Ticks`. -/
def maxTicks : Int := 3155378975999999999

/-- The next attempt falls on a `DateTime`; otherwise `AddMinutes` throws. -/
def canDelay (failedAtUtc : DateTime) (m : OutboxMessage) : Bool :=
  let nextRetryUtc := failedAtUtc + OutboxMessage.backoff (m.retryCount + 1)
  decide (0 ≤ nextRetryUtc) && decide (nextRetryUtc ≤ maxTicks)

def replaceFailed (messageId : ℕ) (error : String) (failedAtUtc : DateTime) (t : OutboxMessages) :
    OutboxMessages :=
  t.update
    (t.rows.map fun m => if m.id = messageId then m.markAsFailed error failedAtUtc else m) (by
      rw [List.map_map]
      apply List.map_congr_left
      intro m _
      simp only [Function.comp_apply]
      split <;> rfl)

/-- The store's own method; `none` if it throws. A row that is not found is left alone. -/
def markAsFailedAsync (messageId : ℕ) (error : String) (failedAtUtc : DateTime)
    (t : OutboxMessages) : Option OutboxMessages :=
  match t.rows.find? fun m => m.id == messageId with
  | none => some t
  | some m =>
    if canDelay failedAtUtc m then some (replaceFailed messageId error failedAtUtc t) else none

def attempted (s : State) (order : ByOccurrence) (env : Environment) : List OutboxMessage :=
  (processOutboxMessagesAsync order env s.table.rows).attempted

def next (s : State) : Label → State
  | .outbox (.pass order env) =>
    { table := OutboxLifecycle.next s.table (.pass order env)
      history := fun n => match (attempted s order env).find? fun m => m.id == n with
        | none => s.history n
        | some m => (s.history n).attempt (env.attempt m) (env.markedAt m) env.saved }
  | .outbox l => { s with table := OutboxLifecycle.next s.table l }
  | .markAsFailedAsync messageId error failedAtUtc saved =>
    { table :=
        if saved then (markAsFailedAsync messageId error failedAtUtc s.table).getD s.table
        else s.table
      history := fun n =>
        if n = messageId ∧ n ∈ s.table.rows.map OutboxMessage.id then
          { s.history n with failures := failedAtUtc :: (s.history n).failures }
        else s.history n }

/-- The attempts of a pass end as the types of their rows let them. -/
def isPossible (types : SearchedTypes) (s : State) : Label → Bool
  | .outbox (.pass order env) => (attempted s order env).all fun m => fits types m (env.attempt m)
  | _ => true

def step (types : SearchedTypes) (s : State) (l : Label) : Option State :=
  if isPossible types s l then some (next s l) else none

def AllCounted (s : State) : Prop := ∀ m ∈ s.table.rows, Counted (s.history m.id) m

/-- The condition on a step: every failure in it is counted once, and saved. -/
def Counts (s : State) : Label → Prop
  | .outbox (.pass order env) => ∀ m ∈ attempted s order env,
      env.attempt m = .published ∨ env.saved = true ∧ CountsOnce (env.attempt m) m
  | .outbox _ => True
  | .markAsFailedAsync messageId _ failedAtUtc saved =>
    ∀ m ∈ s.table.rows, m.id = messageId → saved = true ∧ canDelay failedAtUtc m = true

structure Good (s : State) : Prop where
  counted : AllCounted s
  /-- Nothing has happened to a row that is not there yet. -/
  unused : ∀ n, s.table.next ≤ n → s.history n = ⟨[], false⟩

/-- A failure that is not saved is not counted. -/
theorem lost_not_counted {h : History} {m : OutboxMessage} (hm : Counted h m)
    (utcNow : DateTime) : ¬ Counted { h with failures := utcNow :: h.failures } m := by
  intro hlost
  have hcount := hm.count
  have hlonger := hlost.count
  simp only [List.length_cons] at hlonger
  omega

/-- What an attempt in a pass makes of a row, saved or not. -/
theorem attempt_counted_iff {h : History} {m : OutboxMessage} {attempt : Attempt}
    {now : DateTime} (utcNow : DateTime) (saved : Bool) (hm : Counted h m)
    (helig : m.isEligible now = true) :
    Counted (h.attempt attempt utcNow saved)
        (if saved then processMessage attempt utcNow m else m) ↔
      attempt = .published ∨ saved = true ∧ CountsOnce attempt m := by
  cases saved with
  | true =>
    simp only [if_true, true_and]
    rw [processMessage_counted_iff utcNow hm helig]
    constructor
    · exact .inr
    · rintro (rfl | honce)
      · trivial
      · exact honce
  | false =>
    simp only [Bool.false_eq_true, if_false, false_and, or_false]
    by_cases hpublished : attempt = .published
    · subst hpublished
      simpa [History.attempt] using hm
    · simp only [History.attempt, hpublished, if_false, iff_false]
      exact lost_not_counted hm utcNow

/-- The row that a pass tried under a key, if it tried one. -/
theorem find_attempted (s : State) (order : ByOccurrence) (env : Environment) {m : OutboxMessage}
    (hm : m ∈ s.table.rows) : ((attempted s order env).find? fun a => a.id == m.id) =
      if m ∈ attempted s order env then some m else none := by
  split
  · rename_i htried
    cases hfind : (attempted s order env).find? fun a => a.id == m.id with
    | none =>
      have := List.find?_eq_none.mp hfind m htried
      simp at this
    | some a =>
      have hkey : a.id = m.id := by simpa using List.find?_some hfind
      have hrow := (mem_attempted (List.mem_of_find?_eq_some hfind)).1
      rw [s.table.key_injective hrow hm hkey]
  · rename_i htried
    rw [List.find?_eq_none]
    intro a ha hkey
    have hrow := (mem_attempted ha).1
    obtain rfl := s.table.key_injective hrow hm (by simpa using hkey)
    exact htried ha

theorem history_pass {s : State} {order : ByOccurrence} {env : Environment} {m : OutboxMessage}
    (hm : m ∈ s.table.rows) : (next s (.outbox (.pass order env))).history m.id =
      if m ∈ attempted s order env then
        (s.history m.id).attempt (env.attempt m) (env.markedAt m) env.saved
      else s.history m.id := by
  simp only [next, find_attempted s order env hm]
  by_cases htried : m ∈ attempted s order env
  · simp only [if_pos htried]
  · simp only [if_neg htried]

/-- The rows after a pass, saved or not. -/
theorem mem_next_pass {s : State} {order : ByOccurrence} {env : Environment}
    {m' : OutboxMessage} :
    m' ∈ (next s (.outbox (.pass order env))).table.rows ↔
      ∃ m ∈ s.table.rows, m' = if m ∈ attempted s order env then
        if env.saved then processMessage (env.attempt m) (env.markedAt m) m else m else m := by
  have hrows : (next s (.outbox (.pass order env))).table.rows =
      (processOutboxMessagesAsync order env s.table.rows).table := rfl
  rw [hrows]
  by_cases hsaved : env.saved = true
  · rw [mem_pass hsaved]
    simp only [hsaved, if_true, attempted]
  · have hsame : (processOutboxMessagesAsync order env s.table.rows).table = s.table.rows := by
      simp only [processOutboxMessagesAsync, hsaved, Bool.false_eq_true, if_false]
      split <;> rfl
    rw [hsame]
    simp [hsaved]

theorem pass_counted_iff {s : State} (h : Good s) (order : ByOccurrence) (env : Environment) :
    AllCounted (next s (.outbox (.pass order env))) ↔ Counts s (.outbox (.pass order env)) := by
  have hid (m : OutboxMessage) :
      (if env.saved then processMessage (env.attempt m) (env.markedAt m) m else m).id = m.id := by
    split
    · exact OutboxLifecycle.processMessage_id _ _ _
    · rfl
  constructor
  · intro hall m htried
    obtain ⟨hm, helig⟩ := mem_attempted htried
    have hcounted := hall _ (mem_next_pass.mpr ⟨m, hm, (if_pos htried).symm⟩)
    rw [hid, history_pass hm, if_pos htried] at hcounted
    exact (attempt_counted_iff _ _ (h.counted m hm) helig).mp hcounted
  · intro hcounts m' hm'
    obtain ⟨m, hm, rfl⟩ := mem_next_pass.mp hm'
    by_cases htried : m ∈ attempted s order env
    · rw [if_pos htried, hid, history_pass hm, if_pos htried]
      exact (attempt_counted_iff _ _ (h.counted m hm) (mem_attempted htried).2).mpr
        (hcounts m htried)
    · rw [if_neg htried, history_pass hm, if_neg htried]
      exact h.counted m hm

/-- The store's method changes its row, if the next attempt can be delayed. -/
theorem rows_markAsFailedAsync (messageId : ℕ) (error : String) (failedAtUtc : DateTime)
    (t : OutboxMessages) :
    ((markAsFailedAsync messageId error failedAtUtc t).getD t).rows = t.rows.map fun m =>
      if m.id = messageId ∧ canDelay failedAtUtc m = true then m.markAsFailed error failedAtUtc
      else m := by
  unfold markAsFailedAsync
  split
  · rename_i hfind
    have habsent : ∀ m ∈ t.rows, m.id ≠ messageId := by simpa using List.find?_eq_none.mp hfind
    refine (List.map_id t.rows).symm.trans (List.map_congr_left fun m hm => ?_)
    exact (if_neg fun h => habsent m hm h.1).symm
  · rename_i row hfind
    have hrow := List.mem_of_find?_eq_some hfind
    obtain rfl : row.id = messageId := by simpa using List.find?_some hfind
    have honly : ∀ m ∈ t.rows, m.id = row.id → m = row := fun m hm => t.key_injective hm hrow
    split
    · rename_i hdelay
      refine List.map_congr_left fun m hm => ?_
      by_cases hid : m.id = row.id
      · obtain rfl := honly m hm hid
        rw [if_pos rfl, if_pos ⟨rfl, hdelay⟩]
      · rw [if_neg hid, if_neg fun h => hid h.1]
    · rename_i hdelay
      refine (List.map_id t.rows).symm.trans (List.map_congr_left fun m hm => (if_neg ?_).symm)
      rintro ⟨hid, hm'⟩
      obtain rfl := honly m hm hid
      exact hdelay hm'

theorem history_mark {s : State} {messageId : ℕ} {error : String} {failedAtUtc : DateTime}
    {saved : Bool} {m : OutboxMessage} (hm : m ∈ s.table.rows) :
    (next s (.markAsFailedAsync messageId error failedAtUtc saved)).history m.id =
      if m.id = messageId then
        { s.history m.id with failures := failedAtUtc :: (s.history m.id).failures }
      else s.history m.id := by
  have hkey : m.id ∈ s.table.rows.map OutboxMessage.id := List.mem_map_of_mem hm
  simp only [next, hkey, and_true]

/-- The rows after the store's method, saved or not. -/
theorem mem_next_mark {s : State} {messageId : ℕ} {error : String} {failedAtUtc : DateTime}
    {saved : Bool} {m' : OutboxMessage} :
    m' ∈ (next s (.markAsFailedAsync messageId error failedAtUtc saved)).table.rows ↔
      ∃ m ∈ s.table.rows, m' =
        if m.id = messageId ∧ saved = true ∧ canDelay failedAtUtc m = true then
          m.markAsFailed error failedAtUtc
        else m := by
  cases saved with
  | false => simp [next]
  | true =>
    simp only [next, if_true, rows_markAsFailedAsync, List.mem_map, true_and]
    exact exists_congr fun m => and_congr_right fun _ => eq_comm

theorem mark_counted_iff {s : State} (h : Good s) (messageId : ℕ) (error : String)
    (failedAtUtc : DateTime) (saved : Bool) :
    AllCounted (next s (.markAsFailedAsync messageId error failedAtUtc saved)) ↔
      Counts s (.markAsFailedAsync messageId error failedAtUtc saved) := by
  constructor
  · intro hall m hm hid
    by_contra hlost
    subst messageId
    have hcounted := hall m (mem_next_mark.mpr ⟨m, hm, (if_neg fun h => hlost h.2).symm⟩)
    rw [history_mark hm, if_pos rfl] at hcounted
    exact lost_not_counted (h.counted m hm) failedAtUtc hcounted
  · intro hkept m' hm'
    obtain ⟨m, hm, rfl⟩ := mem_next_mark.mp hm'
    by_cases hid : m.id = messageId
    · have hsame : (m.markAsFailed error failedAtUtc).id = m.id := rfl
      rw [if_pos ⟨hid, hkept m hm hid⟩, hsame, history_mark hm, if_pos hid]
      exact (h.counted m hm).markAsFailed error failedAtUtc
    · rw [if_neg fun h => hid h.1, history_mark hm, if_neg hid]
      exact h.counted m hm

/-- A row that is added or stored has no history yet. -/
theorem Good.insert {s : State} (h : Good s) {row : OutboxMessage}
    (hprocessed : row.processedOnUtc = none) (hcount : row.retryCount = 0)
    (hnext : row.nextRetryUtc = none) :
    AllCounted { s with table := OutboxTable.insert row s.table } := by
  intro m hm
  rcases OutboxTable.mem_insert.mp hm with hm | rfl
  · exact h.counted m hm
  · have hnone : s.history s.table.next = ⟨[], false⟩ := h.unused _ (le_refl _)
    change Counted (s.history s.table.next) _
    rw [hnone]
    refine ⟨by simp [hcount], fun utcNow => ?_⟩
    simp [OutboxMessage.isEligible, OutboxMessage.isProcessed, OutboxMessage.canRetry,
      OutboxMessage.isDue, hprocessed, hcount, hnext, isDueAfter]

/-- A step leaves all rows counted exactly if it counts every failure once. -/
theorem next_counted_iff {s : State} (h : Good s) (l : Label) :
    AllCounted (next s l) ↔ Counts s l := by
  cases l with
  | outbox l => cases l with
    | add correlationId e => exact iff_of_true (h.insert rfl rfl rfl) trivial
    | insert type content correlationId occurredOnUtc =>
      exact iff_of_true (h.insert rfl rfl rfl) trivial
    | pass order env => exact pass_counted_iff h order env
    | cleanup cutoffDate =>
      exact iff_of_true (fun m hm => h.counted m (List.mem_filter.mp hm).1) trivial
  | markAsFailedAsync messageId error failedAtUtc saved =>
    exact mark_counted_iff h messageId error failedAtUtc saved

/-- Rows that are not there yet stay untouched. -/
theorem next_unused {s : State} (h : Good s) (l : Label) :
    ∀ n, (next s l).table.next ≤ n → (next s l).history n = ⟨[], false⟩ := by
  have hknown : ∀ m ∈ s.table.rows, m.id < s.table.next := s.table.bounded
  intro n hn
  cases l with
  | outbox l => cases l with
    | add correlationId e => exact h.unused n (Nat.le_of_succ_le hn)
    | insert => exact h.unused n (Nat.le_of_succ_le hn)
    | cleanup cutoffDate => exact h.unused n hn
    | pass order env =>
      have hold : s.history n = ⟨[], false⟩ := h.unused n hn
      simp only [next]
      cases hfind : (attempted s order env).find? fun m => m.id == n with
      | none => exact hold
      | some m =>
        have hkey : m.id = n := by simpa using List.find?_some hfind
        have hrow := (mem_attempted (List.mem_of_find?_eq_some hfind)).1
        exact absurd (hknown m hrow) (by rw [hkey]; exact Nat.not_lt.mpr hn)
  | markAsFailedAsync messageId error failedAtUtc saved =>
    have hsame : (next s (.markAsFailedAsync messageId error failedAtUtc saved)).table.next =
        s.table.next := by
      simp only [next, markAsFailedAsync]
      split
      · split
        · rfl
        · split <;> rfl
      · rfl
    rw [hsame] at hn
    have hgone : ¬ (n = messageId ∧ n ∈ s.table.rows.map OutboxMessage.id) := by
      rintro ⟨-, hkey⟩
      obtain ⟨m, hm, rfl⟩ := List.mem_map.mp hkey
      exact absurd (hknown m hm) (Nat.not_lt.mpr hn)
    exact (if_neg hgone).trans (h.unused n hn)

/-- In a run from the empty table the retries of every row are counted, and its delays
are those of its failures, after each step exactly if every failure is counted once and
saved. -/
theorem retries_throughout_iff (types : SearchedTypes) (tr : List Label) :
    (∀ v ∈ visits (step types) start tr, AllCounted v.2.2) ↔
      ∀ v ∈ visits (step types) start tr, Counts v.1 v.2.1 := by
  refine visits_iff Good (fun v => AllCounted v.2.2) Counts ?_ ?_ ⟨?_, fun _ _ => rfl⟩ tr
  · intro s l t h hstep
    obtain ⟨-, rfl⟩ := guarded hstep
    exact next_counted_iff h l
  · intro s l t h hcounts hstep
    obtain ⟨-, rfl⟩ := guarded hstep
    exact ⟨(next_counted_iff h l).mpr hcounts, next_unused h l⟩
  · intro m hm
    simp [start, OutboxTable.empty] at hm

/-- A stored row whose type is found, and a bus that cannot be reached. -/
def unreachableTrace : List Label :=
  [.outbox (.insert OutboxEncoding.cartClearedType (.obj []) none 0),
    .outbox (.pass OutboxLifecycle.insertionOrder
      { now := 1, attempt := fun _ => .threw "unreachable", markedAt := fun _ => 2,
        saved := true })]

/-- One failed attempt is counted as two. -/
theorem exception_counted_twice : ¬ ∀ (types : SearchedTypes) (tr : List Label),
    ∀ v ∈ visits (step types) start tr, AllCounted v.2.2 := by
  intro hall
  have htwice : ∃ v ∈ visits (step OutboxEncoding.sampleTypes) start unreachableTrace,
      ∃ m ∈ v.2.2.table.rows, m.retryCount = 2 ∧ (v.2.2.history m.id).failures = [2] := by decide
  obtain ⟨v, hv, m, hm, hcount, hfailures⟩ := htwice
  have hcounted := (hall OutboxEncoding.sampleTypes unreachableTrace v hv m hm).count
  rw [hcount, hfailures] at hcounted
  exact absurd hcounted (by decide)

end RetryAccounting
