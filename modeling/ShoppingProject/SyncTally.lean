import ShoppingProject.SyncLock

/-!
# What the listeners of a sync are told

The number of failures that a pass has counted is the number of the operations that it has
visited and that are still pending: an operation that is acknowledged is not counted, and
nobody else acknowledges any. So what is told at the end of a pass is right if nothing was
enqueued since the queue was read. What is told anywhere else is zero.
-/
namespace SyncTally

open OfflineQueue SyncCalls SyncLock Runs

def pendingCount (q : Queue) : Nat := q.rows.countP isPending

def NothingPending (q : Queue) : Prop := ∀ r ∈ q.rows, r.status ≠ .pending

/-- Every status that the listeners were told has the number of operations that were pending. -/
def Truthful (s : State) : Prop :=
  ∀ b ∈ s.broadcasts, b.1.pendingCount = pendingCount b.2

/-- Every operation that is pending was read by the pass. -/
def Covered (q : Queue) (p : Pass) : Prop :=
  ∀ r ∈ q.rows, r.status = .pending → r.id ∈ p.operations.map QueueRow.id

/-- Where the listeners are told that nothing is pending, nothing is, and where a pass tells
them its number of failures, it has read everything that is pending. -/
def Tells (s : State) : Label → Prop
  | .enqueue .. => True
  | .call .. => s.isSyncing = false → NothingPending s.queue
  | .read _ answer _ => answer.getD [] = [] → NothingPending s.queue
  | .answer .. => True
  | .removed _ _ fault _ => ∀ e ∈ fault, e.text.isOk = false → NothingPending s.queue
  | .cleared i none _ => ∀ p, s.calls i = some (.clearing p) → Covered s.queue p
  | .cleared _ (some e) _ => e.text.isOk = true → NothingPending s.queue

def silent (listeners : Listeners) : Bool := listeners.ended.isNone && !listeners.failed

/-- No listener throws. -/
def quiet : Label → Bool
  | .enqueue .. => true
  | .call _ throws => !throws
  | .read _ _ listeners => silent listeners
  | .answer .. => true
  | .removed _ _ _ listeners => silent listeners
  | .cleared _ _ listeners => silent listeners

theorem silent_eq {listeners : Listeners} (h : silent listeners = true) :
    listeners = ⟨none, false⟩ := by
  cases listeners
  simpa [silent] using h

/-! ## The operations of a pass that are pending -/

def within (p : Pass) (r : QueueRow) : Bool :=
  isPending r && decide (r.id ∈ p.operations.map QueueRow.id)

/-- The operations of the pass that are pending are the failures and those in `todo`. -/
structure Tally (q : Queue) (p : Pass) (todo : List QueueRow) : Prop where
  known : ∀ op ∈ p.operations, op.id < q.next
  left : ∀ op ∈ todo, op ∈ q.rows ∧ op.status = .pending ∧ op ∈ p.operations
  distinct : todo.Pairwise fun a b => a.id ≠ b.id
  count : q.rows.countP (within p) = p.failureCount + todo.length

theorem pendingCount_eq_zero (q : Queue) : pendingCount q = 0 ↔ NothingPending q := by
  simp [pendingCount, List.countP_eq_zero, NothingPending, isPending]

theorem Tally.read {q : Queue} {rows : List QueueRow} (h : IsQueue q rows) :
    Tally q ⟨rows, 0, 0⟩ rows where
  known op hop := q.bounded op ((h.mem_iff op).mp hop).1
  left op hop := ⟨((h.mem_iff op).mp hop).1, ((h.mem_iff op).mp hop).2, hop⟩
  distinct := h.distinct
  count := by
    have hwithin : ∀ r ∈ q.rows, within ⟨rows, 0, 0⟩ r = true ↔ isPending r = true := by
      intro r hr
      simp only [within, Bool.and_eq_true, decide_eq_true_eq, and_iff_left_iff_imp]
      intro hpending
      have hmem : r ∈ rows := (h.mem_iff r).mpr ⟨hr, by simpa [isPending] using hpending⟩
      exact List.mem_map_of_mem hmem
    rw [List.countP_congr hwithin, List.countP_eq_length_filter, h.perm.length_eq, Nat.zero_add]

theorem Tally.enqueue {q : Queue} {p : Pass} {todo : List QueueRow} (h : Tally q p todo)
    (now : Int) (op : Operation) : Tally (addToQueue now op q) p todo where
  known op hop := Int.lt_add_one_of_le (le_of_lt (h.known op hop))
  left op' hop := by
    obtain ⟨hq, hrest⟩ := h.left op' hop
    exact ⟨(mem_addToQueue now op q op').mpr (.inl hq), hrest⟩
  distinct := h.distinct
  count := by
    have hnew : within p (newRow op now q.next) = false := by
      simp only [within, newRow_id, Bool.and_eq_false_iff, decide_eq_false_iff_not, List.mem_map,
        not_exists, not_and]
      exact .inr fun op hop => ne_of_lt (h.known op hop)
    rw [← h.count]
    simp [addToQueue, Table.insert, hnew]

theorem Tally.failed {q : Queue} {p : Pass} {op : QueueRow} {todo : List QueueRow}
    (h : Tally q p (op :: todo)) :
    Tally q { p with failureCount := p.failureCount + 1 } todo where
  known := h.known
  left op hop := h.left op (List.mem_cons_of_mem _ hop)
  distinct := h.distinct.of_cons
  count := by
    have hcount := h.count
    rw [List.length_cons] at hcount
    change q.rows.countP (within p) = p.failureCount + 1 + todo.length
    omega

theorem Tally.succeeded {q : Queue} {p : Pass} {todo : List QueueRow} (h : Tally q p todo) :
    Tally q { p with successCount := p.successCount + 1 } todo where
  known := h.known
  left := h.left
  distinct := h.distinct
  count := h.count

theorem Tally.acknowledged {q : Queue} {p : Pass} {op : QueueRow} {todo : List QueueRow}
    (h : Tally q p (op :: todo)) (now : Int) :
    Tally (markOperationAsSynced now op.id q) p todo where
  known := h.known
  left op' hop := by
    obtain ⟨hq, hrest⟩ := h.left op' (List.mem_cons_of_mem _ hop)
    have hne : op'.id ≠ op.id := (List.rel_of_pairwise_cons h.distinct hop).symm
    exact ⟨(mem_markOperationAsSynced now op.id q op').mpr (.inl ⟨hq, hne⟩), hrest⟩
  distinct := h.distinct.of_cons
  count := by
    obtain ⟨hq, hpending, hread⟩ := h.left op List.mem_cons_self
    have hwithin : within p op = true := by
      simp only [within, isPending, hpending, Bool.and_eq_true, decide_eq_true_eq]
      exact ⟨trivial, List.mem_map_of_mem hread⟩
    have hsynced : within p (synced now op) = false := rfl
    have hmodify := q.countP_modify (synced_id now) hq hwithin hsynced
    have hcount := h.count
    rw [List.length_cons, ← hmodify] at hcount
    change (q.modify op.id (synced now) (synced_id now)).rows.countP (within p) = _
    omega

theorem Tally.cleared {q : Queue} {p : Pass} (h : Tally q p []) :
    pendingCount (clearQueue q) = p.failureCount ↔ Covered q p := by
  have hcount : q.rows.countP (within p) = p.failureCount := by simpa using h.count
  have hclear : pendingCount (clearQueue q) = q.rows.countP isPending := by
    simp [pendingCount, clearQueue, Table.filter, List.countP_filter]
  have hsplit := List.countP_eq_countP_filter_add q.rows isPending
    fun r => decide (r.id ∈ p.operations.map QueueRow.id)
  rw [List.countP_filter, List.countP_filter] at hsplit
  change q.rows.countP isPending = q.rows.countP (within p) + _ at hsplit
  rw [hclear, ← hcount, hsplit, Nat.add_eq_left, List.countP_eq_zero]
  simp [Covered, isPending]

/-! ## Every call has counted right -/

/-- What a call has counted. -/
def Counted (q : Queue) : Phase → Prop
  | .reading => True
  | .syncing p op todo => Tally q p (op :: todo)
  | .removing p op todo => Tally q p (op :: todo)
  | .clearing p => Tally q p []

structure Tallied (s : State) : Prop where
  sound : Sound s
  counted : s.calls.All (Counted s.queue)

theorem start_tallied (q : Queue) : Tallied (start q) := ⟨start_sound q, Slots.all_idle _⟩

theorem Tallied.others {s : State} (h : Tallied s) {i : Nat} {a : Phase} (hi : s.calls i = some a)
    {q : Queue} {b : Option Phase} (hb : ∀ c, b = some c → Counted q c) :
    (s.calls.put i b).All (Counted q) := by
  refine Slots.all_put hb fun j c hj hc => ?_
  rw [h.sound.others hi hj] at hc
  cases hc

theorem visit_counted {p : Pass} {todo : List QueueRow} {s : State} {q : Queue}
    (h : Tally q p todo) (i : Nat) :
    ∃ a, (visit i p todo s).calls = s.calls.put i (some a) ∧ Counted q a := by
  cases todo with
  | nil => exact ⟨.clearing p, rfl, h⟩
  | cons op todo => exact ⟨.syncing p op todo, rfl, h⟩

@[simp] theorem visit_queue (i : Nat) (p : Pass) (todo : List QueueRow) (s : State) :
    (visit i p todo s).queue = s.queue := by
  cases todo <;> rfl

theorem Tallied.visit {s t : State} (h : Tallied s) {i : Nat} {a : Phase}
    (hi : s.calls i = some a) {p : Pass} {todo : List QueueRow}
    (hcalls : t.calls = s.calls) (htally : Tally t.queue p todo) :
    (SyncCalls.visit i p todo t).calls.All (Counted (SyncCalls.visit i p todo t).queue) := by
  obtain ⟨b, hb, hcounted⟩ := visit_counted (s := t) htally i
  rw [hb, hcalls, visit_queue]
  exact h.others hi fun c hc => Option.some.inj hc ▸ hcounted

/-- A call that ends leaves nothing to be counted. -/
theorem Tallied.ends {s t : State} (h : Tallied s) {i : Nat} {a : Phase}
    (hi : s.calls i = some a) (hcalls : t.calls = s.calls.put i none) :
    t.calls.All (Counted t.queue) := by
  rw [hcalls]
  exact h.others hi fun _ hc => nomatch hc

theorem Tallied.step {s t : State} {l : Label} (h : Tallied s) (hstep : Step s l t) :
    Tallied t := by
  refine ⟨h.sound.step hstep, ?_⟩
  cases hstep with
  | enqueue now op =>
    refine h.counted.mono fun a ha => ?_
    cases a with
    | reading => trivial
    | syncing p op' todo => exact Tally.enqueue ha now op
    | removing p op' todo => exact Tally.enqueue ha now op
    | clearing p => exact Tally.enqueue ha now op
  | call i throws hidle =>
    unfold syncPendingOperations
    cases s.isSyncing with
    | true => exact h.counted.finish i
    | false =>
      cases throws with
      | true => exact h.counted.finish i
      | false => exact h.counted.start i trivial
  | read i answer listeners hphase hanswer =>
    cases hrows : answer.getD [] with
    | nil => exact h.ends hphase (by simp [onQueue])
    | cons op rows =>
      have hqueue : IsQueue s.queue (op :: rows) := by
        cases answer with
        | none => cases hrows
        | some rows => exact hrows ▸ hanswer rows rfl
      exact h.visit hphase rfl (Tally.read hqueue)
  | answer i p op todo result hphase hsend =>
    have htally : Tally s.queue p (op :: todo) := h.counted i _ hphase
    cases result with
    | true => exact h.others hphase fun c hc => Option.some.inj hc ▸ htally.succeeded
    | false => exact h.visit hphase rfl htally.failed
  | removed i p op todo now fault listeners hphase =>
    have htally : Tally s.queue p (op :: todo) := h.counted i _ hphase
    cases fault with
    | none => exact h.visit hphase rfl (htally.acknowledged now)
    | some e =>
      cases htext : e.text with
      | ok text => simpa only [onRemoved, htext] using h.visit hphase rfl htally.failed
      | error message => exact h.ends hphase (by simp [onRemoved, htext])
  | cleared i p fault listeners hphase =>
    cases fault with
    | none => exact h.ends hphase (by simp [onCleared])
    | some e => exact h.ends hphase (by simp [onCleared])

/-! ## What is told -/

theorem truthful_of_same {s t : State} (h : t.broadcasts = s.broadcasts) :
    Truthful t ↔ Truthful s := by
  rw [Truthful, h, Truthful]

theorem truthful_notifyListeners {s t : State} {status : SyncStatus}
    (h : t.broadcasts = s.broadcasts ++ [(status, t.queue)]) :
    Truthful t ↔ Truthful s ∧ status.pendingCount = pendingCount t.queue := by
  rw [Truthful, h, Truthful, List.forall_mem_append, List.forall_mem_singleton]

@[simp] theorem visit_broadcasts (i : Nat) (p : Pass) (todo : List QueueRow) (s : State) :
    (visit i p todo s).broadcasts = s.broadcasts := by
  cases todo <;> rfl

theorem zero_eq_pendingCount (q : Queue) : 0 = pendingCount q ↔ NothingPending q :=
  eq_comm.trans (pendingCount_eq_zero q)

theorem truthful_failed {s : State} (h : Truthful s) (i : Nat) (e : Thrown) :
    Truthful (failed i e false s) ↔ (e.text.isOk = true → NothingPending s.queue) := by
  unfold failed
  cases e.text with
  | error message => exact iff_of_true h fun hok => nomatch hok
  | ok text =>
    refine (truthful_notifyListeners (s := s) rfl).trans ?_
    rw [and_iff_right h, zero_eq_pendingCount]
    exact ⟨fun hnone _ => hnone, fun hnone => hnone rfl⟩

theorem truthful_completed {s : State} (h : Truthful s) (i : Nat) (status : SyncStatus)
    (result : SyncResult) :
    Truthful (completed i status result ⟨none, false⟩ s) ↔
      status.pendingCount = pendingCount s.queue := by
  refine (truthful_notifyListeners (s := s) rfl).trans ?_
  rw [and_iff_right h]
  rfl

/-- A step keeps what the listeners are told true exactly if it tells them so. -/
theorem truthful_iff {s t : State} {l : Label} (h : Tallied s) (hs : Truthful s)
    (hquiet : quiet l = true) (hstep : Step s l t) : Truthful t ↔ Tells s l := by
  cases hstep with
  | enqueue now op => exact iff_of_true hs trivial
  | call i throws hidle =>
    obtain rfl : throws = false := by simpa [quiet] using hquiet
    unfold syncPendingOperations
    cases hlock : s.isSyncing with
    | true => exact iff_of_true hs fun hfree => absurd hfree (by simp [hlock])
    | false =>
      refine (truthful_notifyListeners (s := s) rfl).trans ?_
      rw [and_iff_right hs]
      refine (zero_eq_pendingCount s.queue).trans ?_
      simp [Tells, hlock]
  | read i answer listeners hphase hanswer =>
    obtain rfl := silent_eq hquiet
    cases hrows : answer.getD [] with
    | nil =>
      refine (truthful_completed hs i _ _).trans ((zero_eq_pendingCount s.queue).trans ?_)
      simp [Tells, hrows]
    | cons op rows => exact iff_of_true hs fun hnil => by simp [hrows] at hnil
  | answer i p op todo result hphase hsend =>
    cases result with
    | true => exact iff_of_true hs trivial
    | false => exact iff_of_true ((truthful_of_same (by simp [onAnswer])).mpr hs) trivial
  | removed i p op todo now fault listeners hphase =>
    obtain rfl := silent_eq hquiet
    cases fault with
    | none =>
      refine iff_of_true ((truthful_of_same ?_).mpr hs)
        fun e he => absurd he (Option.not_mem_none e)
      simp [onRemoved]
    | some e =>
      cases htext : e.text with
      | ok text =>
        refine iff_of_true ((truthful_of_same ?_).mpr hs) fun e' he => ?_
        · simp [onRemoved, htext]
        · cases he
          simp [htext, Except.isOk, Except.toBool]
      | error message =>
        simp only [onRemoved, htext]
        refine (truthful_failed hs i (.error message)).trans ?_
        have hprinted : (Thrown.error message).text.isOk = true := rfl
        have hunprinted : e.text.isOk = false := by rw [htext]; rfl
        simp [Tells, hprinted, hunprinted]
  | cleared i p fault listeners hphase =>
    obtain rfl := silent_eq hquiet
    cases fault with
    | none =>
      refine (truthful_completed (s := { s with queue := clearQueue s.queue }) hs i _ _).trans ?_
      refine eq_comm.trans ((Tally.cleared (h.counted i _ hphase)).trans ?_)
      simp [Tells, hphase]
    | some e => exact truthful_failed hs i e

end SyncTally
