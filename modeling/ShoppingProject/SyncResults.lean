import ShoppingProject.SyncCalls

/-!
# What a sync reports

One call by itself, on any queue: the server refuses what it likes, the query of `getQueue`
may fail, and so may the statement that acknowledges an operation. An operation that the
server accepts and the application cannot acknowledge is counted as a success and as a
failure, and a queue that cannot be read is taken for an empty one.
-/
namespace SyncResults

open OfflineQueue SyncCalls Runs
open SyncManager (sendable)

/-- What fails in a pass, and when the operations are acknowledged. -/
structure Faults where
  reads : Bool
  accepts : QueueRow → Bool
  acknowledge : QueueRow → Option Thrown
  now : QueueRow → Int

variable (i : Nat) (f : Faults)

/-- The server accepts the operation; what is not sent is refused. -/
def accepted (op : QueueRow) : Bool := sendable op && f.accepts op

/-- Nobody throws. -/
def quiet : Listeners := ⟨none, false⟩

def loopLabels : List QueueRow → List Label
  | [] => [.cleared i none quiet]
  | op :: todo =>
    if accepted f op then
      .answer i true :: .removed i (f.now op) (f.acknowledge op) quiet ::
        -- an error that has no text ends the loop
        (if (f.acknowledge op).all fun e => e.text.isOk then loopLabels todo else [])
    else .answer i false :: loopLabels todo

/-- The operations in the pass. -/
def operations (rows : List QueueRow) : List QueueRow := if f.reads then rows else []

def labels (rows : List QueueRow) : List Label :=
  .call i false :: .read i (if f.reads then some rows else none) quiet ::
    (if (operations f rows).isEmpty then [] else loopLabels i f (operations f rows))

/-- The counts add up, and success means that everything that was pending when the pass
began was accepted and is pending no longer. -/
structure Accounted (q : Queue) (rows : List QueueRow) (result : SyncResult) (q' : Queue) :
    Prop where
  counts : result.successCount.getD 0 + result.failureCount.getD 0 = (operations f rows).length
  success : result.success = true → ∀ r ∈ q.rows, r.status = .pending →
    accepted f r = true ∧ ∀ r' ∈ q'.rows, r'.id = r.id → r'.status = .synced

/-- The queue is read if anything is pending, and whatever is accepted is acknowledged. -/
structure Clean (q : Queue) (rows : List QueueRow) : Prop where
  read : f.reads = false → ∀ r ∈ q.rows, r.status ≠ .pending
  acknowledged : ∀ op ∈ operations f rows, accepted f op = true → f.acknowledge op = none

/-- The operations that the pass counts as failures. -/
def failures (op : QueueRow) : Bool := !accepted f op || (f.acknowledge op).isSome

/-- Every operation is counted, and once only if it is acknowledged when it is accepted. -/
theorem counts_le (todo : List QueueRow) :
    todo.length ≤ todo.countP (accepted f) + todo.countP (failures f) := by
  induction todo with
  | nil => simp
  | cons op todo ih =>
    cases hop : accepted f op <;> simp [List.countP_cons, hop, failures] <;> omega

theorem counts_once_iff (todo : List QueueRow) :
    todo.countP (accepted f) + todo.countP (failures f) = todo.length ↔
      ∀ op ∈ todo, accepted f op = true → f.acknowledge op = none := by
  induction todo with
  | nil => simp
  | cons op todo ih =>
    have hrest := counts_le f todo
    rw [List.forall_mem_cons]
    refine Iff.trans ?_ (and_congr_right fun _ => ih)
    cases hop : accepted f op with
    | false => simp [hop, failures]; omega
    | true =>
      cases hfault : f.acknowledge op with
      | none => simp [hop, hfault, failures]; omega
      | some e => simp [hop, hfault, failures]; omega

/-- What a loop that comes to its end reports, and what it leaves in the queue. -/
structure Passed (p : Pass) (todo : List QueueRow) (q : Queue) (result : SyncResult)
    (q' : Queue) : Prop where
  successCount : result.successCount = some (p.successCount + todo.countP (accepted f))
  failureCount : result.failureCount = some (p.failureCount + todo.countP (failures f))
  success : result.success = true ↔ p.failureCount + todo.countP (failures f) = 0
  queue : ∀ r ∈ q'.rows, r ∈ q.rows ∧ r.status = .pending ∧
    ∀ op ∈ todo, accepted f op = true → f.acknowledge op = none → r.id ≠ op.id

/-- What an error without text makes of the loop. -/
structure Broken (todo : List QueueRow) (result : SyncResult) : Prop where
  fault : ∃ op ∈ todo, accepted f op = true ∧ f.acknowledge op ≠ none
  success : result.success = false
  successCount : result.successCount = none
  failureCount : result.failureCount = none

section Loop

variable {f}

theorem Passed.cleared (p : Pass) (q : Queue) :
    Passed f p [] q ⟨p.failureCount == 0, resultMessage p, some p.successCount,
      some p.failureCount⟩ (clearQueue q) where
  successCount := by simp
  failureCount := by simp
  success := by simp
  queue r hr := ⟨((mem_clearQueue q r).mp hr).1, ((mem_clearQueue q r).mp hr).2, by simp⟩

theorem Passed.refused {p : Pass} {op : QueueRow} {todo : List QueueRow} {q q' : Queue}
    {result : SyncResult} (hop : accepted f op = false)
    (h : Passed f { p with failureCount := p.failureCount + 1 } todo q result q') :
    Passed f p (op :: todo) q result q' where
  successCount := by rw [h.successCount]; simp [hop]
  failureCount := by
    rw [h.failureCount]
    simp [failures, hop]
    omega
  success := by
    rw [h.success]
    simp [failures, hop]
  queue r hr := by
    obtain ⟨hq, hpending, hids⟩ := h.queue r hr
    refine ⟨hq, hpending, List.forall_mem_cons.mpr ⟨fun h => ?_, hids⟩⟩
    rw [hop] at h
    cases h

theorem Passed.acknowledged {p : Pass} {op : QueueRow} {todo : List QueueRow} {q q' : Queue}
    {result : SyncResult} {now : Int} (hop : accepted f op = true)
    (hfault : f.acknowledge op = none)
    (h : Passed f { p with successCount := p.successCount + 1 } todo
      (markOperationAsSynced now op.id q) result q') : Passed f p (op :: todo) q result q' where
  successCount := by
    rw [h.successCount]
    simp [hop]
    omega
  failureCount := by rw [h.failureCount]; simp [failures, hop, hfault]
  success := by rw [h.success]; simp [failures, hop, hfault]
  queue r hr := by
    obtain ⟨hq, hpending, hids⟩ := h.queue r hr
    rcases (mem_markOperationAsSynced now op.id q r).mp hq with ⟨hq, hid⟩ | ⟨b, -, -, rfl⟩
    · exact ⟨hq, hpending, List.forall_mem_cons.mpr ⟨fun _ _ => hid, hids⟩⟩
    · cases hpending

theorem Passed.unacknowledged {p : Pass} {op : QueueRow} {todo : List QueueRow} {q q' : Queue}
    {result : SyncResult} (hop : accepted f op = true) (hfault : f.acknowledge op ≠ none)
    (h : Passed f ⟨p.operations, p.successCount + 1, p.failureCount + 1⟩ todo q result q') :
    Passed f p (op :: todo) q result q' where
  successCount := by
    rw [h.successCount]
    simp [hop]
    omega
  failureCount := by
    rw [h.failureCount]
    simp [failures, Option.isSome_iff_ne_none.mpr hfault]
    omega
  success := by
    rw [h.success]
    simp [failures, Option.isSome_iff_ne_none.mpr hfault]
  queue r hr := by
    obtain ⟨hq, hpending, hids⟩ := h.queue r hr
    exact ⟨hq, hpending, List.forall_mem_cons.mpr ⟨fun _ hnone => absurd hnone hfault, hids⟩⟩

theorem Broken.cons {op : QueueRow} {todo : List QueueRow} {result : SyncResult}
    (h : Broken f todo result) : Broken f (op :: todo) result where
  fault := by
    obtain ⟨op', hmem, hfault⟩ := h.fault
    exact ⟨op', List.mem_cons_of_mem op hmem, hfault⟩
  success := h.success
  successCount := h.successCount
  failureCount := h.failureCount

end Loop

/-! ## The steps of the loop -/

section Steps

variable (p : Pass) (op : QueueRow) (todo : List QueueRow) (s : State)

/-- The call while it acknowledges an operation. -/
def acknowledging : State := { s with calls := s.calls.put i (some (.removing p op todo)) }

theorem visit_put (a : Option Phase) :
    visit i p todo { s with calls := s.calls.put i a } = visit i p todo s := by
  cases todo <;> simp [visit]

theorem step_refused :
    step (visit i p (op :: todo) s) (.answer i false) =
      some (visit i { p with failureCount := p.failureCount + 1 } todo s) := by
  simp [step, visit, onAnswer]

theorem step_accepted (hsend : sendable op = true) :
    step (visit i p (op :: todo) s) (.answer i true) =
      some (acknowledging i { p with successCount := p.successCount + 1 } op todo s) := by
  simp [step, visit, onAnswer, hsend, acknowledging]

theorem step_removed (now : Int) :
    step (acknowledging i p op todo s) (.removed i now none quiet) =
      some (visit i p todo { s with queue := markOperationAsSynced now op.id s.queue }) := by
  have hput := visit_put i p todo { s with queue := markOperationAsSynced now op.id s.queue }
    (some (.removing p op todo))
  simp only [step, acknowledging, Slots.put_same, onRemoved]
  exact congrArg some hput

theorem step_unacknowledged (now : Int) {e : Thrown} {text : String} (htext : e.text = .ok text) :
    step (acknowledging i p op todo s) (.removed i now (some e) quiet) =
      some (visit i { p with failureCount := p.failureCount + 1 } todo s) := by
  simp [step, acknowledging, onRemoved, htext, visit_put]

theorem step_broken (now : Int) {e : Thrown} {message : String}
    (htext : e.text = .error message) :
    ∃ t, step (acknowledging i p op todo s) (.removed i now (some e) quiet) = some t ∧
      t.ended = s.ended ++ [(i, .resolved ⟨false, message, none, none⟩)] := by
  refine ⟨failed i (.error message) false (acknowledging i p op todo s), ?_, ?_⟩
  · simp only [step, acknowledging, Slots.put_same, onRemoved, htext, quiet]
  · simp [acknowledging, failed, Thrown.text, Thrown.message, notifyListeners, finish]

theorem step_cleared :
    ∃ t, step (visit i p [] s) (.cleared i none quiet) = some t ∧
      t.ended = s.ended ++ [(i, .resolved ⟨p.failureCount == 0, resultMessage p,
        some p.successCount, some p.failureCount⟩)] ∧ t.queue = clearQueue s.queue := by
  refine ⟨onCleared i p none quiet (visit i p [] s), by simp [step, visit], ?_⟩
  simp [visit, onCleared, completed, quiet, notifyListeners, finish]

end Steps

/-- The loop comes to its end, or to an error that has no text. -/
theorem loop_runs (p : Pass) (todo : List QueueRow) (s : State) :
    ∃ t result, run step (visit i p todo s) (loopLabels i f todo) = some t ∧
      t.ended = s.ended ++ [(i, .resolved result)] ∧
      (Passed f p todo s.queue result t.queue ∨ Broken f todo result) := by
  induction todo generalizing p s with
  | nil =>
    obtain ⟨t, ht, hended, hqueue⟩ := step_cleared i p s
    refine ⟨t, _, by simp [loopLabels, ht], hended, .inl ?_⟩
    rw [hqueue]
    exact Passed.cleared p s.queue
  | cons op todo ih =>
    cases hop : accepted f op with
    | false =>
      obtain ⟨t, result, hrun, hended, h⟩ := ih { p with failureCount := p.failureCount + 1 } s
      refine ⟨t, result, ?_, hended, h.imp (Passed.refused hop) Broken.cons⟩
      simpa [loopLabels, hop, step_refused] using hrun
    | true =>
      have hsend : sendable op = true := (Bool.and_eq_true_iff.mp hop).1
      have haccepted := step_accepted i p op todo s hsend
      cases hfault : f.acknowledge op with
      | none =>
        obtain ⟨t, result, hrun, hended, h⟩ := ih { p with successCount := p.successCount + 1 }
          { s with queue := markOperationAsSynced (f.now op) op.id s.queue }
        refine ⟨t, result, ?_, hended, h.imp (Passed.acknowledged hop hfault) Broken.cons⟩
        simpa [loopLabels, hop, hfault, haccepted, step_removed] using hrun
      | some e =>
        have hne : f.acknowledge op ≠ none := by simp [hfault]
        cases htext : e.text with
        | ok text =>
          obtain ⟨t, result, hrun, hended, h⟩ :=
            ih ⟨p.operations, p.successCount + 1, p.failureCount + 1⟩ s
          refine ⟨t, result, ?_, hended, h.imp (Passed.unacknowledged hop hne) Broken.cons⟩
          have hstep := step_unacknowledged i { p with successCount := p.successCount + 1 } op todo
            s (f.now op) htext
          simpa [loopLabels, hop, hfault, haccepted, htext, hstep, Except.isOk, Except.toBool]
            using hrun
        | error message =>
          obtain ⟨t, ht, hended⟩ := step_broken i { p with successCount := p.successCount + 1 } op
            todo s (f.now op) htext
          refine ⟨t, _, ?_, hended, .inr ⟨⟨op, List.mem_cons_self, hop, hne⟩, rfl, rfl, rfl⟩⟩
          simp [loopLabels, hop, hfault, haccepted, htext, ht, Except.isOk, Except.toBool]

/-! ## The whole pass -/

theorem step_call {s : State} (hfree : s.isSyncing = false) (hidle : s.calls i = none)
    (hnew : i ∉ s.ended.map Prod.fst) :
    ∃ t, step s (.call i false) = some t ∧ t.calls i = some .reading ∧ t.queue = s.queue ∧
      t.ended = s.ended := by
  refine ⟨_, if_pos ⟨by rw [hidle]; rfl, hnew⟩, ?_⟩
  simp [syncPendingOperations, hfree, notifyListeners]

theorem step_read {s : State} {answer : Option (List QueueRow)} (hphase : s.calls i = some .reading)
    (hanswer : ∀ rows ∈ answer, IsQueue s.queue rows) :
    step s (.read i answer quiet) = some (onQueue i (answer.getD []) quiet s) := by
  have hall : (answer.all fun rows => decide (IsQueue s.queue rows)) = true := by
    simpa [Option.all_eq_true] using hanswer
  simp [step, hphase, hall]

theorem onQueue_nil (s : State) :
    (onQueue i [] quiet s).ended =
        s.ended ++ [(i, .resolved ⟨true, "No pending operations", none, none⟩)] ∧
      (onQueue i [] quiet s).queue = s.queue := by
  simp [onQueue, completed, quiet, notifyListeners, finish]

/-- With nothing in the pass, success is claimed, and rightly if nothing is pending. -/
theorem accounted_of_nil {q : Queue} {rows : List QueueRow} {message : String}
    (hrows : IsQueue q rows) (hnil : operations f rows = []) :
    Accounted f q rows ⟨true, message, none, none⟩ q ↔ Clean f q rows := by
  constructor
  · intro h
    refine ⟨fun _ r hr hpending => ?_, by simp [hnil]⟩
    have hsynced := (h.success rfl r hr hpending).2 r hr rfl
    rw [hpending] at hsynced
    cases hsynced
  · intro h
    have hnone : ∀ r ∈ q.rows, r.status ≠ .pending := by
      cases hreads : f.reads with
      | false => exact h.read hreads
      | true =>
        intro r hr hpending
        have hmem : r ∈ rows := (hrows.mem_iff r).mpr ⟨hr, hpending⟩
        simp only [operations, hreads, if_true] at hnil
        simp [hnil] at hmem
    exact ⟨by simp [hnil], fun _ r hr hpending => absurd hpending (hnone r hr)⟩

theorem accounted_of_passed {q q' : Queue} {rows : List QueueRow} {result : SyncResult}
    (hrows : IsQueue q rows) (hreads : f.reads = true)
    (h : Passed f ⟨rows, 0, 0⟩ rows q result q') :
    Accounted f q rows result q' ↔ Clean f q rows := by
  have hcounts : result.successCount.getD 0 + result.failureCount.getD 0 =
      rows.countP (accepted f) + rows.countP (failures f) := by
    simp [h.successCount, h.failureCount]
  have hoperations : operations f rows = rows := by simp [operations, hreads]
  constructor
  · intro hacc
    refine ⟨fun hread => by simp [hreads] at hread, ?_⟩
    rw [hoperations, ← counts_once_iff, ← hcounts, hacc.counts, hoperations]
  · intro hclean
    have hack := hclean.acknowledged
    rw [hoperations] at hack
    refine ⟨?_, fun hsuccess r hr hpending => ?_⟩
    · rw [hcounts, hoperations, counts_once_iff]
      exact hack
    · have hmem : r ∈ rows := (hrows.mem_iff r).mpr ⟨hr, hpending⟩
      have hzero : rows.countP (failures f) = 0 := by simpa using h.success.mp hsuccess
      have hfailures := List.countP_eq_zero.mp hzero r hmem
      have haccepted : accepted f r = true := by
        simp only [failures, Bool.or_eq_true, not_or] at hfailures
        simpa using hfailures.1
      refine ⟨haccepted, fun r' hr' hid => ?_⟩
      exact absurd hid ((h.queue r' hr').2.2 r hmem haccepted (hack r hmem haccepted))

theorem accounted_of_broken {q q' : Queue} {rows : List QueueRow} {result : SyncResult}
    (hreads : f.reads = true) (h : Broken f rows result) :
    Accounted f q rows result q' ↔ Clean f q rows := by
  obtain ⟨op, hop, haccepted, hfault⟩ := h.fault
  have hoperations : operations f rows = rows := by simp [operations, hreads]
  refine iff_of_false (fun hacc => ?_) fun hclean => ?_
  · have hcounts := hacc.counts
    rw [h.successCount, h.failureCount, hoperations] at hcounts
    have hlength : rows.length = 0 := hcounts.symm
    rw [List.length_eq_zero_iff.mp hlength] at hop
    cases hop
  · exact hfault (hclean.acknowledged op (hoperations.symm ▸ hop) haccepted)

/-- A pass reports what happened exactly if the queue is read whenever anything is pending
and every operation that the server accepts is acknowledged. -/
theorem reported_iff {s : State} (hfree : s.isSyncing = false) (hidle : s.calls i = none)
    (hnew : i ∉ s.ended.map Prod.fst) {rows : List QueueRow} (hrows : IsQueue s.queue rows) :
    ∃ t result, run step s (labels i f rows) = some t ∧
      t.ended = s.ended ++ [(i, .resolved result)] ∧
      (Accounted f s.queue rows result t.queue ↔ Clean f s.queue rows) := by
  obtain ⟨u, hcall, hreading, hqueue, hended⟩ := step_call i hfree hidle hnew
  have hqueues : ∀ answer ∈ if f.reads then some rows else none, IsQueue u.queue answer := by
    intro answer hanswer
    cases hreads : f.reads with
    | false => simp [hreads] at hanswer
    | true =>
      simp only [hreads, if_true, Option.mem_some_iff] at hanswer
      rwa [hqueue, ← hanswer]
  have hread := step_read i hreading hqueues
  have hanswer : (if f.reads then some rows else none).getD [] = operations f rows := by
    cases hreads : f.reads <;> simp [operations, hreads]
  rw [hanswer] at hread
  cases hops : operations f rows with
  | nil =>
    obtain ⟨hends, hkept⟩ := onQueue_nil i u
    refine ⟨onQueue i [] quiet u, _, ?_, by rw [hends, hended], ?_⟩
    · rw [hops] at hread
      simp [labels, hcall, hread, hops]
    · rw [hkept, hqueue]
      exact accounted_of_nil f hrows hops
  | cons op ops =>
    have hreads : f.reads = true := by
      by_contra hno
      simp [operations, hno] at hops
    have hall : operations f rows = rows := by simp [operations, hreads]
    obtain ⟨t, result, hrun, hends, h⟩ := loop_runs i f ⟨rows, 0, 0⟩ rows u
    refine ⟨t, result, ?_, by rw [hends, hended], ?_⟩
    · have hrows' : rows = op :: ops := hall.symm.trans hops
      rw [hall] at hread
      simp only [labels, run_cons, hcall, Option.bind_some, hread, hall]
      simpa [onQueue, hrows'] using hrun
    · rw [← hqueue] at hrows ⊢
      exact h.elim (accounted_of_passed f hrows hreads) (accounted_of_broken f hreads)

/-- A queue with one operation. -/
def clearing : Queue :=
  addToQueue 0 ⟨.deleteAll, .cartItem, .num 0, .obj []⟩ Table.empty

/-- The server accepts everything and the acknowledgements fail. -/
def unacknowledging : Faults := ⟨true, fun _ => true, fun _ => some (.error "disk I/O error"),
  fun _ => 0⟩

/-- The server accepts the operation, and the pass counts it as a success. -/
theorem reported_acknowledged :
    ∃ t result, run step (start clearing)
        (labels 0 { unacknowledging with acknowledge := fun _ => none } clearing.rows) = some t ∧
      t.ended = [] ++ [(0, .resolved result)] ∧
      (Accounted { unacknowledging with acknowledge := fun _ => none } clearing clearing.rows result
          t.queue ↔
        Clean { unacknowledging with acknowledge := fun _ => none } clearing clearing.rows) :=
  reported_iff 0 { unacknowledging with acknowledge := fun _ => none } (s := start clearing) rfl
    rfl (by simp [start]) (by decide)

/-- The server accepts the operation, and the pass counts it twice. -/
theorem counted_twice : ¬ ∀ (f : Faults) (q : Queue) (rows : List QueueRow), IsQueue q rows →
    ∀ t result, run step (start q) (labels 0 f rows) = some t →
      t.ended = [(0, .resolved result)] → Accounted f q rows result t.queue := by
  intro hall
  have hacc := hall unacknowledging clearing clearing.rows (by decide) _ _ rfl rfl
  exact absurd hacc.counts (by decide)

end SyncResults
