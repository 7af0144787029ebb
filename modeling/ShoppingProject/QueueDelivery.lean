import ShoppingProject.QueueRefinement

/-!
# No queued operation is lost

What the trace of a run says about the state it ends in: where each stored row
comes from, and that a queued operation is stored as it was queued until the
application has seen the server's success for it, or the whole database is wiped.
Nothing is assumed of the order of events, of the server, or of the clock.
-/
namespace QueueDelivery

open OfflineQueue SyncManager QueueRefinement Runs

variable {σ ε : Type} {respond : QueueRow → ε → σ → Bool × σ} {s t : State σ} {l : Label ε}
  {tr : List (Label ε)}

/-- A request for the operation was answered with success, and the answer arrived. -/
def ReturnedSuccess (tr : List (Label ε)) (id : Int) : Prop :=
  ∃ attempt env, .send id attempt ∈ tr ∧ .serve attempt env true ∈ tr ∧ .succeed id attempt ∈ tr

theorem ReturnedSuccess.mono {tr' : List (Label ε)} {id : Int} (h : ReturnedSuccess tr id)
    (hsub : ∀ l ∈ tr, l ∈ tr') : ReturnedSuccess tr' id := by
  obtain ⟨attempt, env, hsend, hserve, hsucceed⟩ := h
  exact ⟨attempt, env, hsub _ hsend, hsub _ hserve, hsub _ hsucceed⟩

theorem ReturnedSuccess.snoc {id : Int} (h : ReturnedSuccess tr id) (l : Label ε) :
    ReturnedSuccess (tr ++ [l]) id := h.mono fun _ => List.mem_append_left _

/-- All local data was cleared after the operation was queued. -/
def Wiped (tr : List (Label ε)) (id : Int) : Prop :=
  ∃ before after now op, tr = before ++ after ∧ .enqueue id now op ∈ before ∧ .wipe ∈ after

theorem Wiped.append {id : Int} (h : Wiped tr id) (tr' : List (Label ε)) :
    Wiped (tr ++ tr') id := by
  obtain ⟨before, after, now, op, rfl, henqueue, hwipe⟩ := h
  exact ⟨before, after ++ tr', now, op, List.append_assoc .., henqueue,
    List.mem_append_left _ hwipe⟩

/-- Every stored row was queued, once, and is as it was queued while it is pending. -/
structure Sourced (tr : List (Label ε)) (s : State σ) : Prop where
  fresh : ∀ id now op, .enqueue id now op ∈ tr → id < s.queue.next
  unique : ∀ id now op now' op', .enqueue id now op ∈ tr → .enqueue id now' op' ∈ tr →
    now = now' ∧ op = op'
  rows : ∀ r ∈ s.queue.rows, ∃ now op, .enqueue r.id now op ∈ tr ∧
    (r.status = .pending → r = newRow op now r.id)

/-- What the application waits for was sent, and what it acknowledges was answered. -/
structure Answered (tr : List (Label ε)) (s : State σ) : Prop where
  accepted : ∀ attempt ∈ s.accepted, ∃ env, .serve attempt env true ∈ tr
  awaiting : ∀ attempt op todo, s.phase = .awaiting attempt op todo → .send op.id attempt ∈ tr
  acknowledging : ∀ op todo, s.phase = .acknowledging op todo → ReturnedSuccess tr op.id

/-- A pass holds different operations as they were queued, and stored if not wiped. -/
structure Live (tr : List (Label ε)) (s : State σ) : Prop where
  distinct : s.phase.current.Pairwise fun a b => a.id ≠ b.id
  queued : ∀ r ∈ s.phase.current, ∃ now op, .enqueue r.id now op ∈ tr ∧ r = newRow op now r.id
  stored : ∀ r ∈ s.phase.current, r ∈ s.queue.rows ∨ Wiped tr r.id

theorem Live.pending (hs : Live tr s) {r : QueueRow} (hr : r ∈ s.phase.current) :
    r.status = .pending := by
  obtain ⟨now, op, -, heq⟩ := hs.queued r hr
  rw [heq]
  rfl

theorem Live.known (hsource : Sourced tr s) (hs : Live tr s) {r : QueueRow}
    (hr : r ∈ s.phase.current) : r.id < s.queue.next := by
  obtain ⟨now, op, hmem, -⟩ := hs.queued r hr
  exact hsource.fresh _ _ _ hmem

/-- A row that no pass will touch before it reads the queue again. -/
structure Resting (row : QueueRow) (s : State σ) : Prop where
  stored : row ∈ s.queue.rows
  pending : row.status = .pending
  apart : ∀ r ∈ s.phase.current, r.id ≠ row.id

/-- A pending row stays unless it is acknowledged or everything is wiped. -/
theorem stored_step {row : QueueRow} (h : Step respond s l t)
    (hrow : row ∈ s.queue.rows) (hpending : row.status = .pending) :
    row ∈ t.queue.rows ∨ l = .wipe ∨
      ∃ op todo now, s.phase = .acknowledging op todo ∧ l = .acknowledge op.id now ∧
        op.id = row.id := by
  rcases queue_step h with hq | ⟨now, op, -, hq⟩ | ⟨op, todo, now, hphase, hl, hq⟩ | hq | ⟨hl, -⟩
  · exact .inl (hq ▸ hrow)
  · rw [hq, mem_addToQueue]
    exact .inl (.inl hrow)
  · by_cases hid : op.id = row.id
    · exact .inr (.inr ⟨op, todo, now, hphase, hl, hid⟩)
    · rw [hq, mem_markOperationAsSynced]
      exact .inl (.inl ⟨hrow, fun heq => hid heq.symm⟩)
  · rw [hq, mem_clearQueue]
    exact .inl ⟨hrow, hpending⟩
  · exact .inr (.inl hl)

/-- Two enqueues have different keys. -/
theorem unique_step (hs : Sourced tr s) (h : Step respond s l t) {id now now' : Int}
    {op op' : Operation} (hmem : .enqueue id now op ∈ tr ++ [l])
    (hmem' : .enqueue id now' op' ∈ tr ++ [l]) : now = now' ∧ op = op' := by
  have hnew : ∀ now op, .enqueue id now op = l → id = s.queue.next := by
    rintro now op rfl
    exact (enqueue_step h).1
  simp only [List.mem_append, List.mem_singleton] at hmem hmem'
  rcases hmem with hold | hl
  · rcases hmem' with hold' | hl'
    · exact hs.unique id now op now' op' hold hold'
    · have hfresh := hs.fresh id now op hold
      have hid := hnew now' op' hl'
      omega
  · rcases hmem' with hold' | hl'
    · have hfresh := hs.fresh id now' op' hold'
      have hid := hnew now op hl
      omega
    · have heq := hl.trans hl'.symm
      simp only [Label.enqueue.injEq, true_and] at heq
      exact heq

/-- The rows of the queue after a step were queued, the last one perhaps just now. -/
theorem source_step (hs : Sourced tr s) (h : Step respond s l t) {r : QueueRow}
    (hr : r ∈ t.queue.rows) : ∃ now op, .enqueue r.id now op ∈ tr ++ [l] ∧
      (r.status = .pending → r = newRow op now r.id) := by
  have hold : ∀ r ∈ s.queue.rows, ∃ now op, .enqueue r.id now op ∈ tr ++ [l] ∧
      (r.status = .pending → r = newRow op now r.id) := by
    intro r hr
    obtain ⟨now, op, hmem, hpending⟩ := hs.rows r hr
    exact ⟨now, op, List.mem_append_left _ hmem, hpending⟩
  rcases queue_step h with hq | ⟨now, op, hl, hq⟩ | ⟨op, todo, now, -, -, hq⟩ | hq | ⟨-, hq⟩
  · exact hold r (hq ▸ hr)
  · rw [hq, mem_addToQueue] at hr
    rcases hr with hr | rfl
    · exact hold r hr
    · exact ⟨now, op, by simp [hl, newRow_id], fun _ => rfl⟩
  · rw [hq, mem_markOperationAsSynced] at hr
    rcases hr with ⟨hr, -⟩ | ⟨b, hb, -, rfl⟩
    · exact hold r hr
    · obtain ⟨now', op', hmem, -⟩ := hold b hb
      exact ⟨now', op', hmem, fun hpending => by simp [synced] at hpending⟩
  · rw [hq, mem_clearQueue] at hr
    exact hold r hr.1
  · rw [hq] at hr
    simp [clearAllData] at hr

theorem sourced_step (hs : Sourced tr s) (h : Step respond s l t) : Sourced (tr ++ [l]) t := by
  refine ⟨?_, fun id now op now' op' => unique_step hs h, fun r => source_step hs h⟩
  intro id now op hmem
  rcases List.mem_append.mp hmem with hmem | hmem
  · exact (hs.fresh id now op hmem).trans_le (next_le_step h)
  · obtain rfl := List.mem_singleton.mp hmem
    obtain ⟨rfl, hq⟩ := enqueue_step h
    rw [hq]
    exact Int.lt_succ _

theorem answered_step (hs : Answered tr s) (h : Step respond s l t) : Answered (tr ++ [l]) t := by
  refine ⟨?_, ?_, ?_⟩
  · intro attempt ha
    rcases accepted_step h ha with ha | ⟨env, rfl⟩
    · obtain ⟨env, hserve⟩ := hs.accepted attempt ha
      exact ⟨env, List.mem_append_left _ hserve⟩
    · exact ⟨env, by simp⟩
  · intro attempt op todo hphase
    rcases awaiting_step h hphase with hphase | rfl
    · exact List.mem_append_left _ (hs.awaiting attempt op todo hphase)
    · simp
  · intro op todo hphase
    rcases acknowledging_step h hphase with hphase | ⟨attempt, rfl, hphase, haccepted⟩
    · exact (hs.acknowledging op todo hphase).snoc l
    · obtain ⟨env, hserve⟩ := hs.accepted attempt haccepted
      exact ⟨attempt, env, List.mem_append_left _ (hs.awaiting attempt op todo hphase),
        List.mem_append_left _ hserve, by simp⟩

/-- What is stored stays so, is wiped, or is let go of by the pass. -/
theorem stored_or_wiped_step {row : QueueRow} (hs : Sourced tr s) (h : Step respond s l t)
    (hrow : row ∈ s.queue.rows) (hpending : row.status = .pending) :
    row ∈ t.queue.rows ∨ Wiped (tr ++ [l]) row.id ∨
      ∃ op todo now, s.phase = .acknowledging op todo ∧ l = .acknowledge op.id now ∧
        op.id = row.id := by
  rcases stored_step h hrow hpending with hstored | rfl | hacknowledge
  · exact .inl hstored
  · obtain ⟨now, op, henqueue, -⟩ := hs.rows row hrow
    exact .inr (.inl ⟨tr, [.wipe], now, op, rfl, henqueue, by simp⟩)
  · exact .inr (.inr hacknowledge)

theorem live_step (hsource : Sourced tr s) (hs : Live tr s) (h : Step respond s l t) :
    Live (tr ++ [l]) t := by
  by_cases hsnapshot : ∃ rows, l = .snapshot rows
  · obtain ⟨rows, rfl⟩ := hsnapshot
    obtain ⟨hrows, hqueue, hcurrent⟩ := snapshot_step h
    rw [← hcurrent] at hrows
    have hread : ∀ r ∈ t.phase.current, r ∈ t.queue.rows ∧ r.status = .pending :=
      fun r hr => hqueue ▸ (hrows.mem_iff r).mp hr
    refine ⟨hrows.distinct, fun r hr => ?_, fun r hr => .inl (hread r hr).1⟩
    obtain ⟨now, op, hmem, heq⟩ := (sourced_step hsource h).rows r (hread r hr).1
    exact ⟨now, op, hmem, heq (hread r hr).2⟩
  · have hsuffix := suffix_step h fun rows hl => hsnapshot ⟨rows, hl⟩
    refine ⟨hs.distinct.sublist hsuffix.sublist, fun r hr => ?_, fun r hr => ?_⟩
    · obtain ⟨now, op, hmem, heq⟩ := hs.queued r (hsuffix.subset hr)
      exact ⟨now, op, List.mem_append_left _ hmem, heq⟩
    have hpending := hs.pending (hsuffix.subset hr)
    rcases hs.stored r (hsuffix.subset hr) with hstored | hwiped
    · rcases stored_or_wiped_step hsource h hstored hpending with
        hstored | hwiped | ⟨op, todo, now, -, rfl, hid⟩
      · exact .inl hstored
      · exact .inr hwiped
      · -- the acknowledged operation is no longer in hand, and the others are different
        obtain ⟨op', todo', hphase, hop', hvisiting, -⟩ := acknowledge_step h
        have hdistinct := hs.distinct
        rw [hphase, Phase.current, List.pairwise_cons] at hdistinct
        rw [hvisiting, Phase.current] at hr
        exact absurd (hop'.trans hid) (hdistinct.1 r hr)
    · exact .inr (hwiped.append [l])

theorem resting_step {row : QueueRow} (hs : Resting row s) (h : Step respond s l t)
    (hsnapshot : ∀ rows, l ≠ .snapshot rows) (hwipe : l ≠ .wipe) : Resting row t := by
  refine ⟨?_, hs.pending, ?_⟩
  · rcases stored_step h hs.stored hs.pending with hstored | hl | ⟨op, todo, now, hphase, -, hid⟩
    · exact hstored
    · exact absurd hl hwipe
    · exact absurd hid (hs.apart op (by simp [hphase, Phase.current]))
  · exact fun r hr => hs.apart r ((suffix_step h hsnapshot).subset hr)

/-- The operation that a pass lets go of rests, if it was not wiped. -/
theorem rests_of_dropped {op : QueueRow} {todo : List QueueRow} (hs : Live tr s)
    (hcurrent : s.phase.current = op :: todo) :
    (∃ row, row.id = op.id ∧ Resting row { s with phase := .visiting todo }) ∨ Wiped tr op.id := by
  have hop : op ∈ s.phase.current := by simp [hcurrent]
  rcases hs.stored op hop with hstored | hwiped
  · have hdistinct := hs.distinct
    rw [hcurrent, List.pairwise_cons] at hdistinct
    exact .inl ⟨op, rfl, hstored, hs.pending hop, fun r hr => (hdistinct.1 r hr).symm⟩
  · exact .inr hwiped

/-- An operation that is queued, skipped or fails is left alone from then on. -/
theorem rests_after (hsource : Sourced tr s) (hs : Live tr s) (h : Step respond s l t) {id : Int}
    (hl : (∃ now op, l = .enqueue id now op) ∨ l = .skip id ∨ ∃ attempt, l = .fail id attempt) :
    (∃ row, row.id = id ∧ Resting row t) ∨ Wiped tr id := by
  rcases hl with ⟨now, op, rfl⟩ | rfl | ⟨attempt, rfl⟩
  · cases h
    refine .inl ⟨newRow op now s.queue.next, rfl, (mem_addToQueue ..).mpr (.inr rfl), rfl, ?_⟩
    exact fun r hr => ne_of_lt (hs.known hsource hr)
  · cases h with
    | skip op todo hphase =>
      have hcurrent : s.phase.current = op :: todo := by rw [hphase]; rfl
      exact rests_of_dropped hs hcurrent
  · cases h with
    | fail attempt op todo hphase =>
      have hcurrent : s.phase.current = op :: todo := by rw [hphase]; rfl
      exact rests_of_dropped hs hcurrent

section Run

variable {server : σ}

theorem sourced_run (h : run (step respond) (initial server) tr = some s) : Sourced tr s := by
  refine history_invariant Sourced ?_ (fun tr u l t _ hs hl => sourced_step hs (step_sound hl)) h
  exact ⟨by simp, by simp, by simp [initial, Table.empty]⟩

theorem answered_run (h : run (step respond) (initial server) tr = some s) : Answered tr s := by
  refine history_invariant Answered ?_ (fun tr u l t _ hs hl => answered_step hs (step_sound hl)) h
  exact ⟨by simp [initial], by simp [initial], by simp [initial]⟩

theorem live_run (h : run (step respond) (initial server) tr = some s) : Live tr s := by
  refine history_invariant Live ?_ ?_ h
  · exact ⟨.nil, by simp [initial, Phase.current], by simp [initial, Phase.current]⟩
  · exact fun tr u l t hu hs hl => live_step (sourced_run hu) hs (step_sound hl)

theorem resting_run {row : QueueRow} (hs : Resting row s) (h : run (step respond) s tr = some t)
    (hsnapshot : ∀ rows, .snapshot rows ∉ tr) (hwipe : .wipe ∉ tr) : Resting row t := by
  refine run_keeps (Resting row) (fun l => (∀ rows, l ≠ .snapshot rows) ∧ l ≠ .wipe)
    (fun s l t hs hl h => resting_step hs (step_sound h) hl.1 hl.2) hs ?_ h
  exact fun l hl => ⟨fun rows heq => hsnapshot rows (heq ▸ hl), fun heq => hwipe (heq ▸ hl)⟩

/-- Every queued operation is stored as it was queued, has succeeded, or was wiped. -/
def Kept (tr : List (Label ε)) (s : State σ) : Prop :=
  ∀ id now op, .enqueue id now op ∈ tr →
    newRow op now id ∈ s.queue.rows ∨ ReturnedSuccess tr id ∨ Wiped tr id

/-- A pending row is what was queued under its key. -/
theorem Sourced.row_eq {id now : Int} {op : Operation} {row : QueueRow} (hs : Sourced tr s)
    (hmem : .enqueue id now op ∈ tr) (hrow : row ∈ s.queue.rows) (hpending : row.status = .pending)
    (hid : row.id = id) : row = newRow op now id := by
  obtain ⟨now', op', hmem', heq⟩ := hs.rows row hrow
  rw [hid] at hmem' heq
  obtain ⟨rfl, rfl⟩ := hs.unique id now op now' op' hmem hmem'
  exact heq hpending

/-- A success that arrived is the success of a request that was sent and accepted. -/
theorem returned_of_succeed (h : run (step respond) (initial server) tr = some s) {id : Int}
    {attempt : Nat} (hmem : .succeed id attempt ∈ tr) : ReturnedSuccess tr id := by
  obtain ⟨before, after, rfl⟩ := List.append_of_mem hmem
  obtain ⟨u, v, hu, hv, -⟩ := run_at h
  cases step_sound hv with
  | succeed _ op todo hphase haccepted =>
    have hanswered := answered_run hu
    obtain ⟨env, hserve⟩ := hanswered.accepted attempt haccepted
    have hsend := hanswered.awaiting attempt op todo hphase
    exact ⟨attempt, env, List.mem_append_left _ hsend, List.mem_append_left _ hserve, by simp⟩

/-- The retry queue is reset when all local data is cleared. -/
theorem wiped_of_reset {id : Int} (h : RetryQueues.Reset (tr.flatMap labels) id) :
    Wiped tr id := by
  induction tr using List.reverseRecOn with
  | nil =>
    obtain ⟨before, after, heq, hadd, -⟩ := h
    obtain ⟨rfl, -⟩ := List.append_eq_nil_iff.mp heq.symm
    simp at hadd
  | append_singleton tr l ih =>
    obtain ⟨before, after, heq, hadd, hreset⟩ := h
    rw [List.flatMap_append, List.flatMap_singleton] at heq
    by_cases hwipe : l = .wipe
    · subst hwipe
      have hmem : .add id ∈ before ++ after := List.mem_append_left _ hadd
      have hmem : .add id ∈ tr.flatMap labels := by simpa [← heq, labels] using hmem
      obtain ⟨now, op, henqueue⟩ := add_mem_labels.mp hmem
      exact ⟨tr, [.wipe], now, op, rfl, henqueue, by simp⟩
    · have hnot : .reset ∉ labels l := fun hmem => hwipe (eq_wipe_of_reset hmem)
      rcases List.append_eq_append_iff.mp heq with ⟨rest, -, hl⟩ | ⟨rest, hbefore, rfl⟩
      · simp [hl, hreset] at hnot
      · have hrest : .reset ∈ rest := (List.mem_append.mp hreset).resolve_right hnot
        exact (ih ⟨before, rest, hbefore, hadd, hrest⟩).append [l]

theorem kept_run (h : run (step respond) (initial server) tr = some s) : Kept tr s := by
  intro id now op hmem
  obtain ⟨a, ha, hR⟩ := refines_run h
  have hadd : .add id ∈ tr.flatMap labels := add_mem_labels.mpr ⟨now, op, hmem⟩
  rcases RetryQueues.waits_until_delivered ha hadd with hwaits | hdone | hreset
  · obtain ⟨r, hr, hid, hpending⟩ := (hR.waiting id).mpr hwaits
    exact .inl ((sourced_run h).row_eq hmem hr hpending hid ▸ hr)
  · obtain ⟨attempt, hsucceed⟩ := deliver_mem_labels hdone
    exact .inr (.inl (returned_of_succeed h hsucceed))
  · exact .inr (.inr (wiped_of_reset hreset))

/-- No operation is lost: each one is stored and pending until the server has
returned success for it, and one that was queued, skipped or failed since the queue
was last read is stored and pending in any case. Only a wipe removes it. -/
structure NoneLost (tr : List (Label ε)) (s : State σ) : Prop where
  untilSuccess : Kept tr s
  sinceRead : ∀ before after, tr = before ++ after → (∀ rows, .snapshot rows ∉ after) →
    ∀ id now op, .enqueue id now op ∈ tr →
      (.enqueue id now op ∈ after ∨ .skip id ∈ after ∨ ∃ attempt, .fail id attempt ∈ after) →
      newRow op now id ∈ s.queue.rows ∨ Wiped tr id

/-- In every run no operation is lost. -/
theorem none_lost (h : run (step respond) (initial server) tr = some s) : NoneLost tr s := by
  refine ⟨kept_run h, ?_⟩
  rintro before after rfl hsnapshot id now op hmem hevent
  obtain ⟨l, hl, hcase⟩ : ∃ l ∈ after, (∃ now op, l = .enqueue id now op) ∨ l = .skip id ∨
      ∃ attempt, l = .fail id attempt := by
    rcases hevent with hl | hl | ⟨attempt, hl⟩
    · exact ⟨_, hl, .inl ⟨now, op, rfl⟩⟩
    · exact ⟨_, hl, .inr (.inl rfl)⟩
    · exact ⟨_, hl, .inr (.inr ⟨attempt, rfl⟩)⟩
  obtain ⟨xs, ys, rfl⟩ := List.append_of_mem hl
  have hrun := h
  rw [← List.append_assoc] at hrun
  obtain ⟨u, v, hu, hv, hs⟩ := run_at hrun
  have hsofar : run (step respond) (initial server) (before ++ xs ++ [l]) = some v :=
    run_snoc.mpr ⟨u, hu, hv⟩
  have htrace : before ++ (xs ++ l :: ys) = before ++ xs ++ [l] ++ ys := by simp
  have hrests := rests_after (sourced_run hu) (live_run hu) (step_sound hv) hcase
  rcases hrests with ⟨row, hid, hrest⟩ | hwiped
  · by_cases hwipe : .wipe ∈ ys
    · obtain ⟨now', op', hbefore, -⟩ := (sourced_run hsofar).rows row hrest.stored
      exact .inr ⟨before ++ xs ++ [l], ys, now', op', htrace, hid ▸ hbefore, hwipe⟩
    · simp only [List.mem_append, List.mem_cons, not_or] at hsnapshot
      have hrest := resting_run hrest hs (fun rows => (hsnapshot rows).2.2) hwipe
      have hrow := (sourced_run h).row_eq hmem hrest.stored hrest.pending hid
      exact .inl (hrow ▸ hrest.stored)
  · rw [htrace, List.append_assoc (before ++ xs)]
    exact .inr (hwiped.append _)

end Run

/-- Removing an item, the way the application queues it. -/
def removal (item : Int) : Operation := ⟨.delete, .cartItem, .num item, .obj []⟩

/-- A server without a memory that answers every request with success. -/
def agreeable (_ : QueueRow) (_ : Unit) (s : Unit) : Bool × Unit := (true, s)

/-- A pass in which a second operation is queued crashes after the server accepted
the first one; in the next pass the first fails and the second succeeds. -/
def crashedRun : List (Label Unit) :=
  let first := newRow (removal 7) 100 1
  let second := newRow (removal 8) 101 2
  [.enqueue 1 100 (removal 7), .startSync, .snapshot [first], .enqueue 2 101 (removal 8),
    .send 1 0, .serve 0 () true, .crash, .startSync, .snapshot [first, second], .send 1 1,
    .fail 1 1, .send 2 2, .serve 2 () true, .succeed 2 2, .acknowledge 2 102, .finish]

theorem none_lost_crashedRun : ∃ s, run (step agreeable) (initial ()) crashedRun = some s ∧
    s.queue.rows = [newRow (removal 7) 100 1] ∧ NoneLost crashedRun s := by
  have hrows : (run (step agreeable) (initial ()) crashedRun).map (fun s => s.queue.rows) =
      some [newRow (removal 7) 100 1] := by decide
  obtain ⟨s, hs, hqueue⟩ := Option.map_eq_some_iff.mp hrows
  exact ⟨s, hs, hqueue, none_lost hs⟩

end QueueDelivery
