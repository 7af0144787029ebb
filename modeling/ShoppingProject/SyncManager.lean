import ShoppingProject.OfflineQueue
import ShoppingProject.Runs

/-!
# The synchronisation of the offline queue

The application, its local database and the requests on their way to the server,
as one transition system. Every `await` of `syncPendingOperations` is a point
where operations may be queued, the queue may be cleared and the application may
crash. Requests are numbered, so that the effects of one operation can be told
apart; the server itself is a parameter.
-/
namespace SyncManager

open OfflineQueue
open Runs (guarded)

/-- Where the synchronisation stands. An operation whose request succeeded waits
to be acknowledged in the local database. -/
inductive Phase where
  | idle : Phase
  | starting : Phase
  | visiting (todo : List QueueRow) : Phase
  | awaiting (attempt : Nat) (op : QueueRow) (todo : List QueueRow) : Phase
  | acknowledging (op : QueueRow) (todo : List QueueRow) : Phase
  deriving DecidableEq

variable {σ ε : Type}

structure State (σ : Type) where
  queue : Queue
  phase : Phase
  attempts : Nat
  inFlight : List (Nat × QueueRow)
  accepted : List Nat
  server : σ

def initial (server : σ) : State σ := ⟨Table.empty, .idle, 0, [], [], server⟩

/-- `syncOperation` sends a request for these operations only. -/
def sendable (r : QueueRow) : Bool :=
  r.operation.entityType = .cartItem &&
    match r.operation.operationType with
    | .add => true
    | .update => true
    | .delete => true
    | .deleteAll => true
    | .other _ => false

inductive Label (ε : Type) where
  | enqueue (id now : Int) (op : Operation) : Label ε
  | startSync : Label ε
  | snapshot (rows : List QueueRow) : Label ε
  | snapshotFails : Label ε
  | skip (id : Int) : Label ε
  | send (id : Int) (attempt : Nat) : Label ε
  | serve (attempt : Nat) (env : ε) (success : Bool) : Label ε
  | succeed (id : Int) (attempt : Nat) : Label ε
  | fail (id : Int) (attempt : Nat) : Label ε
  | acknowledge (id now : Int) : Label ε
  | acknowledgeFails (id : Int) : Label ε
  | finish : Label ε
  | finishFails : Label ε
  | clearSynced : Label ε
  | crash : Label ε
  | wipe : Label ε

/-- `respond` is what the server does with a request and whether it answers with
success. A request may fail for the application whatever the server did, and a
crash leaves the requests on their way. -/
def step (respond : QueueRow → ε → σ → Bool × σ) (s : State σ) : Label ε → Option (State σ)
  | .enqueue id now op =>
    if id = s.queue.next then some { s with queue := addToQueue now op s.queue } else none
  | .startSync => match s.phase with
    | .idle => some { s with phase := .starting }
    | _ => none
  | .snapshot rows => match s.phase with
    | .starting =>
      if IsQueue s.queue rows then
        some { s with phase := if rows.isEmpty then .idle else .visiting rows }
      else none
    | _ => none
  | .snapshotFails => match s.phase with
    | .starting => some { s with phase := .idle }
    | _ => none
  | .skip id => match s.phase with
    | .visiting (op :: todo) =>
      if op.id = id ∧ sendable op = false then some { s with phase := .visiting todo } else none
    | _ => none
  | .send id attempt => match s.phase with
    | .visiting (op :: todo) =>
      if op.id = id ∧ sendable op = true ∧ attempt = s.attempts then
        some { s with
          phase := .awaiting attempt op todo
          attempts := attempt + 1
          inFlight := s.inFlight ++ [(attempt, op)] }
      else none
    | _ => none
  | .serve attempt env success => match s.inFlight.find? fun p => p.1 == attempt with
    | some (_, op) =>
      if (respond op env s.server).1 = success then
        some { s with
          inFlight := s.inFlight.filter fun p => p.1 != attempt
          accepted := if success then s.accepted ++ [attempt] else s.accepted
          server := (respond op env s.server).2 }
      else none
    | none => none
  | .succeed id attempt => match s.phase with
    | .awaiting a op todo =>
      if op.id = id ∧ a = attempt ∧ attempt ∈ s.accepted then
        some { s with phase := .acknowledging op todo }
      else none
    | _ => none
  | .fail id attempt => match s.phase with
    | .awaiting a op todo =>
      if op.id = id ∧ a = attempt then some { s with phase := .visiting todo } else none
    | _ => none
  | .acknowledge id now => match s.phase with
    | .acknowledging op todo =>
      if op.id = id then
        some { s with queue := markOperationAsSynced now id s.queue, phase := .visiting todo }
      else none
    | _ => none
  | .acknowledgeFails id => match s.phase with
    | .acknowledging op todo =>
      if op.id = id then some { s with phase := .visiting todo } else none
    | _ => none
  | .finish => match s.phase with
    | .visiting [] => some { s with queue := clearQueue s.queue, phase := .idle }
    | _ => none
  | .finishFails => match s.phase with
    | .visiting [] => some { s with phase := .idle }
    | _ => none
  | .clearSynced => some { s with queue := clearQueue s.queue }
  | .crash => some { s with phase := .idle }
  | .wipe => some { s with queue := clearAllData s.queue }

/-- The steps as a relation, one constructor for each label. -/
inductive Step (respond : QueueRow → ε → σ → Bool × σ) (s : State σ) :
    Label ε → State σ → Prop where
  | enqueue (now : Int) (op : Operation) :
    Step respond s (.enqueue s.queue.next now op) { s with queue := addToQueue now op s.queue }
  | startSync (hphase : s.phase = .idle) :
    Step respond s .startSync { s with phase := .starting }
  | snapshot (rows : List QueueRow) (hphase : s.phase = .starting) (hrows : IsQueue s.queue rows) :
    Step respond s (.snapshot rows)
      { s with phase := if rows.isEmpty then .idle else .visiting rows }
  | snapshotFails (hphase : s.phase = .starting) :
    Step respond s .snapshotFails { s with phase := .idle }
  | skip (op : QueueRow) (todo : List QueueRow) (hphase : s.phase = .visiting (op :: todo))
    (hskip : sendable op = false) :
    Step respond s (.skip op.id) { s with phase := .visiting todo }
  | send (op : QueueRow) (todo : List QueueRow) (hphase : s.phase = .visiting (op :: todo))
    (hsend : sendable op = true) :
    Step respond s (.send op.id s.attempts)
      { s with
        phase := .awaiting s.attempts op todo
        attempts := s.attempts + 1
        inFlight := s.inFlight ++ [(s.attempts, op)] }
  | serve (attempt : Nat) (op : QueueRow) (env : ε) (hflight : (attempt, op) ∈ s.inFlight) :
    Step respond s (.serve attempt env (respond op env s.server).1)
      { s with
        inFlight := s.inFlight.filter fun p => p.1 != attempt
        accepted := if (respond op env s.server).1 then s.accepted ++ [attempt] else s.accepted
        server := (respond op env s.server).2 }
  | succeed (attempt : Nat) (op : QueueRow) (todo : List QueueRow)
    (hphase : s.phase = .awaiting attempt op todo) (haccepted : attempt ∈ s.accepted) :
    Step respond s (.succeed op.id attempt) { s with phase := .acknowledging op todo }
  | fail (attempt : Nat) (op : QueueRow) (todo : List QueueRow)
    (hphase : s.phase = .awaiting attempt op todo) :
    Step respond s (.fail op.id attempt) { s with phase := .visiting todo }
  | acknowledge (op : QueueRow) (todo : List QueueRow) (now : Int)
    (hphase : s.phase = .acknowledging op todo) :
    Step respond s (.acknowledge op.id now)
      { s with queue := markOperationAsSynced now op.id s.queue, phase := .visiting todo }
  | acknowledgeFails (op : QueueRow) (todo : List QueueRow)
    (hphase : s.phase = .acknowledging op todo) :
    Step respond s (.acknowledgeFails op.id) { s with phase := .visiting todo }
  | finish (hphase : s.phase = .visiting []) :
    Step respond s .finish { s with queue := clearQueue s.queue, phase := .idle }
  | finishFails (hphase : s.phase = .visiting []) :
    Step respond s .finishFails { s with phase := .idle }
  | clearSynced : Step respond s .clearSynced { s with queue := clearQueue s.queue }
  | crash : Step respond s .crash { s with phase := .idle }
  | wipe : Step respond s .wipe { s with queue := clearAllData s.queue }

theorem step_sound {respond : QueueRow → ε → σ → Bool × σ} {s t : State σ} {l : Label ε}
    (h : step respond s l = some t) : Step respond s l t := by
  cases l <;> simp only [step] at h
  case enqueue id now op =>
    obtain ⟨rfl, rfl⟩ := guarded h
    exact .enqueue now op
  case startSync =>
    split at h
    · rename_i hphase
      obtain rfl := Option.some.inj h
      exact .startSync hphase
    · simp at h
  case snapshot rows =>
    split at h
    · rename_i hphase
      obtain ⟨hrows, rfl⟩ := guarded h
      exact .snapshot rows hphase hrows
    · simp at h
  case snapshotFails =>
    split at h
    · rename_i hphase
      obtain rfl := Option.some.inj h
      exact .snapshotFails hphase
    · simp at h
  case skip id =>
    split at h
    · rename_i op todo hphase
      obtain ⟨⟨rfl, hskip⟩, rfl⟩ := guarded h
      exact .skip op todo hphase hskip
    · simp at h
  case send id attempt =>
    split at h
    · rename_i op todo hphase
      obtain ⟨⟨rfl, hsend, rfl⟩, rfl⟩ := guarded h
      exact .send op todo hphase hsend
    · simp at h
  case serve attempt env success =>
    split at h
    · rename_i a op hfind
      obtain rfl : a = attempt := by simpa using List.find?_some hfind
      obtain ⟨rfl, rfl⟩ := guarded h
      exact .serve a op env (List.mem_of_find?_eq_some hfind)
    · simp at h
  case succeed id attempt =>
    split at h
    · rename_i a op todo hphase
      obtain ⟨⟨rfl, rfl, haccepted⟩, rfl⟩ := guarded h
      exact .succeed a op todo hphase haccepted
    · simp at h
  case fail id attempt =>
    split at h
    · rename_i a op todo hphase
      obtain ⟨⟨rfl, rfl⟩, rfl⟩ := guarded h
      exact .fail a op todo hphase
    · simp at h
  case acknowledge id now =>
    split at h
    · rename_i op todo hphase
      obtain ⟨rfl, rfl⟩ := guarded h
      exact .acknowledge op todo now hphase
    · simp at h
  case acknowledgeFails id =>
    split at h
    · rename_i op todo hphase
      obtain ⟨rfl, rfl⟩ := guarded h
      exact .acknowledgeFails op todo hphase
    · simp at h
  case finish =>
    split at h
    · rename_i hphase
      obtain rfl := Option.some.inj h
      exact .finish hphase
    · simp at h
  case finishFails =>
    split at h
    · rename_i hphase
      obtain rfl := Option.some.inj h
      exact .finishFails hphase
    · simp at h
  case clearSynced =>
    obtain rfl := Option.some.inj h
    exact .clearSynced
  case crash =>
    obtain rfl := Option.some.inj h
    exact .crash
  case wipe =>
    obtain rfl := Option.some.inj h
    exact .wipe

/-- The operations that the pass still has in its hands, the current one first. -/
def Phase.current : Phase → List QueueRow
  | .idle => []
  | .starting => []
  | .visiting todo => todo
  | .awaiting _ op todo => op :: todo
  | .acknowledging op todo => op :: todo

section Inversion

variable {respond : QueueRow → ε → σ → Bool × σ} {s t : State σ} {l : Label ε}

/-- What a step does to the queue. -/
theorem queue_step (h : Step respond s l t) :
    t.queue = s.queue ∨
    (∃ now op, l = .enqueue s.queue.next now op ∧ t.queue = addToQueue now op s.queue) ∨
    (∃ op todo now, s.phase = .acknowledging op todo ∧ l = .acknowledge op.id now ∧
      t.queue = markOperationAsSynced now op.id s.queue) ∨
    t.queue = clearQueue s.queue ∨
    (l = .wipe ∧ t.queue = clearAllData s.queue) := by
  cases h with
  | enqueue now op => exact .inr (.inl ⟨now, op, rfl, rfl⟩)
  | acknowledge op todo now hphase => exact .inr (.inr (.inl ⟨op, todo, now, hphase, rfl, rfl⟩))
  | finish => exact .inr (.inr (.inr (.inl rfl)))
  | clearSynced => exact .inr (.inr (.inr (.inl rfl)))
  | wipe => exact .inr (.inr (.inr (.inr ⟨rfl, rfl⟩)))
  | _ => exact .inl rfl

theorem enqueue_step {id now : Int} {op : Operation}
    (h : Step respond s (.enqueue id now op) t) :
    id = s.queue.next ∧ t.queue = addToQueue now op s.queue := by
  cases h
  exact ⟨rfl, rfl⟩

theorem acknowledge_step {id now : Int} (h : Step respond s (.acknowledge id now) t) :
    ∃ op todo, s.phase = .acknowledging op todo ∧ op.id = id ∧ t.phase = .visiting todo ∧
      t.queue = markOperationAsSynced now id s.queue := by
  cases h with
  | acknowledge op todo now hphase => exact ⟨op, todo, hphase, rfl, rfl, rfl⟩

/-- The keys of the queue are never used again. -/
theorem next_step (h : Step respond s l t) :
    t.queue.next = s.queue.next ∨
      (t.queue.next = s.queue.next + 1 ∧ ∃ now op, l = .enqueue s.queue.next now op) := by
  rcases queue_step h with hq | ⟨now, op, rfl, hq⟩ | ⟨op, todo, now, -, -, hq⟩ | hq | ⟨-, hq⟩
  · exact .inl (by rw [hq])
  · exact .inr ⟨by rw [hq]; rfl, now, op, rfl⟩
  · exact .inl (by rw [hq]; rfl)
  · exact .inl (by rw [hq]; rfl)
  · exact .inl (by rw [hq]; rfl)

theorem next_le_step (h : Step respond s l t) : s.queue.next ≤ t.queue.next := by
  rcases next_step h with hn | ⟨hn, -⟩ <;> omega

/-- The pass goes on with the same operations, stops, has dealt with the first of
them, or reads the queue. -/
theorem current_step (h : Step respond s l t) :
    t.phase.current = s.phase.current ∨ t.phase.current = [] ∨
    (∃ op, s.phase.current = op :: t.phase.current ∧
      (l = .skip op.id ∨ (∃ attempt, l = .fail op.id attempt) ∨
        ∃ todo, s.phase = .acknowledging op todo)) ∨
    ∃ rows, l = .snapshot rows := by
  cases h with
  | snapshot rows => exact .inr (.inr (.inr ⟨rows, rfl⟩))
  | startSync => exact .inr (.inl rfl)
  | snapshotFails => exact .inr (.inl rfl)
  | finish => exact .inr (.inl rfl)
  | finishFails => exact .inr (.inl rfl)
  | crash => exact .inr (.inl rfl)
  | skip op todo hphase =>
    exact .inr (.inr (.inl ⟨op, by rw [hphase, Phase.current, Phase.current], .inl rfl⟩))
  | fail attempt op todo hphase =>
    refine .inr (.inr (.inl ⟨op, ?_, .inr (.inl ⟨attempt, rfl⟩)⟩))
    rw [hphase, Phase.current, Phase.current]
  | acknowledge op todo now hphase =>
    refine .inr (.inr (.inl ⟨op, ?_, .inr (.inr ⟨todo, hphase⟩)⟩))
    rw [hphase, Phase.current, Phase.current]
  | acknowledgeFails op todo hphase =>
    refine .inr (.inr (.inl ⟨op, ?_, .inr (.inr ⟨todo, hphase⟩)⟩))
    rw [hphase, Phase.current, Phase.current]
  | send op todo hphase => exact .inl (by rw [hphase, Phase.current, Phase.current])
  | succeed attempt op todo hphase => exact .inl (by rw [hphase, Phase.current, Phase.current])
  | enqueue => exact .inl rfl
  | serve => exact .inl rfl
  | clearSynced => exact .inl rfl
  | wipe => exact .inl rfl

/-- Between two readings of the queue a pass only lets go of operations. -/
theorem suffix_step (h : Step respond s l t) (hsnapshot : ∀ rows, l ≠ .snapshot rows) :
    t.phase.current <:+ s.phase.current := by
  rcases current_step h with hsame | hnone | ⟨op, hdrop, -⟩ | ⟨rows, hl⟩
  · exact hsame ▸ List.suffix_refl _
  · exact hnone ▸ List.nil_suffix
  · exact hdrop ▸ List.suffix_cons _ _
  · exact absurd hl (hsnapshot rows)

theorem snapshot_step {rows : List QueueRow} (h : Step respond s (.snapshot rows) t) :
    IsQueue s.queue rows ∧ t.queue = s.queue ∧ t.phase.current = rows := by
  cases h with
  | snapshot _ hphase hrows =>
    refine ⟨hrows, rfl, ?_⟩
    cases rows <;> rfl

theorem awaiting_step {attempt : Nat} {op : QueueRow} {todo : List QueueRow}
    (h : Step respond s l t) (hphase : t.phase = .awaiting attempt op todo) :
    s.phase = .awaiting attempt op todo ∨ l = .send op.id attempt := by
  cases h with
  | send =>
    simp only [Phase.awaiting.injEq] at hphase
    obtain ⟨rfl, rfl, rfl⟩ := hphase
    exact .inr rfl
  | snapshot rows => cases rows <;> simp at hphase
  | enqueue => exact .inl hphase
  | serve => exact .inl hphase
  | clearSynced => exact .inl hphase
  | wipe => exact .inl hphase
  | _ => simp at hphase

theorem acknowledging_step {op : QueueRow} {todo : List QueueRow}
    (h : Step respond s l t) (hphase : t.phase = .acknowledging op todo) :
    s.phase = .acknowledging op todo ∨
      ∃ attempt, l = .succeed op.id attempt ∧ s.phase = .awaiting attempt op todo ∧
        attempt ∈ s.accepted := by
  cases h with
  | succeed attempt op' todo' hawait haccepted =>
    simp only [Phase.acknowledging.injEq] at hphase
    obtain ⟨rfl, rfl⟩ := hphase
    exact .inr ⟨attempt, rfl, hawait, haccepted⟩
  | snapshot rows => cases rows <;> simp at hphase
  | enqueue => exact .inl hphase
  | serve => exact .inl hphase
  | clearSynced => exact .inl hphase
  | wipe => exact .inl hphase
  | _ => simp at hphase

/-- How the application stops waiting for an answer. -/
theorem after_awaiting {attempt : Nat} {op : QueueRow} {todo : List QueueRow}
    (h : Step respond s l t) (hphase : s.phase = .awaiting attempt op todo) :
    t.phase = .awaiting attempt op todo ∨
    (l = .succeed op.id attempt ∧ t.phase = .acknowledging op todo) ∨
    l = .fail op.id attempt ∨ l = .crash := by
  cases h with
  | succeed attempt' op' todo' hawait =>
    obtain ⟨rfl, rfl, rfl⟩ := Phase.awaiting.inj (hawait.symm.trans hphase)
    exact .inr (.inl ⟨rfl, rfl⟩)
  | fail attempt' op' todo' hawait =>
    obtain ⟨rfl, rfl, rfl⟩ := Phase.awaiting.inj (hawait.symm.trans hphase)
    exact .inr (.inr (.inl rfl))
  | crash => exact .inr (.inr (.inr rfl))
  | enqueue => exact .inl hphase
  | serve => exact .inl hphase
  | clearSynced => exact .inl hphase
  | wipe => exact .inl hphase
  | startSync h => simp [h] at hphase
  | snapshot rows h => simp [h] at hphase
  | snapshotFails h => simp [h] at hphase
  | skip op todo h => simp [h] at hphase
  | send op todo h => simp [h] at hphase
  | acknowledge op todo now h => simp [h] at hphase
  | acknowledgeFails op todo h => simp [h] at hphase
  | finish h => simp [h] at hphase
  | finishFails h => simp [h] at hphase

/-- How a success is recorded, or is not. -/
theorem after_acknowledging {op : QueueRow} {todo : List QueueRow}
    (h : Step respond s l t) (hphase : s.phase = .acknowledging op todo) :
    t.phase = .acknowledging op todo ∨
    (∃ now, l = .acknowledge op.id now ∧ t.phase = .visiting todo ∧
      t.queue = markOperationAsSynced now op.id s.queue) ∨
    l = .acknowledgeFails op.id ∨ l = .crash := by
  cases h with
  | acknowledge op' todo' now h =>
    obtain ⟨rfl, rfl⟩ := Phase.acknowledging.inj (h.symm.trans hphase)
    exact .inr (.inl ⟨now, rfl, rfl, rfl⟩)
  | acknowledgeFails op' todo' h =>
    obtain ⟨rfl, rfl⟩ := Phase.acknowledging.inj (h.symm.trans hphase)
    exact .inr (.inr (.inl rfl))
  | crash => exact .inr (.inr (.inr rfl))
  | enqueue => exact .inl hphase
  | serve => exact .inl hphase
  | clearSynced => exact .inl hphase
  | wipe => exact .inl hphase
  | startSync h => simp [h] at hphase
  | snapshot rows h => simp [h] at hphase
  | snapshotFails h => simp [h] at hphase
  | skip op todo h => simp [h] at hphase
  | send op todo h => simp [h] at hphase
  | succeed attempt op todo h => simp [h] at hphase
  | fail attempt op todo h => simp [h] at hphase
  | finish h => simp [h] at hphase
  | finishFails h => simp [h] at hphase

/-- A request is accepted when the server answers it with success. -/
theorem accepted_step {attempt : Nat} (h : Step respond s l t) (ha : attempt ∈ t.accepted) :
    attempt ∈ s.accepted ∨ ∃ env, l = .serve attempt env true := by
  cases h with
  | serve a op env hflight =>
    simp only at ha
    cases hsuccess : (respond op env s.server).1 with
    | false => exact .inl (by simpa [hsuccess] using ha)
    | true =>
      simp only [hsuccess, if_true, List.mem_append, List.mem_singleton] at ha
      rcases ha with ha | rfl
      · exact .inl ha
      · exact .inr ⟨env, rfl⟩
  | _ => exact .inl ha

/-- Requests are numbered in the order in which they are sent. -/
theorem attempts_step (h : Step respond s l t) :
    s.attempts ≤ t.attempts ∧
      ∀ id attempt, l = .send id attempt → attempt = s.attempts ∧ attempt < t.attempts := by
  cases h <;> simp

/-- What a step does to the requests on their way. -/
theorem inFlight_step (h : Step respond s l t) :
    (t.inFlight = s.inFlight ∧ ∀ attempt env success, l ≠ .serve attempt env success) ∨
    (∃ op : QueueRow, l = .send op.id s.attempts ∧ t.attempts = s.attempts + 1 ∧
      t.inFlight = s.inFlight ++ [(s.attempts, op)]) ∨
    ∃ attempt op env success, l = .serve attempt env success ∧ (attempt, op) ∈ s.inFlight ∧
      t.inFlight = s.inFlight.filter fun p => p.1 != attempt := by
  cases h with
  | send op todo hphase => exact .inr (.inl ⟨op, rfl, rfl, rfl⟩)
  | serve attempt op env hflight => exact .inr (.inr ⟨attempt, op, env, _, rfl, hflight, rfl⟩)
  | _ => exact .inl ⟨rfl, by simp⟩

end Inversion

end SyncManager
