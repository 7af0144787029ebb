import ShoppingProject.Slots
import ShoppingProject.SyncManager

/-!
# Calls of `syncPendingOperations`

Any number of calls beside each other, and the lock `isSyncing` that lets one of them
through. A call runs from one `await` to the next in one step. What it calls may throw
wherever it does: the listeners, and the statements on the queue. A listener that calls
`syncPendingOperations` itself is told that a sync is in progress, since the lock is held
whenever listeners are told anything.
-/
namespace SyncCalls

open OfflineQueue Runs
open SyncManager (sendable)

/-- What is thrown: an `Error`, or another value with what `String(value)` gives or throws. -/
inductive Thrown where
  | error (message : String) : Thrown
  | value (text : Except String String) : Thrown

/-- `error instanceof Error ? error.message : String(error)`. -/
def Thrown.text : Thrown → Except String String
  | .error message => .ok message
  | .value text => text

/-- `error instanceof Error ? error.message : 'Unknown error during sync'`. -/
def Thrown.message : Thrown → String
  | .error message => message
  | .value _ => "Unknown error during sync"

structure SyncStatus where
  isOnline : Bool
  isSyncing : Bool
  pendingCount : Nat
  deriving DecidableEq

structure SyncResult where
  success : Bool
  message : String
  successCount : Option Nat
  failureCount : Option Nat
  deriving DecidableEq

/-- The operations that a call has read, and what it has counted of them. -/
structure Pass where
  operations : List QueueRow
  successCount : Nat
  failureCount : Nat

/-- What a call that holds the lock awaits. -/
inductive Phase where
  | reading : Phase
  | syncing (p : Pass) (op : QueueRow) (todo : List QueueRow) : Phase
  | removing (p : Pass) (op : QueueRow) (todo : List QueueRow) : Phase
  | clearing (p : Pass) : Phase

inductive Ending where
  | resolved (result : SyncResult) : Ending
  | rejected : Ending

/-- Beside the fields of the class: the calls that go on and those that have ended, and every
status with the queue as it was when the listeners were told. -/
structure State where
  isSyncing : Bool
  queue : Queue
  calls : Slots Phase
  ended : List (Nat × Ending)
  broadcasts : List (SyncStatus × Queue)

def start (q : Queue) : State := ⟨false, q, .idle, [], []⟩

/-- What the listeners throw when they are told of the end of a sync, and whether they throw
when they are told of its failure. -/
structure Listeners where
  ended : Option Thrown
  failed : Bool

def notifyListeners (status : SyncStatus) (s : State) : State :=
  { s with broadcasts := s.broadcasts ++ [(status, s.queue)] }

def finish (i : Nat) (ending : Ending) (s : State) : State :=
  { s with calls := s.calls.put i none, ended := s.ended ++ [(i, ending)] }

/-- The catch block. -/
def failed (i : Nat) (e : Thrown) (fails : Bool) (s : State) : State :=
  match e.text with
  | .error _ => finish i .rejected s
  | .ok _ =>
    let s := notifyListeners ⟨false, false, 0⟩ s
    if fails then finish i .rejected s
    else finish i (.resolved ⟨false, e.message, none, none⟩) { s with isSyncing := false }

/-- The end of the try block, in the catch block if a listener throws. -/
def completed (i : Nat) (status : SyncStatus) (result : SyncResult) (listeners : Listeners)
    (s : State) : State :=
  let s := notifyListeners status s
  match listeners.ended with
  | some e => failed i e listeners.failed s
  | none => finish i (.resolved result) { s with isSyncing := false }

/-- The loop goes on with the next operation, or the queue is cleared. -/
def visit (i : Nat) (p : Pass) (todo : List QueueRow) (s : State) : State :=
  match todo with
  | [] => { s with calls := s.calls.put i (some (.clearing p)) }
  | op :: todo => { s with calls := s.calls.put i (some (.syncing p op todo)) }

/-- A call up to `getQueue`. -/
def syncPendingOperations (i : Nat) (throws : Bool) (s : State) : State :=
  if s.isSyncing then finish i (.resolved ⟨false, "Sync already in progress", none, none⟩) s
  else
    let s := notifyListeners ⟨true, true, 0⟩ { s with isSyncing := true }
    if throws then finish i .rejected s
    else { s with calls := s.calls.put i (some .reading) }

def onQueue (i : Nat) (operations : List QueueRow) (listeners : Listeners) (s : State) : State :=
  if operations.isEmpty then
    completed i ⟨true, false, 0⟩ ⟨true, "No pending operations", none, none⟩ listeners s
  else visit i ⟨operations, 0, 0⟩ operations s

def onAnswer (i : Nat) (p : Pass) (op : QueueRow) (todo : List QueueRow) (result : Bool)
    (s : State) : State :=
  if result then
    let p := { p with successCount := p.successCount + 1 }
    { s with calls := s.calls.put i (some (.removing p op todo)) }
  else visit i { p with failureCount := p.failureCount + 1 } todo s

/-- An error that has no text throws in the catch block of the loop. -/
def onRemoved (i : Nat) (p : Pass) (op : QueueRow) (todo : List QueueRow) (now : Int)
    (fault : Option Thrown) (listeners : Listeners) (s : State) : State :=
  match fault with
  | none => visit i p todo { s with queue := markOperationAsSynced now op.id s.queue }
  | some e => match e.text with
    | .ok _ => visit i { p with failureCount := p.failureCount + 1 } todo s
    | .error message => failed i (.error message) listeners.failed s

def resultMessage (p : Pass) : String :=
  "Synced: " ++ toString p.successCount ++ " succeeded, " ++ toString p.failureCount ++ " failed"

def onCleared (i : Nat) (p : Pass) (fault : Option Thrown) (listeners : Listeners) (s : State) :
    State :=
  match fault with
  | none => completed i ⟨true, false, p.failureCount⟩
      ⟨p.failureCount == 0, resultMessage p, some p.successCount, some p.failureCount⟩ listeners
      { s with queue := clearQueue s.queue }
  | some e => failed i e listeners.failed s

inductive Label where
  | enqueue (now : Int) (op : Operation) : Label
  /-- A call, and whether a listener throws when a sync begins. -/
  | call (i : Nat) (throws : Bool) : Label
  /-- `getQueue` answers; `none` is an error, which it turns into an empty queue. -/
  | read (i : Nat) (answer : Option (List QueueRow)) (listeners : Listeners) : Label
  /-- `syncOperation` answers. -/
  | answer (i : Nat) (result : Bool) : Label
  | removed (i : Nat) (now : Int) (fault : Option Thrown) (listeners : Listeners) : Label
  | cleared (i : Nat) (fault : Option Thrown) (listeners : Listeners) : Label

def step (s : State) : Label → Option State
  | .enqueue now op => some { s with queue := addToQueue now op s.queue }
  | .call i throws =>
    if (s.calls i).isNone ∧ i ∉ s.ended.map Prod.fst then some (syncPendingOperations i throws s)
    else none
  | .read i answer listeners => match s.calls i with
    | some .reading =>
      if answer.all fun rows => IsQueue s.queue rows then
        some (onQueue i (answer.getD []) listeners s)
      else none
    | _ => none
  | .answer i result => match s.calls i with
    | some (.syncing p op todo) =>
      if result && !sendable op then none else some (onAnswer i p op todo result s)
    | _ => none
  | .removed i now fault listeners => match s.calls i with
    | some (.removing p op todo) => some (onRemoved i p op todo now fault listeners s)
    | _ => none
  | .cleared i fault listeners => match s.calls i with
    | some (.clearing p) => some (onCleared i p fault listeners s)
    | _ => none

/-- The steps as a relation. -/
inductive Step (s : State) : Label → State → Prop where
  | enqueue (now : Int) (op : Operation) :
    Step s (.enqueue now op) { s with queue := addToQueue now op s.queue }
  | call (i : Nat) (throws : Bool) (hidle : s.calls i = none) :
    Step s (.call i throws) (syncPendingOperations i throws s)
  | read (i : Nat) (answer : Option (List QueueRow)) (listeners : Listeners)
    (hphase : s.calls i = some .reading) (hanswer : ∀ rows ∈ answer, IsQueue s.queue rows) :
    Step s (.read i answer listeners) (onQueue i (answer.getD []) listeners s)
  | answer (i : Nat) (p : Pass) (op : QueueRow) (todo : List QueueRow) (result : Bool)
    (hphase : s.calls i = some (.syncing p op todo)) (hsend : result = true → sendable op = true) :
    Step s (.answer i result) (onAnswer i p op todo result s)
  | removed (i : Nat) (p : Pass) (op : QueueRow) (todo : List QueueRow) (now : Int)
    (fault : Option Thrown) (listeners : Listeners)
    (hphase : s.calls i = some (.removing p op todo)) :
    Step s (.removed i now fault listeners) (onRemoved i p op todo now fault listeners s)
  | cleared (i : Nat) (p : Pass) (fault : Option Thrown) (listeners : Listeners)
    (hphase : s.calls i = some (.clearing p)) :
    Step s (.cleared i fault listeners) (onCleared i p fault listeners s)

theorem step_sound {s t : State} {l : Label} (h : step s l = some t) : Step s l t := by
  cases l <;> simp only [step] at h
  case enqueue now op =>
    obtain rfl := Option.some.inj h
    exact .enqueue now op
  case call i throws =>
    obtain ⟨⟨hidle, -⟩, rfl⟩ := guarded h
    exact .call i throws (Option.isNone_iff_eq_none.mp hidle)
  case read i answer listeners =>
    split at h
    · rename_i hphase
      obtain ⟨hanswer, rfl⟩ := guarded h
      refine .read i answer listeners hphase fun rows hrows => ?_
      cases hrows
      simpa using hanswer
    · simp at h
  case answer i result =>
    split at h
    · rename_i p op todo hphase
      obtain ⟨hsend, h⟩ := Option.ite_none_left_eq_some.mp h
      obtain rfl := Option.some.inj h
      exact .answer i p op todo result hphase (by simpa using hsend)
    · simp at h
  case removed i now fault listeners =>
    split at h
    · rename_i p op todo hphase
      obtain rfl := Option.some.inj h
      exact .removed i p op todo now fault listeners hphase
    · simp at h
  case cleared i fault listeners =>
    split at h
    · rename_i p hphase
      obtain rfl := Option.some.inj h
      exact .cleared i p fault listeners hphase
    · simp at h

/-! ## What the parts of a call leave alone -/

section Parts

variable (i : Nat) (p : Pass) (e : Thrown) (fails : Bool) (listeners : Listeners) (s : State)

@[simp] theorem notifyListeners_calls (status : SyncStatus) :
    (notifyListeners status s).calls = s.calls := rfl

@[simp] theorem notifyListeners_isSyncing (status : SyncStatus) :
    (notifyListeners status s).isSyncing = s.isSyncing := rfl

@[simp] theorem finish_calls (ending : Ending) :
    (finish i ending s).calls = s.calls.put i none := rfl

@[simp] theorem finish_isSyncing (ending : Ending) :
    (finish i ending s).isSyncing = s.isSyncing := rfl

theorem visit_calls (todo : List QueueRow) :
    ∃ phase, (visit i p todo s).calls = s.calls.put i (some phase) := by
  cases todo <;> exact ⟨_, rfl⟩

@[simp] theorem visit_isSyncing (todo : List QueueRow) :
    (visit i p todo s).isSyncing = s.isSyncing := by
  cases todo <;> rfl

@[simp] theorem failed_calls : (failed i e fails s).calls = s.calls.put i none := by
  unfold failed
  cases e.text with
  | error message => rfl
  | ok text => cases fails <;> rfl

@[simp] theorem completed_calls (status : SyncStatus) (result : SyncResult) :
    (completed i status result listeners s).calls = s.calls.put i none := by
  unfold completed
  cases listeners.ended with
  | none => rfl
  | some e => exact failed_calls i e listeners.failed _

end Parts

end SyncCalls
