import ShoppingProject.Json
import ShoppingProject.OrderedQueries
import ShoppingProject.Tables

/-!
# The offline queue

The table `offline_queue` of the mobile application with the statements of
`LocalStorageRepository` on it. A row records the second in which it was
inserted, and the queue is read in the order of these seconds only.
-/
namespace OfflineQueue

open OrderedQueries

inductive OperationType where
  | add : OperationType
  | update : OperationType
  | delete : OperationType
  | deleteAll : OperationType
  | other : String → OperationType
  deriving DecidableEq

inductive EntityType where
  | product | cartItem
  deriving DecidableEq

/-- What an `INTEGER` column keeps of a value that is bound to it: `undefined` is stored as
NULL, a truth value and a text of digits as a number, any other text as it is. -/
def integerColumn : Option Json → Json
  | none => .null
  | some (.bool b) => .num (if b then 1 else 0)
  | some (.str s) => if s.contains '_' then .str s else s.toInt?.elim (.str s) fun n => .num n
  | some value => value

inductive Status where
  | pending | synced
  deriving DecidableEq

/-- What `addToQueue` is given: the action and the fields of its payload, the id as its
column keeps it. -/
structure Operation where
  operationType : OperationType
  entityType : EntityType
  entityId : Json
  payload : Json
  deriving DecidableEq

structure QueueRow where
  id : Int
  operation : Operation
  status : Status
  retryCount : Nat
  createdAt : Int
  syncedAt : Option Int
  deriving DecidableEq

abbrev Queue := Table QueueRow.id

def newRow (op : Operation) (now id : Int) : QueueRow := ⟨id, op, .pending, 0, now, none⟩

theorem newRow_id (op : Operation) (now id : Int) : (newRow op now id).id = id := rfl

def addToQueue (now : Int) (op : Operation) (q : Queue) : Queue :=
  q.insert (newRow op now) (newRow_id op now)

def isPending (r : QueueRow) : Bool := r.status = .pending

/-- `rows` is a possible answer of `getQueue`. -/
def IsQueue (q : Queue) (rows : List QueueRow) : Prop :=
  Arranged QueueRow.createdAt (q.rows.filter isPending) rows

instance (q : Queue) (rows : List QueueRow) : Decidable (IsQueue q rows) :=
  inferInstanceAs (Decidable (Arranged _ _ _))

def synced (now : Int) (r : QueueRow) : QueueRow :=
  { r with status := .synced, syncedAt := some now }

theorem synced_id (now : Int) (r : QueueRow) : (synced now r).id = r.id := rfl

def markOperationAsSynced (now id : Int) (q : Queue) : Queue :=
  q.modify id (synced now) (synced_id now)

def clearQueue (q : Queue) : Queue := q.filter isPending

/-- The part of `clearAllData` that concerns the queue. -/
def clearAllData (q : Queue) : Queue := q.clear

theorem mem_addToQueue (now : Int) (op : Operation) (q : Queue) (r : QueueRow) :
    r ∈ (addToQueue now op q).rows ↔ r ∈ q.rows ∨ r = newRow op now q.next := by
  simp [addToQueue]

theorem mem_markOperationAsSynced (now id : Int) (q : Queue) (r : QueueRow) :
    r ∈ (markOperationAsSynced now id q).rows ↔
      (r ∈ q.rows ∧ r.id ≠ id) ∨ ∃ b ∈ q.rows, b.id = id ∧ r = synced now b := by
  simp [markOperationAsSynced, Table.mem_modify]

theorem mem_clearQueue (q : Queue) (r : QueueRow) :
    r ∈ (clearQueue q).rows ↔ r ∈ q.rows ∧ r.status = .pending := by
  simp [clearQueue, isPending]

theorem IsQueue.mem_iff {q : Queue} {rows : List QueueRow} (h : IsQueue q rows) (r : QueueRow) :
    r ∈ rows ↔ r ∈ q.rows ∧ r.status = .pending := by
  rw [Arranged.mem_iff h, List.mem_filter]
  simp [isPending]

/-- The queue is read without repetitions. -/
theorem IsQueue.distinct {q : Queue} {rows : List QueueRow} (h : IsQueue q rows) :
    rows.Pairwise fun a b => a.id ≠ b.id := by
  have hordered : (q.rows.filter isPending).Pairwise fun a b => a.id ≠ b.id :=
    (q.ordered.filter isPending).imp ne_of_lt
  exact h.perm.symm.pairwise hordered fun hab => hab.symm

end OfflineQueue
