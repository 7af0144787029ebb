import ShoppingProject.OfflineReplay
import ShoppingProject.SyncManager

/-!
# A pass that replays everything

The replay of the offline cart is a run of the synchronisation: if every queued
operation can be replayed, one pass sends them in the order of the queue, leaves
the server as the replay does, and leaves nothing pending.
-/
namespace ReplayPass

open Requests OfflineQueue LocalStorage CartSync OfflineReplay Runs
open Carts (CartTable Env Request)
open SyncManager (State Phase Label sendable step)

/-- What the pass does for each operation, when nothing fails. -/
def pass : Nat → List (QueueRow × Event) → List (Label (Caller × Env))
  | _, [] => []
  | attempt, (row, e) :: rest =>
    .send row.id attempt :: .serve attempt (e.caller, e.env) true :: .succeed row.id attempt ::
      .acknowledge row.id e.now :: pass (attempt + 1) rest

/-- The state after the first operation. -/
def advance (s : State CartTable) (row : QueueRow) (now : Int) (todo : List QueueRow)
    (server : CartTable) : State CartTable :=
  ⟨markOperationAsSynced now row.id s.queue, .visiting todo, s.attempts + 1, [],
    s.accepted ++ [s.attempts], server⟩

theorem sendable_of_requestOf {row : QueueRow} {request : Request}
    (h : requestOf row.operation = some request) : sendable row = true := by
  unfold requestOf at h
  unfold sendable
  split at h <;> simp_all

theorem respond_of_replayStep {row : QueueRow} {e : Event} {s t : CartTable}
    (h : replayStep s (row.operation, e) = some t) :
    respond row (e.caller, e.env) s = (true, t) := by
  unfold replayStep at h
  unfold respond
  split at h
  · rename_i heq
    rw [heq, Option.some.inj h]
  · simp at h

theorem run_operation {s : State CartTable} {row : QueueRow} {todo : List QueueRow} {e : Event}
    {t : CartTable} (hphase : s.phase = .visiting (row :: todo)) (hflight : s.inFlight = [])
    (h : replayStep s.server (row.operation, e) = some t) (rest : List (Label (Caller × Env))) :
    run (step respond) s (.send row.id s.attempts :: .serve s.attempts (e.caller, e.env) true ::
      .succeed row.id s.attempts :: .acknowledge row.id e.now :: rest) =
      run (step respond) (advance s row e.now todo t) rest := by
  obtain ⟨request, hrequest, -⟩ := replayStep_writes h
  have hsend := sendable_of_requestOf hrequest
  have hrespond := respond_of_replayStep h
  simp [step, hphase, hsend, hflight, hrespond, advance]

/-- The pass is a run of the system, and leaves the server as the replay does. -/
theorem run_pass {pairs : List (QueueRow × Event)} {s : State CartTable} {t : CartTable}
    (hphase : pairs ≠ [] → s.phase = .visiting (pairs.map Prod.fst)) (hflight : s.inFlight = [])
    (hpending : ∀ r ∈ s.queue.rows, r.status = .pending → r.id ∈ pairs.map fun p => p.1.id)
    (h : run replayStep s.server (pairs.map fun p => (p.1.operation, p.2)) = some t) :
    ∃ u, run (step respond) s (pass s.attempts pairs) = some u ∧ u.server = t ∧
      ∀ r ∈ u.queue.rows, r.status ≠ .pending := by
  induction pairs generalizing s with
  | nil =>
    refine ⟨s, rfl, by simpa using h, fun r hr hp => ?_⟩
    simpa using hpending r hr hp
  | cons p rest ih =>
    obtain ⟨row, e⟩ := p
    obtain ⟨v, hv, hrest⟩ := Option.bind_eq_some_iff.mp h
    have hstep := run_operation (hphase (by simp)) hflight hv (pass (s.attempts + 1) rest)
    have hleft : ∀ r ∈ (markOperationAsSynced e.now row.id s.queue).rows, r.status = .pending →
        r.id ∈ rest.map fun p => p.1.id := by
      intro r hr hp
      rcases (mem_markOperationAsSynced ..).mp hr with ⟨hr, hne⟩ | ⟨b, -, -, rfl⟩
      · exact (List.mem_cons.mp (hpending r hr hp)).resolve_left hne
      · simp [synced] at hp
    obtain ⟨u, hu, hserver, hdone⟩ :=
      @ih (advance s row e.now (rest.map Prod.fst) v) (fun _ => rfl) rfl hleft hrest
    exact ⟨u, hstep.trans hu, hserver, hdone⟩

/-- Two additions, of which the second is a second later. -/
def additions : List Event :=
  [someEvent (.addCartItem (someItem 1)),
    { someEvent (.addCartItem (someItem 2)) with now := 1100 }]

end ReplayPass
