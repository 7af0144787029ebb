import ShoppingProject.RetryQueues
import ShoppingProject.SyncManager

/-!
# The offline queue is a retry queue

The rows that are pending are the operations that wait. A row is marked as synced
only while its success is being acknowledged, so every run of the synchronisation is
a run of a retry queue, whatever the server, the clock and the failures are.
-/
namespace QueueRefinement

open OfflineQueue SyncManager Runs

variable {σ ε : Type} {respond : QueueRow → ε → σ → Bool × σ} {s t : State σ} {l : Label ε}
  {a : RetryQueues.State Int}

/-- What a step of the synchronisation is to the retry queue. -/
def labels : Label ε → List (RetryQueues.Label Int)
  | .enqueue id _ _ => [.add id]
  | .succeed id _ => [.deliver id]
  | .acknowledge id _ => [.drop id]
  | .wipe => [.reset]
  | _ => []

def Waits (s : State σ) (id : Int) : Prop := ∃ r ∈ s.queue.rows, r.id = id ∧ r.status = .pending

structure Refines (s : State σ) (a : RetryQueues.State Int) : Prop where
  waiting : ∀ id, Waits s id ↔ id ∈ a.waiting
  delivered : ∀ op todo, s.phase = .acknowledging op todo → op.id ∈ a.delivered

theorem waits_enqueue {now id : Int} {op : Operation} (h : t.queue = addToQueue now op s.queue) :
    Waits t id ↔ id = s.queue.next ∨ Waits s id := by
  unfold Waits
  rw [h]
  constructor
  · rintro ⟨r, hr, hid, hpending⟩
    rcases (mem_addToQueue ..).mp hr with hr | rfl
    · exact .inr ⟨r, hr, hid, hpending⟩
    · exact .inl hid.symm
  · rintro (rfl | ⟨r, hr, hid, hpending⟩)
    · exact ⟨newRow op now s.queue.next, (mem_addToQueue ..).mpr (.inr rfl), rfl, rfl⟩
    · exact ⟨r, (mem_addToQueue ..).mpr (.inl hr), hid, hpending⟩

theorem waits_acknowledge {now id done : Int}
    (h : t.queue = markOperationAsSynced now done s.queue) :
    Waits t id ↔ Waits s id ∧ id ≠ done := by
  unfold Waits
  rw [h]
  constructor
  · rintro ⟨r, hr, rfl, hpending⟩
    rcases (mem_markOperationAsSynced ..).mp hr with ⟨hr, hne⟩ | ⟨b, -, -, rfl⟩
    · exact ⟨⟨r, hr, rfl, hpending⟩, hne⟩
    · simp [synced] at hpending
  · rintro ⟨⟨r, hr, rfl, hpending⟩, hne⟩
    exact ⟨r, (mem_markOperationAsSynced ..).mpr (.inl ⟨hr, hne⟩), rfl, hpending⟩

theorem waits_clearQueue {id : Int} (h : t.queue = clearQueue s.queue) :
    Waits t id ↔ Waits s id := by
  unfold Waits
  rw [h]
  constructor
  · rintro ⟨r, hr, hid, hpending⟩
    exact ⟨r, ((mem_clearQueue ..).mp hr).1, hid, hpending⟩
  · rintro ⟨r, hr, hid, hpending⟩
    exact ⟨r, (mem_clearQueue ..).mpr ⟨hr, hpending⟩, hid, hpending⟩

theorem waits_clearAllData {id : Int} (h : t.queue = clearAllData s.queue) : ¬ Waits t id := by
  rintro ⟨r, hr, -, -⟩
  rw [h] at hr
  simp [clearAllData] at hr

/-- A step that is nothing to the retry queue leaves its waiting operations alone. -/
theorem waits_silent (h : Step respond s l t) (hl : labels l = []) (id : Int) :
    Waits t id ↔ Waits s id := by
  rcases queue_step h with hq | ⟨now, op, rfl, -⟩ | ⟨op, todo, now, -, rfl, -⟩ | hq | ⟨rfl, -⟩
  · unfold Waits
    rw [hq]
  · simp [labels] at hl
  · simp [labels] at hl
  · exact waits_clearQueue hq
  · simp [labels] at hl

theorem delivered_silent (hR : Refines s a) (h : Step respond s l t)
    (hl : ∀ id attempt, l ≠ .succeed id attempt) {op : QueueRow} {todo : List QueueRow}
    (hphase : t.phase = .acknowledging op todo) : op.id ∈ a.delivered := by
  rcases acknowledging_step h hphase with hold | ⟨attempt, hsucceed, -⟩
  · exact hR.delivered op todo hold
  · exact absurd hsucceed (hl op.id attempt)

theorem refines_silent (hR : Refines s a) (h : Step respond s l t) (hl : labels l = []) :
    ∃ b, run RetryQueues.step a (labels l) = some b ∧ Refines t b := by
  have hnot : ∀ id attempt, l ≠ .succeed id attempt := by
    rintro id attempt rfl
    simp [labels] at hl
  refine ⟨a, by rw [hl]; rfl, fun id => ?_, fun op todo => delivered_silent hR h hnot⟩
  rw [waits_silent h hl]
  exact hR.waiting id

/-- Each step of the synchronisation is a step of the retry queue, or none. -/
theorem refines_step (hR : Refines s a) (h : Step respond s l t) :
    ∃ b, run RetryQueues.step a (labels l) = some b ∧ Refines t b := by
  cases l with
  | enqueue key now op =>
    obtain ⟨rfl, hq⟩ := enqueue_step h
    refine ⟨{ a with waiting := insert s.queue.next a.waiting }, rfl, fun id => ?_,
      fun op todo => ?_⟩
    · rw [waits_enqueue hq, hR.waiting id]
      rfl
    · exact delivered_silent hR h (by simp)
  | succeed id attempt =>
    refine ⟨{ a with delivered := insert id a.delivered }, rfl, ?_, ?_⟩
    · cases h
      exact hR.waiting
    · intro op todo hphase
      rcases acknowledging_step h hphase with hold | ⟨attempt', hl, -⟩
      · exact .inr (hR.delivered op todo hold)
      · exact .inl (Label.succeed.inj hl).1.symm
  | acknowledge id now =>
    obtain ⟨op, todo, hphase, hid, -, hq⟩ := acknowledge_step h
    have hdelivered : id ∈ a.delivered := hid ▸ hR.delivered op todo hphase
    refine ⟨{ a with waiting := a.waiting \ {id} }, ?_, fun i => ?_, fun op todo => ?_⟩
    · simp [labels, RetryQueues.step, hdelivered]
    · rw [waits_acknowledge hq, hR.waiting i]
      rfl
    · exact delivered_silent hR h (by simp)
  | wipe =>
    refine ⟨{ a with waiting := ∅ }, rfl, fun id => ?_, fun op todo => ?_⟩
    · have hempty : ¬ Waits t id := by
        cases h
        exact waits_clearAllData rfl
      exact iff_of_false hempty fun hmem => hmem
    · exact delivered_silent hR h (by simp)
  | startSync => exact refines_silent hR h rfl
  | snapshot rows => exact refines_silent hR h rfl
  | snapshotFails => exact refines_silent hR h rfl
  | skip id => exact refines_silent hR h rfl
  | send id attempt => exact refines_silent hR h rfl
  | serve attempt env success => exact refines_silent hR h rfl
  | fail id attempt => exact refines_silent hR h rfl
  | acknowledgeFails id => exact refines_silent hR h rfl
  | finish => exact refines_silent hR h rfl
  | finishFails => exact refines_silent hR h rfl
  | clearSynced => exact refines_silent hR h rfl
  | crash => exact refines_silent hR h rfl

theorem refines_initial (server : σ) : Refines (initial server) RetryQueues.start := by
  refine ⟨fun id => ?_, ?_⟩
  · simp [Waits, initial, Table.empty, RetryQueues.start]
  · simp [initial]

/-- Every run of the synchronisation is a run of the retry queue. -/
theorem refines_run {server : σ} {tr : List (Label ε)}
    (h : run (step respond) (initial server) tr = some s) :
    ∃ a, run RetryQueues.step RetryQueues.start (tr.flatMap labels) = some a ∧ Refines s a := by
  apply simulation Refines labels _ (refines_initial server) h
  intro s a l t hR hl
  exact refines_step hR (step_sound hl)

theorem add_mem_labels {tr : List (Label ε)} {id : Int} :
    .add id ∈ tr.flatMap labels ↔ ∃ now op, .enqueue id now op ∈ tr := by
  rw [List.mem_flatMap]
  constructor
  · rintro ⟨l, hl, hadd⟩
    cases l <;> simp [labels] at hadd
    rename_i key now op
    exact ⟨now, op, hadd ▸ hl⟩
  · rintro ⟨now, op, hl⟩
    exact ⟨_, hl, by simp [labels]⟩

theorem deliver_mem_labels {tr : List (Label ε)} {id : Int}
    (h : .deliver id ∈ tr.flatMap labels) : ∃ attempt, .succeed id attempt ∈ tr := by
  obtain ⟨l, hl, hdeliver⟩ := List.mem_flatMap.mp h
  cases l <;> simp [labels] at hdeliver
  rename_i key attempt
  exact ⟨attempt, hdeliver ▸ hl⟩

theorem eq_wipe_of_reset (h : .reset ∈ labels l) : l = .wipe := by
  cases l <;> simp [labels] at h
  rfl

end QueueRefinement
