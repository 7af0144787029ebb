import ShoppingProject.SyncCalls

/-!
# The lock of a sync

No two calls ever read or send operations beside each other. The lock is given back when
its call ends, except where a listener throws outside the try block or in the catch block,
or where an error cannot be printed there.
-/
namespace SyncLock

open OfflineQueue SyncCalls Runs

def AtMostOne (s : State) : Prop :=
  ∀ i j a b, s.calls i = some a → s.calls j = some b → i = j

/-- The lock is held only while a call goes on. -/
def Released (s : State) : Prop := s.isSyncing = true → ∃ i a, s.calls i = some a

/-- The catch block comes to its end. -/
def Caught (e : Thrown) (fails : Bool) : Prop := e.text.isOk = true ∧ fails = false

/-- No listener throws when a sync begins, and no error that reaches the catch block leaves
it by another one. -/
def Releases (s : State) : Label → Prop
  | .enqueue .. => True
  | .call _ throws => s.isSyncing = false → throws = false
  | .read _ answer listeners =>
    answer.getD [] = [] → ∀ e ∈ listeners.ended, Caught e listeners.failed
  | .answer .. => True
  | .removed _ _ fault listeners =>
    ∀ e ∈ fault, e.text.isOk = false → listeners.failed = false
  | .cleared _ none listeners => ∀ e ∈ listeners.ended, Caught e listeners.failed
  | .cleared _ (some e) listeners => Caught e listeners.failed

/-- What a step does to the calls and to the lock. -/
inductive Turn (s : State) (l : Label) (t : State) : Prop where
  | same (hcalls : t.calls = s.calls) (hlock : t.isSyncing = s.isSyncing) (h : Releases s l)
  | takes (i : Nat) (a : Phase) (hfree : s.isSyncing = false)
    (hcalls : t.calls = s.calls.put i (some a)) (hlock : t.isSyncing = true) (h : Releases s l)
  | sticks (hfree : s.isSyncing = false) (hcalls : t.calls = s.calls)
    (hlock : t.isSyncing = true) (h : ¬ Releases s l)
  | goesOn (i : Nat) (a b : Phase) (hphase : s.calls i = some a)
    (hcalls : t.calls = s.calls.put i (some b)) (hlock : t.isSyncing = s.isSyncing)
    (h : Releases s l)
  | ends (i : Nat) (a : Phase) (hphase : s.calls i = some a)
    (hcalls : t.calls = s.calls.put i none)
    (hlock : t.isSyncing = true ↔ s.isSyncing = true ∧ ¬ Releases s l)

theorem caught_error (message : String) (fails : Bool) :
    Caught (.error message) fails ↔ fails = false := by
  simp [Caught, Thrown.text, Except.isOk, Except.toBool]

theorem failed_isSyncing (i : Nat) (e : Thrown) (fails : Bool) (s : State) :
    (failed i e fails s).isSyncing = true ↔ s.isSyncing = true ∧ ¬ Caught e fails := by
  unfold failed Caught
  cases e.text with
  | error message => simp [Except.isOk, Except.toBool]
  | ok text => cases fails <;> simp [Except.isOk, Except.toBool]

theorem completed_isSyncing (i : Nat) (status : SyncStatus) (result : SyncResult)
    (listeners : Listeners) (s : State) :
    (completed i status result listeners s).isSyncing = true ↔
      s.isSyncing = true ∧ ¬ ∀ e ∈ listeners.ended, Caught e listeners.failed := by
  unfold completed
  cases hended : listeners.ended with
  | none => simp
  | some e => simp [failed_isSyncing]

theorem turn_of_step {s t : State} {l : Label} (h : Step s l t) : Turn s l t := by
  cases h with
  | enqueue now op => exact .same rfl rfl trivial
  | call i throws hidle =>
    unfold syncPendingOperations
    cases hlock : s.isSyncing with
    | true => exact .same (Slots.put_idle _ hidle) rfl fun hfree => absurd hfree (by simp [hlock])
    | false =>
      cases throws with
      | true => exact .sticks hlock (Slots.put_idle _ hidle) rfl fun h => nomatch h hlock
      | false => exact .takes i .reading hlock rfl rfl fun _ => rfl
  | read i answer listeners hphase hanswer =>
    cases hrows : answer.getD [] with
    | nil =>
      refine .ends i .reading hphase (by simp [onQueue]) ?_
      simp [onQueue, completed_isSyncing, Releases, hrows]
    | cons op rows =>
      refine .goesOn i .reading _ hphase rfl rfl fun hnil => ?_
      rw [hrows] at hnil
      cases hnil
  | answer i p op todo result hphase hsend =>
    cases result with
    | true => exact .goesOn i _ _ hphase rfl rfl trivial
    | false =>
      obtain ⟨a, ha⟩ := visit_calls i { p with failureCount := p.failureCount + 1 } s todo
      exact .goesOn i _ a hphase ha (by simp [onAnswer]) trivial
  | removed i p op todo now fault listeners hphase =>
    cases fault with
    | none =>
      obtain ⟨a, ha⟩ := visit_calls i p { s with queue := markOperationAsSynced now op.id s.queue }
        todo
      exact .goesOn i _ a hphase ha (by simp [onRemoved]) (by simp [Releases])
    | some e =>
      cases htext : e.text with
      | ok text =>
        obtain ⟨a, ha⟩ := visit_calls i { p with failureCount := p.failureCount + 1 } s todo
        refine .goesOn i _ a hphase ?_ ?_ ?_
        · simpa only [onRemoved, htext] using ha
        · simp [onRemoved, htext]
        · simp [Releases, htext, Except.isOk, Except.toBool]
      | error message =>
        refine .ends i _ hphase (by simp [onRemoved, htext]) ?_
        simp [onRemoved, htext, failed_isSyncing, caught_error, Releases, Except.isOk,
          Except.toBool]
  | cleared i p fault listeners hphase =>
    cases fault with
    | none =>
      refine .ends i _ hphase (by simp [onCleared]) ?_
      simp only [onCleared, completed_isSyncing, Releases]
    | some e =>
      refine .ends i _ hphase (by simp [onCleared]) ?_
      simp only [onCleared, failed_isSyncing, Releases]

/-- The lock is held while a call goes on, and no other call does. -/
structure Sound (s : State) : Prop where
  held : ∀ i a, s.calls i = some a → s.isSyncing = true
  single : AtMostOne s

theorem Sound.idle {s : State} (h : Sound s) (hfree : s.isSyncing = false) (i : Nat) :
    s.calls i = none := by
  cases hi : s.calls i with
  | none => rfl
  | some a => simp [h.held i a hi] at hfree

/-- The calls other than the one that goes on. -/
theorem Sound.others {s : State} (h : Sound s) {i : Nat} {a : Phase} (hi : s.calls i = some a)
    {j : Nat} (hj : j ≠ i) : s.calls j = none := by
  cases hb : s.calls j with
  | none => rfl
  | some b => exact absurd (h.single j i b a hb hi) hj

theorem sound_of_only {t : State} {i : Nat} (hlock : t.isSyncing = true)
    (honly : ∀ j a, t.calls j = some a → j = i) : Sound t :=
  ⟨fun _ _ _ => hlock, fun j k a b hj hk => (honly j a hj).trans (honly k b hk).symm⟩

theorem Sound.step {s t : State} {l : Label} (h : Sound s) (hstep : Step s l t) : Sound t := by
  cases turn_of_step hstep with
  | same hcalls hlock => exact ⟨by rw [hcalls, hlock]; exact h.held, by
      rw [AtMostOne, hcalls]; exact h.single⟩
  | takes i a hfree hcalls hlock =>
    refine sound_of_only (i := i) hlock fun j b hj => ?_
    by_contra hne
    rw [hcalls, Slots.put_other _ _ hne, h.idle hfree j] at hj
    cases hj
  | sticks hfree hcalls hlock =>
    refine sound_of_only (i := 0) hlock fun j b hj => ?_
    rw [hcalls, h.idle hfree j] at hj
    cases hj
  | goesOn i a b hphase hcalls hlock =>
    refine sound_of_only (i := i) (hlock.trans (h.held i a hphase)) fun j c hj => ?_
    by_contra hne
    rw [hcalls, Slots.put_other _ _ hne, h.others hphase hne] at hj
    cases hj
  | ends i a hphase hcalls =>
    have hnone : ∀ j, t.calls j = none := by
      intro j
      by_cases hj : j = i
      · rw [hcalls, hj, Slots.put_same]
      · rw [hcalls, Slots.put_other _ _ hj, h.others hphase hj]
    refine ⟨fun j b hj => ?_, fun j k b c hj => ?_⟩ <;> simp [hnone] at hj

theorem released_iff {s t : State} {l : Label} (h : Sound s) (hs : Released s)
    (hstep : Step s l t) : Released t ↔ Releases s l := by
  cases turn_of_step hstep with
  | same hcalls hlock hl =>
    refine iff_of_true ?_ hl
    rw [Released, hcalls, hlock]
    exact hs
  | takes i a hfree hcalls hlock hl =>
    exact iff_of_true (fun _ => ⟨i, a, by rw [hcalls, Slots.put_same]⟩) hl
  | sticks hfree hcalls hlock hl =>
    refine iff_of_false (fun hreleased => ?_) hl
    obtain ⟨i, a, hi⟩ := hreleased hlock
    rw [hcalls, h.idle hfree] at hi
    cases hi
  | goesOn i a b hphase hcalls hlock hl =>
    exact iff_of_true (fun _ => ⟨i, b, by rw [hcalls, Slots.put_same]⟩) hl
  | ends i a hphase hcalls hlock =>
    have hheld : s.isSyncing = true := h.held i a hphase
    have hnone : ∀ j b, t.calls j ≠ some b := by
      intro j b hj
      rw [hcalls] at hj
      by_cases hji : j = i
      · rw [hji, Slots.put_same] at hj
        cases hj
      · rw [Slots.put_other _ _ hji, h.others hphase hji] at hj
        cases hj
    constructor
    · intro hreleased
      by_contra hl
      obtain ⟨j, b, hj⟩ := hreleased (hlock.mpr ⟨hheld, hl⟩)
      exact hnone j b hj
    · intro hl htrue
      exact absurd hl (hlock.mp htrue).2

theorem start_sound (q : Queue) : Sound (start q) :=
  ⟨fun _ _ h => (nomatch h), fun _ _ _ _ h => (nomatch h)⟩

/-- In every run at most one call goes on at a time. The lock is free whenever none does
exactly if every step releases it. -/
theorem lock_throughout_iff (q : Queue) (tr : List Label) :
    (∀ v ∈ visits step (start q) tr, AtMostOne v.2.2) ∧
      ((∀ v ∈ visits step (start q) tr, Released v.2.2) ↔
        ∀ v ∈ visits step (start q) tr, Releases v.1 v.2.1) := by
  constructor
  · intro v hv
    have hsound := visits_invariant Sound (fun _ _ => True)
      (fun s l t h _ hstep => h.step (step_sound hstep)) (start_sound q) (fun _ _ => trivial) v hv
    exact hsound.2.2.single
  · refine visits_iff (fun s => Sound s ∧ Released s) (fun v => Released v.2.2) Releases ?_ ?_
      ⟨start_sound q, fun h => nomatch h⟩ tr
    · intro s l t h hstep
      exact released_iff h.1 h.2 (step_sound hstep)
    · intro s l t h hl hstep
      exact ⟨h.1.step (step_sound hstep), (released_iff h.1 h.2 (step_sound hstep)).mpr hl⟩

/-- A listener throws when the sync begins, and no call will ever sync again. -/
theorem lock_kept : ¬ ∀ (q : Queue) (tr : List Label),
    ∀ v ∈ visits step (start q) tr, Released v.2.2 := by
  intro hall
  have hcall : step (start Table.empty) (.call 0 true) =
      some (syncPendingOperations 0 true (start Table.empty)) := rfl
  have hvisit := visits_cons [] hcall
  have hreleased := hall Table.empty [.call 0 true] (_, _, _) (hvisit ▸ List.mem_cons_self)
  obtain ⟨i, a, hi⟩ := hreleased rfl
  have hnone : (syncPendingOperations 0 true (start Table.empty)).calls = .idle :=
    Slots.put_idle _ rfl
  rw [hnone] at hi
  cases hi

end SyncLock
