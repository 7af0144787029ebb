import Mathlib.Data.Set.Basic
import ShoppingProject.Runs

/-!
# Retry queues

What a queue of operations with retries is for, without rows, passes or requests:
an operation waits from the moment it is added until it has been delivered, and it
leaves the queue only after that, unless the whole queue is reset. It may be
delivered several times and need not leave at once.
-/
namespace RetryQueues

open Runs

variable {ι : Type}

structure State (ι : Type) where
  waiting : Set ι
  delivered : Set ι

def start : State ι := ⟨∅, ∅⟩

inductive Label (ι : Type) where
  | add (i : ι) : Label ι
  | deliver (i : ι) : Label ι
  | drop (i : ι) : Label ι
  | reset : Label ι

open Classical in
noncomputable def step (s : State ι) : Label ι → Option (State ι)
  | .add i => some { s with waiting := insert i s.waiting }
  | .deliver i => some { s with delivered := insert i s.delivered }
  | .drop i => if i ∈ s.delivered then some { s with waiting := s.waiting \ {i} } else none
  | .reset => some { s with waiting := ∅ }

/-- The queue was reset after `i` was added. -/
def Reset (tr : List (Label ι)) (i : ι) : Prop :=
  ∃ before after, tr = before ++ after ∧ .add i ∈ before ∧ .reset ∈ after

theorem Reset.append {tr : List (Label ι)} {i : ι} (h : Reset tr i) (tr' : List (Label ι)) :
    Reset (tr ++ tr') i := by
  obtain ⟨before, after, rfl, hadd, hreset⟩ := h
  exact ⟨before, after ++ tr', List.append_assoc .., hadd, List.mem_append_left _ hreset⟩

/-- The state says only what the trace says. -/
structure Recorded (tr : List (Label ι)) (s : State ι) : Prop where
  delivered : ∀ i ∈ s.delivered, .deliver i ∈ tr
  waiting : ∀ i, .add i ∈ tr → i ∈ s.waiting ∨ .deliver i ∈ tr ∨ Reset tr i

theorem recorded_add {tr : List (Label ι)} {s : State ι} (hs : Recorded tr s) (j : ι) :
    Recorded (tr ++ [.add j]) { s with waiting := insert j s.waiting } := by
  refine ⟨fun i hi => List.mem_append_left _ (hs.delivered i hi), fun i hadd => ?_⟩
  rcases List.mem_append.mp hadd with hadd | hadd
  · rcases hs.waiting i hadd with hwaits | hdone | hreset
    · exact .inl (.inr hwaits)
    · exact .inr (.inl (List.mem_append_left _ hdone))
    · exact .inr (.inr (hreset.append _))
  · obtain rfl : i = j := by simpa using hadd
    exact .inl (.inl rfl)

/-- A step that adds nothing and lets only delivered operations go. -/
theorem recorded_drop {tr : List (Label ι)} {s t : State ι} {l : Label ι} (hs : Recorded tr s)
    (hl : ∀ i, l ≠ .add i) (hdelivered : ∀ i ∈ t.delivered, i ∈ s.delivered ∨ l = .deliver i)
    (hwaiting : ∀ i ∈ s.waiting, i ∈ t.waiting ∨ i ∈ s.delivered) : Recorded (tr ++ [l]) t := by
  refine ⟨fun i hi => ?_, fun i hadd => ?_⟩
  · rcases hdelivered i hi with hold | rfl
    · exact List.mem_append_left _ (hs.delivered i hold)
    · simp
  · have hadd : .add i ∈ tr := by
      rcases List.mem_append.mp hadd with hadd | hadd
      · exact hadd
      · exact absurd (List.mem_singleton.mp hadd).symm (hl i)
    rcases hs.waiting i hadd with hwaits | hdone | hreset
    · rcases hwaiting i hwaits with hstays | hdone
      · exact .inl hstays
      · exact .inr (.inl (List.mem_append_left _ (hs.delivered i hdone)))
    · exact .inr (.inl (List.mem_append_left _ hdone))
    · exact .inr (.inr (hreset.append _))

theorem recorded_reset {tr : List (Label ι)} {s : State ι} (hs : Recorded tr s) :
    Recorded (tr ++ [.reset]) { s with waiting := ∅ } := by
  refine ⟨fun i hi => List.mem_append_left _ (hs.delivered i hi), fun i hadd => ?_⟩
  have hadd : .add i ∈ tr := by simpa using hadd
  exact .inr (.inr ⟨tr, [.reset], rfl, hadd, by simp⟩)

theorem recorded_step {tr : List (Label ι)} {s t : State ι} {l : Label ι} (hs : Recorded tr s)
    (h : step s l = some t) : Recorded (tr ++ [l]) t := by
  cases l with
  | add j =>
    obtain rfl := Option.some.inj h
    exact recorded_add hs j
  | deliver j =>
    obtain rfl := Option.some.inj h
    apply recorded_drop hs (by simp)
    · rintro i (rfl | hi)
      · exact .inr rfl
      · exact .inl hi
    · exact fun i hi => .inl hi
  | drop j =>
    simp only [step] at h
    split at h
    · rename_i hdone
      obtain rfl := Option.some.inj h
      apply recorded_drop hs (by simp)
      · exact fun i hi => .inl hi
      · intro i hi
        by_cases hij : i = j
        · exact .inr (hij ▸ hdone)
        · exact .inl ⟨hi, hij⟩
    · simp at h
  | reset =>
    obtain rfl := Option.some.inj h
    exact recorded_reset hs

/-- In every run an operation waits until it has been delivered. -/
theorem waits_until_delivered {tr : List (Label ι)} {s : State ι}
    (h : run step start tr = some s) {i : ι} (hadd : .add i ∈ tr) :
    i ∈ s.waiting ∨ .deliver i ∈ tr ∨ Reset tr i := by
  have hrecorded : Recorded tr s := by
    apply history_invariant Recorded _ _ h
    · exact ⟨by simp [start], by simp⟩
    · exact fun tr u l t _ hs hl => recorded_step hs hl
  exact hrecorded.waiting i hadd

end RetryQueues
