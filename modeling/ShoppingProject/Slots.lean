import Mathlib.Tactic.Common

/-!
# Activities in flight

Any number of activities, each with a number and its own local state, run beside
each other. Starting, advancing and ending one of them is one assignment, and a
property of every activity is kept by assignments that respect it.
-/

variable {α : Type}

abbrev Slots (α : Type) := Nat → Option α

namespace Slots

def idle : Slots α := fun _ => none

def put (s : Slots α) (i : Nat) (a : Option α) : Slots α := fun j => if j = i then a else s j

@[simp] theorem put_same (s : Slots α) (i : Nat) (a : Option α) : s.put i a i = a := by
  simp [put]

theorem put_other (s : Slots α) {i j : Nat} (a : Option α) (h : j ≠ i) : s.put i a j = s j := by
  simp [put, h]

@[simp] theorem put_put (s : Slots α) (i : Nat) (a b : Option α) :
    (s.put i a).put i b = s.put i b := by
  funext j
  by_cases h : j = i <;> simp [put, h]

theorem of_put_none {s : Slots α} {i j : Nat} {a : α} (h : s.put i none j = some a) :
    j ≠ i ∧ s j = some a := by
  by_cases hji : j = i
  · subst j
    rw [put_same] at h
    cases h
  · rw [put_other s none hji] at h
    exact ⟨hji, h⟩

theorem put_idle (s : Slots α) {i : Nat} (h : s i = none) : s.put i none = s := by
  funext j
  by_cases hj : j = i
  · subst j
    rw [put_same, h]
  · exact put_other s none hj

/-- Every activity in flight satisfies `P`. -/
def All (P : α → Prop) (s : Slots α) : Prop := ∀ i a, s i = some a → P a

theorem all_idle (P : α → Prop) : All P idle := by
  intro i a h
  cases h

/-- An assignment keeps what holds of the new activity and of the others. -/
theorem all_put {P : α → Prop} {s : Slots α} {i : Nat} {b : Option α}
    (hb : ∀ a, b = some a → P a) (hothers : ∀ j a, j ≠ i → s j = some a → P a) :
    All P (s.put i b) := by
  intro j a hj
  by_cases hji : j = i
  · subst j
    rw [put_same] at hj
    exact hb a hj
  · rw [put_other s b hji] at hj
    exact hothers j a hji hj

theorem All.start {P : α → Prop} {s : Slots α} (h : All P s) (i : Nat) {a : α} (ha : P a) :
    All P (s.put i (some a)) := by
  refine all_put (fun b hb => ?_) fun j b _ hj => h j b hj
  cases hb
  exact ha

theorem All.finish {P : α → Prop} {s : Slots α} (h : All P s) (i : Nat) :
    All P (s.put i none) := by
  refine all_put (fun b hb => ?_) fun j b _ hj => h j b hj
  cases hb

theorem All.mono {P Q : α → Prop} {s : Slots α} (h : All P s) (hPQ : ∀ a, P a → Q a) :
    All Q s := fun i a ha => hPQ a (h i a ha)

/-- Any two activities in flight are related, in both orders. -/
def Apart (R : α → α → Prop) (s : Slots α) : Prop :=
  ∀ i j a b, i ≠ j → s i = some a → s j = some b → R a b

theorem apart_idle (R : α → α → Prop) : Apart R idle := by
  intro i j a b _ h
  cases h

theorem Apart.start {R : α → α → Prop} {s : Slots α} (h : Apart R s) (i : Nat) {a : α}
    (ha : ∀ j b, j ≠ i → s j = some b → R a b ∧ R b a) : Apart R (s.put i (some a)) := by
  intro j k b c hjk hj hk
  by_cases hji : j = i
  · subst j
    rw [put_same] at hj
    rw [put_other s _ (Ne.symm hjk)] at hk
    cases hj
    exact (ha k c (Ne.symm hjk) hk).1
  · rw [put_other s _ hji] at hj
    by_cases hki : k = i
    · subst k
      rw [put_same] at hk
      cases hk
      exact (ha j b hji hj).2
    · rw [put_other s _ hki] at hk
      exact h j k b c hjk hj hk

theorem Apart.finish {R : α → α → Prop} {s : Slots α} (h : Apart R s) (i : Nat) :
    Apart R (s.put i none) := by
  intro j k b c hjk hj hk
  exact h j k b c hjk (of_put_none hj).2 (of_put_none hk).2

end Slots
