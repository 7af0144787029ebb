import Mathlib.Data.List.Nodup
import Mathlib.Tactic.Common

/-!
# Lists of what was used last

A bounded list to whose front every use moves what is used. After any uses it has the first
distinct elements of these, the last use first.
-/
namespace RecencyLists

variable {α : Type} [DecidableEq α]

/-- `x` is used; at most `n` elements stay. -/
def touch (n : Nat) (x : α) (xs : List α) : List α := (x :: xs.filter fun y => y ≠ x).take n

/-- The first `n` distinct elements that were used, the last use first. -/
def recent (n : Nat) (uses : List α) : List α := uses.reverse.eraseDups.take n

theorem eraseDups_cons_ne (x : α) (xs : List α) :
    (x :: xs).eraseDups = x :: (xs.filter fun y => y ≠ x).eraseDups := by
  rw [List.eraseDups_cons]
  congr 3
  funext y
  by_cases h : y = x <;> simp [h]

/-- The recursion of `eraseDups`: on the tail without its first element. -/
theorem eraseDups_induction {motive : List α → Prop} (nil : motive [])
    (cons : ∀ a as, motive (as.filter fun y => y ≠ a) → motive (a :: as)) (xs : List α) :
    motive xs := by
  match xs with
  | [] => exact nil
  | a :: as => exact cons a as (eraseDups_induction nil cons (as.filter fun y => y ≠ a))
termination_by xs.length
decreasing_by exact Nat.lt_succ_of_le (List.length_filter_le _ _)

theorem eraseDups_filter (x : α) (xs : List α) :
    (xs.filter fun y => y ≠ x).eraseDups = xs.eraseDups.filter fun y => y ≠ x := by
  induction xs using eraseDups_induction with
  | nil => rfl
  | cons a as ih =>
    rw [eraseDups_cons_ne, List.filter_cons, List.filter_cons, ← ih]
    by_cases h : a = x
    · subst h
      simp
    · simp only [h, ne_eq, not_false_eq_true, decide_true, if_true, eraseDups_cons_ne]
      rw [List.filter_filter, List.filter_filter]
      simp only [Bool.and_comm]

theorem eraseDups_nodup (xs : List α) : xs.eraseDups.Nodup := by
  induction xs using eraseDups_induction with
  | nil => exact List.nodup_nil
  | cons a as ih =>
    rw [eraseDups_cons_ne, List.nodup_cons]
    exact ⟨by simp, ih⟩

/-- Of `n` elements, at most one of which is `x`, enough are left for `n - 1` without it. -/
theorem take_filter_take {xs : List α} (h : xs.Nodup) (x : α) (n : Nat) :
    ((xs.take (n + 1)).filter fun y => y ≠ x).take n = (xs.filter fun y => y ≠ x).take n := by
  induction xs generalizing n with
  | nil => simp
  | cons a as ih =>
    obtain ⟨ha, has⟩ := List.nodup_cons.mp h
    cases n with
    | zero => simp
    | succ n =>
      by_cases hax : a = x
      · subst hax
        have hkeep : ∀ ys : List α, (∀ y ∈ ys, y ∈ as) → (ys.filter fun y => y ≠ a) = ys := by
          intro ys hys
          refine List.filter_eq_self.mpr fun y hy => ?_
          simpa using fun heq : y = a => ha (heq ▸ hys y hy)
        rw [List.take_succ_cons, List.filter_cons_of_neg (by simp),
          List.filter_cons_of_neg (by simp), hkeep _ fun y hy => List.mem_of_mem_take hy,
          hkeep as fun _ hy => hy, List.take_take, Nat.min_self]
      · rw [List.take_succ_cons, List.filter_cons_of_pos (by simpa using hax),
          List.filter_cons_of_pos (by simpa using hax), List.take_succ_cons, List.take_succ_cons,
          ih has]

/-- What a use does to the list is what it does to the history. -/
theorem touch_recent (n : Nat) (x : α) (uses : List α) :
    touch n x (recent n uses) = recent n (uses ++ [x]) := by
  cases n with
  | zero => simp [touch, recent]
  | succ n =>
    simp only [touch, recent]
    rw [List.reverse_append, List.reverse_singleton, List.singleton_append, eraseDups_cons_ne,
      List.take_succ_cons, List.take_succ_cons, eraseDups_filter,
      take_filter_take (eraseDups_nodup uses.reverse)]

end RecencyLists
