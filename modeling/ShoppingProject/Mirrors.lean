import Mathlib.Logic.Function.Basic
import ShoppingProject.Runs

/-!
# Slices with a mirror

A slice of a store computes its first state from what is stored beside it, and its actions
change both. A part of the state is mirrored if it is always what a reload would compute.
This has to be seen of the actions only: a reload puts into the slice what the mirror has.
-/

/-- Entries that are stored under names. -/
abbrev Entries (β : Type) := String → Option β

namespace Entries

variable {β : Type} (name : String) (value : β) (entries : Entries β)

def empty : Entries β := fun _ => none

def setItem : Entries β := Function.update entries name (some value)

def removeItem : Entries β := Function.update entries name none

@[simp] theorem setItem_same : setItem name value entries name = some value :=
  Function.update_self name _ entries

@[simp] theorem removeItem_same : removeItem name entries name = none :=
  Function.update_self name _ entries

variable {name} {other : String}

theorem setItem_other (h : other ≠ name) : setItem name value entries other = entries other :=
  Function.update_of_ne h _ entries

theorem removeItem_other (h : other ≠ name) : removeItem name entries other = entries other :=
  Function.update_of_ne h _ entries

end Entries

/-- States `σ`, a storage `κ` and actions `α`. -/
structure Slice (σ κ α : Type) where
  initialState : κ → σ
  reducer : σ → α → σ
  write : σ → α → κ → κ

namespace Slice

open Runs

variable {σ κ α ν : Type}

structure State (σ κ : Type) where
  slice : σ
  storage : κ

inductive Label (α : Type) where
  | dispatch (action : α) : Label α
  | reload : Label α

variable (S : Slice σ κ α)

def start (storage : κ) : State σ κ := ⟨S.initialState storage, storage⟩

def step (s : State σ κ) : Label α → Option (State σ κ)
  | .dispatch action => some ⟨S.reducer s.slice action, S.write s.slice action s.storage⟩
  | .reload => some (S.start s.storage)

theorem step_isSome (s : State σ κ) (l : Label α) : (S.step s l).isSome := by
  cases l <;> rfl

/-- Every sequence of actions and reloads is a run. -/
theorem exists_run (s : State σ κ) (tr : List (Label α)) : ∃ t, run S.step s tr = some t := by
  induction tr generalizing s with
  | nil => exact ⟨s, rfl⟩
  | cons l tr ih =>
    obtain ⟨t, ht⟩ := Option.isSome_iff_exists.mp (S.step_isSome s l)
    obtain ⟨u, hu⟩ := ih t
    exact ⟨u, by rw [run_cons, ht]; exact hu⟩

variable {S} in
/-- What every first state has and every action keeps, the slice has in every run. -/
theorem run_slice (I : σ → Prop) (first : ∀ storage, I (S.initialState storage))
    (next : ∀ state action, I state → I (S.reducer state action)) {storage : κ}
    {tr : List (Label α)} {t : State σ κ} (hrun : run S.step (S.start storage) tr = some t) :
    I t.slice := by
  refine run_keeps (fun s => I s.slice) (fun _ => True) ?_ (first storage) (fun _ _ => trivial)
    hrun
  intro s l t hs _ hstep
  cases l with
  | dispatch action =>
    obtain rfl := Option.some.inj hstep
    exact next s.slice action hs
  | reload =>
    obtain rfl := Option.some.inj hstep
    exact first s.storage

variable (view : σ → ν) (P : ν → Prop)

/-- The view of the slice has the property `P` and is what a reload would make of it. -/
structure Mirrored (s : State σ κ) : Prop where
  property : P (view s.slice)
  mirror : view (S.initialState s.storage) = view s.slice

/-- Every action keeps the view mirrored. -/
def KeepsMirror : Prop :=
  ∀ s action, Mirrored S view P s →
    Mirrored S view P ⟨S.reducer s.slice action, S.write s.slice action s.storage⟩

variable {S view P}

theorem KeepsMirror.step (h : KeepsMirror S view P) {s t : State σ κ} {l : Label α}
    (hs : Mirrored S view P s) (hstep : S.step s l = some t) : Mirrored S view P t := by
  cases l with
  | dispatch action =>
    obtain rfl := Option.some.inj hstep
    exact h s action hs
  | reload =>
    obtain rfl := Option.some.inj hstep
    refine ⟨?_, rfl⟩
    rw [start, hs.mirror]
    exact hs.property

theorem KeepsMirror.run (h : KeepsMirror S view P) {storage : κ}
    (hstart : P (view (S.initialState storage))) {tr : List (Label α)} {t : State σ κ}
    (hrun : run S.step (S.start storage) tr = some t) : Mirrored S view P t :=
  run_keeps (Mirrored S view P) (fun _ => True) (fun _ _ _ hs _ hstep => h.step hs hstep)
    ⟨hstart, rfl⟩ (fun _ _ => trivial) hrun

/-- Every sequence of actions and reloads leads to a state in which the view is mirrored. -/
theorem KeepsMirror.exists_run (h : KeepsMirror S view P) {storage : κ}
    (hstart : P (view (S.initialState storage))) (tr : List (Label α)) :
    ∃ t, Runs.run S.step (S.start storage) tr = some t ∧ Mirrored S view P t := by
  obtain ⟨t, ht⟩ := S.exists_run (S.start storage) tr
  exact ⟨t, ht, h.run hstart ht⟩

/-- A reload changes nothing in the view. -/
theorem Mirrored.reload {s t : State σ κ} (h : Mirrored S view P s)
    (hstep : S.step s .reload = some t) : view t.slice = view s.slice := by
  obtain rfl := Option.some.inj hstep
  exact h.mirror

end Slice
