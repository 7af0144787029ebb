import Mathlib.Tactic.Common

/-!
# Caches with expiring entries

A cache keeps values under keys until they expire, and may lose an entry earlier. What
matters of it is what a lookup finds: `Holds` says that all of that meets a condition, and
the rules say which operations keep it so. `Since` speaks of the states that a source
has had from some moment on. Nothing here depends on the keys, the values or the source.
-/
namespace Caches

variable {κ α σ : Type}

structure Entry (α : Type) where
  value : α
  expires : Int
  deriving DecidableEq, Repr

abbrev Cache (κ α : Type) := κ → Option (Entry α)

def empty : Cache κ α := fun _ => none

def lookup (now : Int) (c : Cache κ α) (k : κ) : Option α :=
  match c k with
  | none => none
  | some e => if now < e.expires then some e.value else none

/-- The entry under a key, if it has not expired. -/
def live (now : Int) (c : Cache κ α) (k : κ) : Option (Entry α) :=
  (c k).filter fun e => decide (now < e.expires)

theorem lookup_eq_live (now : Int) (c : Cache κ α) (k : κ) :
    lookup now c k = (live now c k).map Entry.value := by
  cases h : c k with
  | none => simp [lookup, live, h]
  | some e => by_cases hlive : now < e.expires <;> simp [lookup, live, h, hlive, Option.filter]

/-- Two caches have the same entries now, and will as these expire. -/
def Same (now : Int) (c c' : Cache κ α) : Prop := ∀ k, live now c k = live now c' k

theorem Same.refl (now : Int) (c : Cache κ α) : Same now c c := fun _ => rfl

/-- Every value that a lookup finds meets `P`. -/
def Holds (P : κ → α → Prop) (now : Int) (c : Cache κ α) : Prop :=
  ∀ k a, lookup now c k = some a → P k a

theorem lookup_eq_some {now : Int} {c : Cache κ α} {k : κ} {a : α} :
    lookup now c k = some a ↔ ∃ e, c k = some e ∧ now < e.expires ∧ e.value = a := by
  cases h : c k with
  | none => simp [lookup, h]
  | some e => simp [lookup, h]

theorem lookup_later {now later : Int} {c : Cache κ α} {k : κ} {a : α} (hle : now ≤ later)
    (h : lookup later c k = some a) : lookup now c k = some a := by
  obtain ⟨e, he, hlive, hvalue⟩ := lookup_eq_some.mp h
  exact lookup_eq_some.mpr ⟨e, he, by omega, hvalue⟩

theorem holds_empty (P : κ → α → Prop) (now : Int) : Holds P now empty := by
  intro k a h
  cases h

/-- As time passes a lookup finds less. -/
theorem Holds.elapse {P : κ → α → Prop} {now later : Int} {c : Cache κ α} (h : Holds P now c)
    (hle : now ≤ later) : Holds P later c := by
  intro k a hfound
  exact h k a (lookup_later hle hfound)

section Keys

variable [DecidableEq κ]

def set (c : Cache κ α) (k : κ) (value : α) (expires : Int) : Cache κ α :=
  fun j => if j = k then some ⟨value, expires⟩ else c j

def remove (c : Cache κ α) (k : κ) : Cache κ α := fun j => if j = k then none else c j

theorem live_set_same {now expires : Int} (c : Cache κ α) (k : κ) (a : α) (h : now < expires) :
    live now (set c k a expires) k = some ⟨a, expires⟩ := by
  simp [live, set, h, Option.filter]

theorem live_set_other {now expires : Int} (c : Cache κ α) {j k : κ} (a : α) (h : j ≠ k) :
    live now (set c k a expires) j = live now c j := by
  simp [live, set, h]

/-- Setting a key changes nothing if it has that entry already. -/
theorem same_set_iff {now expires : Int} {c : Cache κ α} {k : κ} {a : α} (h : now < expires) :
    Same now (set c k a expires) c ↔ live now c k = some ⟨a, expires⟩ := by
  constructor
  · intro hsame
    rw [← hsame k, live_set_same c k a h]
  · intro hentry j
    by_cases hj : j = k
    · subst hj
      rw [live_set_same c j a h, hentry]
    · exact live_set_other c a hj

theorem lookup_set_same {now expires : Int} (c : Cache κ α) (k : κ) (a : α) (h : now < expires) :
    lookup now (set c k a expires) k = some a := by
  simp [lookup, set, h]

theorem lookup_set_other {now expires : Int} (c : Cache κ α) {j k : κ} (a : α) (h : j ≠ k) :
    lookup now (set c k a expires) j = lookup now c j := by
  simp [lookup, set, h]

theorem lookup_of_remove {now : Int} {c : Cache κ α} {j k : κ} {a : α}
    (h : lookup now (remove c k) j = some a) : lookup now c j = some a := by
  by_cases hj : j = k
  · simp [lookup, remove, hj] at h
  · simpa [lookup, remove, hj] using h

theorem Holds.remove {P : κ → α → Prop} {now : Int} {c : Cache κ α} (h : Holds P now c) (k : κ) :
    Holds P now (remove c k) := by
  intro j a hfound
  exact h j a (lookup_of_remove hfound)

/-- Exactly the new value has to be checked. -/
theorem holds_set_iff {P : κ → α → Prop} {now expires : Int} {c : Cache κ α} (h : Holds P now c)
    (k : κ) (a : α) (hlive : now < expires) : Holds P now (set c k a expires) ↔ P k a := by
  constructor
  · intro hset
    exact hset k a (lookup_set_same c k a hlive)
  · intro hP j b hfound
    by_cases hj : j = k
    · subst hj
      rw [lookup_set_same c j a hlive] at hfound
      cases hfound
      exact hP
    · rw [lookup_set_other c a hj] at hfound
      exact h j b hfound

end Keys

/-- One of the states from number `since` on meets `P`. -/
def Since (P : σ → Prop) (states : List σ) (since : Nat) : Prop :=
  ∃ k s, since ≤ k ∧ states[k]? = some s ∧ P s

theorem Since.append {P : σ → Prop} {states : List σ} {since : Nat} (h : Since P states since)
    (more : List σ) : Since P (states ++ more) since := by
  obtain ⟨k, s, hk, hs, hP⟩ := h
  have hlt : k < states.length := (List.getElem?_eq_some_iff.mp hs).1
  exact ⟨k, s, hk, by rw [List.getElem?_append_left hlt]; exact hs, hP⟩

theorem since_last {P : σ → Prop} {states : List σ} {s : σ} {since : Nat} (hP : P s)
    (h : since ≤ states.length) : Since P (states ++ [s]) since :=
  ⟨states.length, s, h, by simp, hP⟩

end Caches
