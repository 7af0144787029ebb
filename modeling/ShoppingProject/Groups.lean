import Mathlib.Data.List.Nodup

/-!
# Connections and their groups

A registry keeps who is connected and which connection is in which group. A user who
connects joins groups that depend on the user alone; a connection that ends leaves all
of its groups. Identifiers are not given out again while they are in use. After any
events a group has the members that it should have.
-/
namespace Groups

variable {ι π γ : Type}

structure Registry (ι π γ : Type) where
  connections : List (ι × π)
  memberships : List (ι × γ)

def empty : Registry ι π γ := ⟨[], []⟩

inductive Event (ι π : Type) where
  | connected (id : ι) (user : π) : Event ι π
  | disconnected (id : ι) : Event ι π

/-- The connections agree with the memberships. -/
structure Consistent (joins : π → List γ) (r : Registry ι π γ) : Prop where
  distinct : (r.connections.map Prod.fst).Nodup
  members : ∀ id g, (id, g) ∈ r.memberships ↔ ∃ user, (id, user) ∈ r.connections ∧ g ∈ joins user

theorem consistent_empty (joins : π → List γ) :
    Consistent joins (empty : Registry ι π γ) :=
  ⟨List.nodup_nil, by simp [empty]⟩

variable [DecidableEq ι]

def step (joins : π → List γ) (r : Registry ι π γ) : Event ι π → Registry ι π γ
  | .connected id user =>
    if id ∈ r.connections.map Prod.fst then r
    else ⟨(id, user) :: r.connections, (joins user).map (Prod.mk id) ++ r.memberships⟩
  | .disconnected id =>
    ⟨r.connections.filter fun c => c.1 ≠ id, r.memberships.filter fun m => m.1 ≠ id⟩

def run (joins : π → List γ) (events : List (Event ι π)) : Registry ι π γ :=
  events.foldl (step joins) empty

theorem Consistent.step {joins : π → List γ} {r : Registry ι π γ} (h : Consistent joins r)
    (event : Event ι π) : Consistent joins (step joins r event) := by
  cases event with
  | connected id user =>
    by_cases hnew : id ∈ r.connections.map Prod.fst
    · rw [Groups.step, if_pos hnew]
      exact h
    · rw [Groups.step, if_neg hnew]
      refine ⟨List.nodup_cons.mpr ⟨hnew, h.distinct⟩, fun i g => ?_⟩
      have hold : i = id → (i, g) ∉ r.memberships := by
        rintro rfl hmem
        obtain ⟨user, hconn, -⟩ := (h.members i g).mp hmem
        exact hnew (List.mem_map_of_mem hconn)
      rw [List.mem_append, h.members i g]
      constructor
      · rintro (hjoined | ⟨u, hu, hg⟩)
        · obtain ⟨g', hg', heq⟩ := List.mem_map.mp hjoined
          obtain ⟨rfl, rfl⟩ := Prod.mk.inj heq
          exact ⟨user, .head _, hg'⟩
        · exact ⟨u, .tail _ hu, hg⟩
      · rintro ⟨u, hu, hg⟩
        rcases List.mem_cons.mp hu with heq | hu
        · obtain ⟨rfl, rfl⟩ := Prod.mk.inj heq
          exact .inl (List.mem_map_of_mem hg)
        · exact .inr ⟨u, hu, hg⟩
  | disconnected id =>
    refine ⟨h.distinct.sublist (List.filter_sublist.map _), fun i g => ?_⟩
    simp only [Groups.step, List.mem_filter, h.members i g, decide_eq_true_eq]
    constructor
    · rintro ⟨⟨u, hu, hg⟩, hne⟩
      exact ⟨u, ⟨hu, hne⟩, hg⟩
    · rintro ⟨u, ⟨hu, hne⟩, hg⟩
      exact ⟨⟨u, hu, hg⟩, hne⟩

theorem consistent_run (joins : π → List γ) (events : List (Event ι π)) :
    Consistent joins (run joins events) := by
  have hrun : ∀ r : Registry ι π γ, Consistent joins r →
      Consistent joins (events.foldl (Groups.step joins) r) := by
    intro r hr
    induction events generalizing r with
    | nil => exact hr
    | cons event events ih => exact ih _ (hr.step event)
  exact hrun empty (consistent_empty joins)

variable [DecidableEq γ]

/-- The connections that a message to the group reaches, each of them once. -/
def recipients (r : Registry ι π γ) (g : γ) : List (ι × π) :=
  r.connections.filter fun c => (c.1, g) ∈ r.memberships

/-- A message to a group reaches those whose user joins the group. -/
theorem mem_recipients_iff {joins : π → List γ} {r : Registry ι π γ} (h : Consistent joins r)
    (g : γ) (c : ι × π) : c ∈ recipients r g ↔ c ∈ r.connections ∧ g ∈ joins c.2 := by
  simp only [recipients, List.mem_filter, decide_eq_true_eq]
  refine and_congr_right fun hc => ?_
  rw [h.members]
  constructor
  · rintro ⟨user, huser, hg⟩
    have heq : (c.1, user) = c := List.inj_on_of_nodup_map h.distinct huser hc rfl
    rwa [← heq]
  · exact fun hg => ⟨c.2, hc, hg⟩

end Groups
