import Mathlib.Data.List.Induction

/-!
# Runs of executable transition systems

A system is a step function that answers `none` on a label it does not enable.
One definition serves both uses: a concrete trace is replayed by evaluation,
and every property of all runs is proved by the induction rules below. Nothing
here depends on the states or the labels.
-/
namespace Runs

variable {σ ℓ : Type}

/-- Replay a trace; `none` means that some label was not enabled. -/
def run (step : σ → ℓ → Option σ) : σ → List ℓ → Option σ
  | s, [] => some s
  | s, l :: tr => (step s l).bind fun t => run step t tr

@[simp] theorem run_nil (step : σ → ℓ → Option σ) (s : σ) : run step s [] = some s := rfl

@[simp] theorem run_cons (step : σ → ℓ → Option σ) (s : σ) (l : ℓ) (tr : List ℓ) :
    run step s (l :: tr) = (step s l).bind fun t => run step t tr := rfl

/-- A guarded step that is enabled met its guard. -/
theorem guarded {c : Prop} [Decidable c] {s t : σ}
    (h : (if c then some s else none) = some t) : c ∧ s = t := by
  obtain ⟨hc, hst⟩ := Option.ite_none_right_eq_some.mp h
  exact ⟨hc, Option.some.inj hst⟩

theorem run_append (step : σ → ℓ → Option σ) (s : σ) (tr tr' : List ℓ) :
    run step s (tr ++ tr') = (run step s tr).bind fun t => run step t tr' := by
  induction tr generalizing s with
  | nil => rfl
  | cons l tr ih =>
    simp only [List.cons_append, run_cons, Option.bind_assoc]
    congr 1
    funext t
    exact ih t

/-- A trace ending in `l` is a shorter run followed by one step. -/
theorem run_snoc {step : σ → ℓ → Option σ} {s t : σ} {tr : List ℓ} {l : ℓ} :
    run step s (tr ++ [l]) = some t ↔ ∃ u, run step s tr = some u ∧ step u l = some t := by
  rw [run_append]
  cases h : run step s tr with
  | none => simp
  | some u => cases hl : step u l <;> simp [hl]

/-- A run through `tr ++ tr'` passes through a state between the two. -/
theorem run_split {step : σ → ℓ → Option σ} {s t : σ} {tr tr' : List ℓ}
    (h : run step s (tr ++ tr') = some t) :
    ∃ u, run step s tr = some u ∧ run step u tr' = some t := by
  rw [run_append] at h
  exact Option.bind_eq_some_iff.mp h

/-- A run takes every one of its labels from a state that it reaches. -/
theorem run_at {step : σ → ℓ → Option σ} {s t : σ} {tr tr' : List ℓ} {l : ℓ}
    (h : run step s (tr ++ l :: tr') = some t) :
    ∃ u v, run step s tr = some u ∧ step u l = some v ∧ run step v tr' = some t := by
  obtain ⟨u, hu, ht⟩ := run_split h
  obtain ⟨v, hv, ht⟩ := Option.bind_eq_some_iff.mp ht
  exact ⟨u, v, hu, hv, ht⟩

/-- What holds of the empty run and is preserved by one more step holds of every
run. The property may speak of the whole trace, not only of the last state. -/
theorem history_invariant {step : σ → ℓ → Option σ} {s : σ} (P : List ℓ → σ → Prop)
    (start : P [] s)
    (next : ∀ tr u l t, run step s tr = some u → P tr u → step u l = some t → P (tr ++ [l]) t)
    {tr : List ℓ} {t : σ} (h : run step s tr = some t) : P tr t := by
  induction tr using List.reverseRecOn generalizing t with
  | nil =>
    obtain rfl : s = t := by simpa using h
    exact start
  | append_singleton tr l ih =>
    obtain ⟨u, hu, hl⟩ := run_snoc.mp h
    exact next tr u l t hu (ih hu) hl

/-- If every step from related states is matched by a run of the other system, under
labels of its own, then so is every run. -/
theorem simulation {τ κ : Type} {step : σ → ℓ → Option σ} {step' : τ → κ → Option τ}
    (R : σ → τ → Prop) (labels : ℓ → List κ)
    (next : ∀ s a l t, R s a → step s l = some t → ∃ b, run step' a (labels l) = some b ∧ R t b)
    {s t : σ} {a : τ} {tr : List ℓ} (start : R s a) (h : run step s tr = some t) :
    ∃ b, run step' a (tr.flatMap labels) = some b ∧ R t b := by
  induction tr generalizing s a with
  | nil =>
    obtain rfl : s = t := by simpa using h
    exact ⟨a, rfl, start⟩
  | cons l tr ih =>
    obtain ⟨u, hl, hu⟩ := Option.bind_eq_some_iff.mp h
    obtain ⟨b, hb, hR⟩ := next s a l u start hl
    obtain ⟨c, hc, hR⟩ := ih hR hu
    refine ⟨c, ?_, hR⟩
    rw [List.flatMap_cons, run_append, hb]
    exact hc

/-- The steps a trace really takes: state before, label, state after. -/
def visits (step : σ → ℓ → Option σ) : σ → List ℓ → List (σ × ℓ × σ)
  | _, [] => []
  | s, l :: tr => match step s l with
    | none => []
    | some t => (s, l, t) :: visits step t tr

@[simp] theorem visits_nil (step : σ → ℓ → Option σ) (s : σ) : visits step s [] = [] := rfl

theorem visits_cons {step : σ → ℓ → Option σ} {s t : σ} {l : ℓ} (tr : List ℓ)
    (h : step s l = some t) : visits step s (l :: tr) = (s, l, t) :: visits step t tr := by
  simp [visits, h]

theorem visits_snoc {step : σ → ℓ → Option σ} {s t u : σ} {tr : List ℓ} {l : ℓ}
    (h : run step s tr = some t) (hl : step t l = some u) :
    visits step s (tr ++ [l]) = visits step s tr ++ [(t, l, u)] := by
  induction tr generalizing s with
  | nil =>
    obtain rfl : s = t := by simpa using h
    exact visits_cons [] hl
  | cons k tr ih =>
    obtain ⟨v, hk, hv⟩ := Option.bind_eq_some_iff.mp h
    rw [List.cons_append, visits_cons _ hk, visits_cons _ hk, ih hv, List.cons_append]

/-- A system that enables every label takes all the steps of a trace. -/
theorem visits_labels {step : σ → ℓ → Option σ} (total : ∀ s l, (step s l).isSome) (s : σ)
    (tr : List ℓ) : (visits step s tr).map (fun v => v.2.1) = tr := by
  induction tr generalizing s with
  | nil => rfl
  | cons l tr ih =>
    obtain ⟨t, ht⟩ := Option.isSome_iff_exists.mp (total s l)
    rw [visits_cons tr ht, List.map_cons, ih]

/-- If an invariant is preserved by every step that meets the condition `C`, then
in a run all of whose steps meet `C` it holds before and after each step. -/
theorem visits_invariant {step : σ → ℓ → Option σ} (I : σ → Prop) (C : σ → ℓ → Prop)
    (next : ∀ s l t, I s → C s l → step s l = some t → I t) {s : σ} {tr : List ℓ} (start : I s)
    (meets : ∀ v ∈ visits step s tr, C v.1 v.2.1) :
    ∀ v ∈ visits step s tr, I v.1 ∧ step v.1 v.2.1 = some v.2.2 ∧ I v.2.2 := by
  induction tr generalizing s with
  | nil => simp
  | cons l tr ih =>
    cases hl : step s l with
    | none => simp [visits, hl]
    | some t =>
      rw [visits_cons tr hl] at meets ⊢
      simp only [List.mem_cons, forall_eq_or_imp] at meets ⊢
      have ht := next s l t start meets.1 hl
      exact ⟨⟨start, hl, ht⟩, ih ht meets.2⟩

/-- Such an invariant holds at the end of the run. -/
theorem run_invariant {step : σ → ℓ → Option σ} (I : σ → Prop) (C : σ → ℓ → Prop)
    (next : ∀ s l t, I s → C s l → step s l = some t → I t) {s t : σ} {tr : List ℓ} (start : I s)
    (meets : ∀ v ∈ visits step s tr, C v.1 v.2.1) (h : run step s tr = some t) : I t := by
  induction tr generalizing s with
  | nil =>
    obtain rfl : s = t := by simpa using h
    exact start
  | cons l tr ih =>
    obtain ⟨u, hl, hu⟩ := Option.bind_eq_some_iff.mp h
    rw [visits_cons tr hl] at meets
    simp only [List.mem_cons, forall_eq_or_imp] at meets
    exact ih (next s l u start meets.1 hl) meets.2 hu

/-- A run takes its labels from its trace. -/
theorem label_mem_of_mem_visits {step : σ → ℓ → Option σ} {s : σ} {tr : List ℓ} {v : σ × ℓ × σ}
    (h : v ∈ visits step s tr) : v.2.1 ∈ tr := by
  induction tr generalizing s with
  | nil => simp at h
  | cons l tr ih =>
    cases hl : step s l with
    | none => simp [visits, hl] at h
    | some t =>
      rw [visits_cons tr hl, List.mem_cons] at h
      rcases h with rfl | h
      · exact List.mem_cons_self
      · exact List.mem_cons_of_mem l (ih h)

/-- An invariant that is preserved under a condition on the labels reaches the end of
a run whose labels all meet it. -/
theorem run_keeps {step : σ → ℓ → Option σ} (I : σ → Prop) (C : ℓ → Prop)
    (next : ∀ s l t, I s → C l → step s l = some t → I t) {s t : σ} {tr : List ℓ} (start : I s)
    (meets : ∀ l ∈ tr, C l) (h : run step s tr = some t) : I t :=
  run_invariant I (fun _ => C) next start (fun _ hv => meets _ (label_mem_of_mem_visits hv)) h

/-- If, from states that satisfy the invariant, a step has the property `P` exactly
when it meets `C`, and such a step keeps the invariant, then a run has `P` in all
its steps exactly when all of them meet `C`. -/
theorem visits_iff {step : σ → ℓ → Option σ} (I : σ → Prop) (P : σ × ℓ × σ → Prop)
    (C : σ → ℓ → Prop)
    (exact : ∀ s l t, I s → step s l = some t → (P (s, l, t) ↔ C s l))
    (next : ∀ s l t, I s → C s l → step s l = some t → I t) {s : σ} (start : I s)
    (tr : List ℓ) :
    (∀ v ∈ visits step s tr, P v) ↔ ∀ v ∈ visits step s tr, C v.1 v.2.1 := by
  induction tr generalizing s with
  | nil => simp
  | cons l tr ih =>
    cases hl : step s l with
    | none => simp [visits, hl]
    | some t =>
      rw [visits_cons tr hl]
      simp only [List.mem_cons, forall_eq_or_imp]
      rw [exact s l t start hl]
      exact and_congr_right fun hC => ih (next s l t start hC hl)

/-- A property that a run ends with was there at the start or arises in a step. -/
theorem arises {step : σ → ℓ → Option σ} (P : σ → Prop) {s t : σ} {tr : List ℓ}
    (h : run step s tr = some t) (ht : P t) :
    P s ∨ ∃ v ∈ visits step s tr, ¬ P v.1 ∧ P v.2.2 := by
  induction tr generalizing s with
  | nil =>
    obtain rfl : s = t := by simpa using h
    exact .inl ht
  | cons l tr ih =>
    obtain ⟨u, hl, hu⟩ := Option.bind_eq_some_iff.mp h
    rw [visits_cons tr hl]
    rcases ih hu with hu | ⟨v, hv, hnew⟩
    · by_cases hs : P s
      · exact .inl hs
      · exact .inr ⟨(s, l, u), List.mem_cons_self, hs, hu⟩
    · exact .inr ⟨v, List.mem_cons_of_mem _ hv, hnew⟩

/-- A property that every step keeps lasts from a step of the run on. -/
theorem visits_lasts {step : σ → ℓ → Option σ} (P : σ → Prop)
    (keep : ∀ s l t, P s → step s l = some t → P t) {s t : σ} {tr : List ℓ} {v : σ × ℓ × σ}
    (h : run step s tr = some t) (hv : v ∈ visits step s tr) (hP : P v.2.2) : P t := by
  induction tr generalizing s with
  | nil => simp at hv
  | cons l tr ih =>
    obtain ⟨u, hl, hu⟩ := Option.bind_eq_some_iff.mp h
    rw [visits_cons tr hl, List.mem_cons] at hv
    rcases hv with rfl | hv
    · exact run_keeps P (fun _ => True) (fun s l t hs _ => keep s l t hs) hP (fun _ _ => trivial) hu
    · exact ih hu hv

/-- The steps of a run are steps of the system. -/
theorem step_of_mem_visits {step : σ → ℓ → Option σ} {s : σ} {tr : List ℓ} {v : σ × ℓ × σ}
    (h : v ∈ visits step s tr) : step v.1 v.2.1 = some v.2.2 :=
  (visits_invariant (fun _ => True) (fun _ _ => True) (fun _ _ _ _ _ _ => trivial) trivial
    (fun _ _ => trivial) v h).2.1

end Runs
