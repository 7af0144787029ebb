import ShoppingProject.Runs

/-!
# Programs that outlive their process

A program keeps a copy of a part of its state, its slice, on a device: writes of the slice
as it is are begun at any time, and are done later, in their order. A process may end
at any time, with the writes under way; the next one takes the copy up, if it can read it.
-/
namespace Restarts

open Runs

structure Program (σ ℓ α : Type) where
  step : σ → ℓ → Option σ
  slice : σ → α
  /-- The slice of a process that finds no copy on the device that the old one has left. -/
  initial : σ → α
  /-- A new process with a slice, on that device. -/
  resume : σ → α → σ
  slice_resume : ∀ s a, slice (resume s a) = a

structure State (σ α : Type) where
  process : σ
  /-- The copies under way to the device, the oldest first. -/
  staged : List α
  stored : Option α

inductive Label (ℓ : Type) where
  | app (l : ℓ) : Label ℓ
  | stage : Label ℓ
  | write : Label ℓ
  | restart (readable : Bool) : Label ℓ

variable {σ ℓ α : Type} (P : Program σ ℓ α)

/-- The slice that the next process takes up. -/
def taken (readable : Bool) (s : State σ α) : α :=
  if readable then s.stored.getD (P.initial s.process) else P.initial s.process

def step (s : State σ α) : Label ℓ → Option (State σ α)
  | .app l => (P.step s.process l).map fun t => { s with process := t }
  | .stage => some { s with staged := s.staged ++ [P.slice s.process] }
  | .write => match s.staged with
    | [] => none
    | a :: staged => some { s with staged := staged, stored := some a }
  | .restart readable => some ⟨P.resume s.process (taken P readable s), [], s.stored⟩

/-- What a step does to the process. -/
theorem step_process {s t : State σ α} {l : Label ℓ} (h : step P s l = some t) :
    (∃ a, l = .app a ∧ P.step s.process a = some t.process) ∨
      (∃ readable, l = .restart readable ∧
        t.process = P.resume s.process (taken P readable s)) ∨
      (l = .stage ∨ l = .write) ∧ t.process = s.process := by
  cases l with
  | app a =>
    obtain ⟨p, hp, rfl⟩ := Option.map_eq_some_iff.mp h
    exact .inl ⟨a, rfl, hp⟩
  | stage =>
    cases h
    exact .inr (.inr ⟨.inl rfl, rfl⟩)
  | write =>
    simp only [step] at h
    split at h
    · cases h
    · cases h
      exact .inr (.inr ⟨.inr rfl, rfl⟩)
  | restart readable =>
    cases h
    exact .inr (.inl ⟨readable, rfl, rfl⟩)

/-- What every step of the program keeps holds throughout exactly if every process starts
with it. -/
theorem throughout_iff {J : σ → Prop} (next : ∀ s l t, J s → P.step s l = some t → J t)
    {s : State σ α} (hs : J s.process) (tr : List (Label ℓ)) :
    (∀ v ∈ visits (step P) s tr, J v.2.2.process) ↔
      ∀ v ∈ visits (step P) s tr, ∀ readable, v.2.1 = .restart readable →
        J (P.resume v.1.process (taken P readable v.1)) := by
  have exact : ∀ s l t, J s.process → step P s l = some t →
      (J t.process ↔ ∀ readable, l = .restart readable →
        J (P.resume s.process (taken P readable s))) := by
    intro s l t hJ hstep
    rcases step_process P hstep with ⟨a, rfl, hp⟩ | ⟨readable, rfl, hp⟩ | ⟨hl, hp⟩
    · exact iff_of_true (next _ _ _ hJ hp) fun _ h => nomatch h
    · rw [hp]
      refine ⟨fun h _ heq => ?_, fun h => h readable rfl⟩
      cases heq
      exact h
    · rw [hp]
      refine iff_of_true hJ fun _ h => ?_
      subst h
      rcases hl with h | h <;> cases h
  exact visits_iff (fun s => J s.process) (fun v => J v.2.2.process)
    (fun s l => ∀ readable, l = .restart readable → J (P.resume s.process (taken P readable s)))
    exact (fun s l t hJ hC hstep => (exact s l t hJ hstep).mpr hC) hs tr

/-- Every copy has the property. -/
structure Copied (Q : α → Prop) (s : State σ α) : Prop where
  staged : ∀ a ∈ s.staged, Q a
  stored : ∀ a, s.stored = some a → Q a

variable {P}

/-- The copies have what the slice has had whenever it was copied. -/
theorem Copied.step {Q : α → Prop} {s t : State σ α} {l : Label ℓ} (h : Copied Q s)
    (hs : Q (P.slice s.process)) (hstep : step P s l = some t) : Copied Q t := by
  cases l with
  | app a =>
    obtain ⟨p, -, rfl⟩ := Option.map_eq_some_iff.mp hstep
    exact ⟨h.staged, h.stored⟩
  | stage =>
    cases hstep
    refine ⟨fun a ha => ?_, h.stored⟩
    rcases List.mem_append.mp ha with ha | ha
    · exact h.staged a ha
    · obtain rfl := List.mem_singleton.mp ha
      exact hs
  | write =>
    simp only [Restarts.step] at hstep
    split at hstep
    · cases hstep
    · rename_i a staged heq
      cases hstep
      refine ⟨fun b hb => h.staged b ?_, fun b hb => h.staged b ?_⟩
      · rw [heq]
        exact List.mem_cons_of_mem a hb
      · cases hb
        rw [heq]
        exact List.mem_cons_self
  | restart readable =>
    cases hstep
    exact ⟨by simp, h.stored⟩

/-- A copy is replaced by a later one, and never taken away. -/
theorem step_stored {s t : State σ α} {l : Label ℓ} (h : s.stored.isSome)
    (hstep : step P s l = some t) : t.stored.isSome := by
  cases l with
  | app a =>
    obtain ⟨p, -, rfl⟩ := Option.map_eq_some_iff.mp hstep
    exact h
  | stage =>
    cases hstep
    exact h
  | write =>
    simp only [step] at hstep
    split at hstep
    · cases hstep
    · cases hstep
      rfl
  | restart readable =>
    cases hstep
    exact h

section Lasting

variable (P) (I : σ → Prop) (Q : α → Prop) (C : ℓ → Prop) (F : Prop)

/-- The steps under `C` keep `I`, and so does a new process whose slice has `Q`; under `F`
this is so without a copy too. -/
structure Lasting : Prop where
  next : ∀ s l t, I s → C l → P.step s l = some t → I t
  slice : ∀ s, I s → Q (P.slice s)
  resume : ∀ s a, I s → Q a → I (P.resume s a)
  first : F → ∀ s, I s → Q (P.initial s)

/-- Steps under `C`, and no process that does without its copy, unless under `F`. -/
def Label.Within : Label ℓ → Prop
  | .app l => C l
  | .stage | .write => True
  | .restart readable => readable = true ∨ F

variable {P I Q C F}

/-- What the process has, the copies have, and there is one if it is needed. -/
structure Kept (I : σ → Prop) (Q : α → Prop) (F : Prop) (s : State σ α) : Prop where
  process : I s.process
  copied : Copied Q s
  found : s.stored.isSome ∨ F

theorem Kept.taken (h : Lasting P I Q C F) {s : State σ α} (hs : Kept I Q F s) {readable : Bool}
    (hreadable : readable = true ∨ F) : Q (taken P readable s) := by
  have first : F → Q (P.initial s.process) := fun hF => h.first hF _ hs.process
  cases readable with
  | true =>
    cases hstored : s.stored with
    | some a =>
      rw [Restarts.taken, if_pos rfl, hstored]
      exact hs.copied.stored a hstored
    | none =>
      rw [Restarts.taken, if_pos rfl, hstored]
      refine first (hs.found.resolve_left ?_)
      rw [hstored]
      exact Bool.false_ne_true
  | false => exact first (hreadable.resolve_left Bool.false_ne_true)

theorem Kept.step (h : Lasting P I Q C F) {s t : State σ α} {l : Label ℓ} (hs : Kept I Q F s)
    (hl : l.Within C F) (hstep : Restarts.step P s l = some t) : Kept I Q F t := by
  refine ⟨?_, hs.copied.step (h.slice _ hs.process) hstep, hs.found.imp_left
    fun hstored => step_stored hstored hstep⟩
  rcases step_process P hstep with ⟨a, rfl, hp⟩ | ⟨readable, rfl, hp⟩ | ⟨-, hp⟩
  · exact h.next _ _ _ hs.process hl hp
  · rw [hp]
    exact h.resume _ _ hs.process (hs.taken h hl)
  · rw [hp]
    exact hs.process

theorem Kept.run (h : Lasting P I Q C F) {s t : State σ α} {tr : List (Label ℓ)}
    (hs : Kept I Q F s) (htr : ∀ l ∈ tr, l.Within C F)
    (hrun : run (Restarts.step P) s tr = some t) : Kept I Q F t :=
  run_keeps (Kept I Q F) (·.Within C F) (fun _ _ _ hs hl hstep => hs.step h hl hstep) hs htr hrun

/-- The copies under way can all be written before the process ends. -/
theorem run_writes (before : List α) {s : State σ α} {a : α} {after : List α}
    (hs : s.staged = before ++ a :: after) :
    run (step P) s (List.replicate (before.length + 1) .write) =
      some { s with staged := after, stored := some a } := by
  induction before generalizing s with
  | nil => simp [step, hs]
  | cons b before ih =>
    rw [List.length_cons, List.replicate_succ, run_cons]
    simp only [step, hs, List.cons_append, Option.bind_some]
    rw [ih rfl]

/-- What the process has lasts over all restarts exactly if every copy has it. -/
theorem lasts_iff (h : Lasting P I Q C F) {s : State σ α} (hs : I s.process)
    (hfound : s.stored.isSome ∨ F) :
    (∀ tr t, (∀ l ∈ tr, Label.Within C F l) → run (step P) s tr = some t →
        Q (P.slice t.process)) ↔ Copied Q s := by
  refine ⟨fun hall => ⟨fun a ha => ?_, fun a ha => ?_⟩, fun hcopied tr t htr hrun => ?_⟩
  · obtain ⟨before, after, heq⟩ := List.append_of_mem ha
    have hrun : run (step P) s (List.replicate (before.length + 1) .write ++ [.restart true]) =
        some ⟨P.resume s.process a, [], some a⟩ := by
      rw [run_append, run_writes before heq]
      rfl
    rw [← P.slice_resume s.process a]
    refine hall _ _ (fun l hl => ?_) hrun
    rcases List.mem_append.mp hl with hl | hl
    · rw [List.eq_of_mem_replicate hl]
      trivial
    · obtain rfl := List.mem_singleton.mp hl
      exact .inl rfl
  · have hrun : run (step P) s [.restart true] = some ⟨P.resume s.process a, [], s.stored⟩ := by
      simp [step, taken, ha]
    rw [← P.slice_resume s.process a]
    refine hall _ _ (fun l hl => ?_) hrun
    obtain rfl := List.mem_singleton.mp hl
    exact .inl rfl
  · exact h.slice _ (Kept.run h ⟨hs, hcopied, hfound⟩ htr hrun).process

end Lasting

end Restarts
