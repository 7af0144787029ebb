import Mathlib.Data.List.Nodup
import ShoppingProject.Runs
import ShoppingProject.Slots

/-!
# Push tokens

Registering a token and unregistering one read a copy of the cached list of a user and
write it back. Calls overlap, and one that writes back an old list undoes what others have
written since. A call is told by the number it runs under, and remembers which calls had
ended before it began. Nothing fails, and nothing expires.
-/
namespace PushTokens

open Runs

inductive Kind where
  | register | unregister
  deriving DecidableEq, Repr

structure Call where
  id : ℕ
  kind : Kind
  token : String
  /-- The calls that had ended before this one began. -/
  after : List ℕ
  deriving DecidableEq, Repr

/-- What a call does next. -/
inductive Phase where
  /-- It has found no list, and `GetOrSetAsync` stores an empty one. -/
  | creating
  /-- It has read these tokens. -/
  | writing (tokens : List String)
  deriving DecidableEq, Repr

structure Flight where
  call : Call
  phase : Phase
  deriving DecidableEq, Repr

structure State where
  stored : Option (List String)
  calls : Slots Flight
  ended : List Call

namespace State

def start : State := ⟨none, .idle, []⟩

/-- A call ends with this list in the cache. -/
def finish (s : State) (call : Call) (stored : Option (List String)) : State where
  stored := stored
  calls := s.calls.put call.id none
  ended := s.ended ++ [call]

def next (s : State) (call : Call) (phase : Phase) : State :=
  { s with calls := s.calls.put call.id (some ⟨call, phase⟩) }

end State

/-- The first part of `RegisterPushTokenAsync`, with its read. -/
def registerPushTokenAsync (s : State) (call : Call) : State :=
  match s.stored with
  | none => s.next call .creating
  | some tokens =>
    if call.token ∉ tokens then s.next call (.writing tokens) else s.finish call s.stored

/-- The first part of `UnregisterPushTokenAsync`, with its read. -/
def unregisterPushTokenAsync (s : State) (call : Call) : State :=
  match s.stored with
  | none => s.finish call s.stored
  | some tokens =>
    if call.token ∈ tokens then s.next call (.writing tokens) else s.finish call s.stored

/-- The list with the token added or removed. -/
def changed (call : Call) (tokens : List String) : List String :=
  match call.kind with
  | .register => tokens ++ [call.token]
  | .unregister => tokens.erase call.token

inductive Label where
  | begin (i : ℕ) (kind : Kind) (token : String)
  /-- The cache stores what a call gives it. -/
  | set (i : ℕ)
  deriving DecidableEq, Repr

def step (s : State) : Label → Option State
  | .begin i kind token =>
    if s.calls i = none ∧ i ∉ s.ended.map Call.id then
      let call : Call := ⟨i, kind, token, s.ended.map Call.id⟩
      some (match kind with
        | .register => registerPushTokenAsync s call
        | .unregister => unregisterPushTokenAsync s call)
    else none
  | .set i =>
    match s.calls i with
    | none => none
    | some ⟨call, .creating⟩ =>
      some { s.next call (.writing []) with stored := some [] }
    | some ⟨call, .writing tokens⟩ => some (s.finish call (some (changed call tokens)))

/-! ## Calls one after another -/

/-- What a call means for the tokens of a user. -/
def Call.apply (tokens : List String) (call : Call) : List String :=
  match call.kind with
  | .register => if call.token ∈ tokens then tokens else tokens ++ [call.token]
  | .unregister => tokens.erase call.token

def replay (calls : List Call) : List String := calls.foldl Call.apply []

/-- The last call for a token. -/
def lastCall (calls : List Call) (token : String) : Option Kind :=
  (calls.filter fun call => call.token == token).getLast?.map Call.kind

theorem replay_snoc (calls : List Call) (call : Call) :
    replay (calls ++ [call]) = call.apply (replay calls) := List.foldl_concat ..

theorem lastCall_snoc (calls : List Call) (call : Call) (token : String) :
    lastCall (calls ++ [call]) token =
      if call.token = token then some call.kind else lastCall calls token := by
  unfold lastCall
  by_cases h : call.token = token <;> simp [h]

theorem nodup_apply {tokens : List String} (h : tokens.Nodup) (call : Call) :
    (call.apply tokens).Nodup := by
  unfold Call.apply
  cases call.kind with
  | register =>
    dsimp only
    split
    · exact h
    · case isFalse hnew =>
      exact List.nodup_append'.mpr ⟨h, List.nodup_singleton _, by simpa using hnew⟩
  | unregister => exact h.erase _

theorem mem_apply {tokens : List String} (h : tokens.Nodup) (call : Call) (token : String) :
    token ∈ call.apply tokens ↔
      if call.token = token then call.kind = .register else token ∈ tokens := by
  unfold Call.apply
  cases call.kind with
  | register =>
    dsimp only
    split <;> split <;> simp_all [eq_comm]
  | unregister =>
    dsimp only
    rw [h.mem_erase_iff]
    split <;> simp_all [eq_comm]

/-- Calls one after another leave each token once, if its last call was a register. -/
theorem replay_tokens (calls : List Call) : (replay calls).Nodup ∧
    ∀ token, token ∈ replay calls ↔ lastCall calls token = some .register := by
  induction calls using List.reverseRecOn with
  | nil => exact ⟨List.nodup_nil, fun token => by simp [replay, lastCall]⟩
  | append_singleton calls call ih =>
    obtain ⟨hnodup, hmem⟩ := ih
    rw [replay_snoc]
    refine ⟨nodup_apply hnodup call, fun token => ?_⟩
    rw [mem_apply hnodup, lastCall_snoc, hmem]
    split <;> simp

/-! ## Calls beside each other -/

/-- An order in which no call comes before one that had ended when it began. -/
def Consistent (order : List Call) : Prop := order.Pairwise fun a b => b.id ∉ a.after

/-- The stored tokens are those that the ended calls leave in some order. -/
def Settled (s : State) : Prop :=
  ∃ order, order.Perm s.ended ∧ Consistent order ∧ (s.stored.getD []).Nodup ∧
    ∀ token, token ∈ s.stored.getD [] ↔ lastCall order token = some .register

/-- A call stores its list while the one that it has read is still there. -/
def Undisturbed (s : State) : Label → Prop
  | .begin _ _ _ => True
  | .set i => match s.calls i with
    | none => True
    | some ⟨_, .creating⟩ => s.stored = none
    | some ⟨_, .writing tokens⟩ => s.stored = some tokens

instance (s : State) (l : Label) : Decidable (Undisturbed s l) := by
  unfold Undisturbed
  split
  · exact instDecidableTrue
  · split
    · exact instDecidableTrue
    · exact inferInstance
    · exact inferInstance

/-- The calls have ended in the order in which they took effect. -/
structure Linear (s : State) : Prop where
  tokens : s.stored.getD [] = replay s.ended
  consistent : Consistent s.ended
  /-- Calls are numbered apart, and those in flight have not ended. -/
  numbered : ∀ i flight, s.calls i = some flight →
    flight.call.id = i ∧ i ∉ s.ended.map Call.id
  after : ∀ call ∈ s.ended, call.after ⊆ s.ended.map Call.id
  afterFlight : s.calls.All fun flight => flight.call.after ⊆ s.ended.map Call.id
  /-- A list that will be changed has to be. -/
  changes : s.calls.All fun flight => match flight.phase with
    | .creating => flight.call.kind = .register
    | .writing tokens => flight.call.apply tokens = changed flight.call tokens

theorem linear_start : Linear .start where
  tokens := rfl
  consistent := .nil
  numbered i flight h := by cases h
  after call h := by cases h
  afterFlight := Slots.all_idle _
  changes := Slots.all_idle _

theorem Linear.settled {s : State} (h : Linear s) : Settled s := by
  obtain ⟨hnodup, hmem⟩ := replay_tokens s.ended
  refine ⟨s.ended, .refl _, h.consistent, ?_, ?_⟩
  · rw [h.tokens]
    exact hnodup
  · rw [h.tokens]
    exact hmem

variable {s t : State} {call : Call}

theorem ids_finish (s : State) (call : Call) (stored : Option (List String)) :
    s.ended.map Call.id ⊆ (s.finish call stored).ended.map Call.id := by
  rw [State.finish, List.map_append]
  exact List.subset_append_left _ _

/-- A call that ends with what it means for the list takes effect there. -/
theorem Linear.finish (h : Linear s) (hid : call.id ∉ s.ended.map Call.id)
    (hafter : call.after ⊆ s.ended.map Call.id) {stored : Option (List String)}
    (hstored : stored.getD [] = call.apply (s.stored.getD [])) : Linear (s.finish call stored) where
  tokens := by
    rw [State.finish, replay_snoc, hstored, h.tokens]
  consistent := by
    refine List.pairwise_append.mpr ⟨h.consistent, List.pairwise_singleton _ _, ?_⟩
    intro a ha b hb hmem
    obtain rfl := List.mem_singleton.mp hb
    exact hid (h.after a ha hmem)
  numbered i flight hflight := by
    obtain ⟨hne, hbefore⟩ := Slots.of_put_none hflight
    obtain ⟨hi, hnot⟩ := h.numbered i flight hbefore
    refine ⟨hi, ?_⟩
    simpa [State.finish, hne] using hnot
  after c hc := by
    rcases List.mem_append.mp hc with hold | hnew
    · exact List.Subset.trans (h.after c hold) (ids_finish s call stored)
    · obtain rfl := List.mem_singleton.mp hnew
      exact List.Subset.trans hafter (ids_finish s c stored)
  afterFlight := (h.afterFlight.mono fun flight hflight =>
    List.Subset.trans hflight (ids_finish s call stored)).finish _
  changes := h.changes.finish _

theorem Linear.next (h : Linear s) (hid : call.id ∉ s.ended.map Call.id)
    (hafter : call.after ⊆ s.ended.map Call.id) {phase : Phase}
    (hphase : match phase with
      | .creating => call.kind = .register
      | .writing tokens => call.apply tokens = changed call tokens) :
    Linear (s.next call phase) where
  tokens := h.tokens
  consistent := h.consistent
  numbered i flight hflight := by
    change s.calls.put call.id (some ⟨call, phase⟩) i = some flight at hflight
    by_cases hi : i = call.id
    · subst hi
      rw [Slots.put_same] at hflight
      obtain rfl := Option.some.inj hflight
      exact ⟨rfl, hid⟩
    · rw [Slots.put_other _ _ hi] at hflight
      exact h.numbered i flight hflight
  after := h.after
  afterFlight := h.afterFlight.start _ hafter
  changes := h.changes.start _ hphase

/-- No list has no tokens, as an empty one has. -/
theorem Linear.create (h : Linear s) (hnone : s.stored = none) :
    Linear { s with stored := some [] } where
  tokens := by
    rw [← h.tokens, hnone]
    rfl
  consistent := h.consistent
  numbered := h.numbered
  after := h.after
  afterFlight := h.afterFlight
  changes := h.changes

/-- A call that begins either ends at once, where it has nothing to change, or will change
the list that it has read. -/
theorem Linear.begin (h : Linear s) {i : ℕ} {kind : Kind} {token : String}
    (hstep : step s (.begin i kind token) = some t) : Linear t := by
  obtain ⟨⟨-, hid⟩, rfl⟩ := guarded hstep
  have hafter : s.ended.map Call.id ⊆ s.ended.map Call.id := List.Subset.refl _
  cases kind with
  | register =>
    dsimp only
    unfold registerPushTokenAsync
    cases hstored : s.stored with
    | none => exact h.next hid hafter rfl
    | some tokens =>
      dsimp only
      split
      · case isTrue hnew => exact h.next hid hafter (by simp [Call.apply, changed, hnew])
      · case isFalse hold =>
        exact h.finish hid hafter (by simp_all [Call.apply])
  | unregister =>
    dsimp only
    unfold unregisterPushTokenAsync
    cases hstored : s.stored with
    | none => exact h.finish hid hafter (by simp [Call.apply, hstored])
    | some tokens =>
      dsimp only
      split
      · exact h.next hid hafter rfl
      · case isFalse hnone =>
        exact h.finish hid hafter (by simp [Call.apply, List.erase_of_not_mem hnone, hstored])

theorem Linear.set (h : Linear s) {i : ℕ} (hl : Undisturbed s (.set i))
    (hstep : step s (.set i) = some t) : Linear t := by
  simp only [step] at hstep
  split at hstep
  · cases hstep
  · case h_2 call hcall =>
    obtain rfl := Option.some.inj hstep
    obtain ⟨rfl, hid⟩ := h.numbered i _ hcall
    have hnone : s.stored = none := by simpa [Undisturbed, hcall] using hl
    have hkind : call.kind = .register := h.changes _ _ hcall
    exact (h.create hnone).next hid (h.afterFlight _ _ hcall) (by simp [Call.apply, changed, hkind])
  · case h_3 call tokens hcall =>
    obtain rfl := Option.some.inj hstep
    obtain ⟨rfl, hid⟩ := h.numbered i _ hcall
    have hread : s.stored = some tokens := by simpa [Undisturbed, hcall] using hl
    have happly : call.apply tokens = changed call tokens := h.changes _ _ hcall
    refine h.finish hid (h.afterFlight _ _ hcall) ?_
    rw [hread, Option.getD_some, Option.getD_some, happly]

theorem step_linear (s : State) (l : Label) (t : State) (h : Linear s) (hl : Undisturbed s l)
    (hstep : step s l = some t) : Linear t := by
  cases l with
  | begin i kind token => exact h.begin hstep
  | set i => exact h.set hl hstep

/-- In a run whose calls all write over what they have read, the tokens are always those of
the calls that have ended, taken in the order in which they ended. -/
theorem tokens_settle (tr : List Label)
    (hwrites : ∀ v ∈ visits step .start tr, Undisturbed v.1 v.2.1) :
    ∀ v ∈ visits step .start tr, Settled v.2.2 := by
  intro v hv
  exact (visits_invariant Linear Undisturbed step_linear linear_start hwrites v hv).2.2.settled

/-- Two phones of one user; while the second is registered the first calls once more. -/
def apart : List Label :=
  [.begin 0 .register "a", .set 0, .set 0, .begin 1 .register "b", .begin 2 .register "a", .set 1,
    .begin 3 .unregister "a", .set 3]

theorem apart_settled : Settled ((visits step .start apart).getLast (by decide)).2.2 :=
  tokens_settle apart (by decide) _ (List.getLast_mem _)

/-- Both read before either writes. -/
def together : List Label :=
  [.begin 0 .register "a", .set 0, .begin 1 .register "b", .set 0, .set 1]

/-- The first phone has been registered, and never removed, and is not there. -/
theorem registration_lost : ¬ ∀ tr t, run step .start tr = some t →
    (∀ i, t.calls i = none) → Settled t := by
  intro hall
  have hidle : ∀ i, ((((((Slots.idle.put 0 (some ⟨⟨0, .register, "a", []⟩, .creating⟩)).put 0
      (some ⟨⟨0, .register, "a", []⟩, .writing []⟩)).put 1
      (some ⟨⟨1, .register, "b", []⟩, .writing []⟩)).put 0 none).put 1 none) : Slots Flight) i =
        none := by
    intro i
    by_cases h0 : i = 0 <;> by_cases h1 : i = 1 <;> simp [Slots.put, Slots.idle, h0, h1]
  obtain ⟨order, hperm, -, -, hmem⟩ := hall together _ rfl hidle
  -- There is one call for the first phone, whatever the order.
  have hcalls : order.filter (fun call => call.token == "a") = [⟨0, .register, "a", []⟩] :=
    List.perm_singleton.mp (hperm.filter _)
  have hlast : lastCall order "a" = some .register := by
    rw [lastCall, hcalls]
    rfl
  exact absurd ((hmem "a").mpr hlast) (by decide)

end PushTokens
