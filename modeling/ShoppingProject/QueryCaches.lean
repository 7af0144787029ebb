import Mathlib.Logic.Function.Basic
import ShoppingProject.Caches
import ShoppingProject.Chains
import ShoppingProject.Runs
import ShoppingProject.Slots

/-!
# Clients that keep the answers to their queries

A client shows what a source has answered to a query, and for a while it does so without
asking again. It makes changes to the source itself, and when one of them is acknowledged it
invalidates queries: those that are on screen are asked again. A request may be overtaken by
the change. Nothing here depends on the queries, the answers, the source or its changes.
-/
namespace QueryCaches

open Caches (Since since_last)
open Runs

variable {κ α σ μ : Type}

/-- A query: its data, the request that is under way for it with the answer that this has
already been given, and the number of components that show it. -/
structure Query (α : Type) where
  data : Option α
  dataUpdatedAt : Int
  isInvalidated : Bool
  fetching : Option (Option α)
  observers : Nat
  deriving DecidableEq, Repr

namespace Query

def unused : Query α := ⟨none, 0, false, none, 0⟩

/-- The data, while nothing is asked before it is shown. -/
def fresh (staleTime now : Int) (q : Query α) : Option α :=
  if q.isInvalidated = false ∧ now < q.dataUpdatedAt + staleTime then q.data else none

/-- A request, unless one is under way. -/
def load (q : Query α) : Query α :=
  if q.fetching.isNone then { q with fetching := some none } else q

/-- A request in place of the one that is under way. As long as there is no data the first
request is left alone. -/
def reload (q : Query α) : Query α :=
  if q.data.isSome then { q with fetching := some none } else q.load

def mount (staleTime now : Int) (q : Query α) : Query α :=
  { (if (q.fresh staleTime now).isSome then q else q.load) with observers := q.observers + 1 }

def unmount (q : Query α) : Query α := { q with observers := q.observers - 1 }

def answered (a : α) (q : Query α) : Query α := { q with fetching := some (some a) }

def received (now : Int) (a : α) (q : Query α) : Query α :=
  { q with data := some a, dataUpdatedAt := now, isInvalidated := false, fetching := none }

def failed (q : Query α) : Query α := { q with fetching := none }

def invalidate (q : Query α) : Query α :=
  if 0 < q.observers then reload { q with isInvalidated := true }
  else { q with isInvalidated := true }

/-- Operations that leave alone what is shown. -/
def Quiet (f : Query α → Query α) : Prop :=
  ∀ q, (f q).data = q.data ∧ (f q).dataUpdatedAt = q.dataUpdatedAt ∧
    (f q).isInvalidated = q.isInvalidated

theorem Quiet.fresh {f : Query α → Query α} (h : Quiet f) (staleTime now : Int) (q : Query α) :
    (f q).fresh staleTime now = q.fresh staleTime now := by
  obtain ⟨hdata, hupdated, hinvalidated⟩ := h q
  simp only [Query.fresh, hdata, hupdated, hinvalidated]

theorem quiet_load : Quiet (load (α := α)) := by
  intro q
  unfold load
  split <;> exact ⟨rfl, rfl, rfl⟩

theorem quiet_reload : Quiet (reload (α := α)) := by
  intro q
  unfold reload
  split
  · exact ⟨rfl, rfl, rfl⟩
  · exact quiet_load q

theorem quiet_mount (staleTime now : Int) : Quiet (mount (α := α) staleTime now) := by
  intro q
  unfold mount
  split
  · exact ⟨rfl, rfl, rfl⟩
  · exact quiet_load q

theorem invalidate_isInvalidated (q : Query α) : q.invalidate.isInvalidated = true := by
  unfold invalidate
  split
  · exact (quiet_reload _).2.2
  · rfl

theorem invalidate_fresh (staleTime now : Int) (q : Query α) :
    q.invalidate.fresh staleTime now = none := by
  simp [fresh, invalidate_isInvalidated]

theorem received_fresh {staleTime : Int} (h : 0 < staleTime) (now : Int) (a : α) (q : Query α) :
    (q.received now a).fresh staleTime now = some a := by
  have hlt : now < now + staleTime := by omega
  simp [fresh, received, hlt]

/-- What is not invalidated of the query, and what is under way for it, satisfies `P`. -/
structure After (P : α → Prop) (q : Query α) : Prop where
  data : q.isInvalidated = false → ∀ a, q.data = some a → P a
  underway : ∀ a, q.fetching = some (some a) → P a

section After

variable {P : α → Prop} {q : Query α}

theorem after_unused : After P (unused : Query α) where
  data := by simp [unused]
  underway := by simp [unused]

theorem After.mono {Q : α → Prop} (h : After P q) (hPQ : ∀ a, P a → Q a) : After Q q where
  data := fun hvalid a ha => hPQ a (h.data hvalid a ha)
  underway := fun a ha => hPQ a (h.underway a ha)

theorem After.load (h : After P q) : After P q.load := by
  unfold Query.load
  split
  · exact ⟨h.data, by simp⟩
  · exact h

theorem After.reload (h : After P q) : After P q.reload := by
  unfold Query.reload
  split
  · exact ⟨h.data, by simp⟩
  · exact h.load

theorem After.mount (h : After P q) (staleTime now : Int) : After P (q.mount staleTime now) := by
  unfold Query.mount
  split
  · exact ⟨h.data, h.underway⟩
  · exact ⟨h.load.data, h.load.underway⟩

theorem After.answered (h : After P q) {a : α} (ha : P a) : After P (q.answered a) where
  data := h.data
  underway := by
    intro b hb
    obtain rfl : a = b := by simpa [Query.answered] using hb
    exact ha

theorem After.received (h : After P q) {now : Int} {a : α} (ha : q.fetching = some (some a)) :
    After P (q.received now a) where
  data := by
    intro _ b hb
    obtain rfl : a = b := by simpa [Query.received] using hb
    exact h.underway a ha
  underway := by simp [Query.received]

theorem After.failed (h : After P q) : After P q.failed := ⟨h.data, by simp [Query.failed]⟩

/-- The request that is under way is called off if the query is on screen with data. -/
def Restarts (q : Query α) : Prop := 0 < q.observers ∧ q.data.isSome

/-- An invalidation leaves only what may satisfy `P`, except for an answer that is under way and
is not called off. -/
theorem after_invalidate (h : q.Restarts ∨ ∀ a, q.fetching = some (some a) → P a) :
    After P q.invalidate where
  data := by
    intro hvalid
    rw [invalidate_isInvalidated] at hvalid
    cases hvalid
  underway := by
    intro a ha
    unfold invalidate at ha
    by_cases hobservers : 0 < q.observers
    · rw [if_pos hobservers] at ha
      cases hdata : q.data.isSome with
      | true => simp [Query.reload, hdata] at ha
      | false =>
        have hall := h.resolve_left fun hrestarts => by simp [hrestarts.2] at hdata
        cases hfetching : q.fetching with
        | none => simp [Query.reload, Query.load, hdata, hfetching] at ha
        | some answer =>
          refine hall a ?_
          simpa [Query.reload, Query.load, hdata, hfetching] using ha
    · rw [if_neg hobservers] at ha
      exact (h.resolve_left fun hrestarts => hobservers hrestarts.1) a ha

theorem After.invalidate (h : After P q) : After P q.invalidate :=
  after_invalidate (.inr h.underway)

/-- The answer that is under way stays under way. -/
theorem invalidate_fetching {a : α} (h : ¬ q.Restarts) (ha : q.fetching = some (some a)) :
    q.invalidate.fetching = some (some a) := by
  unfold Query.invalidate
  by_cases hobservers : 0 < q.observers
  · have hdata : q.data.isSome = false := by
      cases hdata : q.data.isSome with
      | false => rfl
      | true => exact absurd ⟨hobservers, hdata⟩ h
    simp [hobservers, Query.reload, Query.load, hdata, ha]
  · simp [hobservers, ha]

end After

end Query

/-- A change that the client makes, and the number of the state of the source that it has led
to. -/
structure Mutation (μ : Type) where
  change : μ
  result : Option Nat
  deriving DecidableEq, Repr

/-- The answers of a source, the queries that a change of the client concerns, and those that it
invalidates. -/
structure Client (κ α σ μ : Type) where
  answers : σ → κ → α → Bool
  concerns : μ → κ → Bool
  invalidates : μ → κ → Bool
  staleTime : Int
  staleTime_pos : 0 < staleTime

/-- Beside the queries: the source with its earlier states, the changes of the client that it has
not yet heard of, and for each query the number of the state that the last acknowledged change
that concerns it has led to. -/
structure State (κ α σ μ : Type) where
  now : Int
  source : σ
  earlier : List σ
  queries : κ → Query α
  mutations : Slots (Mutation μ)
  acknowledged : κ → Nat

def start (source : σ) (now : Int) : State κ α σ μ :=
  ⟨now, source, [], fun _ => .unused, Slots.idle, fun _ => 0⟩

/-- The states of the source so far, the present one last. -/
def history (s : State κ α σ μ) : List σ := s.earlier ++ [s.source]

inductive Label (κ α σ μ : Type) where
  | elapse (time : Nat) : Label κ α σ μ
  /-- Somebody else changes the source. -/
  | change (source : σ) : Label κ α σ μ
  | mount (k : κ) : Label κ α σ μ
  | unmount (k : κ) : Label κ α σ μ
  /-- A stale query is asked again, in the background. -/
  | load (k : κ) : Label κ α σ μ
  /-- It is asked again because somebody wants it. -/
  | refetch (k : κ) : Label κ α σ μ
  | answer (k : κ) (a : α) : Label κ α σ μ
  | receive (k : κ) : Label κ α σ μ
  | fail (k : κ) : Label κ α σ μ
  /-- A query that nobody shows is forgotten. -/
  | collect (k : κ) : Label κ α σ μ
  | mutate (j : Nat) (change : μ) : Label κ α σ μ
  /-- The source makes a change of the client. -/
  | perform (j : Nat) (source : σ) : Label κ α σ μ
  /-- The client hears that its change has been made. -/
  | settle (j : Nat) : Label κ α σ μ
  | giveUp (j : Nat) : Label κ α σ μ

section History

def State.become (s : State κ α σ μ) (source : σ) : State κ α σ μ :=
  { s with source := source, earlier := s.earlier ++ [s.source] }

variable {C : Client κ α σ μ} {s t : State κ α σ μ}

theorem history_become (s : State κ α σ μ) (source : σ) :
    history (s.become source) = history s ++ [source] := rfl

/-- The source answered `a` to the query in one of its states from number `n` on. -/
def Answered (C : Client κ α σ μ) (s : State κ α σ μ) (n : Nat) (k : κ) (a : α) : Prop :=
  Since (fun source => C.answers source k a = true) (history s) n

theorem Answered.become {n : Nat} {k : κ} {a : α} (h : Answered C s n k a) (source : σ) :
    Answered C (s.become source) n k a :=
  Since.append h [source]

/-- The numbers of states are those of states that there have been. -/
structure Dated (s : State κ α σ μ) : Prop where
  acknowledged : ∀ k, s.acknowledged k ≤ s.earlier.length
  mutations : s.mutations.All fun m => ∀ n, m.result = some n → n ≤ s.earlier.length

theorem start_dated (source : σ) (now : Int) : Dated (start source now : State κ α σ μ) where
  acknowledged := fun _ => Nat.le_refl 0
  mutations := Slots.all_idle _

theorem Dated.become (h : Dated s) (source : σ) : Dated (s.become source) where
  acknowledged := by
    intro k
    have hle := h.acknowledged k
    simp only [State.become, List.length_append, List.length_cons, List.length_nil]
    omega
  mutations := by
    refine h.mutations.mono ?_
    intro m hm n hn
    have hle := hm n hn
    simp only [State.become, List.length_append, List.length_cons, List.length_nil]
    omega

/-- What is shown without asking. -/
def shown (C : Client κ α σ μ) (s : State κ α σ μ) (k : κ) : Option α :=
  (s.queries k).fresh C.staleTime s.now

/-- State number `n` has been reached, and of the query there is nothing older that is valid or
under way. -/
structure NotOlder (C : Client κ α σ μ) (n : Nat) (k : κ) (s : State κ α σ μ) : Prop where
  reached : n ≤ s.earlier.length
  after : (s.queries k).After (Answered C s n k)

theorem NotOlder.become {n : Nat} {k : κ} (h : NotOlder C n k s) (source : σ) :
    NotOlder C n k (s.become source) where
  reached := by
    have hle := h.reached
    simp only [State.become, List.length_append, List.length_cons, List.length_nil]
    omega
  after := h.after.mono fun _ ha => ha.become source

theorem NotOlder.shown {n : Nat} {k : κ} (h : NotOlder C n k s) {a : α}
    (ha : shown C s k = some a) : Answered C s n k a := by
  obtain ⟨⟨hvalid, -⟩, hdata⟩ := Option.ite_none_right_eq_some.mp ha
  exact h.after.data hvalid a hdata

/-- What is shown is not older than the last acknowledged change that concerns it. -/
def UpToDate (C : Client κ α σ μ) (s : State κ α σ μ) : Prop :=
  ∀ k a, shown C s k = some a → Answered C s (s.acknowledged k) k a

theorem start_upToDate (source : σ) (now : Int) : UpToDate C (start source now) := by
  intro k a h
  simp [shown, Query.fresh, start, Query.unused] at h

/-- What is shown may only become less. -/
theorem UpToDate.less (h : UpToDate C s) (hhistory : history t = history s)
    (hacknowledged : t.acknowledged = s.acknowledged)
    (hless : ∀ k a, shown C t k = some a → shown C s k = some a) : UpToDate C t := by
  intro k a ha
  have hold := h k a (hless k a ha)
  simpa [Answered, hhistory, hacknowledged] using hold

theorem UpToDate.become (h : UpToDate C s) (source : σ) : UpToDate C (s.become source) :=
  fun k a ha => (h k a ha).become source

theorem answered_max {m n : Nat} {k : κ} {a : α} :
    Answered C s (max m n) k a ↔ Answered C s m k a ∧ Answered C s n k a := by
  constructor
  · rintro ⟨i, source, hi, hsource, ha⟩
    exact ⟨⟨i, source, (Nat.max_le.mp hi).1, hsource, ha⟩,
      ⟨i, source, (Nat.max_le.mp hi).2, hsource, ha⟩⟩
  · rintro ⟨hm, hn⟩
    rcases Nat.le_total m n with hle | hle
    · rwa [Nat.max_eq_right hle]
    · rwa [Nat.max_eq_left hle]

/-- Of a query that an acknowledged change concerns and does not invalidate, what is shown is not
older than the change; and what is received is not older than the last change. -/
def InStep (C : Client κ α σ μ) (s : State κ α σ μ) : Label κ α σ μ → Prop
  | .settle j => ∀ change result, s.mutations j = some ⟨change, some result⟩ →
    ∀ k a, C.concerns change k = true → C.invalidates change k = false →
      shown C s k = some a → Answered C s result k a
  | .receive k => ∀ a, (s.queries k).fetching = some (some a) →
    Answered C s (s.acknowledged k) k a
  | _ => True

/-- The source changes by `R` only. -/
def Changes (R : σ → σ → Prop) (s : State κ α σ μ) : Label κ α σ μ → Prop
  | .change source | .perform _ source => R s.source source
  | _ => True

theorem become_isChain {R : σ → σ → Prop} (h : (history s).IsChain R) {source : σ}
    (hR : R s.source source) : (history (s.become source)).IsChain R := by
  rw [history_become, Chains.isChain_snoc]
  refine ⟨h, ?_⟩
  intro b hb
  obtain rfl : s.source = b := by simpa [history] using hb
  exact hR

/-- The query has never been on screen. -/
structure Unseen (k : κ) (s : State κ α σ μ) : Prop where
  data : (s.queries k).data = none
  fetching : (s.queries k).fetching = none
  observers : (s.queries k).observers = 0

theorem start_unseen (k : κ) (source : σ) (now : Int) :
    Unseen k (start source now : State κ α σ μ) := ⟨rfl, rfl, rfl⟩

theorem Unseen.shown {k : κ} (h : Unseen k s) : QueryCaches.shown C s k = none := by
  rw [QueryCaches.shown, Query.fresh, h.data, ite_self]

end History

section System

variable [DecidableEq κ] (C : Client κ α σ μ)

def State.modify (s : State κ α σ μ) (k : κ) (f : Query α → Query α) : State κ α σ μ :=
  { s with queries := Function.update s.queries k (f (s.queries k)) }

/-- `onSuccess` of a change. -/
def settled (s : State κ α σ μ) (j : Nat) (change : μ) (result : Nat) : State κ α σ μ :=
  { s with
    queries := fun k => if C.invalidates change k then (s.queries k).invalidate else s.queries k
    mutations := s.mutations.put j none
    acknowledged := fun k =>
      if C.concerns change k then max (s.acknowledged k) result else s.acknowledged k }

def step (s : State κ α σ μ) : Label κ α σ μ → Option (State κ α σ μ)
  | .elapse time => some { s with now := s.now + time }
  | .change source => some (s.become source)
  | .mount k => some (s.modify k (Query.mount C.staleTime s.now))
  | .unmount k => if 0 < (s.queries k).observers then some (s.modify k Query.unmount) else none
  | .load k => if 0 < (s.queries k).observers then some (s.modify k Query.load) else none
  | .refetch k => if 0 < (s.queries k).observers then some (s.modify k Query.reload) else none
  | .answer k a => match (s.queries k).fetching with
    | some none => if C.answers s.source k a then some (s.modify k (Query.answered a)) else none
    | _ => none
  | .receive k => match (s.queries k).fetching with
    | some (some a) => some (s.modify k (Query.received s.now a))
    | _ => none
  | .fail k => match (s.queries k).fetching with
    | some _ => some (s.modify k Query.failed)
    | none => none
  | .collect k =>
    if (s.queries k).observers = 0 ∧ (s.queries k).fetching.isNone then
      some (s.modify k fun _ => .unused)
    else none
  | .mutate j change => match s.mutations j with
    | some _ => none
    | none => some { s with mutations := s.mutations.put j (some ⟨change, none⟩) }
  | .perform j source => match s.mutations j with
    | some ⟨change, none⟩ => some
      { s.become source with
        mutations := s.mutations.put j (some ⟨change, some (s.earlier.length + 1)⟩) }
    | _ => none
  | .settle j => match s.mutations j with
    | some ⟨change, some result⟩ => some (settled C s j change result)
    | _ => none
  | .giveUp j => some { s with mutations := s.mutations.put j none }

/-- What a step can do, with the facts that its guards give. -/
inductive Effect (s : State κ α σ μ) : Label κ α σ μ → State κ α σ μ → Prop where
  | elapsed (time : Nat) : Effect s (.elapse time) { s with now := s.now + time }
  | changed (source : σ) : Effect s (.change source) (s.become source)
  | mounted (k : κ) : Effect s (.mount k) (s.modify k (Query.mount C.staleTime s.now))
  | unmounted {k : κ} (hobserved : 0 < (s.queries k).observers) :
    Effect s (.unmount k) (s.modify k Query.unmount)
  | loaded {k : κ} (hobserved : 0 < (s.queries k).observers) :
    Effect s (.load k) (s.modify k Query.load)
  | refetched {k : κ} (hobserved : 0 < (s.queries k).observers) :
    Effect s (.refetch k) (s.modify k Query.reload)
  | answered {k : κ} {a : α} (hfetching : (s.queries k).fetching = some none)
    (hanswers : C.answers s.source k a = true) :
    Effect s (.answer k a) (s.modify k (Query.answered a))
  | received {k : κ} {a : α} (hfetching : (s.queries k).fetching = some (some a)) :
    Effect s (.receive k) (s.modify k (Query.received s.now a))
  | failed (k : κ) : Effect s (.fail k) (s.modify k Query.failed)
  | collected (k : κ) : Effect s (.collect k) (s.modify k fun _ => .unused)
  | mutated (j : Nat) (change : μ) :
    Effect s (.mutate j change) { s with mutations := s.mutations.put j (some ⟨change, none⟩) }
  | performed (j : Nat) (change : μ) (source : σ) :
    Effect s (.perform j source)
      { s.become source with
        mutations := s.mutations.put j (some ⟨change, some (s.earlier.length + 1)⟩) }
  | settled {j : Nat} {change : μ} {result : Nat}
    (hmutation : s.mutations j = some ⟨change, some result⟩) :
    Effect s (.settle j) (settled C s j change result)
  | gaveUp (j : Nat) : Effect s (.giveUp j) { s with mutations := s.mutations.put j none }

variable {C} {s t u : State κ α σ μ} {l : Label κ α σ μ} {tr : List (Label κ α σ μ)}

theorem step_effect (h : step C s l = some t) : Effect C s l t := by
  cases l with
  | elapse time =>
    obtain rfl := Option.some.inj h
    exact .elapsed time
  | change source =>
    obtain rfl := Option.some.inj h
    exact .changed source
  | mount k =>
    obtain rfl := Option.some.inj h
    exact .mounted k
  | unmount k =>
    obtain ⟨hobserved, rfl⟩ := guarded h
    exact .unmounted hobserved
  | load k =>
    obtain ⟨hobserved, rfl⟩ := guarded h
    exact .loaded hobserved
  | refetch k =>
    obtain ⟨hobserved, rfl⟩ := guarded h
    exact .refetched hobserved
  | answer k a =>
    simp only [step] at h
    split at h
    · next hfetching =>
      obtain ⟨hanswers, rfl⟩ := guarded h
      exact .answered hfetching hanswers
    · cases h
  | receive k =>
    simp only [step] at h
    split at h
    · next a hfetching =>
      obtain rfl := Option.some.inj h
      exact .received hfetching
    · cases h
  | fail k =>
    simp only [step] at h
    split at h
    · obtain rfl := Option.some.inj h
      exact .failed k
    · cases h
  | collect k =>
    obtain ⟨-, rfl⟩ := guarded h
    exact .collected k
  | mutate j change =>
    simp only [step] at h
    split at h
    · cases h
    · obtain rfl := Option.some.inj h
      exact .mutated j change
  | perform j source =>
    simp only [step] at h
    split at h
    · next change hmutation =>
      obtain rfl := Option.some.inj h
      exact .performed j change source
    · cases h
  | settle j =>
    simp only [step] at h
    split at h
    · next change result hmutation =>
      obtain rfl := Option.some.inj h
      exact .settled hmutation
    · cases h
  | giveUp j =>
    obtain rfl := Option.some.inj h
    exact .gaveUp j

@[simp] theorem modify_same (s : State κ α σ μ) (k : κ) (f : Query α → Query α) :
    (s.modify k f).queries k = f (s.queries k) := by
  simp [State.modify]

theorem modify_other (s : State κ α σ μ) {j k : κ} (f : Query α → Query α) (h : j ≠ k) :
    (s.modify k f).queries j = s.queries j := by
  simp [State.modify, h]

@[simp] theorem modify_now (s : State κ α σ μ) (k : κ) (f : Query α → Query α) :
    (s.modify k f).now = s.now := rfl

theorem step_dated (h : Dated s) (hstep : step C s l = some t) : Dated t := by
  cases step_effect hstep with
  | elapsed | mounted | unmounted | loaded | refetched | answered | received | failed
  | collected => exact ⟨h.acknowledged, h.mutations⟩
  | changed source => exact h.become source
  | mutated j change => exact ⟨h.acknowledged, h.mutations.start j (by simp)⟩
  | performed j change source =>
    refine ⟨(h.become source).acknowledged, (h.become source).mutations.start j ?_⟩
    intro n hn
    obtain rfl := Option.some.inj hn
    simp [State.become]
  | @settled j change result hmutation =>
    refine ⟨?_, h.mutations.finish j⟩
    intro k
    have hresult : result ≤ s.earlier.length := h.mutations j _ hmutation result rfl
    have hold := h.acknowledged k
    simp only [settled]
    split
    · exact Nat.max_le.mpr ⟨hold, hresult⟩
    · exact hold
  | gaveUp j => exact ⟨h.acknowledged, h.mutations.finish j⟩

theorem run_dated {source : σ} {now : Int} (hrun : run (step C) (start source now) tr = some s) :
    Dated s :=
  run_keeps Dated (fun _ => True) (fun _ _ _ hs _ hstep => step_dated hs hstep)
    (start_dated source now) (fun _ _ => trivial) hrun

theorem after_modify {P : α → Prop} {j k : κ} {f : Query α → Query α}
    (h : (s.queries k).After P) (hf : j = k → (f (s.queries k)).After P) :
    ((s.modify j f).queries k).After P := by
  by_cases hj : k = j
  · subst hj
    rw [modify_same]
    exact hf rfl
  · rw [modify_other s f hj]
    exact h

theorem step_notOlder {n : Nat} {k : κ} (h : NotOlder C n k s) (hstep : step C s l = some t) :
    NotOlder C n k t := by
  cases step_effect hstep with
  | elapsed | mutated | gaveUp => exact ⟨h.reached, h.after⟩
  | changed source => exact h.become source
  | mounted j => exact ⟨h.reached, after_modify h.after fun _ => h.after.mount _ _⟩
  | unmounted => exact ⟨h.reached, after_modify h.after fun _ => ⟨h.after.data, h.after.underway⟩⟩
  | loaded => exact ⟨h.reached, after_modify h.after fun _ => h.after.load⟩
  | refetched => exact ⟨h.reached, after_modify h.after fun _ => h.after.reload⟩
  | @answered j a hfetching hanswers =>
    refine ⟨h.reached, after_modify h.after ?_⟩
    rintro rfl
    exact h.after.answered (since_last hanswers h.reached)
  | @received j a hfetching =>
    refine ⟨h.reached, after_modify h.after ?_⟩
    rintro rfl
    exact h.after.received hfetching
  | failed j => exact ⟨h.reached, after_modify h.after fun _ => h.after.failed⟩
  | collected j => exact ⟨h.reached, after_modify h.after fun _ => Query.after_unused⟩
  | performed j change source => exact ⟨(h.become source).reached, (h.become source).after⟩
  | @settled j change result hmutation =>
    refine ⟨h.reached, ?_⟩
    change (if C.invalidates change k then (s.queries k).invalidate else s.queries k).After
      (Answered C s n k)
    split
    · exact h.after.invalidate
    · exact h.after

theorem shown_received (s : State κ α σ μ) (k : κ) (a : α) :
    shown C (s.modify k (Query.received s.now a)) k = some a := by
  rw [shown, modify_same, modify_now]
  exact Query.received_fresh C.staleTime_pos s.now a (s.queries k)

theorem shown_modify_other (s : State κ α σ μ) {j k : κ} (f : Query α → Query α) (h : k ≠ j) :
    shown C (s.modify j f) k = shown C s k := by
  rw [shown, modify_other s f h, modify_now, shown]

/-- Once a change is acknowledged that invalidates a query, the query never again shows anything
older without asking, exactly if no older answer to it is under way, or it is on screen with data
so that the request is called off. -/
theorem settle_iff (h : Dated s) {j : Nat} {change : μ} {n : Nat} {k : κ}
    (hmutation : s.mutations j = some ⟨change, some n⟩) (hk : C.invalidates change k = true)
    (hstep : step C s (.settle j) = some t) :
    (∀ tr u, run (step C) t tr = some u → ∀ a, shown C u k = some a → Answered C u n k a) ↔
      (s.queries k).Restarts ∨
        ∀ a, (s.queries k).fetching = some (some a) → Answered C s n k a := by
  obtain rfl : settled C s j change n = t := by simpa [step, hmutation] using hstep
  have hquery : (settled C s j change n).queries k = (s.queries k).invalidate := by
    simp [settled, hk]
  constructor
  · intro hall
    by_contra hnot
    obtain ⟨hgoes, hold⟩ := not_or.mp hnot
    obtain ⟨a, hwrong⟩ := not_forall.mp hold
    obtain ⟨ha, hwrong⟩ := Classical.not_imp.mp hwrong
    -- the answer arrives
    let t := settled C s j change n
    let u := t.modify k (Query.received t.now a)
    have hfetching : (t.queries k).fetching = some (some a) := by
      rw [hquery]
      exact Query.invalidate_fetching hgoes ha
    have hu : run (step C) t [.receive k] = some u := by simp [step, hfetching, u]
    exact hwrong (hall _ u hu a (shown_received t k a))
  · intro hgood tr u hrun a ha
    have hstart : NotOlder C n k (settled C s j change n) := by
      refine ⟨h.mutations j _ hmutation n rfl, ?_⟩
      rw [hquery]
      exact Query.after_invalidate hgood
    exact (run_keeps (NotOlder C n k) (fun _ => True)
      (fun _ _ _ hs _ hstep => step_notOlder hs hstep) hstart (fun _ _ => trivial) hrun).shown ha

theorem shown_modify_quiet (s : State κ α σ μ) (j k : κ) {f : Query α → Query α}
    (h : Query.Quiet f) : shown C (s.modify j f) k = shown C s k := by
  by_cases hj : k = j
  · subst hj
    rw [shown, modify_same, modify_now, h.fresh, shown]
  · exact shown_modify_other s f hj

theorem UpToDate.quiet (h : UpToDate C s) (k : κ) {f : Query α → Query α} (hf : Query.Quiet f) :
    UpToDate C (s.modify k f) := by
  refine h.less rfl rfl ?_
  intro j a ha
  rwa [shown_modify_quiet s k j hf] at ha

/-- A step leaves everything that is shown up to date exactly if it meets its condition. -/
theorem step_upToDate_iff (h : UpToDate C s) (hstep : step C s l = some t) :
    UpToDate C t ↔ InStep C s l := by
  cases step_effect hstep with
  | mutated | gaveUp => exact iff_of_true h trivial
  | elapsed time =>
    refine iff_of_true (h.less rfl rfl ?_) trivial
    intro k a ha
    obtain ⟨⟨hvalid, hlater⟩, hdata⟩ := Option.ite_none_right_eq_some.mp ha
    have hnow : s.now < (s.queries k).dataUpdatedAt + C.staleTime := by
      change s.now + (time : Int) < (s.queries k).dataUpdatedAt + C.staleTime at hlater
      omega
    exact Option.ite_none_right_eq_some.mpr ⟨⟨hvalid, hnow⟩, hdata⟩
  | changed source => exact iff_of_true (h.become source) trivial
  | mounted k => exact iff_of_true (h.quiet k (Query.quiet_mount _ _)) trivial
  | loaded => exact iff_of_true (h.quiet _ Query.quiet_load) trivial
  | refetched => exact iff_of_true (h.quiet _ Query.quiet_reload) trivial
  | unmounted | answered => exact iff_of_true (h.quiet _ fun _ => ⟨rfl, rfl, rfl⟩) trivial
  | failed k => exact iff_of_true (h.quiet k fun _ => ⟨rfl, rfl, rfl⟩) trivial
  | performed j change source => exact iff_of_true (h.become source) trivial
  | collected k =>
    refine iff_of_true (h.less rfl rfl ?_) trivial
    intro j a ha
    by_cases hj : j = k
    · subst hj
      simp [shown, Query.fresh, Query.unused] at ha
    · rwa [shown_modify_other s _ hj] at ha
  | @received k a hfetching =>
    constructor
    · intro hafter b hb
      obtain rfl : a = b := by simpa [hfetching] using hb
      exact hafter k a (shown_received s k a)
    · intro hcondition j b hb
      by_cases hj : j = k
      · subst hj
        obtain rfl : a = b := by simpa [shown_received] using hb
        exact hcondition a hfetching
      · rw [shown_modify_other s _ hj] at hb
        exact h j b hb
  | @settled j change result hmutation =>
    have hshown : ∀ k, shown C (settled C s j change result) k =
        if C.invalidates change k then none else shown C s k := by
      intro k
      simp only [shown, settled]
      split
      · exact Query.invalidate_fresh _ _ _
      · rfl
    constructor
    · intro hafter change' result' hmutation' k a hconcerns hmissed ha
      obtain ⟨rfl, rfl⟩ : change = change' ∧ result = result' := by
        simpa [hmutation] using hmutation'
      have hright := hafter k a (by simpa [hshown, hmissed] using ha)
      simp only [settled, hconcerns, if_true] at hright
      exact (answered_max.mp hright).2
    · intro hcondition k a ha
      rw [hshown] at ha
      obtain ⟨hmissed, ha⟩ := Option.ite_none_left_eq_some.mp ha
      change Answered C s (if C.concerns change k then max (s.acknowledged k) result
        else s.acknowledged k) k a
      split
      · next hconcerns =>
        exact answered_max.mpr ⟨h k a ha,
          hcondition change result hmutation k a hconcerns (by simpa using hmissed) ha⟩
      · exact h k a ha

/-- Throughout a run everything that is shown without asking is up to date exactly if all its
steps meet their conditions. -/
theorem upToDate_throughout_iff (source : σ) (now : Int) (tr : List (Label κ α σ μ)) :
    (∀ v ∈ visits (step C) (start source now) tr, UpToDate C v.2.2) ↔
      ∀ v ∈ visits (step C) (start source now) tr, InStep C v.1 v.2.1 :=
  visits_iff (UpToDate C) (fun v => UpToDate C v.2.2) (InStep C)
    (fun _ _ _ hs hstep => step_upToDate_iff hs hstep)
    (fun _ _ _ hs hC hstep => (step_upToDate_iff hs hstep).mpr hC)
    (start_upToDate source now) tr

theorem unseen_modify {j k : κ} {f : Query α → Query α} (h : Unseen k s) (hj : j ≠ k) :
    Unseen k (s.modify j f) := by
  refine ⟨?_, ?_, ?_⟩ <;> rw [modify_other s f (Ne.symm hj)]
  · exact h.data
  · exact h.fetching
  · exact h.observers

theorem step_isChain {R : σ → σ → Prop} (h : (history s).IsChain R) (hl : Changes R s l)
    (hstep : step C s l = some t) : (history t).IsChain R := by
  cases step_effect hstep with
  | changed source | performed j change source => exact become_isChain h hl
  | _ => exact h

theorem run_isChain {R : σ → σ → Prop} {source : σ} {now : Int}
    (htr : ∀ v ∈ visits (step C) (start source now) tr, Changes R v.1 v.2.1)
    (hrun : run (step C) (start source now) tr = some s) : (history s).IsChain R :=
  run_invariant (fun s => (history s).IsChain R) (Changes R)
    (fun _ _ _ hs hl hstep => step_isChain hs hl hstep) (List.isChain_singleton source) htr hrun

/-- It is not by being asked again or by an invalidation that a query comes on screen. -/
theorem step_unseen {k : κ} (h : Unseen k s) (hl : l ≠ .mount k) (hstep : step C s l = some t) :
    Unseen k t := by
  cases step_effect hstep with
  | elapsed | changed | mutated | performed | gaveUp => exact ⟨h.data, h.fetching, h.observers⟩
  | mounted j =>
    refine unseen_modify h ?_
    rintro rfl
    exact hl rfl
  | @unmounted j hobserved | @loaded j hobserved | @refetched j hobserved =>
    refine unseen_modify h ?_
    rintro rfl
    rw [h.observers] at hobserved
    cases hobserved
  | @answered j a hfetching | @received j a hfetching =>
    refine unseen_modify h ?_
    rintro rfl
    rw [h.fetching] at hfetching
    cases hfetching
  | failed j =>
    by_cases hj : j = k
    · subst hj
      refine ⟨?_, ?_, ?_⟩ <;> rw [modify_same]
      · exact h.data
      · rfl
      · exact h.observers
    · exact unseen_modify h hj
  | collected j =>
    by_cases hj : j = k
    · subst hj
      refine ⟨?_, ?_, ?_⟩ <;> rw [modify_same] <;> rfl
    · exact unseen_modify h hj
  | @settled j change result hmutation =>
    have hquery : (QueryCaches.settled C s j change result).queries k = s.queries k ∨
        (QueryCaches.settled C s j change result).queries k =
          { s.queries k with isInvalidated := true } := by
      cases hinvalidates : C.invalidates change k with
      | false => simp [QueryCaches.settled, hinvalidates]
      | true => simp [QueryCaches.settled, hinvalidates, Query.invalidate, h.observers]
    rcases hquery with hquery | hquery
    · exact ⟨by rw [hquery]; exact h.data, by rw [hquery]; exact h.fetching,
        by rw [hquery]; exact h.observers⟩
    · exact ⟨by rw [hquery]; exact h.data, by rw [hquery]; exact h.fetching,
        by rw [hquery]; exact h.observers⟩

theorem visits_unseen {k : κ} {source : σ} {now : Int} (htr : ∀ l ∈ tr, l ≠ .mount k) :
    ∀ v ∈ visits (step C) (start source now) tr, Unseen k v.1 :=
  fun v hv => (visits_invariant (Unseen k) (fun _ l => l ≠ .mount k)
    (fun _ _ _ hs hl hstep => step_unseen hs hl hstep) (start_unseen k source now)
    (fun _ hw => htr _ (label_mem_of_mem_visits hw)) v hv).1

end System

end QueryCaches
