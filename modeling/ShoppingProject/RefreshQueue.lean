import ShoppingProject.HttpClients
import ShoppingProject.KeyedLists

/-!
# The queue behind a refresh

At most one refresh is in flight, and whoever waits, waits for that one. When it ends,
every promise in the queue is settled with its result and the queue is empty again. The
callbacks of these promises have the next turns: each sends its request again with the
new token, or gives the error to its caller.
-/
namespace RefreshQueue

open HttpClients
open Runs

/-- The settlements of one promise. -/
def settlementsOf (settled : List Settlement) (promise : Nat) : List Settlement :=
  settled.filter fun x => x.promise == promise

/-- What became of the request behind one promise. -/
def outcomesOf (outcomes : List Outcome) (promise : Nat) : List Outcome :=
  outcomes.filter fun o => o.promise == promise

/-- The header of a request from the queue. -/
def bearer : Token → String
  | .text value => "Bearer " ++ value
  | .undefined | .null => "Bearer null"

/-- What the end of a refresh makes of a request that waits for it. -/
def answerTo (config : Config) (result : Result) : Except Error Config :=
  result.map fun token => { config with authorization := some (bearer token) }

/-- What a client promises to the requests that wait. -/
structure Orderly (c : Client) (s : State) : Prop where
  single : s.refreshes.length ≤ 1
  idle : s.isRefreshing = false → s.failedQueue = []
  /-- A request waits for a promise that was queued behind a refresh. -/
  waiting : ∀ i config promise, s.requests i = some (.waiting config promise) →
    ∃ refresh, ⟨promise, config, refresh⟩ ∈ s.waits
  /-- Until that refresh has ended, it is in flight and the promise is queued. -/
  pending : ∀ w ∈ s.waits, (∀ result, (w.refresh, result) ∉ s.ended) →
    w.promise ∈ s.failedQueue ∧ (∃ r ∈ s.refreshes, r.number = w.refresh) ∧
      outcomesOf s.outcomes w.promise = []
  /-- When it has ended, the promise is settled once, by it and with its result. -/
  settled : ∀ w ∈ s.waits, ∀ result, (w.refresh, result) ∈ s.ended →
    settlementsOf s.settled w.promise = [⟨w.promise, w.refresh, result.map Token.orNull⟩]
  /-- No other refresh settles it. -/
  behind : ∀ x ∈ s.settled, ∃ config, ⟨x.promise, config, x.refresh⟩ ∈ s.waits ∧
    ∃ result, (x.refresh, result) ∈ s.ended
  /-- When the callbacks have run, the request has been sent again with the new token of
  that refresh, or rejected with its error, and this once. -/
  resumed : reacting s = false → ∀ w ∈ s.waits, ∀ result, (w.refresh, result) ∈ s.ended →
    outcomesOf s.outcomes w.promise = [⟨w.promise, answerTo w.config result⟩]
  /-- Nothing else is made of a request from the queue. -/
  only : ∀ o ∈ s.outcomes, ∃ w ∈ s.waits, ∃ result, (w.refresh, result) ∈ s.ended ∧
    o = ⟨w.promise, answerTo w.config result⟩
  /-- The callbacks come to an end. -/
  ends : ∃ more t, (∀ l ∈ more, l.isCallback = true) ∧ run (turn c) s more = some t ∧
    reacting t = false

/-- What a step can be. -/
inductive Stepped (c : Client) (s : State) : Label → State → Prop where
  | call {i : Nat} (hnew : i ∉ s.calls) :
    Stepped c s (.call i) (httpClient c ⟨i, none, false⟩ { s with calls := i :: s.calls })
  | answer {i : Nat} {config : Config} (hi : s.requests i = some (.sent config)) :
    Stepped c s (.answer i) { s with requests := s.requests.put i none }
  | unauthorized {i : Nat} {config : Config} (hi : s.requests i = some (.sent config)) :
    Stepped c s (.unauthorized i) (onUnauthorized c config s)
  | refreshed {r : Refresh} (answer : Answer) (writable : String → Bool) (hr : r ∈ s.refreshes) :
    Stepped c s (.refreshed r.number answer writable) (onRefreshed c writable answer r s)
  | settled {i : Nat} {config : Config} {x : Settlement}
    (hi : s.requests i = some (.waiting config x.promise)) (hx : x ∈ s.settled) :
    Stepped c s (.settled i) (onSettled c config x.promise x.result s)
  | store (key : String) (value : Option String) :
    Stepped c s (.store key value)
      { s with storage := fun k => if k = key then value else s.storage k }

theorem step_stepped {c : Client} {s t : State} {l : Label} (h : step c s l = some t) :
    Stepped c s l t := by
  cases l with
  | call i =>
    simp only [step] at h
    split at h
    · cases h
    · rename_i hnew
      cases h
      exact .call hnew
  | answer i =>
    simp only [step] at h
    split at h
    · rename_i hi
      cases h
      exact .answer hi
    · cases h
  | unauthorized i =>
    simp only [step] at h
    split at h
    · rename_i hi
      cases h
      exact .unauthorized hi
    · cases h
  | refreshed number answer writable =>
    obtain ⟨r, hr, rfl⟩ := Option.map_eq_some_iff.mp h
    obtain rfl : r.number = number := by simpa using List.find?_some hr
    exact .refreshed answer writable (List.mem_of_find?_eq_some hr)
  | settled i =>
    simp only [step] at h
    split at h
    · rename_i config promise hi
      obtain ⟨x, hx, rfl⟩ := Option.map_eq_some_iff.mp h
      obtain rfl : x.promise = promise := by simpa using List.find?_some hx
      exact .settled hi (List.mem_of_find?_eq_some hx)
    · cases h
  | store key value =>
    cases h
    exact .store key value

/-! ## What is settled -/

/-- A promise that was queued waits for the refresh in flight, or has been settled by
the end of its refresh. -/
def Served (s : State) (w : Wait) : Prop :=
  (w.promise ∈ s.failedQueue ∧ ∃ r ∈ s.refreshes, r.number = w.refresh) ∨
    ∃ result, (w.refresh, result) ∈ s.ended ∧
      settlementsOf s.settled w.promise = [⟨w.promise, w.refresh, result.map Token.orNull⟩]

/-- What every step keeps. -/
structure Sound (s : State) : Prop where
  flight : (s.isRefreshing = false ∧ s.refreshes = [] ∧ s.failedQueue = []) ∨
    (s.isRefreshing = true ∧ ∃ r, s.refreshes = [r])
  inFlight : ∀ r ∈ s.refreshes, r.number < s.nextRefresh ∧ ∀ result, (r.number, result) ∉ s.ended
  ended : ∀ e ∈ s.ended, e.1 < s.nextRefresh
  endedOnce : ∀ n a b, (n, a) ∈ s.ended → (n, b) ∈ s.ended → a = b
  promises : ∀ w ∈ s.waits, w.promise < s.nextPromise
  distinct : ∀ w ∈ s.waits, ∀ w' ∈ s.waits, w.promise = w'.promise → w = w'
  nodup : s.failedQueue.Nodup
  queued : ∀ p ∈ s.failedQueue, ∃ r ∈ s.refreshes, ∃ config, ⟨p, config, r.number⟩ ∈ s.waits
  served : ∀ w ∈ s.waits, Served s w
  behind : ∀ x ∈ s.settled, ∃ config, ⟨x.promise, config, x.refresh⟩ ∈ s.waits ∧
    ∃ result, (x.refresh, result) ∈ s.ended ∧ x.result = result.map Token.orNull

/-- A request in flight waits only for a promise that was queued. -/
def Queued (waits : List Wait) : Phase → Prop
  | .waiting config promise => ∃ refresh, ⟨promise, config, refresh⟩ ∈ waits
  | _ => True

theorem start_sound (storage : Storage) : Sound (start storage) where
  flight := .inl ⟨rfl, rfl, rfl⟩
  inFlight := by simp [start]
  ended := by simp [start]
  endedOnce := by simp [start]
  promises := by simp [start]
  distinct := by simp [start]
  nodup := by simp [start]
  queued := by simp [start]
  served := by simp [start]
  behind := by simp [start]

/-- Calls, answers, callbacks and changes of the storage do not touch the queue. -/
theorem Sound.frame {s : State} (h : Sound s) (storage : Storage) (location : Option String)
    (requests : Slots Phase) (calls : List Nat) (outcomes : List Outcome) (events : List Event) :
    Sound { s with
      storage := storage
      location := location
      requests := requests
      calls := calls
      outcomes := outcomes
      events := events } :=
  ⟨h.flight, h.inFlight, h.ended, h.endedOnce, h.promises, h.distinct, h.nodup, h.queued, h.served,
    h.behind⟩

/-- While a refresh is in flight it is the only one. -/
theorem Sound.only {s : State} (h : Sound s) {r : Refresh} (hr : r ∈ s.refreshes) :
    s.refreshes = [r] := by
  rcases h.flight with ⟨-, hnone, -⟩ | ⟨-, r', hr'⟩
  · simp [hnone] at hr
  · rw [hr', List.mem_singleton] at hr
    rw [hr', hr]

theorem Sound.busy {s : State} (h : Sound s) (hbusy : s.isRefreshing = true) :
    ∃ r, s.refreshes = [r] := by
  rcases h.flight with ⟨hidle, -⟩ | ⟨-, hr⟩
  · rw [hbusy] at hidle
    cases hidle
  · exact hr

/-- A new promise has not been settled. -/
theorem Sound.unsettled {s : State} (h : Sound s) {p : Nat} (hp : ∀ w ∈ s.waits, w.promise ≠ p) :
    settlementsOf s.settled p = [] := by
  rw [settlementsOf, List.filter_eq_nil_iff]
  intro x hx
  obtain ⟨config, hwait, -⟩ := h.behind x hx
  have hne := hp _ hwait
  simpa using hne

/-- Who waits for a refresh that has not ended has not been settled. -/
theorem Sound.unanswered {s : State} (h : Sound s) {w : Wait} (hw : w ∈ s.waits)
    (hopen : ∀ result, (w.refresh, result) ∉ s.ended) :
    settlementsOf s.settled w.promise = [] := by
  rw [settlementsOf, List.filter_eq_nil_iff]
  intro x hx heq
  obtain ⟨config, hwait, result, hended, -⟩ := h.behind x hx
  have hsame := h.distinct _ hwait w hw (by simpa using heq)
  rw [← hsame] at hopen
  exact hopen result hended

/-- A request joins the queue of the refresh in flight. -/
theorem Sound.enqueue {s : State} (h : Sound s) (hbusy : s.isRefreshing = true) (config : Config)
    (requests : Slots Phase) :
    Sound { s with
      failedQueue := s.failedQueue ++ [s.nextPromise]
      nextPromise := s.nextPromise + 1
      waits := s.waits ++ s.refreshes.map fun r => ⟨s.nextPromise, config, r.number⟩
      requests := requests } := by
  obtain ⟨r, hr⟩ := h.busy hbusy
  have hold : ∀ w ∈ s.waits, w.promise ≠ s.nextPromise := fun w hw => Nat.ne_of_lt (h.promises w hw)
  have hnew : s.refreshes.map (fun r => (⟨s.nextPromise, config, r.number⟩ : Wait)) =
      [⟨s.nextPromise, config, r.number⟩] := by rw [hr]; rfl
  rw [hnew]
  refine ⟨.inr ⟨hbusy, r, hr⟩, h.inFlight, h.ended, h.endedOnce, ?_, ?_, ?_, ?_, ?_, ?_⟩
  · intro w hw
    rcases List.mem_append.mp hw with hw | hw
    · exact Nat.lt_succ_of_lt (h.promises w hw)
    · obtain rfl := List.mem_singleton.mp hw
      exact Nat.lt_succ_self _
  · exact KeyedLists.unique_snoc h.distinct hold
  · refine List.nodup_append.mpr ⟨h.nodup, by simp, ?_⟩
    intro p hp q hq heq
    obtain ⟨r', -, config', hwait⟩ := h.queued p hp
    obtain rfl := List.mem_singleton.mp hq
    exact hold _ hwait heq
  · intro p hp
    rcases List.mem_append.mp hp with hp | hp
    · obtain ⟨r', hr', config', hwait⟩ := h.queued p hp
      exact ⟨r', hr', config', List.mem_append_left _ hwait⟩
    · obtain rfl := List.mem_singleton.mp hp
      exact ⟨r, by simp [hr], config, List.mem_append_right _ (List.mem_singleton_self _)⟩
  · intro w hw
    rcases List.mem_append.mp hw with hw | hw
    · rcases h.served w hw with ⟨hwait, hflight⟩ | hended
      · exact .inl ⟨List.mem_append_left _ hwait, hflight⟩
      · exact .inr hended
    · obtain rfl := List.mem_singleton.mp hw
      exact .inl ⟨List.mem_append_right _ (List.mem_singleton_self _), r, by simp [hr], rfl⟩
  · intro x hx
    obtain ⟨config', hwait, hended⟩ := h.behind x hx
    exact ⟨config', List.mem_append_left _ hwait, hended⟩

/-- A refresh starts when none is in flight and nobody waits. -/
theorem Sound.begin {s : State} (h : Sound s) (hidle : s.isRefreshing = false) (config : Config)
    (accessToken refreshToken : String) (requests : Slots Phase) (events : List Event) :
    Sound { s with
      isRefreshing := true
      refreshes := s.refreshes ++ [⟨s.nextRefresh, config, accessToken, refreshToken⟩]
      nextRefresh := s.nextRefresh + 1
      events := events
      requests := requests } := by
  obtain ⟨hnone, hempty⟩ : s.refreshes = [] ∧ s.failedQueue = [] := by
    rcases h.flight with ⟨-, hnone⟩ | ⟨hbusy, -⟩
    · exact hnone
    · rw [hidle] at hbusy
      cases hbusy
  have hended : ∀ e ∈ s.ended, e.1 < s.nextRefresh + 1 :=
    fun e he => Nat.lt_succ_of_lt (h.ended e he)
  rw [hnone, List.nil_append]
  refine ⟨.inr ⟨rfl, _, rfl⟩, ?_, hended, h.endedOnce, h.promises, h.distinct, h.nodup,
    ?_, ?_, h.behind⟩
  · intro r hr
    obtain rfl := List.mem_singleton.mp hr
    refine ⟨Nat.lt_succ_self _, fun result hresult => ?_⟩
    exact Nat.lt_irrefl _ (h.ended _ hresult)
  · intro p hp
    simp [hempty] at hp
  · intro w hw
    rcases h.served w hw with ⟨hwait, -⟩ | hserved
    · simp [hempty] at hwait
    · exact .inr hserved

/-- What the end of a refresh does to the promises in the queue. -/
theorem settlementsOf_append_mem {settled : List Settlement} {queue : List Nat} (h : queue.Nodup)
    {p : Nat} (hp : p ∈ queue) (hnone : settlementsOf settled p = []) (refresh : Nat)
    (result : Result) :
    settlementsOf (settled ++ queue.map fun q => ⟨q, refresh, result⟩) p =
      [⟨p, refresh, result⟩] := by
  rw [settlementsOf] at hnone ⊢
  rw [List.filter_append, hnone, List.nil_append, List.filter_map]
  have hpredicate : ((fun x : Settlement => x.promise == p) ∘
      fun q => (⟨q, refresh, result⟩ : Settlement)) = fun q => q == p := rfl
  rw [hpredicate, List.filter_beq, h.count, if_pos hp]
  rfl

theorem settlementsOf_append_of_notMem {settled : List Settlement} {queue : List Nat} {p : Nat}
    (hp : p ∉ queue) (refresh : Nat) (result : Result) :
    settlementsOf (settled ++ queue.map fun q => ⟨q, refresh, result⟩) p =
      settlementsOf settled p := by
  rw [settlementsOf, settlementsOf, List.filter_append, List.append_right_eq_self,
    List.filter_eq_nil_iff]
  intro x hx heq
  obtain ⟨q, hq, rfl⟩ := List.mem_map.mp hx
  obtain rfl : q = p := by simpa using heq
  exact hp hq

/-- The end of the refresh in flight settles everyone who waits for it. -/
theorem Sound.finish {s : State} (h : Sound s) {r : Refresh} (hr : s.refreshes = [r])
    (result : Result) (storage : Storage) (location : Option String) (requests : Slots Phase)
    (events : List Event) :
    Sound { s with
      storage := storage
      location := location
      isRefreshing := false
      failedQueue := []
      requests := requests
      refreshes := []
      settled := s.settled ++ s.failedQueue.map fun p => ⟨p, r.number, result.map Token.orNull⟩
      ended := s.ended ++ [(r.number, result)]
      events := events } := by
  have hmem : r ∈ s.refreshes := by simp [hr]
  obtain ⟨hnumber, hopen⟩ := h.inFlight r hmem
  have hwaits : ∀ p ∈ s.failedQueue, ∃ config, ⟨p, config, r.number⟩ ∈ s.waits := by
    intro p hp
    obtain ⟨r', hr', config, hwait⟩ := h.queued p hp
    rw [hr, List.mem_singleton] at hr'
    rw [← hr']
    exact ⟨config, hwait⟩
  refine ⟨.inl ⟨rfl, rfl, rfl⟩, by simp, ?_, ?_, h.promises, h.distinct, by simp, by simp, ?_, ?_⟩
  · intro e he
    rcases List.mem_append.mp he with he | he
    · exact h.ended e he
    · obtain rfl := List.mem_singleton.mp he
      exact hnumber
  · intro n a b ha hb
    have honce : ∀ x ∈ s.ended, ∀ y ∈ s.ended, x.1 = y.1 → x = y := by
      rintro ⟨m, c⟩ hx ⟨-, d⟩ hy rfl
      rw [h.endedOnce m c d hx hy]
    have hnew : ∀ x ∈ s.ended, x.1 ≠ r.number := by
      rintro ⟨-, c⟩ hx rfl
      exact hopen c hx
    exact congrArg Prod.snd (KeyedLists.unique_snoc honce hnew _ ha _ hb rfl)
  · intro w hw
    right
    rcases h.served w hw with ⟨hwait, r', hr', hrefresh⟩ | ⟨result', hended, hsettled⟩
    · rw [hr, List.mem_singleton] at hr'
      subst hr'
      refine ⟨result, List.mem_append_right _ (by simp [hrefresh]), ?_⟩
      have hnone := h.unanswered hw (by rw [← hrefresh]; exact hopen)
      rw [settlementsOf_append_mem h.nodup hwait hnone, hrefresh]
    · refine ⟨result', List.mem_append_left _ hended, ?_⟩
      have hother : w.promise ∉ s.failedQueue := by
        intro hwait
        obtain ⟨config, hwait⟩ := hwaits _ hwait
        have hsame := h.distinct _ hwait w hw rfl
        rw [← hsame] at hended
        exact hopen _ hended
      rw [settlementsOf_append_of_notMem hother, hsettled]
  · intro x hx
    rcases List.mem_append.mp hx with hx | hx
    · obtain ⟨config, hwait, result', hended, hresult⟩ := h.behind x hx
      exact ⟨config, hwait, result', List.mem_append_left _ hended, hresult⟩
    · obtain ⟨p, hp, rfl⟩ := List.mem_map.mp hx
      obtain ⟨config, hwait⟩ := hwaits p hp
      exact ⟨config, hwait, result, List.mem_append_right _ (List.mem_singleton_self _), rfl⟩

theorem onUnauthorized_sound {c : Client} {s : State} {config : Config} (h : Sound s)
    (hqueued : s.requests.All (Queued s.waits)) :
    Sound (onUnauthorized c config s) ∧
      (onUnauthorized c config s).requests.All (Queued (onUnauthorized c config s).waits) := by
  simp only [onUnauthorized]
  split
  · exact ⟨h.frame _ _ _ _ _ _, hqueued.finish _⟩
  · split
    · rename_i hbusy
      refine ⟨h.enqueue hbusy config _, ?_⟩
      obtain ⟨r, hr⟩ := h.busy hbusy
      have hold : s.requests.All (Queued (s.waits ++ s.refreshes.map fun r =>
          ⟨s.nextPromise, config, r.number⟩)) := by
        refine hqueued.mono fun p hp => ?_
        cases p with
        | sent | refreshing => trivial
        | waiting config promise =>
          obtain ⟨refresh, hwait⟩ := hp
          exact ⟨refresh, List.mem_append_left _ hwait⟩
      exact hold.start _
        ⟨r.number, List.mem_append_right _ (List.mem_map.mpr ⟨r, by simp [hr], rfl⟩)⟩
    · rename_i hidle
      split
      · exact ⟨h.begin (by simpa using hidle) _ _ _ _ _, hqueued.start _ trivial⟩
      · have hflag : s.isRefreshing = false := by simpa using hidle
        rw [← hflag]
        exact ⟨h.frame _ _ _ _ _ _, hqueued.finish _⟩

theorem onRefreshed_sound {c : Client} {s : State} {writable : String → Bool} {answer : Answer}
    {r : Refresh} (h : Sound s) (hqueued : s.requests.All (Queued s.waits)) (hr : r ∈ s.refreshes) :
    Sound (onRefreshed c writable answer r s) ∧
      (onRefreshed c writable answer r s).requests.All
        (Queued (onRefreshed c writable answer r s).waits) := by
  have honly := h.only hr
  have hrest : s.refreshes.filter (fun r' => r'.number != r.number) = [] := by simp [honly]
  simp only [onRefreshed, hrest]
  split
  · exact ⟨h.finish honly _ _ _ _ _, hqueued.start _ trivial⟩
  · exact ⟨h.finish honly _ _ _ _ _, hqueued.finish _⟩

theorem onSettled_sound {c : Client} {s : State} {config : Config} {promise : Nat} {result : Result}
    (h : Sound s) (hqueued : s.requests.All (Queued s.waits)) :
    Sound (onSettled c config promise result s) ∧
      (onSettled c config promise result s).requests.All
        (Queued (onSettled c config promise result s).waits) := by
  cases result with
  | ok token => exact ⟨h.frame _ _ _ _ _ _, hqueued.start _ trivial⟩
  | error error => exact ⟨h.frame _ _ _ _ _ _, hqueued.finish _⟩

theorem step_sound {c : Client} {s t : State} {l : Label} (h : Sound s)
    (hqueued : s.requests.All (Queued s.waits)) (hstep : step c s l = some t) :
    Sound t ∧ t.requests.All (Queued t.waits) := by
  cases step_stepped hstep with
  | call hnew => exact ⟨h.frame _ _ _ _ _ _, hqueued.start _ trivial⟩
  | answer hi => exact ⟨h.frame _ _ _ _ _ _, hqueued.finish _⟩
  | unauthorized hi => exact onUnauthorized_sound h hqueued
  | refreshed answer writable hr => exact onRefreshed_sound h hqueued hr
  | settled hi hx => exact onSettled_sound h hqueued
  | store key value => exact ⟨h.frame _ _ _ _ _ _, hqueued⟩

/-! ## Whose turn it is -/

/-- A request has one phase, under its own number. -/
structure Placed (s : State) : Prop where
  called : ∀ i p, s.requests i = some p → i ∈ s.calls ∧ p.config.request = i
  started : ∀ r ∈ s.refreshes, s.requests r.config.request = some (.refreshing r.config)

theorem start_placed (storage : Storage) : Placed (start storage) where
  called := by
    intro i p hi
    cases hi
  started := by simp [start]

/-- A turn of one request leaves the others where they are. -/
theorem Placed.put {s t : State} (h : Placed s) {i : Nat} {p : Option Phase}
    (hrequests : t.requests = s.requests.put i p) (hcalls : ∀ j ∈ s.calls, j ∈ t.calls)
    (hp : ∀ q, p = some q → i ∈ t.calls ∧ q.config.request = i)
    (hrefreshes : ∀ r ∈ t.refreshes, (r ∈ s.refreshes ∧ r.config.request ≠ i) ∨
      (r.config.request = i ∧ p = some (.refreshing r.config))) : Placed t where
  called := by
    intro j q hj
    rw [hrequests] at hj
    by_cases hji : j = i
    · subst j
      rw [Slots.put_same] at hj
      exact hp q hj
    · rw [Slots.put_other _ _ hji] at hj
      exact ⟨hcalls j (h.called j q hj).1, (h.called j q hj).2⟩
  started := by
    intro r hr
    rw [hrequests]
    rcases hrefreshes r hr with ⟨hold, hne⟩ | ⟨rfl, rfl⟩
    · rw [Slots.put_other _ _ hne]
      exact h.started r hold
    · exact Slots.put_same _ _ _

/-- The refresh of another request goes on. -/
theorem Placed.others {s : State} (h : Placed s) {i : Nat} {p : Phase} (hi : s.requests i = some p)
    (hp : ∀ config, p ≠ .refreshing config) : ∀ r ∈ s.refreshes, r.config.request ≠ i := by
  rintro r hr rfl
  have hstarted := h.started r hr
  rw [hi, Option.some.injEq] at hstarted
  exact hp _ hstarted

theorem withBearer_request (c : Client) (storage : Storage) (config : Config) :
    (withBearer c storage config).request = config.request := by
  simp only [withBearer]
  split <;> rfl

theorem onUnauthorized_placed {c : Client} {s : State} {config : Config} (h : Placed s)
    (hi : s.requests config.request = some (.sent config)) :
    Placed (onUnauthorized c config s) := by
  obtain ⟨hcall, -⟩ := h.called _ _ hi
  have hothers := h.others hi (by simp)
  simp only [onUnauthorized]
  split
  · exact h.put rfl (fun _ hj => hj) (by simp) fun r hr => .inl ⟨hr, hothers r hr⟩
  · split
    · refine h.put rfl (fun _ hj => hj) ?_ fun r hr => .inl ⟨hr, hothers r hr⟩
      rintro q hq
      obtain rfl := Option.some.inj hq
      exact ⟨hcall, rfl⟩
    · split
      · refine h.put rfl (fun _ hj => hj) ?_ ?_
        · rintro q hq
          obtain rfl := Option.some.inj hq
          exact ⟨hcall, rfl⟩
        · intro r hr
          rcases List.mem_append.mp hr with hr | hr
          · exact .inl ⟨hr, hothers r hr⟩
          · obtain rfl := List.mem_singleton.mp hr
            exact .inr ⟨rfl, rfl⟩
      · exact h.put rfl (fun _ hj => hj) (by simp) fun r hr => .inl ⟨hr, hothers r hr⟩

/-- The end of the only refresh in flight sends its own request again, or nothing. -/
theorem onRefreshed_placed {c : Client} {s : State} {writable : String → Bool} {answer : Answer}
    {r : Refresh} (h : Placed s) (honly : s.refreshes = [r]) :
    Placed (onRefreshed c writable answer r s) := by
  obtain ⟨hcall, -⟩ := h.called _ _ (h.started r (by simp [honly]))
  have hrest : s.refreshes.filter (fun r' => r'.number != r.number) = [] := by simp [honly]
  simp only [onRefreshed, hrest]
  split
  · refine h.put rfl (fun _ hj => hj) ?_ fun r' hr' => by cases hr'
    intro q hq
    obtain rfl := Option.some.inj hq
    exact ⟨hcall, withBearer_request c _ _⟩
  · exact h.put rfl (fun _ hj => hj) (by simp) fun r' hr' => by cases hr'

theorem onSettled_placed {c : Client} {s : State} {config : Config} {promise : Nat}
    {result : Result} (h : Placed s)
    (hi : s.requests config.request = some (.waiting config promise)) :
    Placed (onSettled c config promise result s) := by
  obtain ⟨hcall, -⟩ := h.called _ _ hi
  have hothers := h.others hi (by simp)
  cases result with
  | ok token =>
    refine h.put rfl (fun _ hj => hj) ?_ fun r hr => .inl ⟨hr, hothers r hr⟩
    intro q hq
    obtain rfl := Option.some.inj hq
    exact ⟨hcall, withBearer_request c _ _⟩
  | error error =>
    exact h.put rfl (fun _ hj => hj) (by simp) fun r hr => .inl ⟨hr, hothers r hr⟩

theorem step_placed {c : Client} {s t : State} {l : Label} (hsound : Sound s) (h : Placed s)
    (hstep : step c s l = some t) : Placed t := by
  cases step_stepped hstep with
  | call hnew =>
    refine h.put rfl (fun _ hj => List.mem_cons_of_mem _ hj) ?_ fun r hr => ?_
    · intro q hq
      obtain rfl := Option.some.inj hq
      exact ⟨List.mem_cons_self, withBearer_request c _ _⟩
    · refine .inl ⟨hr, fun heq => hnew ?_⟩
      have hcall := (h.called _ _ (h.started r hr)).1
      rw [heq] at hcall
      exact hcall
  | answer hi =>
    exact h.put rfl (fun _ hj => hj) (by simp) fun r hr => .inl ⟨hr, h.others hi (by simp) r hr⟩
  | unauthorized hi =>
    obtain rfl := (h.called _ _ hi).2
    exact onUnauthorized_placed h hi
  | refreshed answer writable hr => exact onRefreshed_placed h (hsound.only hr)
  | settled hi hx =>
    obtain rfl := (h.called _ _ hi).2
    exact onSettled_placed h hi
  | store key value => exact ⟨h.called, h.started⟩

/-! ## What becomes of a request from the queue -/

/-- The request still waits for the promise. -/
def Waits (s : State) (w : Wait) : Prop :=
  s.requests w.config.request = some (.waiting w.config w.promise)

/-- A request that was queued waits for its turn, or has had it. -/
def Resumed (s : State) (w : Wait) : Prop :=
  (Waits s w ∧ outcomesOf s.outcomes w.promise = []) ∨
    (¬ Waits s w ∧ ∃ result, (w.refresh, result) ∈ s.ended ∧
      outcomesOf s.outcomes w.promise = [⟨w.promise, answerTo w.config result⟩])

/-- Until the callbacks of a refresh have run, its token is the stored one. -/
def Fresh (c : Client) (s : State) : Prop :=
  ∀ x ∈ s.settled, ∀ i config, s.requests i = some (.waiting config x.promise) →
    ∀ token, x.result = .ok token → truthy (s.storage c.tokenKey) = token.truthy

/-- What every turn keeps. -/
structure Prompt (c : Client) (s : State) : Prop where
  resumed : ∀ w ∈ s.waits, Resumed s w
  outcomes : ∀ o ∈ s.outcomes, ∃ w ∈ s.waits, w.promise = o.promise
  fresh : Fresh c s

theorem start_prompt (c : Client) (storage : Storage) : Prompt c (start storage) where
  resumed := by simp [start]
  outcomes := by simp [start]
  fresh := by simp [Fresh, start]

theorem due_iff {s : State} {i : Nat} : due s i = true ↔
    ∃ config, ∃ x ∈ s.settled, s.requests i = some (.waiting config x.promise) := by
  unfold due
  cases hi : s.requests i with
  | none => simp
  | some p =>
    cases p with
    | sent | refreshing => simp
    | waiting config promise =>
      constructor
      · intro hany
        obtain ⟨x, hx, hpromise⟩ := List.any_eq_true.mp hany
        obtain rfl : x.promise = promise := by simpa using hpromise
        exact ⟨config, x, hx, rfl⟩
      · rintro ⟨config', x, hx, heq⟩
        obtain ⟨rfl, rfl⟩ : config = config' ∧ promise = x.promise := by simpa using heq
        exact List.any_eq_true.mpr ⟨x, hx, by simp⟩

/-- Between two answers nobody waits for a promise that has been settled. -/
theorem Placed.quiet {s : State} (h : Placed s) (hquiet : reacting s = false) {x : Settlement}
    (hx : x ∈ s.settled) (i : Nat) (config : Config) :
    s.requests i ≠ some (.waiting config x.promise) := by
  intro hi
  rw [reacting, List.any_eq_false] at hquiet
  exact hquiet i (h.called i _ hi).1 (due_iff.mpr ⟨config, x, hx, hi⟩)

theorem Placed.quiet_fresh {c : Client} {s t : State} (h : Placed s) (hquiet : reacting s = false)
    (hsettled : t.settled = s.settled)
    (hwaiting : ∀ i config promise, t.requests i = some (.waiting config promise) →
      s.requests i = some (.waiting config promise)) : Fresh c t := by
  intro x hx i config hi
  rw [hsettled] at hx
  exact absurd (hwaiting i config _ hi) (h.quiet hquiet hx i config)

/-- Who waits for a promise changes only by a request that begins or ends to wait for it. -/
theorem waiting_put {requests : Slots Phase} {i : Nat} {p : Option Phase} {config : Config}
    {promise : Nat} (hi : requests i ≠ some (.waiting config promise))
    (hp : p ≠ some (.waiting config promise)) (j : Nat) :
    requests.put i p j = some (.waiting config promise) ↔
      requests j = some (.waiting config promise) := by
  by_cases hji : j = i
  · subst j
    rw [Slots.put_same]
    exact iff_of_false hp hi
  · rw [Slots.put_other _ _ hji]

/-- A turn that changes nobody's waiting. -/
theorem Prompt.frame {c : Client} {s t : State} (h : Prompt c s)
    (hwaiting : ∀ i config promise, t.requests i = some (.waiting config promise) ↔
      s.requests i = some (.waiting config promise))
    (hwaits : t.waits = s.waits) (houtcomes : t.outcomes = s.outcomes)
    (hended : ∀ e ∈ s.ended, e ∈ t.ended) (hfresh : Fresh c t) : Prompt c t where
  resumed := by
    intro w hw
    rw [hwaits] at hw
    rw [Resumed, Waits, hwaiting, houtcomes]
    rcases h.resumed w hw with hwait | ⟨hover, result, hend, hout⟩
    · exact .inl hwait
    · exact .inr ⟨hover, result, hended _ hend, hout⟩
  outcomes := by
    rw [houtcomes, hwaits]
    exact h.outcomes
  fresh := hfresh

/-- A turn between two answers in which nobody joins the queue. -/
theorem Prompt.put {c : Client} {s t : State} (h : Prompt c s) (hplaced : Placed s)
    (hquiet : reacting s = false) {i : Nat} {p : Option Phase}
    (hi : ∀ config promise, s.requests i ≠ some (.waiting config promise))
    (hp : ∀ config promise, p ≠ some (.waiting config promise))
    (hrequests : t.requests = s.requests.put i p) (hwaits : t.waits = s.waits)
    (houtcomes : t.outcomes = s.outcomes) (hended : t.ended = s.ended)
    (hsettled : t.settled = s.settled) : Prompt c t := by
  have hwaiting := fun j config promise => waiting_put (hi config promise) (hp config promise) j
  rw [← hrequests] at hwaiting
  refine h.frame hwaiting hwaits houtcomes (by simp [hended]) ?_
  exact hplaced.quiet_fresh hquiet hsettled fun j config promise => (hwaiting j config promise).mp

/-- A promise that nobody was queued with has no outcome. -/
theorem Prompt.noOutcome {c : Client} {s : State} (h : Prompt c s) {p : Nat}
    (hp : ∀ w ∈ s.waits, w.promise ≠ p) : outcomesOf s.outcomes p = [] := by
  rw [outcomesOf, List.filter_eq_nil_iff]
  intro o ho
  obtain ⟨w, hw, hpromise⟩ := h.outcomes o ho
  have hne := hp w hw
  rw [hpromise] at hne
  simpa using hne

/-- A request joins the queue. -/
theorem Prompt.enqueue {c : Client} {s : State} (h : Prompt c s) (hsound : Sound s)
    {config : Config} {r : Refresh} (hr : s.refreshes = [r])
    (hi : s.requests config.request = some (.sent config)) :
    Prompt c { s with
      failedQueue := s.failedQueue ++ [s.nextPromise]
      nextPromise := s.nextPromise + 1
      waits := s.waits ++ s.refreshes.map fun r => ⟨s.nextPromise, config, r.number⟩
      requests := s.requests.put config.request (some (.waiting config s.nextPromise)) } := by
  have hold : ∀ w ∈ s.waits, w.promise ≠ s.nextPromise :=
    fun w hw => Nat.ne_of_lt (hsound.promises w hw)
  have hnew : s.refreshes.map (fun r => (⟨s.nextPromise, config, r.number⟩ : Wait)) =
      [⟨s.nextPromise, config, r.number⟩] := by rw [hr]; rfl
  rw [hnew]
  refine ⟨?_, ?_, ?_⟩
  · intro w hw
    rcases List.mem_append.mp hw with hw | hw
    · have hresumed := h.resumed w hw
      have hsame : s.requests.put config.request (some (.waiting config s.nextPromise))
          w.config.request = some (.waiting w.config w.promise) ↔
            s.requests w.config.request = some (.waiting w.config w.promise) :=
        waiting_put (by simp [hi]) (by simp [Ne.symm (hold w hw)]) w.config.request
      rw [Resumed, Waits, ← hsame] at hresumed
      exact hresumed
    · obtain rfl := List.mem_singleton.mp hw
      exact .inl ⟨Slots.put_same _ _ _, h.noOutcome hold⟩
  · intro o ho
    obtain ⟨w, hw, hpromise⟩ := h.outcomes o ho
    exact ⟨w, List.mem_append_left _ hw, hpromise⟩
  · intro x hx i config' hwait
    by_cases hic : i = config.request
    · subst i
      obtain ⟨-, hpromise⟩ : config = config' ∧ s.nextPromise = x.promise := by
        simpa using (Slots.put_same _ _ _).symm.trans hwait
      obtain ⟨config'', hqueued, -⟩ := hsound.behind x hx
      exact absurd hpromise.symm (hold _ hqueued)
    · exact h.fresh x hx i config' ((Slots.put_other _ _ hic).symm.trans hwait)

theorem onUnauthorized_prompt {c : Client} {s : State} {config : Config} (h : Prompt c s)
    (hsound : Sound s) (hplaced : Placed s) (hquiet : reacting s = false)
    (hi : s.requests config.request = some (.sent config)) :
    Prompt c (onUnauthorized c config s) := by
  have hsent : ∀ config' promise, s.requests config.request ≠ some (.waiting config' promise) := by
    simp [hi]
  simp only [onUnauthorized]
  split
  · exact h.put hplaced hquiet hsent (by simp) rfl rfl rfl rfl rfl
  · split
    · rename_i hbusy
      obtain ⟨r, hr⟩ := hsound.busy hbusy
      exact h.enqueue hsound hr hi
    · split
      · exact h.put hplaced hquiet hsent (p := some (.refreshing _)) (by simp) rfl rfl rfl rfl rfl
      · exact h.put hplaced hquiet hsent (by simp) rfl rfl rfl rfl rfl

theorem truthy_text (value : String) :
    (Token.text value).truthy = if value = "" then none else some value := by
  simp [Token.truthy, truthy, Option.filter]

theorem truthy_truthy (token : Token) : truthy token.truthy = token.truthy := by
  cases token with
  | undefined | null => rfl
  | text value => simp [Token.truthy, truthy]

/-- A token that was stored is read back, and the other entries are as they were. -/
theorem setToken_read {writable : String → Bool} {key : String} {token : Token}
    {storage storage' : Storage} (h : setToken writable key token storage = .ok storage')
    (k : String) : storage' k = if k = key then token.truthy else storage k := by
  simp only [setToken, setItem] at h
  split at h
  · rename_i value hvalue
    split at h
    · cases h
      rw [hvalue]
    · cases h
  · rename_i hnone
    cases h
    rw [hnone]
    rfl

/-- After a refresh the new access token is stored, or none is. -/
theorem newTokens_stored {c : Client} (hkeys : c.tokenKey ≠ c.refreshTokenKey)
    {writable : String → Bool} {storage storage' : Storage} {answer : Answer} {token : Token}
    (h : newTokens c writable storage answer = .ok (token, storage')) :
    truthy (storage' c.tokenKey) = token.truthy := by
  cases answer with
  | rejected error => cases h
  | response data =>
    cases data with
    | none => cases h
    | some data =>
      obtain ⟨accessToken, refreshToken⟩ := data
      simp only [newTokens] at h
      cases hfirst : setToken writable c.tokenKey accessToken storage with
      | error error =>
        rw [hfirst] at h
        cases h
      | ok between =>
        cases hsecond : setToken writable c.refreshTokenKey refreshToken between with
        | error error =>
          simp only [hfirst, hsecond, bind, Except.bind] at h
          cases h
        | ok after =>
          simp only [hfirst, hsecond, bind, Except.bind, pure, Except.pure] at h
          cases h
          rw [setToken_read hsecond, if_neg hkeys, setToken_read hfirst, if_pos rfl, truthy_truthy]

theorem onRefreshed_prompt {c : Client} (hkeys : c.tokenKey ≠ c.refreshTokenKey) {s : State}
    {writable : String → Bool} {answer : Answer} {r : Refresh} (h : Prompt c s)
    (hplaced : Placed s) (hquiet : reacting s = false) (hr : r ∈ s.refreshes) :
    Prompt c (onRefreshed c writable answer r s) := by
  have hi : ∀ config promise, s.requests r.config.request ≠ some (.waiting config promise) := by
    simp [hplaced.started r hr]
  simp only [onRefreshed]
  split
  · rename_i token storage hnew
    have hwaiting := fun j config promise => waiting_put (hi config promise)
      (p := some (.sent (withBearer c storage (withToken token r.config)))) (by simp) j
    refine h.frame hwaiting rfl rfl (fun e he => List.mem_append_left _ he) ?_
    intro x hx i config hwait token' hresult
    rcases List.mem_append.mp hx with hx | hx
    · exact absurd ((hwaiting i config _).mp hwait) (hplaced.quiet hquiet hx i config)
    · obtain ⟨p, -, rfl⟩ := List.mem_map.mp hx
      obtain rfl : token.orNull = token' := by simpa [Except.map] using hresult
      refine (newTokens_stored hkeys hnew).trans ?_
      cases token <;> rfl
  · have hwaiting := fun j config promise => waiting_put (hi config promise) (p := none) (by simp) j
    refine h.frame hwaiting rfl rfl (fun e he => List.mem_append_left _ he) ?_
    intro x hx i config hwait token' hresult
    rcases List.mem_append.mp hx with hx | hx
    · exact absurd ((hwaiting i config _).mp hwait) (hplaced.quiet hquiet hx i config)
    · obtain ⟨p, -, rfl⟩ := List.mem_map.mp hx
      cases hresult

/-- The request interceptor leaves the header of the refresh, or writes the same. -/
theorem withBearer_fresh {c : Client} {storage : Storage} {token : Token}
    (h : truthy (storage c.tokenKey) = token.truthy) (config : Config) :
    withBearer c storage (withToken token.orNull config) =
      { config with authorization := some (bearer token) } := by
  rw [withBearer, h]
  cases token with
  | undefined | null => rfl
  | text value =>
    rw [truthy_text]
    split
    · rename_i token htoken
      obtain ⟨-, rfl⟩ : ¬ value = "" ∧ value = token := by simpa using htoken
      rfl
    · rfl

/-- What a callback makes of its request. -/
theorem onSettled_outcomes {c : Client} {s : State} {result : Result}
    (hfresh : ∀ token, result.map Token.orNull = .ok token →
      truthy (s.storage c.tokenKey) = token.truthy) (config : Config) (promise : Nat) :
    (onSettled c config promise (result.map Token.orNull) s).outcomes =
      s.outcomes ++ [⟨promise, answerTo config result⟩] := by
  cases result with
  | error error => rfl
  | ok token =>
    have hstored : truthy (s.storage c.tokenKey) = token.truthy := by
      rw [hfresh token.orNull rfl]
      cases token <;> rfl
    have hsent := withBearer_fresh hstored config
    simp only [onSettled, Except.map, resend, httpClient, answerTo]
    rw [show (withToken token.orNull config).request = config.request from rfl, Slots.put_same,
      hsent]
    rfl

theorem outcomesOf_snoc (outcomes : List Outcome) (o : Outcome) (promise : Nat) :
    outcomesOf (outcomes ++ [o]) promise =
      outcomesOf outcomes promise ++ if o.promise = promise then [o] else [] := by
  simp [outcomesOf, List.filter_append, List.filter_cons]

/-- A callback leaves the others waiting. -/
theorem onSettled_requests (c : Client) (s : State) (config : Config) (promise : Nat)
    (result : Result) :
    ∃ p, (onSettled c config promise result s).requests = s.requests.put config.request p ∧
      ∀ config' promise', p ≠ some (.waiting config' promise') := by
  cases result with
  | ok token => exact ⟨_, rfl, by simp⟩
  | error error => exact ⟨_, rfl, by simp⟩

theorem onSettled_prompt {c : Client} {s : State} {config : Config} {x : Settlement}
    (h : Prompt c s) (hsound : Sound s) (hqueued : s.requests.All (Queued s.waits))
    (hi : s.requests config.request = some (.waiting config x.promise)) (hx : x ∈ s.settled) :
    Prompt c (onSettled c config x.promise x.result s) := by
  obtain ⟨refresh, hwait⟩ := hqueued _ _ hi
  obtain ⟨config', hbehind, result, hended, hresult⟩ := hsound.behind x hx
  obtain ⟨rfl, rfl⟩ : config = config' ∧ refresh = x.refresh := by
    simpa using hsound.distinct _ hwait _ hbehind rfl
  have houtcomes := onSettled_outcomes
    (fun token htoken => h.fresh x hx _ _ hi token (hresult.trans htoken)) config x.promise
  rw [← hresult] at houtcomes
  obtain ⟨p, hrequests, hp⟩ := onSettled_requests c s config x.promise x.result
  have hstays : (onSettled c config x.promise x.result s).waits = s.waits ∧
      (onSettled c config x.promise x.result s).ended = s.ended ∧
      (onSettled c config x.promise x.result s).settled = s.settled ∧
      (onSettled c config x.promise x.result s).storage = s.storage := by
    cases x.result <;> exact ⟨rfl, rfl, rfl, rfl⟩
  obtain ⟨hwaits, hends, hsettled, hstorage⟩ := hstays
  refine ⟨?_, ?_, ?_⟩
  · intro w hw
    rw [hwaits] at hw
    rw [Resumed, Waits, hends, houtcomes, outcomesOf_snoc, hrequests]
    by_cases hpromise : w.promise = x.promise
    · obtain rfl := hsound.distinct w hw _ hwait hpromise
      rcases h.resumed _ hw with ⟨-, hnone⟩ | ⟨hover, -⟩
      · refine .inr ⟨?_, result, hended, ?_⟩
        · rw [Slots.put_same]
          exact hp _ _
        · rw [hnone, if_pos rfl, List.nil_append]
      · exact absurd hi hover
    · rw [if_neg (Ne.symm hpromise), List.append_nil]
      have hother : s.requests config.request ≠ some (.waiting w.config w.promise) := by
        simp [hi, Ne.symm hpromise]
      have hsame := waiting_put hother (hp _ _) w.config.request
      rw [hsame]
      exact h.resumed w hw
  · intro o ho
    rw [houtcomes] at ho
    rw [hwaits]
    rcases List.mem_append.mp ho with ho | ho
    · exact h.outcomes o ho
    · obtain rfl := List.mem_singleton.mp ho
      exact ⟨_, hwait, rfl⟩
  · intro y hy i config' hother
    rw [hsettled] at hy
    rw [hstorage]
    rw [hrequests] at hother
    refine h.fresh y hy i config' ?_
    by_cases hic : i = config.request
    · subst i
      rw [Slots.put_same] at hother
      exact absurd hother (hp _ _)
    · exact (Slots.put_other _ _ hic).symm.trans hother

theorem turn_step {c : Client} {s t : State} {l : Label} (h : turn c s l = some t) :
    (reacting s = false ∨ l.isCallback = true) ∧ step c s l = some t := by
  rw [turn] at h
  split at h
  · cases h
  · rename_i hfree
    refine ⟨?_, h⟩
    cases hquiet : reacting s with
    | false => exact .inl rfl
    | true => simpa [hquiet] using hfree

theorem turn_prompt {c : Client} (hkeys : c.tokenKey ≠ c.refreshTokenKey) {s t : State} {l : Label}
    (h : Prompt c s) (hsound : Sound s) (hqueued : s.requests.All (Queued s.waits))
    (hplaced : Placed s) (hturn : turn c s l = some t) : Prompt c t := by
  obtain ⟨hfree, hstep⟩ := turn_step hturn
  cases step_stepped hstep with
  | call hnew =>
    have hquiet : reacting s = false := by simpa [Label.isCallback] using hfree
    refine h.put hplaced hquiet (fun config promise hi => ?_) (by simp) rfl rfl rfl rfl rfl
    exact hnew (hplaced.called _ _ hi).1
  | answer hi =>
    have hquiet : reacting s = false := by simpa [Label.isCallback] using hfree
    exact h.put hplaced hquiet (by simp [hi]) (by simp) rfl rfl rfl rfl rfl
  | unauthorized hi =>
    have hquiet : reacting s = false := by simpa [Label.isCallback] using hfree
    obtain rfl := (hplaced.called _ _ hi).2
    exact onUnauthorized_prompt h hsound hplaced hquiet hi
  | refreshed answer writable hr =>
    have hquiet : reacting s = false := by simpa [Label.isCallback] using hfree
    exact onRefreshed_prompt hkeys h hplaced hquiet hr
  | settled hi hx =>
    obtain rfl := (hplaced.called _ _ hi).2
    exact onSettled_prompt h hsound hqueued hi hx
  | store key value =>
    have hquiet : reacting s = false := by simpa [Label.isCallback] using hfree
    refine h.frame (fun _ _ _ => Iff.rfl) rfl rfl (fun _ he => he) ?_
    exact hplaced.quiet_fresh hquiet rfl fun _ _ _ hi => hi

/-! ## The callbacks come to an end -/

/-- A callback that is due has its turn, and no other becomes due by it. -/
theorem callback_turn {c : Client} {s : State} (h : Placed s) {i : Nat} (hdue : due s i = true) :
    ∃ t, turn c s (.settled i) = some t ∧ t.calls = s.calls ∧ Placed t ∧
      ∀ j, due t j = true → due s j = true ∧ j ≠ i := by
  obtain ⟨config, x, hx, hi⟩ := due_iff.mp hdue
  obtain ⟨y, hy⟩ := Option.isSome_iff_exists.mp
    (List.find?_isSome.mpr ⟨x, hx, by simp⟩ :
      (s.settled.find? fun y => y.promise == x.promise).isSome)
  obtain rfl := (h.called _ _ hi).2
  refine ⟨onSettled c config x.promise y.result s, ?_, ?_, onSettled_placed h hi, ?_⟩
  · simp [turn, Label.isCallback, step, hi, hy]
  · cases y.result <;> rfl
  · intro j hj
    obtain ⟨p, hrequests, hp⟩ := onSettled_requests c s config x.promise y.result
    obtain ⟨config', z, hz, hwait⟩ := due_iff.mp hj
    rw [hrequests] at hwait
    have hne : j ≠ config.request := by
      rintro rfl
      rw [Slots.put_same] at hwait
      exact hp _ _ hwait
    rw [Slots.put_other _ _ hne] at hwait
    have hsettled : (onSettled c config x.promise y.result s).settled = s.settled := by
      cases y.result <;> rfl
    rw [hsettled] at hz
    exact ⟨due_iff.mpr ⟨config', z, hz, hwait⟩, hne⟩

theorem callbacks_run (c : Client) {s : State} (h : Placed s) (indices : List Nat) :
    ∃ more t, (∀ l ∈ more, l.isCallback = true) ∧ run (turn c) s more = some t ∧
      t.calls = s.calls ∧ Placed t ∧ (∀ j, due t j = true → due s j = true) ∧
      ∀ j ∈ indices, due t j = false := by
  induction indices with
  | nil => exact ⟨[], s, by simp, rfl, rfl, h, fun _ hj => hj, by simp⟩
  | cons i indices ih =>
    obtain ⟨more, t, hmore, hrun, hcalls, hplaced, hkept, hover⟩ := ih
    cases hi : due t i with
    | false => exact ⟨more, t, hmore, hrun, hcalls, hplaced, hkept, by simpa [hi] using hover⟩
    | true =>
      obtain ⟨u, hturn, hcalls', hplaced', hless⟩ := callback_turn (c := c) hplaced hi
      refine ⟨more ++ [.settled i], u, ?_, run_snoc.mpr ⟨t, hrun, hturn⟩, hcalls'.trans hcalls,
        hplaced', fun j hj => hkept j (hless j hj).1, ?_⟩
      · intro l hl
        rcases List.mem_append.mp hl with hl | hl
        · exact hmore l hl
        · obtain rfl := List.mem_singleton.mp hl
          rfl
      · intro j hj
        rw [Bool.eq_false_iff]
        intro hdue
        obtain ⟨hdue, hne⟩ := hless j hdue
        rcases List.mem_cons.mp hj with rfl | hj
        · exact hne rfl
        · rw [hover j hj] at hdue
          cases hdue

theorem callbacks_end (c : Client) {s : State} (h : Placed s) :
    ∃ more t, (∀ l ∈ more, l.isCallback = true) ∧ run (turn c) s more = some t ∧
      reacting t = false := by
  obtain ⟨more, t, hmore, hrun, hcalls, -, -, hover⟩ := callbacks_run c h s.calls
  refine ⟨more, t, hmore, hrun, ?_⟩
  rw [reacting, hcalls, List.any_eq_false]
  intro i hi
  rw [hover i hi]
  simp

theorem Prompt.in_order {c : Client} {s : State} (h : Prompt c s) (hsound : Sound s)
    (hqueued : s.requests.All (Queued s.waits)) (hplaced : Placed s) : Orderly c s where
  single := by
    rcases hsound.flight with ⟨-, hnone, -⟩ | ⟨-, r, hr⟩
    · simp [hnone]
    · simp [hr]
  idle := by
    intro hidle
    rcases hsound.flight with ⟨-, -, hempty⟩ | ⟨hbusy, -⟩
    · exact hempty
    · rw [hidle] at hbusy
      cases hbusy
  waiting := fun i config promise hi => hqueued i _ hi
  pending := by
    intro w hw hopen
    rcases hsound.served w hw with ⟨hwait, hflight⟩ | ⟨result, hended, -⟩
    · rcases h.resumed w hw with ⟨-, hnone⟩ | ⟨-, result, hended, -⟩
      · exact ⟨hwait, hflight, hnone⟩
      · exact absurd hended (hopen result)
    · exact absurd hended (hopen result)
  settled := by
    intro w hw result hended
    rcases hsound.served w hw with ⟨-, r, hr, hnumber⟩ | ⟨result', hended', hsettled⟩
    · rw [← hnumber] at hended
      exact absurd hended ((hsound.inFlight r hr).2 result)
    · rw [hsound.endedOnce _ _ _ hended hended']
      exact hsettled
  behind := by
    intro x hx
    obtain ⟨config, hwait, result, hended, -⟩ := hsound.behind x hx
    exact ⟨config, hwait, result, hended⟩
  resumed := by
    intro hquiet w hw result hended
    rcases h.resumed w hw with ⟨hwait, -⟩ | ⟨-, result', hended', houtcomes⟩
    · rcases hsound.served w hw with ⟨-, r, hr, hnumber⟩ | ⟨result', -, hsettled⟩
      · rw [← hnumber] at hended
        exact absurd hended ((hsound.inFlight r hr).2 result)
      · have hx : ⟨w.promise, w.refresh, result'.map Token.orNull⟩ ∈ s.settled :=
          (List.mem_filter.mp (hsettled ▸ List.mem_singleton_self _ :
            _ ∈ settlementsOf s.settled w.promise)).1
        exact absurd hwait (hplaced.quiet hquiet hx _ _)
    · rw [hsound.endedOnce _ _ _ hended hended']
      exact houtcomes
  only := by
    intro o ho
    obtain ⟨w, hw, hpromise⟩ := h.outcomes o ho
    have hin : o ∈ outcomesOf s.outcomes w.promise := List.mem_filter.mpr ⟨ho, by simp [hpromise]⟩
    rcases h.resumed w hw with ⟨-, hnone⟩ | ⟨-, result, hended, houtcomes⟩
    · rw [hnone] at hin
      cases hin
    · rw [houtcomes, List.mem_singleton] at hin
      exact ⟨w, hw, result, hended, hin⟩
  ends := callbacks_end c hplaced

/-- In every state of every run of either client. -/
theorem orderly {c : Client} (hc : c = web ∨ c = admin) {storage : Storage} {tr : List Label}
    {s : State} (h : run (turn c) (start storage) tr = some s) : Orderly c s := by
  have hkeys : c.tokenKey ≠ c.refreshTokenKey := by
    rcases hc with rfl | rfl <;> decide
  have hkept : (Sound s ∧ s.requests.All (Queued s.waits)) ∧ Placed s ∧ Prompt c s := by
    refine run_keeps (fun s => (Sound s ∧ s.requests.All (Queued s.waits)) ∧ Placed s ∧ Prompt c s)
      (fun _ => True) (fun s l t hs _ hturn => ?_) ?_ (fun _ _ => trivial) h
    · obtain ⟨⟨hsound, hqueued⟩, hplaced, hprompt⟩ := hs
      have hstep := (turn_step hturn).2
      exact ⟨step_sound hsound hqueued hstep, step_placed hsound hplaced hstep,
        turn_prompt hkeys hprompt hsound hqueued hplaced hturn⟩
    · exact ⟨⟨start_sound storage, Slots.all_idle _⟩, start_placed storage, start_prompt c storage⟩
  exact hkept.2.2.in_order hkept.1.1 hkept.1.2 hkept.2.1

def storageOf (token refreshToken : String) : Storage := fun key =>
  if key = web.tokenKey then some token else if key = web.refreshTokenKey then some refreshToken
  else none

/-- Two requests wait while a third one refreshes. -/
def threeCalls : List Label :=
  [.call 0, .call 1, .call 2, .unauthorized 0, .unauthorized 1, .unauthorized 2,
    .refreshed 0 (.response (some (.text "b", .text "s"))) fun _ => true, .settled 1, .settled 2]

theorem orderly_threeCalls :
    ∃ s, run (turn web) (start (storageOf "a" "r")) threeCalls = some s ∧
      s.outcomes = [⟨0, .ok ⟨1, some "Bearer b", false⟩⟩, ⟨1, .ok ⟨2, some "Bearer b", false⟩⟩] ∧
      Orderly web s := by
  have hrun : ∃ s, run (turn web) (start (storageOf "a" "r")) threeCalls = some s ∧
      s.outcomes = [⟨0, .ok ⟨1, some "Bearer b", false⟩⟩, ⟨1, .ok ⟨2, some "Bearer b", false⟩⟩] :=
    ⟨_, rfl, rfl⟩
  obtain ⟨s, hs, houtcomes⟩ := hrun
  exact ⟨s, hs, houtcomes, orderly (.inl rfl) hs⟩

end RefreshQueue
