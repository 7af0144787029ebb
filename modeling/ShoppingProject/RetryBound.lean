import ShoppingProject.RefreshQueue

/-!
# How often a 401 sends a request again

The mark that stops a second attempt is set on the request that starts a refresh, and
not on those that wait for it. A request from the queue that is answered with 401 again
goes through the interceptor as if it were new.
-/
namespace RetryBound

open HttpClients RefreshQueue
open Runs

/-- The second event is not about a request that the first one has sent again. -/
def Allowed : Event → Event → Prop
  | .resent i, b => b.request ≠ i
  | .started _, _ => True

instance : DecidableRel Allowed
  | .resent _, _ => inferInstanceAs (Decidable (_ ≠ _))
  | .started _, _ => .isTrue trivial

/-- A request that was sent again because of a 401 is not sent again, and starts no
refresh. -/
def Bounded (s : State) : Prop := s.events.Pairwise Allowed

instance : DecidablePred Bounded := fun s => inferInstanceAs (Decidable (s.events.Pairwise _))

/-- A request without a mark is rejected at once. -/
def TurnedAway (c : Client) (s : State) : Prop :=
  s.isRefreshing = false ∧
    (truthy (s.storage c.refreshTokenKey) = none ∨ truthy (s.storage c.tokenKey) = none)

instance (c : Client) : DecidablePred (TurnedAway c) := fun _ => inferInstanceAs (Decidable (_ ∧ _))

/-- No request that comes from the queue is answered with 401 again, unless it is
turned away. -/
def NotAgain (c : Client) (s : State) : Label → Prop
  | .unauthorized i => ∀ config ∈ (s.requests i).bind Phase.sent?, config.retry = false →
    .resent i ∈ s.events → TurnedAway c s
  | _ => True

instance (c : Client) (s : State) : DecidablePred (NotAgain c s)
  | .unauthorized i => inferInstanceAs (Decidable (∀ config ∈ (s.requests i).bind Phase.sent?,
    config.retry = false → Event.resent i ∈ s.events → TurnedAway c s))
  | .call _ | .answer _ | .refreshed _ _ _ | .settled _ | .store _ _ => .isTrue trivial

/-- A request that waits or refreshes has not been sent again. -/
def Unsent (events : List Event) : Phase → Prop
  | .sent _ => True
  | .waiting config _ | .refreshing config => .resent config.request ∉ events

structure Good (s : State) : Prop extends Placed s where
  bounded : Bounded s
  unsent : s.requests.All (Unsent s.events)

theorem start_good (storage : Storage) : Good (start storage) where
  toPlaced := start_placed storage
  bounded := .nil
  unsent := Slots.all_idle _

theorem Bounded.snoc {s : State} (h : Bounded s) {b : Event} (hb : .resent b.request ∉ s.events) :
    (s.events ++ [b]).Pairwise Allowed := by
  refine List.pairwise_append.mpr ⟨h, List.pairwise_singleton _ _, ?_⟩
  intro a ha b' hb'
  obtain rfl := List.mem_singleton.mp hb'
  cases a with
  | started i => trivial
  | resent i =>
    rintro rfl
    exact hb ha

/-- An event of one request leaves the others unsent. -/
theorem unsent_others {s : State} (h : Good s) {b : Event} {i j : Nat} {p : Phase}
    (hb : b.request = i) (hji : j ≠ i) (hj : s.requests j = some p) :
    Unsent (s.events ++ [b]) p := by
  have hrequest := (h.called j p hj).2
  have hkept : ∀ config : Config, config.request = j → .resent config.request ∉ s.events →
      .resent config.request ∉ s.events ++ [b] := by
    intro config hconfig hnot hin
    rcases List.mem_append.mp hin with hin | hin
    · exact hnot hin
    · rw [← List.mem_singleton.mp hin] at hb
      exact hji (hconfig ▸ hb)
  have hp := h.unsent j p hj
  cases p with
  | sent config => trivial
  | waiting config promise => exact hkept config hrequest hp
  | refreshing config => exact hkept config hrequest hp

/-- What a turn of one request may do: no event, or one that it is still allowed. -/
theorem good_put {s t : State} (h : Good s) (ht : Placed t) {i : Nat} {p : Option Phase}
    (hrequests : t.requests = s.requests.put i p) (hp : ∀ q, p = some q → Unsent t.events q)
    (hevents : t.events = s.events ∨
      ∃ b : Event, t.events = s.events ++ [b] ∧ b.request = i ∧ .resent i ∉ s.events) : Good t where
  toPlaced := ht
  bounded := by
    rcases hevents with heq | ⟨b, heq, rfl, hnot⟩
    · rw [Bounded, heq]
      exact h.bounded
    · rw [Bounded, heq]
      exact h.bounded.snoc hnot
  unsent := by
    rw [hrequests]
    apply Slots.all_put
    · exact hp
    · intro j q hji hj
      rcases hevents with heq | ⟨b, heq, hb, -⟩
      · rw [heq]
        exact h.unsent j q hj
      · rw [heq]
        exact unsent_others h hb hji hj

theorem onUnauthorized_good {c : Client} {s : State} {config : Config} (h : Good s)
    (hi : s.requests config.request = some (.sent config))
    (hnot : NotAgain c s (.unauthorized config.request)) : Good (onUnauthorized c config s) := by
  have ht := onUnauthorized_placed (c := c) h.toPlaced hi
  have hunsent : config.retry = false → ¬ TurnedAway c s → .resent config.request ∉ s.events := by
    intro hretry hstays hin
    exact hstays (hnot config (by simp [hi, Phase.sent?]) hretry hin)
  simp only [onUnauthorized] at ht ⊢
  cases hretry : config.retry with
  | true =>
    simp only [hretry, if_true] at ht ⊢
    exact good_put h ht rfl (by simp) (.inl rfl)
  | false =>
    simp only [hretry, Bool.false_eq_true, if_false] at ht ⊢
    cases hbusy : s.isRefreshing with
    | true =>
      have hfresh := hunsent hretry (by simp [TurnedAway, hbusy])
      simp only [hbusy, if_true] at ht ⊢
      refine good_put h ht rfl ?_ (.inl rfl)
      rintro q hq
      obtain rfl := Option.some.inj hq
      exact hfresh
    | false =>
      simp only [hbusy, Bool.false_eq_true, if_false] at ht ⊢
      split at ht
      · rename_i refreshToken accessToken hrefreshToken haccessToken
        have hfresh := hunsent hretry (by simp [TurnedAway, hrefreshToken, haccessToken])
        refine good_put h ht rfl ?_ (.inr ⟨.started config.request, rfl, rfl, hfresh⟩)
        rintro q hq
        obtain rfl := Option.some.inj hq
        intro hin
        rcases List.mem_append.mp hin with hin | hin
        · exact hfresh hin
        · simp at hin
      · exact good_put h ht rfl (by simp) (.inl rfl)

/-- The end of the only refresh in flight sends its own request again, or nothing. -/
theorem onRefreshed_good {c : Client} {s : State} {writable : String → Bool} {answer : Answer}
    {r : Refresh} (h : Good s) (honly : s.refreshes = [r]) :
    Good (onRefreshed c writable answer r s) := by
  have ht : Placed (onRefreshed c writable answer r s) := onRefreshed_placed h.toPlaced honly
  have hunsent : .resent r.config.request ∉ s.events :=
    h.unsent _ _ (h.started r (by simp [honly]))
  simp only [onRefreshed] at ht ⊢
  split at ht
  · refine good_put h ht rfl ?_ (.inr ⟨_, rfl, rfl, hunsent⟩)
    intro q hq
    obtain rfl := Option.some.inj hq
    trivial
  · exact good_put h ht rfl (by simp) (.inl rfl)

theorem onSettled_good {c : Client} {s : State} {promise : Nat} {config : Config}
    {result : Result} (h : Good s)
    (hi : s.requests config.request = some (.waiting config promise)) :
    Good (onSettled c config promise result s) := by
  have ht : Placed (onSettled c config promise result s) := onSettled_placed h.toPlaced hi
  have hunsent : .resent config.request ∉ s.events := h.unsent _ _ hi
  cases result with
  | ok token =>
    refine good_put h ht rfl ?_ (.inr ⟨_, rfl, rfl, hunsent⟩)
    intro q hq
    obtain rfl := Option.some.inj hq
    trivial
  | error error => exact good_put h ht rfl (by simp) (.inl rfl)

theorem step_good {c : Client} {s t : State} {l : Label} (hsound : Sound s) (h : Good s)
    (hnot : NotAgain c s l) (hstep : step c s l = some t) : Good t := by
  have ht := step_placed hsound h.toPlaced hstep
  cases step_stepped hstep with
  | call hnew =>
    refine good_put h ht rfl ?_ (.inl rfl)
    intro q hq
    obtain rfl := Option.some.inj hq
    trivial
  | answer hi => exact good_put h ht rfl (by simp) (.inl rfl)
  | unauthorized hi =>
    obtain rfl := (h.called _ _ hi).2
    exact onUnauthorized_good h hi hnot
  | refreshed answer writable hr => exact onRefreshed_good h (hsound.only hr)
  | settled hi hx =>
    obtain rfl := (h.called _ _ hi).2
    exact onSettled_good h hi
  | store key value => exact ⟨ht, h.bounded, h.unsent⟩

/-- A server that keeps answering 401 does no more than this, as long as no request
that comes from the queue meets it again. -/
theorem bounded_retry (c : Client) (storage : Storage) (tr : List Label)
    (hnot : ∀ v ∈ visits (step c) (start storage) tr, NotAgain c v.1 v.2.1) :
    ∀ v ∈ visits (step c) (start storage) tr, Bounded v.2.2 := by
  have hrun := visits_invariant
    (fun s => (Sound s ∧ s.requests.All (Queued s.waits)) ∧ Good s) (NotAgain c)
    (fun _ _ _ h hl hstep => ⟨step_sound h.1.1 h.1.2 hstep, step_good h.1.1 h.2 hl hstep⟩)
    ⟨⟨start_sound storage, Slots.all_idle _⟩, start_good storage⟩ hnot
  intro v hv
  exact (hrun v hv).2.2.2.bounded

theorem not_bounded {s : State} {b : Event} {events : List Event} (h : s.events = events ++ [b])
    (hb : .resent b.request ∈ events) : ¬ Bounded s := by
  intro hbounded
  rw [Bounded, h, List.pairwise_append] at hbounded
  exact hbounded.2.2 _ hb b (List.mem_singleton_self b) rfl

/-- A refresh that answers without tokens counts as a success. -/
theorem newTokens_none (c : Client) (writable : String → Bool) (storage : Storage) :
    newTokens c writable storage (.response (some (.null, .null))) =
      .ok (.null, clearTokens c storage) := rfl

/-- The promise queued last is resolved by the end of the refresh. -/
theorem find_resolved {s : State} (h : Sound s) (number : Nat) :
    ∃ x, ((s.settled ++ (s.failedQueue ++ [s.nextPromise]).map fun p =>
      (⟨p, number, .ok .null⟩ : Settlement)).find? fun x => x.promise == s.nextPromise) = some x ∧
        x.result = .ok .null := by
  have hnew : settlementsOf s.settled s.nextPromise = [] :=
    h.unsettled fun w hw => Nat.ne_of_lt (h.promises w hw)
  have hold : s.settled.find? (fun x => x.promise == s.nextPromise) = none := by
    rw [List.find?_eq_none]
    exact List.filter_eq_nil_iff.mp hnew
  rw [List.find?_append, hold, Option.none_or]
  obtain ⟨x, hx⟩ := Option.isSome_iff_exists.mp (List.find?_isSome.mpr
    ⟨⟨s.nextPromise, number, .ok .null⟩, by simp, by simp⟩ :
      (((s.failedQueue ++ [s.nextPromise]).map fun p =>
        (⟨p, number, .ok .null⟩ : Settlement)).find? fun x => x.promise == s.nextPromise).isSome)
  refine ⟨x, hx, ?_⟩
  obtain ⟨p, -, rfl⟩ := List.mem_map.mp (List.mem_of_find?_eq_some hx)
  rfl

/-- A request that joins the queue is sent again when the refresh is answered. -/
theorem queued_again {c : Client} {s : State} {config : Config} (hsound : Sound s) (h : Good s)
    (hbusy : s.isRefreshing = true) (hi : s.requests config.request = some (.sent config))
    (hretry : config.retry = false) (hin : .resent config.request ∈ s.events) :
    ∃ more t, run (step c) s (.unauthorized config.request :: more) = some t ∧ ¬ Bounded t := by
  obtain ⟨r, honly⟩ := hsound.busy hbusy
  have hne := h.others hi (by simp) r (by simp [honly])
  obtain ⟨x, hx, hresult⟩ := find_resolved hsound r.number
  let u := onUnauthorized c config s
  let v := onRefreshed c (fun _ => true) (.response (some (.null, .null))) r u
  have hu : u = { s with
      failedQueue := s.failedQueue ++ [s.nextPromise]
      nextPromise := s.nextPromise + 1
      waits := s.waits ++ s.refreshes.map fun r => ⟨s.nextPromise, config, r.number⟩
      requests := s.requests.put config.request (some (.waiting config s.nextPromise)) } := by
    simp [u, onUnauthorized, hretry, hbusy]
  have hqueue : step c s (.unauthorized config.request) = some u := by
    simp [step, hi, u]
  have hrefresh : step c u (.refreshed r.number (.response (some (.null, .null))) fun _ => true) =
      some v := by
    simp [step, hu, honly, v]
  have hwaits : v.requests config.request = some (.waiting config s.nextPromise) := by
    simp [v, hu, onRefreshed, newTokens_none, processQueue, resend, httpClient, withToken,
      Slots.put_other _ _ hne.symm]
  have hsettled : v.settled = s.settled ++ (s.failedQueue ++ [s.nextPromise]).map fun p =>
      (⟨p, r.number, .ok .null⟩ : Settlement) := by
    simp [v, hu, onRefreshed, newTokens_none, processQueue, resend, httpClient, Except.map,
      Token.orNull]
  have hevents : v.events = s.events ++ [.resent r.config.request] := by
    simp [v, hu, onRefreshed, newTokens_none, processQueue, resend, httpClient, withToken]
  have hresolved : step c v (.settled config.request) =
      some (onSettled c config s.nextPromise (.ok .null) v) := by
    simp only [step, hwaits]
    rw [hsettled, hx, Option.map_some, hresult]
  refine ⟨[.refreshed r.number (.response (some (.null, .null))) fun _ => true,
    .settled config.request], onSettled c config s.nextPromise (.ok .null) v, ?_, ?_⟩
  · simp [hqueue, hrefresh, hresolved]
  · refine not_bounded (b := .resent config.request) ?_
      (List.mem_append_left [.resent r.config.request] hin)
    simp [onSettled, resend, httpClient, withToken, hevents]

/-- Conversely, a request from the queue that meets 401 again starts a refresh, or is sent
again when the refresh in flight succeeds. -/
theorem answered_again {c : Client} {s : State} {i : Nat} (hsound : Sound s) (h : Good s)
    (hagain : ¬ NotAgain c s (.unauthorized i)) :
    ∃ more t, run (step c) s (.unauthorized i :: more) = some t ∧ ¬ Bounded t := by
  simp only [NotAgain, not_forall] at hagain
  obtain ⟨config', hconfig, hretry, hin, hstays⟩ := hagain
  obtain ⟨p, hi, hp⟩ := Option.bind_eq_some_iff.mp hconfig
  cases p with
  | waiting | refreshing => cases hp
  | sent config =>
    obtain rfl := Option.some.inj hp
    obtain rfl : config.request = i := (h.called i _ hi).2
    cases hbusy : s.isRefreshing with
    | false =>
      cases hrefreshToken : truthy (s.storage c.refreshTokenKey) with
      | none => exact absurd ⟨hbusy, .inl hrefreshToken⟩ hstays
      | some refreshToken =>
        cases haccessToken : truthy (s.storage c.tokenKey) with
        | none => exact absurd ⟨hbusy, .inr haccessToken⟩ hstays
        | some accessToken =>
          refine ⟨[], onUnauthorized c config s, by simp [step, hi], ?_⟩
          refine not_bounded (b := .started config.request) ?_ hin
          simp [onUnauthorized, hretry, hbusy, hrefreshToken, haccessToken]
    | true =>
      exact queued_again hsound h hbusy hi hretry hin

theorem bounded_threeCalls :
    (visits (step web) (start (storageOf "a" "r")) threeCalls).length = 9 ∧
      ∀ v ∈ visits (step web) (start (storageOf "a" "r")) threeCalls, Bounded v.2.2 :=
  ⟨by decide, bounded_retry web (storageOf "a" "r") threeCalls (by decide)⟩

/-- The request from the queue meets 401 again and starts a second refresh. -/
def queuedTwice : List Label :=
  [.call 0, .call 1, .unauthorized 0, .unauthorized 1,
    .refreshed 0 (.response (some (.text "b", .text "s"))) fun _ => true, .settled 1,
    .unauthorized 1]

theorem queued_refreshes_again : ¬ ∀ (c : Client) (storage : Storage) (tr : List Label) (s : State),
    run (step c) (start storage) tr = some s → Bounded s := by
  intro hall
  have hbounded := hall web (storageOf "a" "r") queuedTwice _ rfl
  revert hbounded
  decide

end RetryBound
