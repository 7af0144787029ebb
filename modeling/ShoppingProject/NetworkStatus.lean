import ShoppingProject.SyncTally

/-!
# The network status hook

The hook `useNetworkStatus` in any number of components, over the calls of
`syncPendingOperations`. Its listener on the network asks for a sync on the number of
pending operations that the effect of the hook captured when it last ran, and the effect
runs again only when that number has changed. Nobody tells the hook that an operation was
enqueued.
-/
namespace NetworkStatus

open OfflineQueue Runs
open SyncCalls (SyncStatus)
open SyncTally (Truthful NothingPending Tallied)

/-- Besides its two states: `syncStatus.pendingCount` as the effect has captured it, and the
calls of `getSyncStatus` that the effects have made, `none` while the queue is being read. -/
structure Hook where
  isOnline : Bool
  syncStatus : SyncStatus
  captured : Nat
  checks : List (Option SyncStatus)

def runEffect (h : Hook) : Hook :=
  { h with captured := h.syncStatus.pendingCount, checks := h.checks ++ [none] }

/-- A component has mounted. -/
def useNetworkStatus : Hook := runEffect ⟨true, ⟨true, false, 0⟩, 0, []⟩

/-- A component renders; the effect depends on `syncStatus.pendingCount`. -/
def render (h : Hook) : Hook := if h.syncStatus.pendingCount = h.captured then h else runEffect h

def setSyncStatus (status : SyncStatus) (h : Hook) : Hook := { h with syncStatus := status }

def setIsOnline (isConnected : Bool) (h : Hook) : Hook := { h with isOnline := isConnected }

/-- `isConnected && syncStatus.pendingCount > 0`, as the listener on the network sees it. -/
def wantsSync (isConnected : Bool) (h : Hook) : Bool := isConnected && decide (0 < h.captured)

/-- `getSyncStatus` has read the queue for the check `k`. -/
def queried (k : Nat) (status : SyncStatus) (h : Hook) : Hook :=
  if h.checks[k]? = some none then { h with checks := h.checks.set k (some status) } else h

/-- The hook takes over what the check `k` has found. -/
def checked (k : Nat) (h : Hook) : Hook :=
  match h.checks[k]? with
  | some (some status) => { setSyncStatus status h with checks := h.checks.eraseIdx k }
  | _ => h

/-- The first hook is that of the application itself. -/
structure State where
  sync : SyncCalls.State
  isConnected : Bool
  hooks : List Hook

def start (q : Queue) (isConnected : Bool) : State :=
  ⟨SyncCalls.start q, isConnected, [useNetworkStatus]⟩

/-- The hooks are told what was broadcast on the way to `t`. -/
def tell (t : SyncCalls.State) (s : State) : State :=
  let news := (t.broadcasts.drop s.sync.broadcasts.length).map Prod.fst
  { s with sync := t, hooks := s.hooks.map fun h => news.foldl (fun h b => setSyncStatus b h) h }

/-- One call of `syncPendingOperations` after the other. -/
def syncs (calls : List Nat) (s : SyncCalls.State) : Option SyncCalls.State :=
  run SyncCalls.step s (calls.map fun i => .call i false)

/-- The listeners of `hooks` on the network are called, and each may call for a sync. -/
def hear (isConnected : Bool) (hooks : List Hook) (calls : List Nat) (s : State) :
    Option State :=
  if calls.length = hooks.countP (wantsSync isConnected) then
    (syncs calls s.sync).map fun t => tell t s
  else none

inductive Label where
  /-- An operation is enqueued, the user calls for a sync, or a sync goes on. -/
  | sync (l : SyncCalls.Label) : Label
  /-- The network has changed; `isConnected` is `state.isConnected === true`. -/
  | netInfo (isConnected : Bool) (calls : List Nat) : Label
  /-- The listener of a hook is called as it has subscribed. -/
  | subscribed (j : Nat) (calls : List Nat) : Label
  | fetched (j : Nat) (isConnected : Bool) : Label
  | mount : Label
  | unmount (j : Nat) : Label
  | render (j : Nat) : Label
  | queried (j k : Nat) (answer : Option (List QueueRow)) : Label
  | checked (j k : Nat) : Label

def step (s : State) : Label → Option State
  | .sync l =>
    if SyncTally.quiet l then (SyncCalls.step s.sync l).map fun t => tell t s else none
  | .netInfo isConnected calls =>
    hear isConnected s.hooks calls
      { s with isConnected := isConnected, hooks := s.hooks.map (setIsOnline isConnected) }
  | .subscribed j calls =>
    hear s.isConnected s.hooks[j]?.toList calls
      { s with hooks := s.hooks.modify j (setIsOnline s.isConnected) }
  | .fetched j isConnected => some { s with hooks := s.hooks.modify j (setIsOnline isConnected) }
  | .mount => some { s with hooks := s.hooks ++ [useNetworkStatus] }
  | .unmount j => if 0 < j then some { s with hooks := s.hooks.eraseIdx j } else none
  | .render j => some { s with hooks := s.hooks.modify j render }
  | .queried j k answer =>
    if answer.all fun rows => IsQueue s.sync.queue rows then
      let status : SyncStatus := ⟨true, s.sync.isSyncing, (answer.getD []).length⟩
      some { s with hooks := s.hooks.modify j (queried k status) }
    else none
  | .checked j k => some { s with hooks := s.hooks.modify j (checked k) }

/-- If the network comes back while operations are pending, a sync starts. -/
def Triggered (v : State × Label × State) : Prop :=
  v.1.isConnected = false → v.2.2.isConnected = true → ¬ NothingPending v.1.sync.queue →
    v.1.sync.isSyncing = false ∧ v.2.2.sync.isSyncing = true

/-- A hook that hears of a connection has captured a number of pending operations. -/
def Asked (isConnected : Bool) (hooks : List Hook) : Prop :=
  isConnected = true ∧ ∃ h ∈ hooks, 0 < h.captured

/-- What the listeners are told in the step is true; if a sync starts, nothing is pending. -/
def Tells (s : State) : Label → Prop
  | .sync l => SyncTally.Tells s.sync l
  | .netInfo isConnected _ => Asked isConnected s.hooks → s.sync.isSyncing = false →
      NothingPending s.sync.queue
  | .subscribed j _ => Asked s.isConnected s.hooks[j]?.toList → s.sync.isSyncing = false →
      NothingPending s.sync.queue
  | _ => True

/-- If the network comes back while operations are pending, then no sync goes on and some hook
has captured a number of pending operations. -/
def Armed (s : State) : Label → Prop
  | .netInfo isConnected _ => s.isConnected = false → isConnected = true →
      ¬ NothingPending s.sync.queue →
        s.sync.isSyncing = false ∧ ∃ h ∈ s.hooks, 0 < h.captured
  | _ => True

/-! ## Calls one after the other -/

theorem syncs_cons {i : Nat} {calls : List Nat} {s t : SyncCalls.State}
    (h : syncs (i :: calls) s = some t) :
    ∃ u, SyncCalls.step s (.call i false) = some u ∧ syncs calls u = some t :=
  Option.bind_eq_some_iff.mp h

theorem call_eq {i : Nat} {s t : SyncCalls.State} (h : SyncCalls.step s (.call i false) = some t) :
    t = SyncCalls.syncPendingOperations i false s := by
  simp only [SyncCalls.step] at h
  exact (guarded h).2.symm

theorem call_keeps {i : Nat} {s t : SyncCalls.State}
    (h : SyncCalls.step s (.call i false) = some t) : t.isSyncing = true ∧ t.queue = s.queue := by
  rw [call_eq h]
  unfold SyncCalls.syncPendingOperations
  cases hlock : s.isSyncing with
  | true => exact ⟨hlock, rfl⟩
  | false => exact ⟨rfl, rfl⟩

/-- Only the first of the calls can start a sync. -/
theorem syncs_lock {calls : List Nat} {s t : SyncCalls.State} (h : syncs calls s = some t) :
    t.isSyncing = true ↔ s.isSyncing = true ∨ calls ≠ [] := by
  induction calls generalizing s with
  | nil =>
    obtain rfl : s = t := Option.some.inj h
    simp
  | cons i calls ih =>
    obtain ⟨u, hu, ht⟩ := syncs_cons h
    refine iff_of_true ?_ (.inr (List.cons_ne_nil i calls))
    exact (ih ht).mpr (.inl (call_keeps hu).1)

theorem syncs_tallied {calls : List Nat} {s t : SyncCalls.State} (hs : Tallied s)
    (h : syncs calls s = some t) : Tallied t :=
  run_keeps Tallied (fun _ => True) (fun _ _ _ hs _ hstep => hs.step (SyncCalls.step_sound hstep))
    hs (fun _ _ => trivial) h

/-- Calls that find a sync in progress tell nobody. -/
theorem syncs_refused {calls : List Nat} {s t : SyncCalls.State} (hlock : s.isSyncing = true)
    (h : syncs calls s = some t) : t.broadcasts = s.broadcasts := by
  induction calls generalizing s with
  | nil =>
    obtain rfl : s = t := Option.some.inj h
    rfl
  | cons i calls ih =>
    obtain ⟨u, hu, ht⟩ := syncs_cons h
    rw [ih (call_keeps hu).1 ht, call_eq hu]
    simp [SyncCalls.syncPendingOperations, hlock, SyncCalls.finish]

theorem syncs_truthful {calls : List Nat} {s t : SyncCalls.State} (hs : Tallied s)
    (htrue : Truthful s) (h : syncs calls s = some t) :
    Truthful t ↔ (calls ≠ [] → s.isSyncing = false → NothingPending s.queue) := by
  cases calls with
  | nil =>
    obtain rfl : s = t := Option.some.inj h
    exact iff_of_true htrue fun hne => absurd rfl hne
  | cons i calls =>
    obtain ⟨u, hu, ht⟩ := syncs_cons h
    have hfirst := SyncTally.truthful_iff hs htrue rfl (SyncCalls.step_sound hu)
    refine (SyncTally.truthful_of_same (syncs_refused (call_keeps hu).1 ht)).trans ?_
    exact hfirst.trans ⟨fun h _ => h, fun h => h (List.cons_ne_nil i calls)⟩

theorem countP_wantsSync {isConnected : Bool} {hooks : List Hook} {calls : List Nat}
    (h : calls.length = hooks.countP (wantsSync isConnected)) :
    calls ≠ [] ↔ Asked isConnected hooks := by
  rw [← List.length_pos_iff, h, List.countP_pos_iff]
  simp only [wantsSync, Asked, Bool.and_eq_true, decide_eq_true_eq]
  exact ⟨fun ⟨g, hg, hon, hpos⟩ => ⟨hon, g, hg, hpos⟩, fun ⟨hon, g, hg, hpos⟩ => ⟨g, hg, hon, hpos⟩⟩

theorem hear_some {isConnected : Bool} {hooks : List Hook} {calls : List Nat} {s t : State}
    (h : hear isConnected hooks calls s = some t) :
    (calls ≠ [] ↔ Asked isConnected hooks) ∧ t.isConnected = s.isConnected ∧
      syncs calls s.sync = some t.sync := by
  obtain ⟨hcalls, h⟩ := Option.ite_none_right_eq_some.mp h
  obtain ⟨u, hu, rfl⟩ := Option.map_eq_some_iff.mp h
  exact ⟨countP_wantsSync hcalls, rfl, hu⟩

/-! ## What a step tells and starts -/

/-- What a step does to the syncs and to the connection. -/
inductive Effect (s : State) (l : Label) (t : State) : Prop where
  | sync (l' : SyncCalls.Label) (hl : l = .sync l') (hquiet : SyncTally.quiet l' = true)
    (hstep : SyncCalls.Step s.sync l' t.sync) (hconnected : t.isConnected = s.isConnected)
  | netInfo (isConnected : Bool) (calls : List Nat) (hl : l = .netInfo isConnected calls)
    (hcalls : calls ≠ [] ↔ Asked isConnected s.hooks)
    (hsyncs : syncs calls s.sync = some t.sync) (hconnected : t.isConnected = isConnected)
  | subscribed (j : Nat) (calls : List Nat) (hl : l = .subscribed j calls)
    (hcalls : calls ≠ [] ↔ Asked s.isConnected s.hooks[j]?.toList)
    (hsyncs : syncs calls s.sync = some t.sync) (hconnected : t.isConnected = s.isConnected)
  | same (htells : Tells s l) (harmed : Armed s l) (hsync : t.sync = s.sync)
    (hconnected : t.isConnected = s.isConnected)

theorem effect_of_step {s t : State} {l : Label} (h : step s l = some t) : Effect s l t := by
  cases l <;> simp only [step] at h
  case sync l =>
    obtain ⟨hquiet, h⟩ := Option.ite_none_right_eq_some.mp h
    obtain ⟨u, hu, rfl⟩ := Option.map_eq_some_iff.mp h
    exact .sync l rfl hquiet (SyncCalls.step_sound hu) rfl
  case netInfo isConnected calls =>
    obtain ⟨hcalls, hconnected, hsyncs⟩ := hear_some h
    exact .netInfo isConnected calls rfl hcalls hsyncs hconnected
  case subscribed j calls =>
    obtain ⟨hcalls, hconnected, hsyncs⟩ := hear_some h
    exact .subscribed j calls rfl hcalls hsyncs hconnected
  case fetched j isConnected =>
    obtain rfl := Option.some.inj h
    exact .same trivial trivial rfl rfl
  case mount =>
    obtain rfl := Option.some.inj h
    exact .same trivial trivial rfl rfl
  case unmount j =>
    obtain ⟨-, rfl⟩ := guarded h
    exact .same trivial trivial rfl rfl
  case render j =>
    obtain rfl := Option.some.inj h
    exact .same trivial trivial rfl rfl
  case queried j k answer =>
    obtain ⟨-, rfl⟩ := guarded h
    exact .same trivial trivial rfl rfl
  case checked j k =>
    obtain rfl := Option.some.inj h
    exact .same trivial trivial rfl rfl

theorem tallied_step {s t : State} {l : Label} (hs : Tallied s.sync) (h : step s l = some t) :
    Tallied t.sync := by
  cases effect_of_step h with
  | sync l' hl hquiet hstep => exact hs.step hstep
  | netInfo isConnected calls hl hcalls hsyncs => exact syncs_tallied hs hsyncs
  | subscribed j calls hl hcalls hsyncs => exact syncs_tallied hs hsyncs
  | same htells harmed hsync => exact hsync ▸ hs

theorem truthful_iff {s t : State} {l : Label} (hs : Tallied s.sync) (htrue : Truthful s.sync)
    (h : step s l = some t) : Truthful t.sync ↔ Tells s l := by
  cases effect_of_step h with
  | sync l' hl hquiet hstep =>
    subst hl
    exact SyncTally.truthful_iff hs htrue hquiet hstep
  | netInfo isConnected calls hl hcalls hsyncs =>
    subst hl
    rw [syncs_truthful hs htrue hsyncs, hcalls]
    rfl
  | subscribed j calls hl hcalls hsyncs =>
    subst hl
    rw [syncs_truthful hs htrue hsyncs, hcalls]
    rfl
  | same htells harmed hsync => exact iff_of_true (hsync ▸ htrue) htells

/-- A step in which the connection stays as it is triggers nothing. -/
theorem triggered_of_same {s t : State} {l : Label} (h : t.isConnected = s.isConnected) :
    Triggered (s, l, t) := by
  intro hoff hon
  rw [h, hoff] at hon
  cases hon

theorem triggered_iff {s t : State} {l : Label} (h : step s l = some t) :
    Triggered (s, l, t) ↔ Armed s l := by
  cases effect_of_step h with
  | sync l' hl hquiet hstep hconnected =>
    subst hl
    exact iff_of_true (triggered_of_same hconnected) trivial
  | netInfo isConnected calls hl hcalls hsyncs hconnected =>
    subst hl
    have hlock := syncs_lock hsyncs
    simp only [Triggered, Armed, hconnected, hlock, hcalls, Asked]
    refine forall_congr' fun _ => forall_congr' fun hon => forall_congr' fun _ =>
      and_congr_right fun hfree => ?_
    simp [hfree, hon]
  | subscribed j calls hl hcalls hsyncs hconnected =>
    subst hl
    exact iff_of_true (triggered_of_same hconnected) trivial
  | same htells harmed hsync hconnected =>
    exact iff_of_true (triggered_of_same hconnected) harmed

/-- In every run, whatever the listeners are told is true exactly if every step tells them so,
and every return of the network starts a sync of what is pending exactly if it finds a hook
that has captured a number of pending operations, and no sync in progress. -/
theorem told_and_triggered_iff (q : Queue) (isConnected : Bool) (tr : List Label) :
    ((∀ v ∈ visits step (start q isConnected) tr, Truthful v.2.2.sync) ↔
        ∀ v ∈ visits step (start q isConnected) tr, Tells v.1 v.2.1) ∧
      ((∀ v ∈ visits step (start q isConnected) tr, Triggered v) ↔
        ∀ v ∈ visits step (start q isConnected) tr, Armed v.1 v.2.1) := by
  constructor
  · have htold : Truthful (start q isConnected).sync := fun b hb => absurd hb List.not_mem_nil
    refine visits_iff (fun s => Tallied s.sync ∧ Truthful s.sync) (fun v => Truthful v.2.2.sync)
      Tells ?_ ?_ ⟨SyncTally.start_tallied q, htold⟩ tr
    · intro s l t hs hstep
      exact truthful_iff hs.1 hs.2 hstep
    · intro s l t hs htells hstep
      exact ⟨tallied_step hs.1 hstep, (truthful_iff hs.1 hs.2 hstep).mpr htells⟩
  · exact visits_iff (fun _ => True) Triggered Armed (fun _ _ _ _ hstep => triggered_iff hstep)
      (fun _ _ _ _ _ _ => trivial) trivial tr

def enqueued : Label := .sync (.enqueue 0 ⟨.deleteAll, .cartItem, .num 0, .obj []⟩)

/-- A sync that starts tells the listeners that nothing is pending, and an operation that was
enqueued offline is not synced when the network comes back. -/
theorem pending_untold :
    (¬ ∀ (q : Queue) (tr : List Label),
      ∀ v ∈ visits step (start q true) tr, Truthful v.2.2.sync) ∧
    ¬ ∀ (q : Queue) (tr : List Label), ∀ v ∈ visits step (start q true) tr, Triggered v := by
  constructor <;> intro hall
  · have hstart : ∃ t, step (start Table.empty true) enqueued = some t ∧
        ∃ u, step t (.sync (.call 0 false)) = some u ∧
          u.sync.broadcasts.map (fun b => (b.1.pendingCount, SyncTally.pendingCount b.2)) =
            [(0, 1)] := ⟨_, rfl, _, rfl, by decide⟩
    obtain ⟨t, ht, u, hu, htold⟩ := hstart
    have hvisits := (visits_cons [.sync (.call 0 false)] ht).trans
      (congrArg _ (visits_cons [] hu))
    have htrue := hall Table.empty [enqueued, .sync (.call 0 false)]
      (t, .sync (.call 0 false), u) (by simp [hvisits])
    have hmem : ((0, 1) : Nat × Nat) ∈ u.sync.broadcasts.map
        (fun b => (b.1.pendingCount, SyncTally.pendingCount b.2)) := by simp [htold]
    obtain ⟨b, hb, heq⟩ := List.mem_map.mp hmem
    have hcount := htrue b hb
    simp only [Prod.mk.injEq] at heq
    omega
  · have hstart : ∃ t, step (start Table.empty true) (.netInfo false []) = some t ∧
        ∃ u, step t enqueued = some u ∧ SyncTally.pendingCount u.sync.queue = 1 ∧
          u.isConnected = false ∧ ∃ w, step u (.netInfo true []) = some w ∧
            w.isConnected = true ∧ w.sync.isSyncing = false :=
      ⟨_, rfl, _, rfl, by decide, rfl, _, rfl, rfl, rfl⟩
    obtain ⟨t, ht, u, hu, hcount, hoff, w, hw, hon, hidle⟩ := hstart
    have hvisits := (visits_cons [enqueued, .netInfo true []] ht).trans (congrArg _
      ((visits_cons [.netInfo true []] hu).trans (congrArg _ (visits_cons [] hw))))
    have htriggered := hall Table.empty [.netInfo false [], enqueued, .netInfo true []]
      (u, .netInfo true [], w) (by simp [hvisits])
    have hpending : ¬ NothingPending u.sync.queue := by
      rw [← SyncTally.pendingCount_eq_zero, hcount]
      decide
    have hstarted := (htriggered hoff hon hpending).2
    rw [hidle] at hstarted
    cases hstarted

end NetworkStatus
