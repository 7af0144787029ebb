import ShoppingProject.OfflineReplay
import ShoppingProject.QueueDelivery
import ShoppingProject.StoredCarts

/-!
# How often an operation takes effect

Requests carry no key by which the server could recognise a repetition. An operation is
sent again only after its request was interrupted: the answer did not arrive, the
application crashed, or the success was not recorded locally. What it does then is up to
the handlers of the carts: an addition adds a second row, a removal finds nothing.
-/
namespace EffectOnce

open OfflineQueue SyncManager Runs QueueDelivery

variable {σ ε : Type} {respond : QueueRow → ε → σ → Bool × σ} {s t : State σ} {l : Label ε}
  {tr : List (Label ε)}

/-- The server accepted this request for the operation. -/
def Effect (tr : List (Label ε)) (id : Int) (attempt : Nat) : Prop :=
  .send id attempt ∈ tr ∧ ∃ env, .serve attempt env true ∈ tr

/-- The success of the request may have been missed. -/
def Interrupts (id : Int) (attempt : Nat) (l : Label ε) : Prop :=
  l = .fail id attempt ∨ l = .crash ∨ l = .acknowledgeFails id

/-- The operation will never be read again. -/
structure Retired (id : Int) (s : State σ) : Prop where
  known : id < s.queue.next
  apart : ∀ r ∈ s.phase.current, r.id ≠ id
  done : ∀ r ∈ s.queue.rows, r.id = id → r.status ≠ .pending

/-- Where an operation stands after the request `attempt` was sent for it. -/
inductive Handled (id : Int) (attempt : Nat) (s : State σ) : Prop where
  | awaiting (op : QueueRow) (todo : List QueueRow) (hphase : s.phase = .awaiting attempt op todo)
    (hid : op.id = id) (hknown : id < s.queue.next) (hapart : ∀ r ∈ todo, r.id ≠ id)
  | acknowledging (op : QueueRow) (todo : List QueueRow) (hphase : s.phase = .acknowledging op todo)
    (hid : op.id = id) (hknown : id < s.queue.next) (hapart : ∀ r ∈ todo, r.id ≠ id)
  | retired (hretired : Retired id s)

/-- A key that was given away and belongs to no pending row stays so. -/
theorem done_step {id : Int} (h : Step respond s l t) (hknown : id < s.queue.next)
    (hdone : ∀ r ∈ s.queue.rows, r.id = id → r.status ≠ .pending) :
    ∀ r ∈ t.queue.rows, r.id = id → r.status ≠ .pending := by
  intro r hr hid
  rcases queue_step h with hq | ⟨now, op, -, hq⟩ | ⟨op, todo, now, -, -, hq⟩ | hq | ⟨-, hq⟩
  · exact hdone r (hq ▸ hr) hid
  · rw [hq, mem_addToQueue] at hr
    rcases hr with hr | rfl
    · exact hdone r hr hid
    · have hnext : s.queue.next = id := hid
      omega
  · rw [hq, mem_markOperationAsSynced] at hr
    rcases hr with ⟨hr, -⟩ | ⟨b, -, -, rfl⟩
    · exact hdone r hr hid
    · simp [synced]
  · rw [hq, mem_clearQueue] at hr
    exact hdone r hr.1 hid
  · rw [hq] at hr
    simp [clearAllData] at hr

theorem retired_step {id : Int} (hs : Retired id s) (h : Step respond s l t) : Retired id t := by
  refine ⟨hs.known.trans_le (next_le_step h), ?_, done_step h hs.known hs.done⟩
  intro r hr
  by_cases hsnapshot : ∃ rows, l = .snapshot rows
  · obtain ⟨rows, rfl⟩ := hsnapshot
    obtain ⟨hrows, -, hcurrent⟩ := snapshot_step h
    obtain ⟨hstored, hpending⟩ := (hrows.mem_iff r).mp (hcurrent ▸ hr)
    exact fun hid => hs.done r hstored hid hpending
  · have hsuffix := suffix_step h fun rows hl => hsnapshot ⟨rows, hl⟩
    exact hs.apart r (hsuffix.subset hr)

/-- An operation that is marked as synced is retired. -/
theorem retired_of_acknowledged {id now : Int} {todo : List QueueRow} (hknown : id < s.queue.next)
    (hapart : ∀ r ∈ todo, r.id ≠ id) (hphase : t.phase = .visiting todo)
    (hqueue : t.queue = markOperationAsSynced now id s.queue) : Retired id t := by
  refine ⟨?_, ?_, ?_⟩
  · rw [hqueue]
    exact hknown
  · rw [hphase]
    exact hapart
  · intro r hr hid
    rw [hqueue, mem_markOperationAsSynced] at hr
    rcases hr with ⟨-, hne⟩ | ⟨b, -, -, rfl⟩
    · exact absurd hid hne
    · simp [synced]

theorem handled_step {id : Int} {attempt : Nat} (hs : Handled id attempt s)
    (hl : ¬ Interrupts id attempt l) (h : Step respond s l t) : Handled id attempt t := by
  have hnext := next_le_step h
  cases hs with
  | awaiting op todo hphase hid hknown hapart =>
    rcases after_awaiting h hphase with hsame | ⟨-, hsucceeded⟩ | rfl | rfl
    · exact .awaiting op todo hsame hid (by omega) hapart
    · exact .acknowledging op todo hsucceeded hid (by omega) hapart
    · exact absurd (.inl (by rw [hid])) hl
    · exact absurd (.inr (.inl rfl)) hl
  | acknowledging op todo hphase hid hknown hapart =>
    rcases after_acknowledging h hphase with hsame | ⟨now, -, hvisiting, hqueue⟩ | rfl | rfl
    · exact .acknowledging op todo hsame hid (by omega) hapart
    · exact .retired (retired_of_acknowledged hknown hapart hvisiting (hid ▸ hqueue))
    · exact absurd (.inr (.inr (by rw [hid]))) hl
    · exact absurd (.inr (.inl rfl)) hl
  | retired hretired => exact .retired (retired_step hretired h)

/-- Sending a request puts the operation in this state. -/
theorem handled_send {id : Int} {attempt : Nat} (hsource : Sourced tr s) (hlive : Live tr s)
    (h : Step respond s (.send id attempt) t) : Handled id attempt t := by
  cases h with
  | send op todo hphase =>
    have hcurrent : s.phase.current = op :: todo := by rw [hphase]; rfl
    have hdistinct := hlive.distinct
    rw [hcurrent, List.pairwise_cons] at hdistinct
    have hknown : op.id < s.queue.next := hlive.known hsource (by simp [hcurrent])
    exact .awaiting op todo rfl rfl hknown fun r hr => (hdistinct.1 r hr).symm

/-- As long as it is not interrupted, no other request is sent. -/
theorem not_sent_of_handled {id : Int} {attempt attempt' : Nat} (hs : Handled id attempt s)
    (h : Step respond s (.send id attempt') t) : False := by
  cases h with
  | send op todo hphase =>
    cases hs with
    | awaiting op' todo' hawaiting => simp [hphase] at hawaiting
    | acknowledging op' todo' hacknowledging => simp [hphase] at hacknowledging
    | retired hretired =>
      exact hretired.apart op (by rw [hphase]; exact List.mem_cons_self) rfl

/-- Requests have numbers of their own, and none is served twice. -/
structure Numbered (tr : List (Label ε)) (s : State σ) : Prop where
  sent : ∀ id attempt, .send id attempt ∈ tr → attempt < s.attempts
  own : ∀ id id' attempt, .send id attempt ∈ tr → .send id' attempt ∈ tr → id = id'
  inFlight : ∀ p ∈ s.inFlight, p.1 < s.attempts
  served : ∀ attempt env success, .serve attempt env success ∈ tr →
    attempt < s.attempts ∧ ∀ p ∈ s.inFlight, p.1 ≠ attempt

/-- A request of the trace was sent before, or just now under the next number. -/
theorem sent_step (h : Step respond s l t) {id : Int} {attempt : Nat}
    (hmem : .send id attempt ∈ tr ++ [l]) :
    .send id attempt ∈ tr ∨ attempt = s.attempts ∧ l = .send id attempt := by
  rcases List.mem_append.mp hmem with hold | hl
  · exact .inl hold
  · have hl := (List.mem_singleton.mp hl).symm
    exact .inr ⟨((attempts_step h).2 id attempt hl).1, hl⟩

theorem own_step (hs : Numbered tr s) (h : Step respond s l t) {id id' : Int} {attempt : Nat}
    (hmem : .send id attempt ∈ tr ++ [l]) (hmem' : .send id' attempt ∈ tr ++ [l]) : id = id' := by
  rcases sent_step h hmem with hold | ⟨hnew, hl⟩
  · have hlt := hs.sent id attempt hold
    rcases sent_step h hmem' with hold' | ⟨hnew', -⟩
    · exact hs.own id id' attempt hold hold'
    · omega
  · rcases sent_step h hmem' with hold' | ⟨-, hl'⟩
    · have hlt := hs.sent id' attempt hold'
      omega
    · exact (Label.send.inj (hl.symm.trans hl')).1

theorem flying_step (hs : Numbered tr s) (h : Step respond s l t) {p : Nat × QueueRow}
    (hp : p ∈ t.inFlight) : p.1 < t.attempts := by
  have hle := (attempts_step h).1
  rcases inFlight_step h with ⟨hq, -⟩ | ⟨op, -, hn, hq⟩ | ⟨attempt, op, env, success, -, -, hq⟩
  · exact (hs.inFlight p (hq ▸ hp)).trans_le hle
  · rw [hq, List.mem_append, List.mem_singleton] at hp
    rcases hp with hp | rfl
    · exact (hs.inFlight p hp).trans_le hle
    · simp [hn]
  · rw [hq] at hp
    exact (hs.inFlight p (List.mem_filter.mp hp).1).trans_le hle

theorem served_step (hs : Numbered tr s) (h : Step respond s l t) {attempt : Nat} {env : ε}
    {success : Bool} (hmem : .serve attempt env success ∈ tr ++ [l]) :
    attempt < t.attempts ∧ ∀ p ∈ t.inFlight, p.1 ≠ attempt := by
  have hle := (attempts_step h).1
  rw [List.mem_append, List.mem_singleton] at hmem
  rcases inFlight_step h with ⟨hq, hl⟩ | ⟨op, hl, hn, hq⟩ | ⟨a, op, env', success', hl, hflight, hq⟩
  · have hold := hs.served attempt env success (hmem.resolve_right (hl attempt env success ·.symm))
    exact ⟨hold.1.trans_le hle, hq ▸ hold.2⟩
  · have hold := hs.served attempt env success (hmem.resolve_right (by simp [hl]))
    refine ⟨hold.1.trans_le hle, fun p hp => ?_⟩
    rw [hq, List.mem_append, List.mem_singleton] at hp
    rcases hp with hp | rfl
    · exact hold.2 p hp
    · exact hold.1.ne'
  · rw [hq]
    rcases hmem with hmem | hmem
    · have hold := hs.served attempt env success hmem
      exact ⟨hold.1.trans_le hle, fun p hp => hold.2 p (List.mem_filter.mp hp).1⟩
    · -- the request that is served now leaves the wire
      obtain ⟨rfl, -⟩ := Label.serve.inj (hmem.trans hl)
      refine ⟨(hs.inFlight _ hflight).trans_le hle, fun p hp => ?_⟩
      simpa using (List.mem_filter.mp hp).2

theorem numbered_step (hs : Numbered tr s) (h : Step respond s l t) : Numbered (tr ++ [l]) t := by
  refine ⟨?_, fun id id' attempt => own_step hs h, fun p => flying_step hs h,
    fun attempt env success => served_step hs h⟩
  intro id attempt hmem
  rcases sent_step h hmem with hold | ⟨-, hl⟩
  · exact (hs.sent id attempt hold).trans_le (attempts_step h).1
  · exact ((attempts_step h).2 id attempt hl).2

section Run

variable {server : σ}

theorem numbered_run (h : run (step respond) (initial server) tr = some s) : Numbered tr s := by
  refine history_invariant Numbered ?_ (fun tr u l t _ hs hl => numbered_step hs (step_sound hl)) h
  exact ⟨by simp, by simp, by simp [initial], by simp⟩

theorem attempts_run (h : run (step respond) s tr = some t) : s.attempts ≤ t.attempts :=
  run_keeps (fun u => s.attempts ≤ u.attempts) (fun _ => True)
    (fun _ _ _ hs _ hl => hs.trans (attempts_step (step_sound hl)).1) le_rfl (fun _ _ => trivial) h

/-- Requests are sent in the order of their numbers. -/
theorem sent_in_order (h : run (step respond) (initial server) tr = some s) {id id' : Int}
    {attempt attempt' : Nat} (hsend : .send id attempt ∈ tr) (hsend' : .send id' attempt' ∈ tr)
    (hlt : attempt < attempt') :
    ∃ before mid after,
      tr = before ++ .send id attempt :: (mid ++ .send id' attempt' :: after) := by
  obtain ⟨before, after, rfl⟩ := List.append_of_mem hsend'
  rcases List.mem_append.mp hsend with hmem | hmem
  · obtain ⟨first, mid, rfl⟩ := List.append_of_mem hmem
    exact ⟨first, mid, after, by simp⟩
  · -- a request that is sent later has a greater number
    obtain ⟨u, v, -, hv, hs⟩ := run_at h
    obtain ⟨-, hsent⟩ := (attempts_step (step_sound hv)).2 id' attempt' rfl
    rcases List.mem_cons.mp hmem with hmem | hmem
    · have heq : attempt = attempt' := (Label.send.inj hmem).2
      omega
    · obtain ⟨mid, rest, rfl⟩ := List.append_of_mem hmem
      obtain ⟨w, x, hw, hx, -⟩ := run_at hs
      have hle := attempts_run hw
      obtain ⟨hnumber, -⟩ := (attempts_step (step_sound hx)).2 id attempt rfl
      omega

/-- An operation is sent again only after its request was interrupted. -/
theorem interrupted_of_resent {before mid after : List (Label ε)} {id : Int}
    {attempt attempt' : Nat} (h : run (step respond) (initial server)
      (before ++ .send id attempt :: (mid ++ .send id attempt' :: after)) = some s) :
    ∃ l ∈ mid, Interrupts id attempt l := by
  by_contra hnone
  have hnone : ∀ l ∈ mid, ¬ Interrupts id attempt l := fun l hl hi => hnone ⟨l, hl, hi⟩
  obtain ⟨u, v, hu, hv, hs⟩ := run_at h
  obtain ⟨w, x, hw, hx, -⟩ := run_at hs
  have hsent := handled_send (sourced_run hu) (live_run hu) (step_sound hv)
  have hhandled : Handled id attempt w :=
    run_keeps (Handled id attempt) (fun l => ¬ Interrupts id attempt l)
      (fun _ _ _ hs hl h => handled_step hs hl (step_sound h)) hsent hnone hw
  exact not_sent_of_handled hhandled (step_sound hx)

/-- A request takes effect at most once, for one operation, and an operation takes
effect again only after an interruption between its two requests. -/
structure AppliedOnce (tr : List (Label ε)) : Prop where
  served : ∀ before after attempt env success,
    tr = before ++ .serve attempt env success :: after →
      ∀ env' success', .serve attempt env' success' ∉ before
  own : ∀ id id' attempt, Effect tr id attempt → Effect tr id' attempt → id = id'
  interrupted : ∀ id attempt attempt', attempt < attempt' → Effect tr id attempt →
    Effect tr id attempt' → ∃ before mid after,
      tr = before ++ .send id attempt :: (mid ++ .send id attempt' :: after) ∧
        ∃ l ∈ mid, Interrupts id attempt l

theorem effect_once (h : run (step respond) (initial server) tr = some s) : AppliedOnce tr := by
  refine ⟨?_, ?_, ?_⟩
  · rintro before after attempt env success rfl env' success' hserved
    obtain ⟨u, v, hu, hv, -⟩ := run_at h
    have hgone := ((numbered_run hu).served attempt env' success' hserved).2
    cases step_sound hv with
    | serve _ op _ hflight => exact hgone _ hflight rfl
  · exact fun id id' attempt heffect heffect' =>
      (numbered_run h).own id id' attempt heffect.1 heffect'.1
  · intro id attempt attempt' hlt heffect heffect'
    obtain ⟨before, mid, after, rfl⟩ := sent_in_order h heffect.1 heffect'.1 hlt
    exact ⟨before, mid, after, rfl, interrupted_of_resent h⟩

end Run

/-- Requests on their way carry operations as they were queued. -/
def Carried (tr : List (Label ε)) (s : State σ) : Prop :=
  ∀ p ∈ s.inFlight, .send p.2.id p.1 ∈ tr ∧
    ∃ now op, .enqueue p.2.id now op ∈ tr ∧ p.2 = newRow op now p.2.id

theorem carried_step (hs : Carried tr s) (hlive : Live tr s) (h : Step respond s l t) :
    Carried (tr ++ [l]) t := by
  have hold : ∀ p ∈ s.inFlight, .send p.2.id p.1 ∈ tr ++ [l] ∧
      ∃ now op, .enqueue p.2.id now op ∈ tr ++ [l] ∧ p.2 = newRow op now p.2.id := by
    intro p hp
    obtain ⟨hsend, now, op, henqueue, heq⟩ := hs p hp
    exact ⟨List.mem_append_left _ hsend, now, op, List.mem_append_left _ henqueue, heq⟩
  intro p hp
  cases h with
  | send op todo hphase =>
    rcases List.mem_append.mp hp with hp | hp
    · exact hold p hp
    · obtain rfl := List.mem_singleton.mp hp
      obtain ⟨now, op', henqueue, heq⟩ := hlive.queued op (by rw [hphase]; exact List.mem_cons_self)
      exact ⟨by simp, now, op', List.mem_append_left _ henqueue, heq⟩
  | serve attempt op env hflight => exact hold p (List.mem_filter.mp hp).1
  | _ => exact hold p hp

theorem carried_run {server : σ} (h : run (step respond) (initial server) tr = some s) :
    Carried tr s := by
  refine history_invariant Carried (by simp [Carried, initial]) ?_ h
  exact fun tr u l t hu hs hl => carried_step hs (live_run hu) (step_sound hl)

/-- What the server does with a request, it does with the operation as it was queued. -/
theorem served_row {server : σ} {before after : List (Label ε)} {attempt : Nat} {env : ε}
    {success : Bool}
    (h : run (step respond) (initial server) (before ++ .serve attempt env success :: after) =
      some s) {id now : Int} {op : Operation}
    (hsend : .send id attempt ∈ before ++ .serve attempt env success :: after)
    (henqueue : .enqueue id now op ∈ before ++ .serve attempt env success :: after)
    {u v : State σ} (hu : run (step respond) (initial server) before = some u)
    (hv : step respond u (.serve attempt env success) = some v) :
    respond (newRow op now id) env u.server = (success, v.server) := by
  cases step_sound hv with
  | serve _ row _ hflight =>
    obtain ⟨hsent, now', op', hqueued, heq⟩ := carried_run hu _ hflight
    obtain rfl : row.id = id :=
      (numbered_run h).own _ _ _ (List.mem_append_left _ hsent) hsend
    obtain ⟨rfl, rfl⟩ := (sourced_run h).unique _ _ _ _ _ (List.mem_append_left _ hqueued) henqueue
    rw [← heq]

/-! ## The carts -/

section Carts

open Carts (CartTable)
open CartSync (respond_refused respond_accepted respond_delete)
open StoredCarts (Spent step_spent spent_delete)

theorem respond_spent {row : QueueRow} {request : Requests.Caller × Carts.Env} {k : Int}
    {carts : CartTable} (h : Spent k carts) : Spent k (CartSync.respond row request carts).2 := by
  cases hsuccess : (CartSync.respond row request carts).1 with
  | false =>
    rw [respond_refused hsuccess]
    exact h
  | true =>
    obtain ⟨r, -, -, -, hserved⟩ := respond_accepted hsuccess
    rw [hserved]
    exact step_spent (l := ⟨request.1, r, request.2⟩) h rfl

/-- The key of a cart that has been removed stays away, whatever is sent. -/
theorem spent_run {s t : State CartTable} {tr : List (Label (Requests.Caller × Carts.Env))}
    {k : Int} (hs : Spent k s.server) (h : run (step CartSync.respond) s tr = some t) :
    Spent k t.server := by
  refine run_keeps (fun s => Spent k s.server) (fun _ => True) ?_ hs (fun _ _ => trivial) h
  intro s l t hs _ hstep
  cases step_sound hstep with
  | serve attempt op env hflight => exact respond_spent hs
  | _ => exact hs

variable {server : CartTable} {s : State CartTable}
  {tr : List (Label (Requests.Caller × Carts.Env))}

/-- A removal that has taken effect is refused when it is sent again. -/
theorem not_removed_again {before mid after : List (Label (Requests.Caller × Carts.Env))}
    {attempt attempt' : Nat} {env env' : Requests.Caller × Carts.Env} {id now : Int}
    {op : Operation} (h : run (step CartSync.respond) (initial server)
      (before ++ .serve attempt env true :: (mid ++ .serve attempt' env' true :: after)) = some s)
    (hop : op.operationType = .delete)
    (henqueue : .enqueue id now op ∈
      before ++ .serve attempt env true :: (mid ++ .serve attempt' env' true :: after))
    (hsend : .send id attempt ∈
      before ++ .serve attempt env true :: (mid ++ .serve attempt' env' true :: after))
    (hsend' : .send id attempt' ∈
      before ++ .serve attempt env true :: (mid ++ .serve attempt' env' true :: after)) :
    False := by
  obtain ⟨u, v, hu, hv, hrest⟩ := run_at h
  obtain ⟨w, x, hw, hx, -⟩ := run_at hrest
  have hfirst := served_row h hsend henqueue hu hv
  have htail : before ++ .serve attempt env true :: (mid ++ .serve attempt' env' true :: after) =
      (before ++ .serve attempt env true :: mid) ++ .serve attempt' env' true :: after := by simp
  have hbefore : run (step CartSync.respond) (initial server)
      (before ++ .serve attempt env true :: mid) = some w := by
    rw [run_append, hu]
    simp [hv, hw]
  rw [htail] at h hsend' henqueue
  have hsecond := served_row h hsend' henqueue hbefore hx
  have hop' : (newRow op now id).operation.operationType = .delete := hop
  obtain ⟨k, hk, hfound, hdeleted⟩ := respond_delete hop' (congrArg Prod.fst hfirst)
  obtain ⟨k', hk', hfound', -⟩ := respond_delete hop' (congrArg Prod.fst hsecond)
  obtain rfl : k = k' := Option.some.inj (hk.symm.trans hk')
  have hspent : Spent k v.server := by
    rw [hfirst] at hdeleted
    rw [show v.server = u.server.delete k from hdeleted]
    exact spent_delete hfound
  have hgone := (spent_run hspent hw).2
  rw [(w.server.find_eq_none_iff k).mpr hgone] at hfound'
  cases hfound'

theorem removed_once (h : run (step CartSync.respond) (initial server) tr = some s) {id now : Int}
    {op : Operation} (henqueue : .enqueue id now op ∈ tr) (hop : op.operationType = .delete)
    {attempt attempt' : Nat} (heffect : Effect tr id attempt) (heffect' : Effect tr id attempt') :
    attempt = attempt' := by
  obtain ⟨hsend, env, hserve⟩ := heffect
  obtain ⟨hsend', env', hserve'⟩ := heffect'
  obtain ⟨before, after, rfl⟩ := List.append_of_mem hserve
  rcases List.mem_append.mp hserve' with hmem | hmem
  · obtain ⟨first, mid, rfl⟩ := List.append_of_mem hmem
    simp only [List.append_assoc, List.cons_append] at h henqueue hsend hsend'
    exact (not_removed_again h hop henqueue hsend' hsend).elim
  · rcases List.mem_cons.mp hmem with heq | hmem
    · exact (Label.serve.inj heq).1.symm
    · obtain ⟨mid, last, rfl⟩ := List.append_of_mem hmem
      exact (not_removed_again h hop henqueue hsend hsend').elim

/-- An update, as the application queues it, is always refused. -/
theorem never_updated (h : run (step CartSync.respond) (initial server) tr = some s)
    {id now item quantity : Int} (henqueue : .enqueue id now
      (LocalStorage.Mutation.updateCartItem item quantity).operation ∈ tr) (attempt : Nat) :
    ¬ Effect tr id attempt := by
  rintro ⟨hsend, env, hserve⟩
  obtain ⟨before, after, rfl⟩ := List.append_of_mem hserve
  obtain ⟨u, v, hu, hv, -⟩ := run_at h
  have haccepted := served_row h hsend henqueue hu hv
  have hrefused := OfflineReplay.replay_updateCartItem (s := u.server)
    (e := ⟨now, .clearCartItems, env.1, env.2⟩) item quantity
  have hsynced : CartSync.syncOperation
      (LocalStorage.Mutation.updateCartItem item quantity).operation env.1 env.2 u.server =
        (true, v.server) := haccepted
  simp only [OfflineReplay.replayStep, hsynced] at hrefused
  cases hrefused

theorem refused_step {s t : State CartTable} {attempt : Nat} {env : Requests.Caller × Carts.Env}
    (h : Step CartSync.respond s (.serve attempt env false) t) : t.server = s.server := by
  generalize hsuccess : false = success at h
  cases h with
  | serve _ op _ hflight => exact respond_refused hsuccess.symm

/-- What the server does for the queued operations. -/
structure TakesEffect (server : CartTable)
    (tr : List (Label (Requests.Caller × Carts.Env))) : Prop extends AppliedOnce tr where
  refused : ∀ v ∈ visits (step CartSync.respond) (initial server) tr, ∀ attempt env,
    v.2.1 = .serve attempt env false → v.2.2.server = v.1.server
  removal : ∀ id now op attempt attempt', .enqueue id now op ∈ tr → op.operationType = .delete →
    Effect tr id attempt → Effect tr id attempt' → attempt = attempt'
  update : ∀ id now item quantity attempt,
    .enqueue id now (LocalStorage.Mutation.updateCartItem item quantity).operation ∈ tr →
      ¬ Effect tr id attempt

theorem takes_effect_once (h : run (step CartSync.respond) (initial server) tr = some s) :
    TakesEffect server tr := by
  refine ⟨effect_once h, fun v hv attempt env hl => ?_, ?_, ?_⟩
  · have hstep := step_sound (step_of_mem_visits hv)
    rw [hl] at hstep
    exact refused_step hstep
  · exact fun id now op attempt attempt' henqueue hop => removed_once h henqueue hop
  · exact fun id now item quantity attempt henqueue => never_updated h henqueue attempt

end Carts

/-- An addition whose answer is lost after it was accepted, and which is sent again. -/
def lostAnswerRun : List (Label (Requests.Caller × Carts.Env)) :=
  let op := (LocalStorage.Mutation.addCartItem (LocalStorage.someItem 7)).operation
  let row := newRow op 100 1
  let request := (Carts.someAdministrator, Carts.someEnv)
  [.enqueue 1 100 op, .startSync, .snapshot [row], .send 1 0, .serve 0 request true, .fail 1 0,
    .finish, .startSync, .snapshot [row], .send 1 1, .serve 1 request true, .succeed 1 1]

/-- The server then holds two rows for the one operation. -/
theorem lostAnswerRun_rows :
    (run (step CartSync.respond) (initial Table.empty) lostAnswerRun).map
      (fun s => s.server.rows.length) = some 2 := by
  decide +kernel

/-- The cart that the addition has created is removed, the answer is lost, and the removal is
sent again. -/
def resentRemoval : List (Label (Requests.Caller × Carts.Env)) :=
  let add := (LocalStorage.Mutation.addCartItem (LocalStorage.someItem 1)).operation
  let remove := (LocalStorage.Mutation.removeCartItem 1).operation
  let request := (Carts.someAdministrator, Carts.someEnv)
  [.enqueue 1 100 add, .enqueue 2 101 remove, .startSync,
    .snapshot [newRow add 100 1, newRow remove 101 2], .send 1 0, .serve 0 request true,
    .succeed 1 0, .acknowledge 1 102, .send 2 1, .serve 1 request true, .fail 2 1, .finish,
    .startSync, .snapshot [newRow remove 101 2], .send 2 2, .serve 2 request false, .fail 2 2]

theorem resentRemoval_run :
    (run (step CartSync.respond) (initial Table.empty) resentRemoval).isSome := by
  decide +kernel

theorem takes_effect_once_resentRemoval : TakesEffect Table.empty resentRemoval := by
  obtain ⟨s, hs⟩ := Option.isSome_iff_exists.mp resentRemoval_run
  exact takes_effect_once hs

/-- An operation that is sent again can take effect twice. -/
theorem resent_takes_effect_twice :
    ¬ ∀ (tr : List (Label (Requests.Caller × Carts.Env))) s,
      run (step CartSync.respond) (initial Table.empty) tr = some s →
        ∀ id attempt attempt', Effect tr id attempt → Effect tr id attempt' →
          attempt = attempt' := by
  intro hall
  obtain ⟨s, hs, -⟩ := Option.map_eq_some_iff.mp lostAnswerRun_rows
  have heq := hall lostAnswerRun s hs 1 0 1
    ⟨by simp [lostAnswerRun], _, List.mem_of_getElem? (by rfl : lostAnswerRun[4]? = some _)⟩
    ⟨by simp [lostAnswerRun], _, List.mem_of_getElem? (by rfl : lostAnswerRun[10]? = some _)⟩
  simp at heq

end EffectOnce
