import ShoppingProject.QueueDelivery

/-!
# The order of the offline queue

A pass reads the queue in the order of the seconds in which its operations were
queued and goes on after a failure. When an operation is sent, each one that was
queued in an earlier second has been dealt with: acknowledged in this or an earlier
pass, or tried in this pass and left for the next one.
-/
namespace QueueOrder

open OfflineQueue SyncManager Runs QueueDelivery

variable {σ ε : Type} {respond : QueueRow → ε → σ → Bool × σ} {s t : State σ} {l : Label ε}
  {tr : List (Label ε)}

/-- Operation `i`, queued in the second `now`, precedes `j`, queued in `now'`. -/
def EnqueuedBefore (tr : List (Label ε)) (i now j now' : Int) : Prop :=
  ∃ before after op op', tr = before ++ .enqueue j now' op' :: after ∧ .enqueue i now op ∈ before

/-- The success of the server for this operation has returned. -/
def Acknowledged (tr : List (Label ε)) (i : Int) : Prop := ∃ attempt, .succeed i attempt ∈ tr

/-- The operation failed, or was skipped as unknown, since the queue was last read. -/
def PassedOver (tr : List (Label ε)) (i : Int) : Prop :=
  ∃ before after, tr = before ++ after ∧ (∀ rows, .snapshot rows ∉ after) ∧
    (.skip i ∈ after ∨ ∃ attempt, .fail i attempt ∈ after)

def Settled (tr : List (Label ε)) (i : Int) : Prop :=
  Acknowledged tr i ∨ PassedOver tr i ∨ Wiped tr i

theorem Acknowledged.append {i : Int} (h : Acknowledged tr i) (tr' : List (Label ε)) :
    Acknowledged (tr ++ tr') i := by
  obtain ⟨attempt, h⟩ := h
  exact ⟨attempt, List.mem_append_left _ h⟩

theorem acknowledged_of_returned {i : Int} (h : ReturnedSuccess tr i) : Acknowledged tr i := by
  obtain ⟨attempt, env, -, -, h⟩ := h
  exact ⟨attempt, h⟩

theorem PassedOver.snoc {i : Int} (h : PassedOver tr i) (hl : ∀ rows, l ≠ .snapshot rows) :
    PassedOver (tr ++ [l]) i := by
  obtain ⟨before, after, rfl, hsnapshot, hpassed⟩ := h
  refine ⟨before, after ++ [l], List.append_assoc .., ?_, ?_⟩
  · intro rows hmem
    rcases List.mem_append.mp hmem with hmem | hmem
    · exact hsnapshot rows hmem
    · exact hl rows (List.mem_singleton.mp hmem).symm
  · exact hpassed.imp (List.mem_append_left _) fun ⟨attempt, h⟩ =>
      ⟨attempt, List.mem_append_left _ h⟩

theorem Settled.snoc {i : Int} (h : Settled tr i) (hl : ∀ rows, l ≠ .snapshot rows) :
    Settled (tr ++ [l]) i := by
  rcases h with h | h | h
  · exact .inl (h.append [l])
  · exact .inr (.inl (h.snoc hl))
  · exact .inr (.inr (h.append [l]))

/-- Whatever was queued before an operation in hand, in an earlier second, comes
first in hand or has been dealt with. -/
def InOrder (tr : List (Label ε)) (s : State σ) : Prop :=
  ∀ xs j ys, s.phase.current = xs ++ j :: ys → ∀ i now op, .enqueue i now op ∈ tr → i < j.id →
    now < j.createdAt → (∃ r ∈ xs, r.id = i) ∨ Settled tr i

/-- The queue itself is read in this order. -/
theorem inOrder_snapshot {rows : List QueueRow} (hk : Kept tr s)
    (h : Step respond s (.snapshot rows) t) : InOrder (tr ++ [.snapshot rows]) t := by
  intro xs j ys hsplit i now op hmem hid hnow
  obtain ⟨hrows, -, hcurrent⟩ := snapshot_step h
  have hmem : .enqueue i now op ∈ tr := by simpa using hmem
  rcases hk i now op hmem with hstored | hdone | hwiped
  · have hin : newRow op now i ∈ rows := (hrows.mem_iff _).mpr ⟨hstored, rfl⟩
    have hordered := hrows.ordered
    rw [← hcurrent, hsplit] at hin hordered
    rw [List.mem_append, List.mem_cons] at hin
    rcases hin with hin | hin | hin
    · exact .inl ⟨_, hin, rfl⟩
    · rw [← hin] at hid
      exact absurd hid (lt_irrefl i)
    · have hle : j.createdAt ≤ now :=
        (List.pairwise_cons.mp (List.pairwise_append.mp hordered).2.1).1 _ hin
      omega
  · exact .inr (.inl ((acknowledged_of_returned hdone).append _))
  · exact .inr (.inr (.inr (hwiped.append _)))

/-- An operation that the pass has just dealt with is settled. -/
theorem settled_of_dealt {op : QueueRow} (ha : Answered tr s)
    (hwhy : l = .skip op.id ∨ (∃ attempt, l = .fail op.id attempt) ∨
      ∃ todo, s.phase = .acknowledging op todo) : Settled (tr ++ [l]) op.id := by
  rcases hwhy with rfl | ⟨attempt, rfl⟩ | ⟨todo, hphase⟩
  · exact .inr (.inl ⟨tr, [.skip op.id], rfl, by simp, .inl (by simp)⟩)
  · exact .inr (.inl ⟨tr, [.fail op.id attempt], rfl, by simp, .inr ⟨attempt, by simp⟩⟩)
  · have hdone := acknowledged_of_returned (ha.acknowledging op todo hphase)
    exact .inl (hdone.append [l])

theorem inOrder_step (hsource : Sourced tr s) (ha : Answered tr s) (hlive : Live tr s)
    (hk : Kept tr s) (hs : InOrder tr s) (h : Step respond s l t) : InOrder (tr ++ [l]) t := by
  by_cases hsnapshot : ∃ rows, l = .snapshot rows
  · obtain ⟨rows, rfl⟩ := hsnapshot
    exact inOrder_snapshot hk h
  · have hl : ∀ rows, l ≠ .snapshot rows := fun rows heq => hsnapshot ⟨rows, heq⟩
    intro xs j ys hsplit i now op hmem hid hnow
    have hj : j ∈ s.phase.current := (suffix_step h hl).subset (by simp [hsplit])
    have hmem : .enqueue i now op ∈ tr := by
      rcases List.mem_append.mp hmem with hmem | hmem
      · exact hmem
      · -- an operation that is queued only now has a greater key
        obtain rfl := List.mem_singleton.mp hmem
        have hknown := hlive.known hsource hj
        have hkey := (enqueue_step h).1
        omega
    rcases current_step h with hsame | hnone | ⟨first, hdrop, hwhy⟩ | hread
    · rw [hsame] at hsplit
      exact (hs xs j ys hsplit i now op hmem hid hnow).imp_right fun h => h.snoc hl
    · simp [hnone] at hsplit
    · rw [hsplit, ← List.cons_append] at hdrop
      rcases hs (first :: xs) j ys hdrop i now op hmem hid hnow with ⟨r, hr, hri⟩ | hsettled
      · rcases List.mem_cons.mp hr with rfl | hr
        · exact .inr (hri ▸ settled_of_dealt ha hwhy)
        · exact .inl ⟨r, hr, hri⟩
      · exact .inr (hsettled.snoc hl)
    · exact absurd hread hsnapshot

section Run

variable {server : σ}

theorem inOrder_run (h : run (step respond) (initial server) tr = some s) : InOrder tr s := by
  refine history_invariant InOrder (by simp [InOrder]) ?_ h
  exact fun tr u l t hu hs hl =>
    inOrder_step (sourced_run hu) (answered_run hu) (live_run hu) (kept_run hu) hs (step_sound hl)

/-- Keys grow in the order of queueing. -/
theorem lt_of_enqueuedBefore {i now j now' : Int}
    (h : run (step respond) (initial server) tr = some s)
    (hbefore : EnqueuedBefore tr i now j now') : i < j := by
  obtain ⟨before, after, op, op', rfl, hmem⟩ := hbefore
  obtain ⟨u, v, hu, hv, -⟩ := run_at h
  rw [(enqueue_step (step_sound hv)).1]
  exact (sourced_run hu).fresh i now op hmem

/-- What the pass has at the head of its list comes after everything earlier. -/
theorem settled_of_head {i now now' : Int} {j : QueueRow} {todo : List QueueRow}
    (h : run (step respond) (initial server) tr = some s) (hcurrent : s.phase.current = j :: todo)
    (hbefore : EnqueuedBefore tr i now j.id now') (hnow : now < now') : Settled tr i := by
  have hid := lt_of_enqueuedBefore h hbefore
  obtain ⟨before, after, op, op', htrace, hmem⟩ := hbefore
  have hmem : .enqueue i now op ∈ tr := by simp [htrace, hmem]
  have hj : .enqueue j.id now' op' ∈ tr := by simp [htrace]
  obtain ⟨now'', op'', hj', heq⟩ := (live_run h).queued j (by simp [hcurrent])
  obtain ⟨rfl, -⟩ := (sourced_run h).unique _ _ _ _ _ hj hj'
  have hcreated : j.createdAt = now' := by rw [heq]; rfl
  rcases inOrder_run h [] j todo hcurrent i now op hmem hid (hcreated ▸ hnow) with
    ⟨r, hr, -⟩ | hsettled
  · simp at hr
  · exact hsettled

/-- Whenever an operation is sent, and whenever the server's success for it returns,
the operations of earlier seconds have been dealt with. -/
def ServedInOrder (tr : List (Label ε)) : Prop :=
  ∀ before after j attempt,
    tr = before ++ .send j attempt :: after ∨ tr = before ++ .succeed j attempt :: after →
    ∀ i now now', EnqueuedBefore before i now j now' → now < now' → Settled before i

theorem served_in_order (h : run (step respond) (initial server) tr = some s) :
    ServedInOrder tr := by
  rintro before after j attempt (rfl | rfl) i now now' hbefore hnow
  · obtain ⟨u, v, hu, hv, -⟩ := run_at h
    cases step_sound hv with
    | send op todo hphase =>
      have hcurrent : u.phase.current = op :: todo := by rw [hphase]; rfl
      exact settled_of_head hu hcurrent hbefore hnow
  · obtain ⟨u, v, hu, hv, -⟩ := run_at h
    cases step_sound hv with
    | succeed attempt op todo hphase =>
      have hcurrent : u.phase.current = op :: todo := by rw [hphase]; rfl
      exact settled_of_head hu hcurrent hbefore hnow

end Run

/-- Two removals, queued a second apart; the request for the first one fails. -/
def overtakingRun : List (Label Unit) :=
  let first := newRow (removal 7) 100 1
  let second := newRow (removal 8) 101 2
  [.enqueue 1 100 (removal 7), .enqueue 2 101 (removal 8), .startSync, .snapshot [first, second],
    .send 1 0, .fail 1 0, .send 2 1, .serve 1 () true, .succeed 2 1]

theorem served_overtakingRun :
    ServedInOrder overtakingRun ∧ PassedOver (overtakingRun.take 6) 1 := by
  have hruns : (run (step agreeable) (initial ()) overtakingRun).isSome := by decide
  obtain ⟨s, hs⟩ := Option.isSome_iff_exists.mp hruns
  exact ⟨served_in_order hs, overtakingRun.take 4, [.send 1 0, .fail 1 0], rfl, by simp,
    .inr ⟨0, by simp⟩⟩

/-- The second operation is acknowledged although the first one never is. -/
theorem failed_operation_overtaken :
    ¬ ∀ (tr : List (Label Unit)) s, run (step agreeable) (initial ()) tr = some s →
      ∀ before after j attempt, tr = before ++ .succeed j attempt :: after →
        ∀ i now now', EnqueuedBefore before i now j now' → Acknowledged before i := by
  intro hall
  have hruns : (run (step agreeable) (initial ()) overtakingRun).isSome := by decide
  obtain ⟨s, hs⟩ := Option.isSome_iff_exists.mp hruns
  obtain ⟨attempt, hmem⟩ := hall overtakingRun s hs (overtakingRun.take 8) [] 2 1 rfl 1 100 101
    ⟨[.enqueue 1 100 (removal 7)], (overtakingRun.take 8).drop 2, removal 7, removal 8, rfl,
      by simp⟩
  simp [overtakingRun] at hmem

/-- Two removals of one second, which the queue may return in either order. -/
def tiedRun : List (Label Unit) :=
  let first := newRow (removal 7) 100 1
  let second := newRow (removal 8) 100 2
  [.enqueue 1 100 (removal 7), .enqueue 2 100 (removal 8), .startSync, .snapshot [second, first],
    .send 2 0, .serve 0 () true, .succeed 2 0, .acknowledge 2 101, .send 1 1, .serve 1 () true,
    .succeed 1 1, .acknowledge 1 102, .finish]

/-- Within one second the order is open even if nothing fails. -/
theorem tied_operation_overtaken : (run (step agreeable) (initial ()) tiedRun).isSome ∧
    EnqueuedBefore (tiedRun.take 6) 1 100 2 100 ∧ ¬ Settled (tiedRun.take 6) 1 := by
  refine ⟨by decide, ?_, ?_⟩
  · exact ⟨[.enqueue 1 100 (removal 7)], (tiedRun.take 6).drop 2, removal 7, removal 8, rfl,
      by simp⟩
  · rintro (⟨attempt, hmem⟩ | ⟨before, after, heq, -, hpassed⟩ |
      ⟨before, after, -, -, heq, -, hwipe⟩)
    · simp [tiedRun] at hmem
    · have hsub : ∀ l ∈ after, l ∈ tiedRun.take 6 := fun l hl => by simp [heq, hl]
      rcases hpassed with hmem | ⟨attempt, hmem⟩
      · simpa [tiedRun] using hsub _ hmem
      · simpa [tiedRun] using hsub _ hmem
    · have hmem : .wipe ∈ tiedRun.take 6 := by simp [heq, hwipe]
      simp [tiedRun] at hmem

end QueueOrder
