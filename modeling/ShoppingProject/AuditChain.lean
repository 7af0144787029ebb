import ShoppingProject.Chains
import ShoppingProject.DomainEvents
import ShoppingProject.Runs
import ShoppingProject.Slots
import ShoppingProject.Tables

/-!
# The chain of audit logs

Each consumed audit event reads the newest log, stores its hash in a new log, and
inserts that log, without a lock. Once a day the logs older than the retention are
deleted, by their time stamps and not by their keys. SHA-256 and the format of time
stamps are parameters; all logs ever written are kept beside the table, to say what
a new log should have been linked to.
-/
namespace AuditChain

open DomainEvents (DateTime ticksPerMinute)
open Runs

structure AuditEvent where
  userId : Option String
  userEmail : Option String
  action : String
  entityName : String
  entityId : String
  oldValues : Option String
  newValues : Option String
  timestamp : DateTime
  correlationId : Option String
  remoteIp : Option String
  userAgent : Option String

structure AuditLog where
  id : Int
  userId : Option String
  userEmail : Option String
  action : Option String
  entityName : Option String
  entityId : Option String
  oldValues : Option String
  newValues : Option String
  timestamp : DateTime
  correlationId : Option String
  remoteIp : Option String
  userAgent : Option String
  previousHash : Option String
  hash : Option String
  deriving DecidableEq

/-- `{Timestamp:O}`, and the 64 hexadecimal digits of the SHA-256 of a text in UTF-8. -/
structure Digest where
  timestamp : DateTime → String
  sha256 : String → String
  sha256_length : ∀ text, (sha256 text).length = 64

/-- The text that is hashed; a null value is empty in it. -/
def rawData (digest : Digest) (log : AuditLog) : String :=
  log.userId.getD "" ++ "|" ++ log.action.getD "" ++ "|" ++ log.entityName.getD "" ++ "|" ++
    log.entityId.getD "" ++ "|" ++ log.oldValues.getD "" ++ "|" ++ log.newValues.getD "" ++ "|" ++
    digest.timestamp log.timestamp ++ "|" ++ log.correlationId.getD "" ++ "|" ++
    log.previousHash.getD ""

def calculateHash (digest : Digest) (log : AuditLog) : String :=
  digest.sha256 (rawData digest log)

def genesis : String := "0000000000000000000000000000000000000000000000000000000000000000"

/-- `previousLog?.Hash ?? "000…"`. -/
def previousHash (previousLog : Option AuditLog) : String :=
  (previousLog.bind AuditLog.hash).getD genesis

def unhashedLog (e : AuditEvent) (previousLog : Option AuditLog) (id : Int) : AuditLog where
  id := id
  userId := e.userId
  userEmail := e.userEmail
  action := some e.action
  entityName := some e.entityName
  entityId := some e.entityId
  oldValues := e.oldValues
  newValues := e.newValues
  timestamp := e.timestamp
  correlationId := e.correlationId
  remoteIp := e.remoteIp
  userAgent := e.userAgent
  previousHash := some (previousHash previousLog)
  hash := none

/-- The log that a consumer adds; the database gives it its key. -/
def newLog (digest : Digest) (e : AuditEvent) (previousLog : Option AuditLog) (id : Int) :
    AuditLog :=
  { unhashedLog e previousLog id with
    hash := some (calculateHash digest (unhashedLog e previousLog id)) }

theorem newLog_id (digest : Digest) (e : AuditEvent) (previousLog : Option AuditLog) (id : Int) :
    (newLog digest e previousLog id).id = id := rfl

abbrev AuditLogs := Table AuditLog.id

/-- `OrderByDescending(Timestamp).OrderByDescending(Id).FirstOrDefault()`: the second
ordering replaces the first. -/
def newestLog (logs : AuditLogs) : Option AuditLog := logs.rows.getLast?

def retentionDays : Int := 90

/-- The logs that a clean-up keeps. -/
def isRetained (utcNow : DateTime) (log : AuditLog) : Bool :=
  !decide (log.timestamp < utcNow - retentionDays * (24 * 60 * ticksPerMinute))

/-- A consumer between its query and its insert. -/
structure Consumer where
  event : AuditEvent
  previousLog : Option AuditLog

structure State where
  logs : AuditLogs
  consumers : Slots Consumer
  written : List AuditLog

def start : State := ⟨Table.empty, Slots.idle, []⟩

inductive Label where
  | read (i : Nat) (event : AuditEvent) : Label
  | insert (i : Nat) : Label
  /-- The consumer fails; its message may be delivered again. -/
  | fail (i : Nat) : Label
  | cleanup (utcNow : DateTime) : Label

def step (digest : Digest) (s : State) : Label → Option State
  | .read i event => match s.consumers i with
    | none => some
      { s with consumers := s.consumers.put i (some ⟨event, newestLog s.logs⟩) }
    | some _ => none
  | .insert i => match s.consumers i with
    | none => none
    | some c => some
      { logs := s.logs.insert (newLog digest c.event c.previousLog)
          (newLog_id digest c.event c.previousLog)
        consumers := s.consumers.put i none
        written := s.written ++ [newLog digest c.event c.previousLog s.logs.next] }
  | .fail i => match s.consumers i with
    | none => none
    | some _ => some { s with consumers := s.consumers.put i none }
  | .cleanup utcNow => some { s with logs := s.logs.filter (isRetained utcNow) }

/-- The second log names the hash of the first. -/
def Follows (a b : AuditLog) : Prop := b.previousHash = a.hash

instance (a b : AuditLog) : Decidable (Follows a b) := inferInstanceAs (Decidable (_ = _))

/-- The stored logs, in the order of their keys, follow each other without a fork, and
every log followed the last one written before it, deleted or not. -/
structure Intact (s : State) : Prop where
  linked : s.logs.rows.IsChain Follows
  unforked : s.logs.rows.Pairwise fun a b => a.previousHash ≠ b.previousHash
  continued : s.written.IsChain Follows

/-- Among the texts hashed so far SHA-256 has no collision and no text hashes to zeros. -/
structure CollisionFree (digest : Digest) (written : List AuditLog) : Prop where
  injective : ∀ a ∈ written, ∀ b ∈ written,
    calculateHash digest a = calculateHash digest b → rawData digest a = rawData digest b
  nonzero : ∀ a ∈ written, calculateHash digest a ≠ genesis

instance (digest : Digest) (written : List AuditLog) : Decidable (CollisionFree digest written) :=
  decidable_of_iff ((∀ a ∈ written, ∀ b ∈ written,
      calculateHash digest a = calculateHash digest b → rawData digest a = rawData digest b) ∧
      ∀ a ∈ written, calculateHash digest a ≠ genesis)
    ⟨fun h => ⟨h.1, h.2⟩, fun h => ⟨h.1, h.2⟩⟩

/-- A consumer inserts after the log it has read, which is still the last one written
and, unless the table is empty, still the newest one stored; and a clean-up leaves a
contiguous part of the logs. -/
def Orderly (s : State) : Label → Prop
  | .read _ _ => True
  | .insert i => ∀ c ∈ s.consumers i, c.previousLog = s.written.getLast? ∧
    (s.logs.rows = [] ∨ s.logs.rows.getLast? = s.written.getLast?)
  | .fail _ => True
  | .cleanup utcNow => s.logs.rows.filter (isRetained utcNow) <:+: s.logs.rows

instance (s : State) (l : Label) : Decidable (Orderly s l) :=
  match l with
  | .read _ _ => .isTrue trivial
  | .insert i => inferInstanceAs (Decidable (∀ c ∈ s.consumers i, _ ∧ _))
  | .fail _ => .isTrue trivial
  | .cleanup _ => inferInstanceAs (Decidable (_ <:+: _))

/-- What orderly steps keep. -/
structure Sound (digest : Digest) (s : State) : Prop where
  hashed : ∀ a ∈ s.written, a.hash = some (calculateHash digest a)
  nonzero : ∀ a ∈ s.written, calculateHash digest a ≠ genesis
  linked : s.written.IsChain Follows
  preceded : ∀ a ∈ s.written, a.previousHash = some genesis ∨
    ∃ p ∈ s.written, p.id < a.id ∧ Follows p a
  hashes : s.written.Pairwise fun a b => a.hash ≠ b.hash
  unforked : s.written.Pairwise fun a b => a.previousHash ≠ b.previousHash
  ordered : s.written.Pairwise fun a b => a.id < b.id
  bounded : ∀ a ∈ s.written, a.id < s.logs.next
  stored : s.logs.rows <:+: s.written
  tails : s.consumers.All fun c => ∀ a, c.previousLog = some a → a ∈ s.written

theorem start_sound (digest : Digest) : Sound digest start := by
  constructor <;> simp [start, Table.empty, Slots.all_idle]

theorem Sound.intact {digest : Digest} {s : State} (h : Sound digest s) : Intact s := by
  have hlinked : s.logs.rows.IsChain Follows := List.IsChain.infix h.linked h.stored
  exact ⟨hlinked, h.unforked.sublist h.stored.sublist, h.linked⟩

theorem Sound.nodup {digest : Digest} {s : State} (h : Sound digest s) : s.written.Nodup :=
  h.ordered.imp fun hab heq => absurd (heq ▸ hab) (lt_irrefl _)

/-- Hashes tell the logs apart. -/
theorem Sound.hash_injective {digest : Digest} {s : State} (h : Sound digest s) {a b : AuditLog}
    (ha : a ∈ s.written) (hb : b ∈ s.written) (heq : a.hash = b.hash) : a = b := by
  have hnodup : (s.written.map AuditLog.hash).Nodup := List.pairwise_map.mpr h.hashes
  exact List.inj_on_of_nodup_map hnodup ha hb heq

theorem Sound.backwards {digest : Digest} {s : State} (h : Sound digest s) :
    Chains.Backwards Follows s.written := by
  intro a ha b hb c hac hbc
  exact h.hash_injective ha hb (hac.symm.trans hbc)

theorem Sound.le_last {digest : Digest} {s : State} (h : Sound digest s) {a b : AuditLog}
    (ha : a ∈ s.written) (hb : s.written.getLast? = some b) : a.id ≤ b.id := by
  obtain ⟨logs, heq⟩ := List.getLast?_eq_some_iff.mp hb
  have hordered := h.ordered
  rw [heq] at ha hordered
  rcases List.mem_append.mp ha with ha | ha
  · exact le_of_lt ((List.pairwise_append.mp hordered).2.2 a ha b (by simp))
  · rw [List.mem_singleton.mp ha]

theorem append_inj_right {s t u v : String} (hlength : t.length = v.length)
    (h : s ++ t = u ++ v) : t = v := by
  have hlist : s.toList ++ t.toList = u.toList ++ v.toList := by
    rw [← String.toList_append, ← String.toList_append, h]
  have hlast : t.toList.length = v.toList.length := by
    rw [String.length_toList, String.length_toList, hlength]
  exact String.toList_inj.mp (List.append_inj_right' hlist hlast)

/-- The hashed text ends with the previous hash. -/
theorem rawData_previousHash {digest : Digest} {a b : AuditLog}
    (hlength : (a.previousHash.getD "").length = (b.previousHash.getD "").length)
    (h : rawData digest a = rawData digest b) :
    a.previousHash.getD "" = b.previousHash.getD "" := by
  unfold rawData at h
  exact append_inj_right hlength h

/-- The hash that a consumer links to, if it has read a log that was written. -/
theorem Sound.previousHash_some {digest : Digest} {s : State} (h : Sound digest s) {a : AuditLog}
    (ha : a ∈ s.written) : some (previousHash (some a)) = a.hash := by
  simp [previousHash, h.hashed a ha]

theorem Sound.previousHash_length {digest : Digest} {s : State} (h : Sound digest s)
    {a : AuditLog} (ha : a ∈ s.written) : (a.previousHash.getD "").length = 64 := by
  rcases h.preceded a ha with hgenesis | ⟨p, hp, -, hfollows⟩
  · rw [hgenesis]
    rfl
  · have hprevious : a.previousHash = some (calculateHash digest p) :=
      hfollows.trans (h.hashed p hp)
    rw [hprevious]
    exact digest.sha256_length _

/-- A log linked to the last one written shares its link with no log before it. -/
theorem Sound.fresh_link {digest : Digest} {s : State} (h : Sound digest s) {a : AuditLog}
    (ha : a ∈ s.written) :
    some (previousHash s.written.getLast?) ≠ a.previousHash := by
  cases hlast : s.written.getLast? with
  | none =>
    rw [List.getLast?_eq_none_iff] at hlast
    simp [hlast] at ha
  | some b =>
    have hb := List.mem_of_getLast? hlast
    rw [h.previousHash_some hb]
    intro heq
    rcases h.preceded a ha with hgenesis | ⟨p, hp, hlt, hfollows⟩
    · rw [hgenesis, h.hashed b hb] at heq
      exact h.nonzero b hb (Option.some.inj heq)
    · have hpb : p = b := h.hash_injective hp hb (hfollows.symm.trans heq.symm)
      have hle := h.le_last ha hlast
      rw [hpb] at hlt
      omega

/-- Nor does its hash equal one of theirs, because the hash covers the link. -/
theorem Sound.fresh_hash {digest : Digest} {s : State} {a n : AuditLog} (h : Sound digest s)
    (ha : a ∈ s.written) (hlink : n.previousHash = some (previousHash s.written.getLast?))
    (hfree : CollisionFree digest (s.written ++ [n])) :
    some (calculateHash digest n) ≠ a.hash := by
  rw [h.hashed a ha]
  intro heq
  have hraw := hfree.injective n (by simp) a (by simp [ha]) (Option.some.inj heq)
  have hlength : (n.previousHash.getD "").length = (a.previousHash.getD "").length := by
    rw [h.previousHash_length ha, hlink]
    cases hlast : s.written.getLast? with
    | none => rfl
    | some b =>
      have hb := List.mem_of_getLast? hlast
      rw [h.previousHash_some hb, h.hashed b hb]
      exact digest.sha256_length _
  have hprevious := rawData_previousHash hlength hraw
  apply h.fresh_link ha
  rw [← hlink]
  rcases h.preceded a ha with hgenesis | ⟨p, hp, -, hfollows⟩
  · rw [hlink, hgenesis] at hprevious ⊢
    exact congrArg some hprevious
  · have hsome : a.previousHash = some (calculateHash digest p) :=
      hfollows.trans (h.hashed p hp)
    rw [hlink, hsome] at hprevious ⊢
    exact congrArg some hprevious

/-- A log linked to the last one written has that one before it. -/
theorem Sound.preceded_new {digest : Digest} {s : State} {n : AuditLog} (h : Sound digest s)
    (hlink : n.previousHash = some (previousHash s.written.getLast?)) (hid : n.id = s.logs.next) :
    n.previousHash = some genesis ∨ ∃ p ∈ s.written, p.id < n.id ∧ Follows p n := by
  cases hlast : s.written.getLast? with
  | none =>
    left
    rw [hlink, hlast]
    rfl
  | some b =>
    have hb := List.mem_of_getLast? hlast
    refine .inr ⟨b, hb, hid ▸ h.bounded b hb, ?_⟩
    rw [Follows, hlink, hlast, h.previousHash_some hb]

/-- Stored logs that end with the last one written are the end of what was written. -/
theorem Sound.stored_suffix {digest : Digest} {s : State} (h : Sound digest s)
    (hnewest : s.logs.rows = [] ∨ s.logs.rows.getLast? = s.written.getLast?) :
    s.logs.rows <:+ s.written := by
  rcases hnewest with hnil | hlast
  · rw [hnil]
    exact List.nil_suffix
  · cases hb : s.written.getLast? with
    | none =>
      rw [hb, List.getLast?_eq_none_iff] at hlast
      rw [hlast]
      exact List.nil_suffix
    | some b => exact Chains.suffix_of_getLast? h.nodup h.stored (hlast.trans hb) hb

/-- A log linked to the last one written continues a sound history. -/
theorem Sound.insert {digest : Digest} {s : State} {i : Nat} {c : Consumer}
    (h : Sound digest s) (hread : c.previousLog = s.written.getLast?)
    (hnewest : s.logs.rows = [] ∨ s.logs.rows.getLast? = s.written.getLast?)
    (hfree : CollisionFree digest
      (s.written ++ [newLog digest c.event c.previousLog s.logs.next])) :
    Sound digest
      { logs := s.logs.insert (newLog digest c.event c.previousLog)
          (newLog_id digest c.event c.previousLog)
        consumers := s.consumers.put i none
        written := s.written ++ [newLog digest c.event c.previousLog s.logs.next] } := by
  let n := newLog digest c.event c.previousLog s.logs.next
  have hlink : n.previousHash = some (previousHash s.written.getLast?) := by
    rw [← hread]
    rfl
  have hhash : n.hash = some (calculateHash digest n) := rfl
  have hnew := h.preceded_new hlink rfl
  obtain ⟨older, holder⟩ := h.stored_suffix hnewest
  constructor
  case hashed => exact List.forall_mem_append.mpr ⟨h.hashed, List.forall_mem_singleton.mpr hhash⟩
  case nonzero => exact hfree.nonzero
  case linked =>
    apply Chains.isChain_snoc.mpr
    refine ⟨h.linked, fun b hb => ?_⟩
    rw [Follows, ← h.previousHash_some (List.mem_of_getLast? hb), ← hb]
    exact hlink
  case preceded =>
    have hmore {a : AuditLog} (ha : a.previousHash = some genesis ∨
        ∃ p ∈ s.written, p.id < a.id ∧ Follows p a) : a.previousHash = some genesis ∨
        ∃ p ∈ s.written ++ [n], p.id < a.id ∧ Follows p a := by
      refine ha.imp_right ?_
      rintro ⟨p, hp, hbefore⟩
      exact ⟨p, List.mem_append_left _ hp, hbefore⟩
    exact List.forall_mem_append.mpr
      ⟨fun a ha => hmore (h.preceded a ha), List.forall_mem_singleton.mpr (hmore hnew)⟩
  case hashes =>
    refine Chains.pairwise_snoc.mpr ⟨h.hashes, fun a ha => ?_⟩
    exact (h.fresh_hash ha hlink hfree).symm
  case unforked =>
    refine Chains.pairwise_snoc.mpr ⟨h.unforked, fun a ha => ?_⟩
    have hfresh := h.fresh_link ha
    rw [← hlink] at hfresh
    exact hfresh.symm
  case ordered => exact Chains.pairwise_snoc.mpr ⟨h.ordered, h.bounded⟩
  case bounded =>
    refine List.forall_mem_append.mpr ⟨fun a ha => ?_, List.forall_mem_singleton.mpr ?_⟩
    · exact Int.lt_add_one_of_le (le_of_lt (h.bounded a ha))
    · exact Int.lt_succ _
  case stored => exact ⟨older, [], by simp [Table.insert, ← holder]⟩
  case tails =>
    refine Slots.All.finish ?_ i
    exact h.tails.mono fun c hc a ha => List.mem_append_left _ (hc a ha)

theorem step_sound {digest : Digest} {s t : State} {l : Label} (h : Sound digest s)
    (horderly : Orderly s l) (hstep : step digest s l = some t)
    (hfree : CollisionFree digest t.written) : Sound digest t := by
  cases l with
  | read i event =>
    simp only [step] at hstep
    split at hstep <;> cases hstep
    refine { h with tails := h.tails.start i ?_ }
    intro a ha
    exact h.stored.subset (List.mem_of_getLast? ha)
  | insert i =>
    simp only [step] at hstep
    split at hstep <;> cases hstep
    rename_i c hc
    obtain ⟨hread, hnewest⟩ := horderly c hc
    exact h.insert hread hnewest hfree
  | fail i =>
    simp only [step] at hstep
    split at hstep <;> cases hstep
    exact { h with tails := h.tails.finish i }
  | cleanup utcNow =>
    cases hstep
    exact { h with stored := List.IsInfix.trans horderly h.stored }

/-- The hash in a link tells which log was read. -/
theorem Sound.link_identifies {digest : Digest} {s : State} (h : Sound digest s)
    {previousLog : Option AuditLog} (htail : ∀ a, previousLog = some a → a ∈ s.written)
    {b : AuditLog} (hb : b ∈ s.written) (heq : some (previousHash previousLog) = b.hash) :
    previousLog = some b := by
  cases previousLog with
  | none =>
    rw [h.hashed b hb] at heq
    exact absurd (Option.some.inj heq).symm (h.nonzero b hb)
  | some a =>
    have ha := htail a rfl
    rw [h.previousHash_some ha] at heq
    rw [h.hash_injective ha hb heq]

/-- From a sound state a step leaves the chain intact exactly if it is orderly. -/
theorem step_intact_iff {digest : Digest} {s t : State} {l : Label} (h : Sound digest s)
    (hstep : step digest s l = some t) (hfree : CollisionFree digest t.written) :
    Intact t ↔ Orderly s l := by
  refine ⟨fun hintact => ?_, fun horderly => (step_sound h horderly hstep hfree).intact⟩
  cases l with
  | read i event => trivial
  | fail i => trivial
  | insert i =>
    simp only [step] at hstep
    split at hstep <;> cases hstep
    rename_i c hc
    intro c' hc'
    obtain rfl : c = c' := Option.some.inj (hc.symm.trans hc')
    have hwritten := (Chains.isChain_snoc.mp hintact.continued).2
    have hstored := (Chains.isChain_snoc.mp hintact.linked).2
    have htail := h.tails i c hc
    have hread : c.previousLog = s.written.getLast? := by
      cases hlast : s.written.getLast? with
      | none =>
        rw [List.getLast?_eq_none_iff] at hlast
        cases hprevious : c.previousLog with
        | none => rfl
        | some a =>
          have ha := htail a hprevious
          simp [hlast] at ha
      | some b => exact h.link_identifies htail (List.mem_of_getLast? hlast) (hwritten b hlast)
    refine ⟨hread, ?_⟩
    cases hlast : s.logs.rows.getLast? with
    | none => exact .inl (List.getLast?_eq_none_iff.mp hlast)
    | some r =>
      have hr := h.stored.subset (List.mem_of_getLast? hlast)
      rw [← hread, h.link_identifies htail hr (hstored r hlast)]
      exact .inr rfl
  | cleanup utcNow =>
    cases hstep
    have hsub : (s.logs.rows.filter (isRetained utcNow)).Sublist s.logs.rows := List.filter_sublist
    have hlinked : s.logs.rows.IsChain Follows := h.intact.linked
    refine Chains.infix_of_isChain hlinked (h.nodup.sublist h.stored.sublist)
      (h.backwards.subset fun a ha => h.stored.subset ha) hsub hintact.linked

/-- Unless SHA-256 collides, the audit logs of a run are intact after every step exactly
if all its steps are orderly. -/
theorem intact_throughout_iff (digest : Digest) (tr : List Label)
    (hfree : ∀ v ∈ visits (step digest) start tr, CollisionFree digest v.2.2.written) :
    (∀ v ∈ visits (step digest) start tr, Intact v.2.2) ↔
      ∀ v ∈ visits (step digest) start tr, Orderly v.1 v.2.1 := by
  have hiff := @visits_iff _ _ (step digest) (Sound digest)
    (fun v => Intact v.2.2 ∧ CollisionFree digest v.2.2.written)
    (fun s l => Orderly s l ∧ ∀ t, step digest s l = some t → CollisionFree digest t.written)
    (by
      intro s l t h hstep
      constructor
      · rintro ⟨hintact, hfree⟩
        refine ⟨(step_intact_iff h hstep hfree).mp hintact, fun u hu => ?_⟩
        obtain rfl := Option.some.inj (hstep.symm.trans hu)
        exact hfree
      · rintro ⟨horderly, hfree⟩
        exact ⟨(step_intact_iff h hstep (hfree t hstep)).mpr horderly, hfree t hstep⟩)
    (fun s l t h hC hstep => step_sound h hC.1 hstep (hC.2 t hstep))
    start (start_sound digest) tr
  constructor
  · intro hintact v hv
    exact (hiff.mp (fun w hw => ⟨hintact w hw, hfree w hw⟩) v hv).1
  · intro horderly v hv
    refine (hiff.mpr (fun w hw => ⟨horderly w hw, fun t ht => ?_⟩) v hv).1
    obtain rfl := Option.some.inj ((step_of_mem_visits hw).symm.trans ht)
    exact hfree w hw

/-- An event about cart 1. -/
def cartEvent (action correlationId : String) : AuditEvent :=
  ⟨some "u1", none, action, "Cart", "1", none, none, 0, some correlationId, none, none⟩

/-- Two consumers read the empty table, and both insert. -/
def forkedTrace : List Label :=
  [.read 0 (cartEvent "Added" "c1"), .read 1 (cartEvent "Deleted" "c2"), .insert 0, .insert 1]

/-- Whatever the digest, two events consumed at once fork the chain. -/
theorem concurrent_events_fork : ¬ ∃ digest : Digest, ∀ tr : List Label,
    ∀ v ∈ visits (step digest) start tr, Intact v.2.2 := by
  rintro ⟨digest, hall⟩
  have hintact := hall forkedTrace _ (List.mem_of_getLast? rfl)
  have hunforked : [newLog digest (cartEvent "Added" "c1") none 1,
      newLog digest (cartEvent "Deleted" "c2") none 2].Pairwise
        (fun a b => a.previousHash ≠ b.previousHash) := hintact.unforked
  simp [newLog, unhashedLog] at hunforked

/-- SHA-256 on the two texts of the run below. -/
def sampleDigest : Digest where
  timestamp := fun _ => "2024-01-01T00:00:00.0000000+00:00"
  sha256 := fun text =>
    if text = "u1|Added|Cart|1|||2024-01-01T00:00:00.0000000+00:00|c1|" ++ genesis then
      "0CDD9ADB99D376BA5C8E0EE2A358748D587DE67924B150BB6EE902A84941E68D"
    else "FE344CC0152F5F95D921579F91B5CFB2B2D631CAB3663F023CDF18A3ABF461C4"
  sha256_length := by
    intro text
    split <;> decide

/-- The second event is consumed after the first. -/
def chainedTrace : List Label :=
  [.read 0 (cartEvent "Added" "c1"), .insert 0, .read 1 (cartEvent "Deleted" "c2"), .insert 1]

theorem intact_throughout_chained :
    (visits (step sampleDigest) start chainedTrace).length = 4 ∧
      ∀ v ∈ visits (step sampleDigest) start chainedTrace, Intact v.2.2 := by
  refine ⟨by decide, (intact_throughout_iff sampleDigest chainedTrace ?_).mpr ?_⟩
  · decide +kernel
  · decide +kernel

end AuditChain
