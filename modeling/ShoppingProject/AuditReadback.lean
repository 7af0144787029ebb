import ShoppingProject.AuditEvidence
import ShoppingProject.Timestamps

/-!
# Computing the hash of an audit log again

The hash of a log is computed from the values in memory, before they are stored. A column
for texts may refuse a text or cut it, one for time stamps keeps microseconds and no
offset. Of the time stamps that column is all that is known; which ones it refuses is left
open.
-/
namespace AuditReadback

open AuditChain
open DomainEvents (DateTime)
open Timestamps

structure Sha256 where
  hash : String → String
  length : ∀ text, (hash text).length = 64

/-- How logs are hashed whose time stamps have the offset of this one. -/
def digestAt (sha : Sha256) (zone : DateTimeOffset) : Digest where
  timestamp := fun t => String.ofList { zone with utcTicks := t }.roundTrip
  sha256 := sha.hash
  sha256_length := sha.length

/-- The offset of everything that is read back. -/
def utc : DateTimeOffset := ⟨0, 0, by decide, by decide⟩

/-- An audit event as it is received, with the offset of its time stamp. -/
structure Received where
  event : AuditEvent
  timestamp : DateTimeOffset
  ticks : event.timestamp = timestamp.utcTicks

/-- The columns of the logs: the lengths of the bounded texts, and what becomes of a time
stamp that is not refused. -/
structure Columns where
  userId : Option ℕ
  userEmail : Option ℕ
  action : Option ℕ
  entityName : Option ℕ
  correlationId : Option ℕ
  remoteIp : Option ℕ
  timestamp : DateTimeOffset → Option ℤ
  micro : ∀ t u, timestamp t = some u → u % 10 = 0
  exact : ∀ t u, timestamp t = some u → t.utcTicks % 10 = 0 → u = t.utcTicks

/-- `text` refuses the character 0, and `character varying(n)` a longer text as well,
unless only blanks are cut off. -/
def keepText (maxLength : Option ℕ) (text : String) : Option String :=
  if Char.ofNat 0 ∈ text.toList then none
  else match maxLength with
    | none => some text
    | some n =>
      if (text.toList.drop n).all (· == ' ') then some (String.ofList (text.toList.take n))
      else none

def keep (maxLength : Option ℕ) : Option String → Option (Option String)
  | none => some none
  | some text => (keepText maxLength text).map some

/-- The log that is read after this one was stored. -/
def store (columns : Columns) (zone : DateTimeOffset) (log : AuditLog) : Option AuditLog := do
  let userId ← keep columns.userId log.userId
  let userEmail ← keep columns.userEmail log.userEmail
  let action ← keep columns.action log.action
  let entityName ← keep columns.entityName log.entityName
  let entityId ← keep none log.entityId
  let oldValues ← keep none log.oldValues
  let newValues ← keep none log.newValues
  let timestamp ← columns.timestamp { zone with utcTicks := log.timestamp }
  let correlationId ← keep columns.correlationId log.correlationId
  let remoteIp ← keep columns.remoteIp log.remoteIp
  let userAgent ← keep none log.userAgent
  let previousHash ← keep none log.previousHash
  let hash ← keep none log.hash
  return { id := log.id, userId, userEmail, action, entityName, entityId, oldValues, newValues,
           timestamp, correlationId, remoteIp, userAgent, previousHash, hash }

/-- The log that the consumer adds for what it has received. -/
def consume (sha : Sha256) (r : Received) (previousLog : Option AuditLog) (id : Int) : AuditLog :=
  newLog (digestAt sha r.timestamp) r.event previousLog id

/-- `CalculateHash` of the log that is read gives the hash that is read with it. -/
def Recomputes (sha : Sha256) (log : AuditLog) : Prop :=
  log.hash = some (calculateHash (digestAt sha utc) log)

/-- Nothing is cut from a text. -/
def Fits (maxLength : Option ℕ) (text : Option String) : Prop :=
  ∀ n ∈ maxLength, (text.getD "").length ≤ n

/-- The hashed values come back as they were. -/
structure Survives (columns : Columns) (r : Received) : Prop where
  micro : r.timestamp.utcTicks % 10 = 0
  utc : r.timestamp.offset = 0
  userId : Fits columns.userId r.event.userId
  action : Fits columns.action (some r.event.action)
  entityName : Fits columns.entityName (some r.event.entityName)
  correlationId : Fits columns.correlationId r.event.correlationId

theorem keepText_eq {maxLength : Option ℕ} {text kept : String}
    (h : keepText maxLength text = some kept) :
    kept = String.ofList (text.toList.take (maxLength.getD text.length)) := by
  simp only [keepText] at h
  split at h
  · cases h
  · cases maxLength with
    | none =>
      obtain rfl := Option.some.inj h
      simp [← String.length_toList]
    | some n => exact (Option.some.inj (Option.ite_none_right_eq_some.mp h).2).symm

/-- A text that is kept becomes no longer, and stays as long as it was exactly if it is
kept whole. -/
theorem keep_length {maxLength : Option ℕ} {text kept : Option String}
    (h : keep maxLength text = some kept) :
    (kept.getD "").length ≤ (text.getD "").length ∧
      ((kept.getD "").length = (text.getD "").length ↔ Fits maxLength text) ∧
      (Fits maxLength text → kept = text) := by
  cases text with
  | none =>
    obtain rfl : none = kept := Option.some.inj h
    exact ⟨le_refl _, ⟨fun _ n _ => Nat.zero_le n, fun _ => rfl⟩, fun _ => rfl⟩
  | some text =>
    obtain ⟨kept, hkept, rfl⟩ := Option.map_eq_some_iff.mp h
    obtain rfl := keepText_eq hkept
    cases maxLength with
    | none => simp [Fits, ← String.length_toList]
    | some n =>
      have hwhole : text.toList.length ≤ n → String.ofList (text.toList.take n) = text := by
        intro hle
        rw [List.take_of_length_le hle, String.ofList_toList]
      simp only [Option.getD_some, Fits, Option.mem_def, Option.some.injEq, forall_eq',
        ← String.length_toList, String.toList_ofList, List.length_take]
      refine ⟨Nat.min_le_right _ _, ⟨fun hmin => ?_, fun hle => ?_⟩, hwhole⟩
      · omega
      · omega

/-- What is unbounded is stored whole. -/
theorem keep_none {text kept : Option String} (h : keep none text = some kept) : kept = text :=
  (keep_length h).2.2 fun _ hn => by cases hn

/-- The hashed values of a log that was stored and read. -/
structure Stored (columns : Columns) (zone : DateTimeOffset) (log row : AuditLog) : Prop where
  userId : keep columns.userId log.userId = some row.userId
  action : keep columns.action log.action = some row.action
  entityName : keep columns.entityName log.entityName = some row.entityName
  entityId : row.entityId = log.entityId
  oldValues : row.oldValues = log.oldValues
  newValues : row.newValues = log.newValues
  timestamp : columns.timestamp { zone with utcTicks := log.timestamp } = some row.timestamp
  correlationId : keep columns.correlationId log.correlationId = some row.correlationId
  previousHash : row.previousHash = log.previousHash
  hash : row.hash = log.hash

theorem store_stored {columns : Columns} {zone : DateTimeOffset} {log row : AuditLog}
    (h : store columns zone log = some row) : Stored columns zone log row := by
  obtain ⟨userId, huserId, h⟩ := Option.bind_eq_some_iff.mp h
  obtain ⟨userEmail, -, h⟩ := Option.bind_eq_some_iff.mp h
  obtain ⟨action, haction, h⟩ := Option.bind_eq_some_iff.mp h
  obtain ⟨entityName, hentityName, h⟩ := Option.bind_eq_some_iff.mp h
  obtain ⟨entityId, hentityId, h⟩ := Option.bind_eq_some_iff.mp h
  obtain ⟨oldValues, holdValues, h⟩ := Option.bind_eq_some_iff.mp h
  obtain ⟨newValues, hnewValues, h⟩ := Option.bind_eq_some_iff.mp h
  obtain ⟨timestamp, htimestamp, h⟩ := Option.bind_eq_some_iff.mp h
  obtain ⟨correlationId, hcorrelationId, h⟩ := Option.bind_eq_some_iff.mp h
  obtain ⟨remoteIp, -, h⟩ := Option.bind_eq_some_iff.mp h
  obtain ⟨userAgent, -, h⟩ := Option.bind_eq_some_iff.mp h
  obtain ⟨previousHash, hpreviousHash, h⟩ := Option.bind_eq_some_iff.mp h
  obtain ⟨hash, hhash, hrow⟩ := Option.bind_eq_some_iff.mp h
  obtain rfl := Option.some.inj hrow
  exact ⟨huserId, haction, hentityName, keep_none hentityId, keep_none holdValues,
    keep_none hnewValues, htimestamp, hcorrelationId, keep_none hpreviousHash, keep_none hhash⟩

/-- The hashed text before the time stamp. -/
def before (log : AuditLog) : String :=
  log.userId.getD "" ++ "|" ++ log.action.getD "" ++ "|" ++ log.entityName.getD "" ++ "|" ++
    log.entityId.getD "" ++ "|" ++ log.oldValues.getD "" ++ "|" ++ log.newValues.getD "" ++ "|"

def after (log : AuditLog) : String :=
  "|" ++ log.correlationId.getD "" ++ "|" ++ log.previousHash.getD ""

theorem rawData_eq (digest : Digest) (log : AuditLog) :
    rawData digest log = before log ++ (digest.timestamp log.timestamp ++ after log) := by
  delta rawData before after
  simp only [String.append_assoc]

theorem timestamp_length (sha : Sha256) (zone : DateTimeOffset) (t : DateTime) :
    ((digestAt sha zone).timestamp t).length = 33 := by
  rw [digestAt, ← String.length_toList, String.toList_ofList, DateTimeOffset.roundTrip_length]

/-- Nothing is cut from the hashed texts. -/
structure Whole (columns : Columns) (log : AuditLog) : Prop where
  userId : Fits columns.userId log.userId
  action : Fits columns.action log.action
  entityName : Fits columns.entityName log.entityName
  correlationId : Fits columns.correlationId log.correlationId

theorem Stored.parts {columns : Columns} {zone : DateTimeOffset} {log row : AuditLog}
    (h : Stored columns zone log row) (hwhole : Whole columns log) :
    before row = before log ∧ after row = after log := by
  have huserId := (keep_length h.userId).2.2 hwhole.userId
  have haction := (keep_length h.action).2.2 hwhole.action
  have hentityName := (keep_length h.entityName).2.2 hwhole.entityName
  have hcorrelationId := (keep_length h.correlationId).2.2 hwhole.correlationId
  constructor
  · simp only [before, huserId, haction, hentityName, h.entityId, h.oldValues, h.newValues]
  · simp only [after, hcorrelationId, h.previousHash]

/-- Every text that is cut makes the hashed text shorter. -/
theorem Stored.whole {columns : Columns} {zone : DateTimeOffset} {log row : AuditLog}
    (sha : Sha256) (h : Stored columns zone log row)
    (hsame : (rawData (digestAt sha utc) row).length =
      (rawData (digestAt sha zone) log).length) : Whole columns log := by
  obtain ⟨huserId, huserId_iff, -⟩ := keep_length h.userId
  obtain ⟨haction, haction_iff, -⟩ := keep_length h.action
  obtain ⟨hentityName, hentityName_iff, -⟩ := keep_length h.entityName
  obtain ⟨hcorrelationId, hcorrelationId_iff, -⟩ := keep_length h.correlationId
  simp only [rawData_eq, before, after, String.length_append, timestamp_length, h.entityId,
    h.oldValues, h.newValues, h.previousHash] at hsame
  refine ⟨huserId_iff.mp ?_, haction_iff.mp ?_, hentityName_iff.mp ?_,
    hcorrelationId_iff.mp ?_⟩ <;> omega

/-- The text that is hashed again is the one that was hashed exactly if the values survive. -/
theorem rawData_eq_iff_survives {columns : Columns} {sha : Sha256} {r : Received}
    {previousLog : Option AuditLog} {id : Int} {row : AuditLog}
    (h : store columns r.timestamp (consume sha r previousLog id) = some row) :
    rawData (digestAt sha utc) row =
        rawData (digestAt sha r.timestamp) (consume sha r previousLog id) ↔
      Survives columns r := by
  have hstored := store_stored h
  set log := consume sha r previousLog id with hlog
  have hticks : log.timestamp = r.timestamp.utcTicks := r.ticks
  have hread : columns.timestamp r.timestamp = some row.timestamp := by
    have htimestamp := hstored.timestamp
    rw [hticks] at htimestamp
    exact htimestamp
  have hmicro := columns.micro _ _ hread
  constructor
  · intro hsame
    have hwhole := hstored.whole sha (congrArg String.length hsame)
    obtain ⟨hbefore, hafter⟩ := hstored.parts hwhole
    rw [rawData_eq, rawData_eq, hbefore, hafter, ← String.toList_inj] at hsame
    simp only [String.toList_append, List.append_cancel_left_eq, List.append_cancel_right_eq,
      digestAt, String.toList_ofList] at hsame
    obtain ⟨hlast, hoffset⟩ := DateTimeOffset.roundTrip_last hsame
    have hzone : r.timestamp.offset = 0 := hoffset.symm
    simp only [DateTimeOffset.localTicks, utc, hzone, hticks] at hlast
    exact ⟨by omega, hzone, hwhole.userId, hwhole.action, hwhole.entityName,
      hwhole.correlationId⟩
  · intro hsurvives
    have hexact := columns.exact _ _ hread hsurvives.micro
    have hwhole : Whole columns log := ⟨hsurvives.userId, hsurvives.action,
      hsurvives.entityName, hsurvives.correlationId⟩
    obtain ⟨hbefore, hafter⟩ := hstored.parts hwhole
    have hzone : (⟨row.timestamp, 0, by decide, by decide⟩ : DateTimeOffset).roundTrip =
        { r.timestamp with utcTicks := log.timestamp }.roundTrip := by
      simp only [hexact, hticks, ← hsurvives.utc]
    rw [rawData_eq, rawData_eq, hbefore, hafter]
    simp only [digestAt, utc, hzone]

theorem recomputes_iff {columns : Columns} {sha : Sha256} {r : Received}
    {previousLog : Option AuditLog} {id : Int} {row : AuditLog}
    (h : store columns r.timestamp (consume sha r previousLog id) = some row) :
    Recomputes sha row ↔
      sha.hash (rawData (digestAt sha r.timestamp) (consume sha r previousLog id)) =
        sha.hash (rawData (digestAt sha utc) row) := by
  have hhash : row.hash = some (calculateHash (digestAt sha r.timestamp)
      (consume sha r previousLog id)) := (store_stored h).hash
  rw [Recomputes, hhash, Option.some.injEq]
  exact Iff.rfl

/-- A log that is stored has a hash that can be computed again if its values survive, and
only then, as far as SHA-256 does not collide on the two texts. -/
theorem recomputes_iff_survives {columns : Columns} {sha : Sha256} {r : Received}
    {previousLog : Option AuditLog} {id : Int} {row : AuditLog}
    (h : store columns r.timestamp (consume sha r previousLog id) = some row) :
    (Survives columns r → Recomputes sha row) ∧
      ((calculateHash (digestAt sha utc) row =
            calculateHash (digestAt sha r.timestamp) (consume sha r previousLog id) →
          rawData (digestAt sha utc) row =
            rawData (digestAt sha r.timestamp) (consume sha r previousLog id)) →
        Recomputes sha row → Survives columns r) := by
  have hiff := rawData_eq_iff_survives h
  rw [recomputes_iff h]
  constructor
  · intro hsurvives
    rw [hiff.mpr hsurvives]
  · intro hfree hsame
    exact hiff.mp (hfree hsame.symm)

/-- `AuditDbContext` on a driver that refuses offsets and cuts what is below a microsecond. -/
def auditDbContext : Columns where
  userId := some 256
  userEmail := some 256
  action := some 50
  entityName := some 256
  correlationId := some 100
  remoteIp := some 50
  timestamp := fun t => if t.offset = 0 then some (t.utcTicks - t.utcTicks % 10) else none
  micro := by
    intro t u h
    obtain ⟨-, hu⟩ := Option.ite_none_right_eq_some.mp h
    have hcut := Option.some.inj hu
    omega
  exact := by
    intro t u h hwhole
    obtain ⟨-, hu⟩ := Option.ite_none_right_eq_some.mp h
    have hcut := Option.some.inj hu
    omega

/-- An event of the first of January 2024, some ticks after midnight. -/
def received (ticks : ℤ) : Received where
  event := { cartEvent "Added" "c1" with timestamp := 638396640000000000 + ticks }
  timestamp := { utc with utcTicks := 638396640000000000 + ticks }
  ticks := rfl

/-- What is hashed of the event at midnight. -/
def midnightText : String :=
  "u1|Added|Cart|1|||" ++ ("2024-01-01T00:00:00.0000000+00:00" ++ ("|c1|" ++ genesis))

/-- SHA-256 on the texts of midnight and of one tick later. -/
def sampleSha : Sha256 where
  hash := fun text =>
    if text = midnightText then "0CDD9ADB99D376BA5C8E0EE2A358748D587DE67924B150BB6EE902A84941E68D"
    else "8A5D271FC257EB36517E54B3F6A41D152613F56B2F75195C81E92B7EF31AADFE"
  length := by
    intro text
    split <;> decide

theorem sampleSha_midnight : sampleSha.hash midnightText =
    "0CDD9ADB99D376BA5C8E0EE2A358748D587DE67924B150BB6EE902A84941E68D" := by
  simp only [sampleSha, if_true]

theorem sampleSha_other {text : String} (h : text ≠ midnightText) : sampleSha.hash text =
    "8A5D271FC257EB36517E54B3F6A41D152613F56B2F75195C81E92B7EF31AADFE" := by
  simp only [sampleSha, h, if_false]

/-- A text without the character 0 that fits is kept as it is. -/
theorem keep_whole {maxLength : Option ℕ} {text : String} (hplain : Char.ofNat 0 ∉ text.toList)
    (hfits : Fits maxLength (some text)) : keep maxLength (some text) = some (some text) := by
  cases maxLength with
  | none => simp [keep, keepText, hplain]
  | some n =>
    have hle : text.toList.length ≤ n := hfits n rfl
    simp [keep, keepText, hplain, List.drop_of_length_le hle, List.take_of_length_le hle]

theorem hash_plain (text : String) : Char.ofNat 0 ∉ (sampleSha.hash text).toList := by
  simp only [sampleSha]
  split <;> decide

/-- The events of that morning are stored, to the microsecond. -/
theorem store_received (ticks : ℤ) :
    store auditDbContext (received ticks).timestamp (consume sampleSha (received ticks) none 1) =
      some { consume sampleSha (received ticks) none 1 with
        timestamp := 638396640000000000 + ticks - (638396640000000000 + ticks) % 10 } := by
  have huserId : keep (some 256) (some "u1") = some (some "u1") := by decide
  have haction : keep (some 50) (some "Added") = some (some "Added") := by decide
  have hentityName : keep (some 256) (some "Cart") = some (some "Cart") := by decide
  have hentityId : keep none (some "1") = some (some "1") := by decide
  have hcorrelationId : keep (some 100) (some "c1") = some (some "c1") := by decide
  have hpreviousHash : keep none (some genesis) = some (some genesis) := by decide
  have hhash (text : String) :
      keep none (some (sampleSha.hash text)) = some (some (sampleSha.hash text)) :=
    keep_whole (hash_plain text) fun n hn => by cases hn
  have hnone (maxLength : Option ℕ) : keep maxLength none = some none := rfl
  simp only [store, consume, newLog, unhashedLog, received, cartEvent, auditDbContext, utc,
    calculateHash, digestAt, previousHash, huserId, haction, hentityName, hentityId,
    hcorrelationId, hpreviousHash, hhash, hnone, Option.bind_some, Option.bind_none,
    Option.getD_none, if_true, Option.bind_eq_bind]
  rfl

theorem midnight_recomputes : Recomputes sampleSha (consume sampleSha (received 0) none 1) := by
  have hstored : store auditDbContext (received 0).timestamp
      (consume sampleSha (received 0) none 1) = some (consume sampleSha (received 0) none 1) :=
    store_received 0
  have hfits : ∀ m, ∀ text : String, text.length ≤ m → Fits (some m) (some text) := by
    intro m text hle n hn
    obtain rfl := Option.some.inj hn
    exact hle
  exact (recomputes_iff_survives hstored).1 ⟨rfl, rfl, hfits 256 "u1" (by decide),
    hfits 50 "Added" (by decide), hfits 256 "Cart" (by decide), hfits 100 "c1" (by decide)⟩

/-- The last digit of a time stamp is hashed and not stored. -/
theorem last_digit_not_stored : ¬ ∀ (columns : Columns) (sha : Sha256) (r : Received)
    (previousLog : Option AuditLog) (id : Int) (row : AuditLog),
    store columns r.timestamp (consume sha r previousLog id) = some row → Recomputes sha row := by
  intro hall
  set row : AuditLog := { consume sampleSha (received 1) none 1 with
    timestamp := 638396640000000000 + 1 - (638396640000000000 + 1) % 10 } with hrow
  have hstored : store auditDbContext (received 1).timestamp
      (consume sampleSha (received 1) none 1) = some row := store_received 1
  have hbefore : before row = "u1|Added|Cart|1|||" := by decide
  have htimestamp : (digestAt sampleSha utc).timestamp row.timestamp =
      "2024-01-01T00:00:00.0000000+00:00" := by decide
  have hbars : "|" ++ "c1" ++ "|" = "|c1|" := by decide
  have hcorrelationId : row.correlationId = some "c1" := rfl
  have hpreviousHash : row.previousHash = some genesis := rfl
  have hafter : after row = "|c1|" ++ genesis := by
    simp only [after, hcorrelationId, hpreviousHash, Option.getD_some]
    exact congrArg (· ++ genesis) hbars
  have hmidnight : rawData (digestAt sampleSha utc) row = midnightText := by
    rw [rawData_eq, hbefore, htimestamp, hafter]
    rfl
  have hother : rawData (digestAt sampleSha (received 1).timestamp)
      (consume sampleSha (received 1) none 1) ≠ midnightText := by
    intro hsame
    have hsurvives := (rawData_eq_iff_survives hstored).mp (hmidnight.trans hsame.symm)
    exact absurd hsurvives.micro (by decide)
  have hsame := (recomputes_iff hstored).mp (hall _ _ _ _ _ _ hstored)
  rw [hmidnight, sampleSha_midnight, sampleSha_other hother] at hsame
  exact absurd hsame (by decide)

end AuditReadback
