import Mathlib.Logic.Nontrivial.Basic
import ShoppingProject.AuditChain
import ShoppingProject.Joins

/-!
# What the hash of an audit log shows

The text that is hashed leaves out three of the stored fields, writes nothing for null,
and puts a bar between fields that may contain bars themselves.
-/
namespace AuditEvidence

open AuditChain
open Joins

/-- The fields that are stored beside `Id` and `Hash`. -/
def stored (log : AuditLog) : AuditLog := { log with id := 0, hash := none }

/-- The logs agree on every stored field other than `Id` and `Hash`. -/
def Agree (a b : AuditLog) : Prop := stored a = stored b

instance : DecidableRel Agree := fun _ _ => inferInstanceAs (Decidable (_ = _))

/-- The texts between the bars. -/
def texts (digest : Digest) (log : AuditLog) : List String :=
  [log.userId.getD "", log.action.getD "", log.entityName.getD "", log.entityId.getD "",
    log.oldValues.getD "", log.newValues.getD "", digest.timestamp log.timestamp,
    log.correlationId.getD "", log.previousHash.getD ""]

def words (digest : Digest) (log : AuditLog) : List (List Char) :=
  (texts digest log).map String.toList

/-- A text with the others strung to it by bars. -/
theorem toList_bars (text : String) (others : List String) :
    (others.foldl (fun s t => s ++ "|" ++ t) text).toList =
      ['|'].intercalate (text.toList :: others.map String.toList) := by
  induction others generalizing text with
  | nil => simp
  | cons other others ih =>
    rw [List.foldl_cons, ih, List.map_cons, List.intercalate_cons_cons]
    cases others with
    | nil => simp
    | cons next others => simp

theorem rawData_toList (digest : Digest) (log : AuditLog) :
    (rawData digest log).toList = ['|'].intercalate (words digest log) :=
  toList_bars _ (texts digest log).tail

theorem words_ne_nil (digest : Digest) (log : AuditLog) : words digest log ≠ [] :=
  List.cons_ne_nil _ _

/-- The texts are cut at every bar that they contain themselves. -/
def fragments (digest : Digest) (log : AuditLog) : List (List Char) :=
  pieces '|' (words digest log)

theorem rawData_eq_iff (digest : Digest) (a b : AuditLog) :
    rawData digest a = rawData digest b ↔ fragments digest a = fragments digest b := by
  rw [← String.toList_inj, rawData_toList, rawData_toList]
  exact join_eq_iff '|' (words_ne_nil digest a) (words_ne_nil digest b)

/-- SHA-256 does not collide on the texts of the two logs. -/
def NoCollision (digest : Digest) (a b : AuditLog) : Prop :=
  calculateHash digest a = calculateHash digest b → rawData digest a = rawData digest b

/-- None of the hashed texts has a bar in it. -/
def Unbarred (digest : Digest) (log : AuditLog) : Prop :=
  ∀ text ∈ texts digest log, '|' ∉ text.toList

theorem Unbarred.fragments {digest : Digest} {log : AuditLog} (h : Unbarred digest log) :
    fragments digest log = words digest log := by
  refine pieces_free '|' fun word hword => ?_
  obtain ⟨text, htext, rfl⟩ := List.mem_map.mp hword
  exact h text htext

/-- Without bars in the hashed texts a change of one of them changes the hash, if SHA-256
does not collide. -/
theorem unbarred_shown {digest : Digest} {a b : AuditLog} (ha : Unbarred digest a)
    (hb : Unbarred digest b) (hfree : NoCollision digest a b) :
    calculateHash digest a = calculateHash digest b ↔ texts digest a = texts digest b := by
  have htexts : rawData digest a = rawData digest b ↔ texts digest a = texts digest b := by
    rw [rawData_eq_iff, ha.fragments, hb.fragments]
    exact (List.map_injective_iff.mpr fun _ _ => String.toList_inj.mp).eq_iff
  exact ⟨fun h => htexts.mp (hfree h), fun h => congrArg digest.sha256 (htexts.mpr h)⟩

theorem unbarred_deletion :
    calculateHash sampleDigest (unhashedLog (cartEvent "Added" "c1") none 1) ≠
      calculateHash sampleDigest (unhashedLog (cartEvent "Deleted" "c1") none 1) := by
  have hshown := @unbarred_shown sampleDigest (unhashedLog (cartEvent "Added" "c1") none 1)
    (unhashedLog (cartEvent "Deleted" "c1") none 1) (by unfold Unbarred; decide)
    (by unfold Unbarred; decide) (by unfold NoCollision; decide)
  rw [ne_eq, hshown]
  decide

/-- The hashed text tells the log from every other one. -/
def TextEvident (digest : Digest) (log : AuditLog) : Prop :=
  ∀ other, rawData digest log = rawData digest other → Agree log other

/-- The hash does. -/
def Evident (digest : Digest) (log : AuditLog) : Prop :=
  ∀ other, calculateHash digest log = calculateHash digest other → Agree log other

/-- Every log can be changed without a change of the text or the hash. -/
theorem never_evident (digest : Digest) (log : AuditLog) :
    ¬ TextEvident digest log ∧ ¬ Evident digest log := by
  obtain ⟨email, hemail⟩ := exists_ne log.userEmail
  have hdiffer : ¬ Agree log { log with userEmail := email } := by
    intro hagree
    exact hemail (congrArg AuditLog.userEmail hagree).symm
  exact ⟨fun h => hdiffer (h _ rfl), fun h => hdiffer (h _ rfl)⟩

/-- Two logs of one event whose users have different addresses. -/
def sampleLog (email : String) : AuditLog where
  id := 1
  userId := some "u1"
  userEmail := some email
  action := some "Modified"
  entityName := some "Product"
  entityId := some "7"
  oldValues := none
  newValues := none
  timestamp := 0
  correlationId := none
  remoteIp := none
  userAgent := none
  previousHash := some genesis
  hash := none

/-- The address of the user can be changed, whatever the digest. -/
theorem email_not_hashed :
    (∀ digest : Digest, rawData digest (sampleLog "ada@example.org") =
        rawData digest (sampleLog "eve@example.org")) ∧
      ¬ Agree (sampleLog "ada@example.org") (sampleLog "eve@example.org") :=
  ⟨fun _ => rfl, by decide⟩

end AuditEvidence
