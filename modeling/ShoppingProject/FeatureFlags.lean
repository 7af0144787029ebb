import Mathlib.Algebra.Group.Nat.Defs
import Mathlib.Data.Int.ConditionallyCompleteOrder
import Mathlib.Order.ConditionallyCompleteLattice.Basic
import Mathlib.Order.Interval.Set.OrdConnected
import ShoppingProject.DomainEvents
import ShoppingProject.TextEncodings
import ShoppingProject.Timestamps

/-!
# Feature flags

A flag is on for the users and roles it targets, and for a share of the others, who are
told apart by a hash of their ids. The hash is computed in 32 bits, and `Math.Abs` throws
for the number that has no absolute value there.
-/
namespace FeatureFlags

open DomainEvents (DateTime)
open TextEncodings (Text)
open Timestamps (DateTimeOffset)

structure FeatureFlag where
  isEnabled : Bool
  rolloutPercentage : Int32
  startDate : Option DateTime
  endDate : Option DateTime
  targetedUserIds : List Text
  targetedRoles : List Text
  deriving DecidableEq

/-- `Math.Abs`, which throws for the smallest number. -/
def abs (n : Int32) : Option Int32 := if n = Int32.minValue then none else some n.abs

/-- The loop of `ComputeHash`. -/
def rawHash (input : Text) : Int32 :=
  input.foldl (fun hash c => (((hash <<< 5) - hash) + Int32.ofNat c.toNat) ||| 0) 0

def computeHash (input : Text) : Option Int32 := abs (rawHash input)

namespace FeatureFlag

variable (flag : FeatureFlag)

/-- The dates are compared with the clock of the offset. -/
def isActive (utcNow : DateTimeOffset) : Bool :=
  if !flag.isEnabled then false
  else if flag.startDate.any fun startDate => decide (utcNow.localTicks < startDate) then false
  else if flag.endDate.any fun endDate => decide (endDate < utcNow.localTicks) then false
  else true

/-- `none` if it throws. -/
def isEnabledForUser (userId : Text) (userRoles : List Text) (utcNow : DateTimeOffset) :
    Option Bool :=
  if !flag.isActive utcNow then some false
  else if !flag.targetedUserIds.isEmpty && flag.targetedUserIds.contains userId then some true
  else if !flag.targetedRoles.isEmpty && userRoles.any flag.targetedRoles.contains then some true
  else if flag.rolloutPercentage < 100 then
    (computeHash userId).map fun hash => decide (hash % 100 < flag.rolloutPercentage)
  else some true

end FeatureFlag

/-! ## The hash -/

/-- The code units of a text as the digits of a number to base 31. -/
def polynomial (input : Text) : ℕ := input.foldl (fun n c => 31 * n + c.toNat) 0

theorem hash_step (n c : ℕ) :
    (((Int32.ofNat n <<< 5) - Int32.ofNat n) + Int32.ofNat c) ||| 0 = Int32.ofNat (31 * n + c) := by
  apply Int32.toBitVec_inj.mp
  apply BitVec.eq_of_toNat_eq
  simp only [Int32.or_zero, Int32.toBitVec_add, Int32.toBitVec_sub, Int32.toBitVec_shiftLeft,
    Int32.toBitVec_ofNat', BitVec.toNat_add, BitVec.toNat_sub, BitVec.toNat_ofNat]
  have hshift : (BitVec.ofNat 32 n <<< ((5 : Int32).toBitVec.smod 32)).toNat =
      n % 2 ^ 32 * 32 % 2 ^ 32 := by
    rw [show (5 : Int32).toBitVec.smod 32 = 5 by decide]
    simp [Nat.shiftLeft_eq]
  omega

theorem rawHash_eq (input : Text) : rawHash input = Int32.ofNat (polynomial input) := by
  have hstep : ∀ n : ℕ, input.foldl
      (fun (hash : Int32) (c : UInt16) => (((hash <<< 5) - hash) + Int32.ofNat c.toNat) ||| 0)
      (Int32.ofNat n) =
        Int32.ofNat (input.foldl (fun n c => 31 * n + c.toNat) n) := by
    induction input with
    | nil => exact fun n => rfl
    | cons c input ih =>
      intro n
      rw [List.foldl_cons, hash_step, ih, List.foldl_cons]
  exact hstep 0

theorem rawHash_minValue_iff (input : Text) :
    rawHash input = Int32.minValue ↔ polynomial input % 2 ^ 32 = 2 ^ 31 := by
  rw [rawHash_eq, ← Int32.toBitVec_inj, ← BitVec.toNat_inj]
  simp

theorem computeHash_none_iff (input : Text) :
    computeHash input = none ↔ polynomial input % 2 ^ 32 = 2 ^ 31 := by
  rw [← rawHash_minValue_iff, computeHash, abs]
  split <;> simp_all

/-- A hash with an absolute value falls into one of a hundred buckets. -/
theorem bucket_range {n hash : Int32} (h : abs n = some hash) :
    0 ≤ hash % 100 ∧ hash % 100 < 100 := by
  unfold abs at h
  split at h
  · cases h
  · case isFalse hmin =>
    obtain rfl := Option.some.inj h
    have hne : n.toBitVec ≠ BitVec.intMin 32 := fun heq => hmin (Int32.toBitVec_inj.mp heq)
    have hnatAbs : n.abs.toInt = n.toInt.natAbs := by
      rw [← Int32.toInt_toBitVec, Int32.toBitVec_abs, BitVec.toInt_abs_eq_natAbs, if_neg hne]
      rfl
    have h100 : (100 : Int32).toInt = 100 := by decide
    rw [Int32.le_iff_toInt_le, Int32.lt_iff_toInt_lt, Int32.toInt_mod, hnatAbs, h100]
    exact ⟨Int.tmod_nonneg _ (Int.natCast_nonneg _), Int.tmod_lt_of_pos _ (by decide)⟩

/-! ## Evaluation -/

variable {flag : FeatureFlag} {userId : Text} {userRoles : List Text} {utcNow : DateTimeOffset}

/-- Whether a user or one of the roles is targeted. -/
def Targeted (flag : FeatureFlag) (userId : Text) (userRoles : List Text) : Prop :=
  userId ∈ flag.targetedUserIds ∨ ∃ role ∈ userRoles, role ∈ flag.targetedRoles

instance : Decidable (Targeted flag userId userRoles) := inferInstanceAs (Decidable (_ ∨ _))

theorem targeted_user : (!flag.targetedUserIds.isEmpty && flag.targetedUserIds.contains userId) =
    true ↔ userId ∈ flag.targetedUserIds := by
  cases flag.targetedUserIds <;> simp

theorem targeted_role : (!flag.targetedRoles.isEmpty &&
    userRoles.any flag.targetedRoles.contains) = true ↔
      ∃ role ∈ userRoles, role ∈ flag.targetedRoles := by
  cases flag.targetedRoles <;> simp

/-- The branches of `IsEnabledForUser`. -/
theorem isEnabledForUser_eq : flag.isEnabledForUser userId userRoles utcNow =
    if flag.isActive utcNow = true then
      if Targeted flag userId userRoles then some true
      else if flag.rolloutPercentage < 100 then
        (computeHash userId).map fun hash => decide (hash % 100 < flag.rolloutPercentage)
      else some true
    else some false := by
  unfold FeatureFlag.isEnabledForUser
  simp only [targeted_user, targeted_role]
  cases flag.isActive utcNow with
  | false => rfl
  | true =>
    by_cases huser : userId ∈ flag.targetedUserIds
    · simp [Targeted, huser]
    · by_cases hrole : ∃ role ∈ userRoles, role ∈ flag.targetedRoles <;>
        simp [Targeted, huser, hrole]

/-- The evaluation returns, and the bucket, if one is computed, is one of a hundred. -/
def Total (flag : FeatureFlag) (userId : Text) (userRoles : List Text) (utcNow : DateTimeOffset) :
    Prop :=
  (flag.isEnabledForUser userId userRoles utcNow).isSome ∧
    ∀ hash ∈ computeHash userId, 0 ≤ hash % 100 ∧ hash % 100 < 100

/-- The evaluation fails for the others of a share if the hash has no absolute value. -/
theorem total_iff (flag : FeatureFlag) (userId : Text) (userRoles : List Text)
    (utcNow : DateTimeOffset) : Total flag userId userRoles utcNow ↔
      ¬ (flag.isActive utcNow = true ∧ ¬ Targeted flag userId userRoles ∧
        flag.rolloutPercentage < 100 ∧ polynomial userId % 2 ^ 32 = 2 ^ 31) := by
  have hrange : ∀ hash ∈ computeHash userId, 0 ≤ hash % 100 ∧ hash % 100 < 100 :=
    fun hash hhash => bucket_range hhash
  rw [Total, and_iff_left hrange, ← computeHash_none_iff, isEnabledForUser_eq]
  split
  · split
    · simp [*]
    · split
      · simp [*, Option.isSome_iff_ne_none]
      · simp [*]
  · simp [*]

/-- The id `polygenelubricants`. -/
def polygenelubricants : Text :=
  "polygenelubricants".toList.map fun c => UInt16.ofNat c.toNat

def half : FeatureFlag := ⟨true, 50, none, none, [], []⟩

def midnight : DateTimeOffset := ⟨0, 0, Timestamps.lower_zero, Timestamps.upper_zero⟩

theorem polygenelubricants_throws : ¬ Total half polygenelubricants [] midnight := by
  rintro ⟨hsome, -⟩
  exact absurd hsome (by decide +kernel)

/-! ## Wider flags -/

/-- The same flag with a larger share, more users and more roles. -/
structure Widens (flag flag' : FeatureFlag) : Prop where
  isEnabled : flag'.isEnabled = flag.isEnabled
  startDate : flag'.startDate = flag.startDate
  endDate : flag'.endDate = flag.endDate
  rolloutPercentage : flag.rolloutPercentage ≤ flag'.rolloutPercentage
  targetedUserIds : flag.targetedUserIds ⊆ flag'.targetedUserIds
  targetedRoles : flag.targetedRoles ⊆ flag'.targetedRoles

variable {flag' : FeatureFlag}

theorem Widens.isActive (h : Widens flag flag') (utcNow : DateTimeOffset) :
    flag'.isActive utcNow = flag.isActive utcNow := by
  rw [FeatureFlag.isActive, FeatureFlag.isActive, h.isEnabled, h.startDate, h.endDate]

theorem Widens.targeted (h : Widens flag flag') (ht : Targeted flag userId userRoles) :
    Targeted flag' userId userRoles := by
  rcases ht with huser | ⟨role, hmem, hrole⟩
  · exact .inl (h.targetedUserIds huser)
  · exact .inr ⟨role, hmem, h.targetedRoles hrole⟩

/-- The share of a flag that a user falls into, if it is one of the others. -/
def InShare (flag : FeatureFlag) (userId : Text) : Prop :=
  100 ≤ flag.rolloutPercentage ∨ ∃ hash ∈ computeHash userId, hash % 100 < flag.rolloutPercentage

theorem on_iff : flag.isEnabledForUser userId userRoles utcNow = some true ↔
    flag.isActive utcNow = true ∧ (Targeted flag userId userRoles ∨ InShare flag userId) := by
  rw [isEnabledForUser_eq, InShare]
  cases flag.isActive utcNow with
  | false => simp
  | true =>
    by_cases ht : Targeted flag userId userRoles
    · simp [ht]
    · by_cases hlt : flag.rolloutPercentage < 100
      · have hpart : ¬ 100 ≤ flag.rolloutPercentage := by
          rwa [Int32.not_le]
        simp [ht, hlt, hpart, Option.map_eq_some_iff]
      · simp [ht, hlt, Int32.not_lt.mp hlt]

theorem Widens.inShare (h : Widens flag flag') (hshare : InShare flag userId) :
    InShare flag' userId := by
  rcases hshare with hall | ⟨hash, hhash, hlt⟩
  · exact .inl (Int32.le_trans hall h.rolloutPercentage)
  · exact .inr ⟨hash, hhash, Int32.lt_of_lt_of_le hlt h.rolloutPercentage⟩

/-- The same clock at another instant. -/
def atInstant (clock : DateTimeOffset) (utcTicks : ℤ) : DateTimeOffset :=
  { clock with utcTicks := utcTicks }

theorem localTicks_mono (clock : DateTimeOffset) {first last : ℤ} (h : first ≤ last) :
    (atInstant clock first).localTicks ≤ (atInstant clock last).localTicks :=
  Int.add_le_add_right h _

/-- The dates say from when to when a flag is active. -/
theorem isActive_iff : flag.isActive utcNow = true ↔ flag.isEnabled = true ∧
    (∀ startDate ∈ flag.startDate, startDate ≤ utcNow.localTicks) ∧
    ∀ endDate ∈ flag.endDate, utcNow.localTicks ≤ endDate := by
  unfold FeatureFlag.isActive
  cases flag.isEnabled <;> cases flag.startDate <;> cases flag.endDate <;> simp

/-- A wider flag is on wherever the flag is, and a flag is on without a gap. -/
theorem rollout_monotone (flag : FeatureFlag) (userId : Text) (userRoles : List Text)
    (clock : DateTimeOffset) :
    (∀ flag', Widens flag flag' → flag.isEnabledForUser userId userRoles clock = some true →
      flag'.isEnabledForUser userId userRoles clock = some true) ∧
    Set.OrdConnected { utcTicks : ℤ |
      flag.isEnabledForUser userId userRoles (atInstant clock utcTicks) = some true } := by
  constructor
  · intro flag' h hon
    rw [on_iff] at hon ⊢
    exact ⟨(h.isActive clock).trans hon.1, hon.2.imp h.targeted h.inShare⟩
  · refine ⟨fun first hfirst last hlast between ⟨hafter, hbefore⟩ => ?_⟩
    rw [Set.mem_ofPred_eq, on_iff, isActive_iff] at hfirst hlast ⊢
    obtain ⟨⟨henabled, hstart, -⟩, huser⟩ := hfirst
    obtain ⟨⟨-, -, hend⟩, -⟩ := hlast
    refine ⟨⟨henabled, fun startDate hs => ?_, fun endDate he => ?_⟩, huser⟩
    · exact (hstart startDate hs).trans (localTicks_mono clock hafter)
    · exact (localTicks_mono clock hbefore).trans (hend endDate he)

/-- The user `1` is in half of the users, and so in three quarters. -/
theorem one_stays :
    (⟨true, 75, none, none, [], [[65]]⟩ : FeatureFlag).isEnabledForUser [49] [] midnight =
      some true ∧
    Set.OrdConnected { utcTicks : ℤ |
      half.isEnabledForUser [49] [] (atInstant midnight utcTicks) = some true } :=
  let h := rollout_monotone half [49] [] midnight
  ⟨h.1 _ ⟨rfl, rfl, rfl, by decide, fun _ => id, by decide⟩ (by decide), h.2⟩

end FeatureFlags
