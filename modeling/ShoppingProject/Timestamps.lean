import Mathlib.Data.Int.Order.Basic
import Mathlib.Tactic.Common

/-!
# Instants with an offset, and their round-trip format

An instant is counted in ticks of 100 nanoseconds from the first of January of the year 1,
an offset in minutes. The format `O` writes the local time to the tick and the offset.
-/
namespace Timestamps

structure DateTimeOffset where
  utcTicks : ℤ
  offset : ℤ
  lower : -840 ≤ offset
  upper : offset ≤ 840

theorem lower_zero : (-840 : ℤ) ≤ 0 := by decide

theorem upper_zero : (0 : ℤ) ≤ 840 := by decide

def digit (d : ℤ) : Char := Char.ofNat ('0'.toNat + (d % 10).toNat)

/-- The last `width` decimal digits of a number. -/
def digits : ℕ → ℤ → List Char
  | 0, _ => []
  | width + 1, n => digits width (n / 10) ++ [digit n]

/-- Year, month and day of a day number; years are taken to begin in March. -/
def civil (day : ℤ) : ℤ × ℤ × ℤ :=
  let dayOfEra := (day + 306) % 146097
  let yearOfEra := (dayOfEra - dayOfEra / 1460 + dayOfEra / 36524 - dayOfEra / 146096) / 365
  let dayOfYear := dayOfEra - (365 * yearOfEra + yearOfEra / 4 - yearOfEra / 100)
  let march := (5 * dayOfYear + 2) / 153
  let month := if march < 10 then march + 3 else march - 9
  ((day + 306) / 146097 * 400 + yearOfEra + (if month ≤ 2 then 1 else 0), month,
    dayOfYear - (153 * march + 2) / 5 + 1)

namespace DateTimeOffset

def localTicks (t : DateTimeOffset) : ℤ := t.utcTicks + t.offset * 600000000

/-- `yyyy-MM-ddTHH:mm:ss`. -/
def seconds (t : DateTimeOffset) : List Char :=
  let (year, month, day) := civil (t.localTicks / 864000000000)
  digits 4 year ++ '-' :: digits 2 month ++ '-' :: digits 2 day ++
    'T' :: digits 2 (t.localTicks / 36000000000 % 24) ++
    ':' :: digits 2 (t.localTicks / 600000000 % 60) ++
    ':' :: digits 2 (t.localTicks / 10000000 % 60)

/-- `zzz`. -/
def offsetText (offset : ℤ) : List Char :=
  (if 0 ≤ offset then '+' else '-') ::
    (digits 2 (offset.natAbs / 60) ++ ':' :: digits 2 (offset.natAbs % 60))

/-- `ToString("O")`. -/
def roundTrip (t : DateTimeOffset) : List Char :=
  t.seconds ++ '.' :: (digits 7 t.localTicks ++ offsetText t.offset)

end DateTimeOffset

/-- The day before the first of March of a leap year. -/
example : String.ofList (DateTimeOffset.roundTrip ⟨638448479999999999, 120, by decide, by decide⟩) =
    "2024-03-01T01:59:59.9999999+02:00" := by decide +kernel

theorem digit_toNat (d : ℤ) : (digit d).toNat = 48 + (d % 10).toNat := by
  have hsmall : ∀ k < 10, (Char.ofNat ('0'.toNat + k)).toNat = 48 + k := by decide
  have hlower : 0 ≤ d % 10 := Int.emod_nonneg d (by decide)
  have hupper : d % 10 < 10 := Int.emod_lt_of_pos d (by decide)
  exact hsmall (d % 10).toNat (by omega)

theorem digit_inj {a b : ℤ} (h : digit a = digit b) : a % 10 = b % 10 := by
  have hnat : 48 + (a % 10).toNat = 48 + (b % 10).toNat := by
    rw [← digit_toNat, ← digit_toNat, h]
  have ha : 0 ≤ a % 10 := Int.emod_nonneg a (by decide)
  have hb : 0 ≤ b % 10 := Int.emod_nonneg b (by decide)
  omega

@[simp] theorem digits_length (width : ℕ) (n : ℤ) : (digits width n).length = width := by
  induction width generalizing n with
  | zero => rfl
  | succ width ih => simp [digits, ih]

theorem digits_succ_inj {width : ℕ} {a b : ℤ} (h : digits (width + 1) a = digits (width + 1) b) :
    digits width (a / 10) = digits width (b / 10) ∧ a % 10 = b % 10 := by
  obtain ⟨hhigh, hlow⟩ := List.append_inj h (by simp)
  exact ⟨hhigh, digit_inj (List.cons.inj hlow).1⟩

theorem digits_two_inj {a b : ℤ} (h : digits 2 a = digits 2 b) : a % 100 = b % 100 := by
  obtain ⟨hhigh, hlow⟩ := digits_succ_inj h
  have htens := (digits_succ_inj hhigh).2
  omega

namespace DateTimeOffset

@[simp] theorem seconds_length (t : DateTimeOffset) : t.seconds.length = 19 := by
  simp [seconds]

@[simp] theorem offsetText_length (offset : ℤ) : (offsetText offset).length = 6 := by
  simp [offsetText]

theorem roundTrip_length (t : DateTimeOffset) : t.roundTrip.length = 33 := by
  simp [roundTrip]

/-- No two offsets have one text. -/
theorem offset_eq {a b : DateTimeOffset} (h : offsetText a.offset = offsetText b.offset) :
    a.offset = b.offset := by
  obtain ⟨hsign, hrest⟩ := List.cons.inj h
  obtain ⟨hhours, hminutes⟩ := List.append_inj hrest (by simp)
  have hhours := digits_two_inj hhours
  have hminutes := digits_two_inj (List.cons.inj hminutes).2
  have hsame : 0 ≤ a.offset ↔ 0 ≤ b.offset := by
    by_cases ha : 0 ≤ a.offset <;> by_cases hb : 0 ≤ b.offset <;> simp [ha, hb] at hsign ⊢
  have ha := a.lower
  have ha' := a.upper
  have hb := b.lower
  have hb' := b.upper
  omega

/-- Instants with one text have one last digit and one offset. -/
theorem roundTrip_last {a b : DateTimeOffset} (h : a.roundTrip = b.roundTrip) :
    a.localTicks % 10 = b.localTicks % 10 ∧ a.offset = b.offset := by
  obtain ⟨-, hrest⟩ := List.append_inj h (by simp)
  obtain ⟨hfraction, hoffset⟩ := List.append_inj (List.cons.inj hrest).2 (by simp)
  exact ⟨(digits_succ_inj hfraction).2, offset_eq hoffset⟩

end DateTimeOffset

end Timestamps
