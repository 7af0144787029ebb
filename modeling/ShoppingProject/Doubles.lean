import Mathlib.Algebra.Order.Ring.Abs
import Mathlib.Algebra.Ring.Int.Parity
import Mathlib.Data.Int.Log
import Mathlib.Data.Rat.Floor
import Mathlib.Tactic.FieldSimp
import Mathlib.Tactic.Linarith
import Mathlib.Tactic.Positivity
import Mathlib.Tactic.Ring

/-!
# Double precision

Rationals stand for the numbers of 64-bit floating point. A result is the nearest number
with 53 significant bits, and of two that are as near the one with an even last bit.
Nothing here is large enough to become infinite.
-/
namespace Doubles

/-- The nearest integer. -/
def roundHalfEven (q : ℚ) : ℤ :=
  if q - ⌊q⌋ < 1 / 2 then ⌊q⌋
  else if 1 / 2 < q - ⌊q⌋ then ⌊q⌋ + 1
  else if Even ⌊q⌋ then ⌊q⌋ else ⌊q⌋ + 1

/-- The weight of the last bit in a number of this size. -/
def lastPlace (q : ℚ) : ℚ := 2 ^ max (Int.log 2 |q| - 52) (-1074)

def toDouble (q : ℚ) : ℚ := roundHalfEven (q / lastPlace q) * lastPlace q

/-- `a / (double)b`. -/
def divide (a b : ℤ) : ℚ := toDouble (a / b)

theorem lastPlace_pos (q : ℚ) : 0 < lastPlace q := zpow_pos two_pos _

theorem roundHalfEven_intCast (n : ℤ) : roundHalfEven n = n := by
  simp [roundHalfEven]

theorem abs_roundHalfEven_sub_le (q : ℚ) : |(roundHalfEven q : ℚ) - q| ≤ 1 / 2 := by
  have hfloor := Int.floor_le q
  have hceil := Int.lt_floor_add_one q
  unfold roundHalfEven
  split
  · rw [abs_le]
    constructor <;> linarith
  · split
    · push_cast
      rw [abs_le]
      constructor <;> linarith
    · split
      · rw [abs_le]
        constructor <;> linarith
      · push_cast
        rw [abs_le]
        constructor <;> linarith

/-- A result is off by half a last bit at most. -/
theorem abs_toDouble_sub_le (q : ℚ) : |toDouble q - q| ≤ lastPlace q / 2 := by
  have hpos := lastPlace_pos q
  have hscale : toDouble q - q =
      ((roundHalfEven (q / lastPlace q) : ℚ) - q / lastPlace q) * lastPlace q := by
    unfold toDouble
    field_simp
  rw [hscale, abs_mul, abs_of_pos hpos]
  have hround := abs_roundHalfEven_sub_le (q / lastPlace q)
  calc _ ≤ 1 / 2 * lastPlace q := by gcongr
    _ = lastPlace q / 2 := by ring

/-- The last bit of a number that is not tiny is 2^-52 of it at most. -/
theorem lastPlace_le {q : ℚ} (hpos : 0 < q) (hnormal : (2 : ℚ) ^ (-1022 : ℤ) ≤ q) :
    lastPlace q ≤ q * 2 ^ (-52 : ℤ) := by
  have hlog : -1022 ≤ Int.log 2 q := (Int.zpow_le_iff_le_log Nat.one_lt_two hpos).mp hnormal
  have hpow : (2 : ℚ) ^ Int.log 2 q ≤ q := Int.zpow_log_le_self Nat.one_lt_two hpos
  unfold lastPlace
  rw [abs_of_pos hpos, max_eq_left (by omega), sub_eq_add_neg, zpow_add₀ two_ne_zero]
  gcongr

/-- Integers up to 2^53 are doubles. -/
theorem toDouble_natCast {n : ℕ} (h : n < 2 ^ 53) : toDouble n = n := by
  have hlog : Int.log 2 (n : ℚ) ≤ 52 := by
    rw [Int.log_natCast]
    have hlt : Nat.log 2 n < 53 := Nat.log_lt_of_lt_pow' (by decide) h
    omega
  obtain ⟨k, hk⟩ : ∃ k : ℕ, lastPlace n = 1 / 2 ^ k := by
    refine ⟨(-max (Int.log 2 (n : ℚ) - 52) (-1074)).toNat, ?_⟩
    unfold lastPlace
    rw [abs_of_nonneg (Nat.cast_nonneg n), one_div, ← zpow_natCast, ← zpow_neg]
    congr 1
    omega
  have hscaled : (n : ℚ) / lastPlace n = ((n * 2 ^ k : ℕ) : ℤ) := by
    rw [hk]
    push_cast
    field_simp
  unfold toDouble
  rw [hscaled, roundHalfEven_intCast, ← hscaled]
  exact div_mul_cancel₀ _ (lastPlace_pos _).ne'

/-- Between two neighbouring integers a quotient stays between them: it is at least
`1 / b` away from both, which is more than the error. -/
theorem divide_between {a b q r : ℕ} (ha : a < 2 ^ 53) (hb : b < 2 ^ 53) (hdiv : a = b * q + r)
    (hr : 0 < r) (hrb : r < b) : (q : ℚ) < divide a b ∧ divide a b < q + 1 := by
  have hbpos : (0 : ℚ) < b := by exact_mod_cast hr.trans hrb
  have hapos : (0 : ℚ) < a := by exact_mod_cast (by omega : 0 < a)
  have hquot : (a : ℚ) / b = q + r / b := by
    rw [hdiv]
    push_cast
    field_simp
  have hlow : 1 / (b : ℚ) ≤ r / b := by
    gcongr
    exact_mod_cast hr
  have hhigh : (r : ℚ) / b ≤ 1 - 1 / b := by
    rw [le_sub_iff_add_le, ← add_div, div_le_one hbpos]
    exact_mod_cast hrb
  have hnormal : (2 : ℚ) ^ (-1022 : ℤ) ≤ a / b := by
    have hone : (1 : ℚ) ≤ a := by exact_mod_cast (by omega : 1 ≤ a)
    have hcast : (b : ℚ) ≤ 2 ^ 53 := by exact_mod_cast hb.le
    calc (2 : ℚ) ^ (-1022 : ℤ) ≤ 2 ^ (-53 : ℤ) := zpow_le_zpow_right₀ one_le_two (by decide)
      _ = 1 / 2 ^ 53 := by norm_num
      _ ≤ a / b := by gcongr
  have herror : |divide a b - a / b| < 1 / b := by
    have hcast : (a : ℚ) < 2 ^ 53 := by exact_mod_cast ha
    calc |divide a b - a / b| ≤ lastPlace (a / b) / 2 := by
          simpa [divide] using abs_toDouble_sub_le ((a : ℚ) / b)
      _ ≤ a / b * 2 ^ (-52 : ℤ) / 2 := by
          have hlast := lastPlace_le (div_pos hapos hbpos) hnormal
          gcongr
      _ = a / 2 ^ 53 / b := by
          norm_num
          ring
      _ < 1 / b := by
          gcongr
          rw [div_lt_one (by positivity)]
          exact hcast
  rw [abs_lt, hquot] at herror
  constructor <;> linarith [herror.1, herror.2]

/-- Rounding a quotient up gives the same, whether it is exact or a double. -/
theorem ceil_divide {a b : ℕ} (ha : a < 2 ^ 53) (hb : b < 2 ^ 53) (hpos : 0 < b) :
    ⌈divide a b⌉ = ⌈(a : ℚ) / b⌉ := by
  have hcast : (0 : ℚ) < b := by exact_mod_cast hpos
  obtain ⟨q, r, rfl, hrb⟩ : ∃ q r, a = b * q + r ∧ r < b :=
    ⟨a / b, a % b, (Nat.div_add_mod a b).symm, Nat.mod_lt a hpos⟩
  have hquot : ((b * q + r : ℕ) : ℚ) / b = q + r / b := by
    push_cast
    field_simp
  rcases Nat.eq_zero_or_pos r with rfl | hr
  · have hsmall : q < 2 ^ 53 := lt_of_le_of_lt (Nat.le_mul_of_pos_left q hpos) ha
    have hinteger : ((b * q + 0 : ℕ) : ℚ) / b = q := by simpa using hquot
    have hexact : divide (b * q + 0 : ℕ) b = q := by
      unfold divide
      rw [Int.cast_natCast, Int.cast_natCast, hinteger]
      exact toDouble_natCast hsmall
    rw [hexact, hinteger]
  · obtain ⟨hlow, hhigh⟩ := divide_between ha hb rfl hr hrb
    have hfrac : (0 : ℚ) < r / b := by positivity
    have hfrac' : (r : ℚ) / b < 1 := by
      rw [div_lt_one hcast]
      exact_mod_cast hrb
    have hdouble : ⌈divide (b * q + r : ℕ) b⌉ = (q : ℤ) + 1 := by
      rw [Int.ceil_eq_iff]
      push_cast at hlow hhigh ⊢
      constructor <;> linarith
    have hexact : ⌈((b * q + r : ℕ) : ℚ) / b⌉ = (q : ℤ) + 1 := by
      rw [Int.ceil_eq_iff, hquot]
      push_cast
      constructor <;> linarith
    rw [hdouble, hexact]

end Doubles
