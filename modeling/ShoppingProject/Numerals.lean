import Mathlib.Data.Nat.Init
import Mathlib.Tactic.Common

/-!
# Numbers as texts

A number is told by its decimal text.
-/
namespace Numerals

theorem repr_injective {m n : ℕ} (h : Nat.repr m = Nat.repr n) : m = n := by
  have hdigits := congrArg (fun s => Nat.ofDigitChars 10 s.toList 0) h
  simpa only [Nat.toList_repr, Nat.ofDigitChars_toDigits (b := 10) (by decide) (by decide)]
    using hdigits

/-- A minus sign is no digit. -/
theorem repr_ne_minus (m n : ℕ) : Nat.repr m ≠ "-" ++ Nat.repr n := by
  intro h
  have hmem : '-' ∈ (Nat.repr m).toList := by simp [h]
  rw [Nat.toList_repr] at hmem
  exact absurd (Nat.isDigit_of_mem_toDigits (by decide) (by decide) hmem) (by decide)

theorem toString_inj {m n : ℤ} : toString m = toString n ↔ m = n := by
  refine ⟨fun h => ?_, congrArg toString⟩
  cases m with
  | ofNat m => cases n with
    | ofNat n => exact congrArg Int.ofNat (repr_injective h)
    | negSucc n => exact absurd h (repr_ne_minus m (n + 1))
  | negSucc m => cases n with
    | ofNat n => exact absurd h.symm (repr_ne_minus n (m + 1))
    | negSucc n =>
      have hsucc := repr_injective ((String.append_right_inj _).mp h)
      exact congrArg Int.negSucc (Nat.succ.inj hsucc)

end Numerals
