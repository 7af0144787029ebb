import Mathlib.Algebra.Group.Nat.Defs
import Mathlib.Data.List.Basic
import Mathlib.Tactic.Common

/-!
# Reading GUIDs

`Guid.TryParse` knows five formats: 32 hexadecimal digits, the same in groups with
hyphens, these in braces or in parentheses, and eleven hexadecimal numbers in nested
braces. Which characters are white space around them is a parameter.
-/
namespace Guids

abbrev Guid := BitVec 128

def hexDigit (c : Char) : Option ℕ :=
  if '0' ≤ c ∧ c ≤ '9' then some (c.toNat - '0'.toNat)
  else if 'a' ≤ c ∧ c ≤ 'f' then some (c.toNat - 'a'.toNat + 10)
  else if 'A' ≤ c ∧ c ≤ 'F' then some (c.toNat - 'A'.toNat + 10)
  else none

def hexNumber (digits : List Char) : Option ℕ :=
  if digits = [] then none
  else digits.foldlM (fun n c => (hexDigit c).map fun digit => 16 * n + digit) 0

/-- Format `N`. -/
def tryParseExactN (text : List Char) : Option Guid :=
  if text.length = 32 then (hexNumber text).map (BitVec.ofNat 128) else none

/-- Format `D`. -/
def tryParseExactD (text : List Char) : Option Guid :=
  if text.length = 36 ∧ ∀ i ∈ [8, 13, 18, 23], text[i]? = some '-' then
    tryParseExactN (text.filter (· ≠ '-'))
  else none

/-- Formats `B` and `P`. -/
def tryParseEnclosed (first last : Char) (text : List Char) : Option Guid :=
  if text.head? = some first ∧ text.getLast? = some last then tryParseExactD text.tail.dropLast
  else none

/-- A number of format `X`, of so many bits. -/
def prefixedNumber (bits : ℕ) : List Char → Option ℕ
  | '0' :: x :: digits =>
    if x = 'x' ∨ x = 'X' then (hexNumber digits).filter (· < 2 ^ bits) else none
  | _ => none

/-- Format `X`. -/
def tryParseExactX (text : List Char) : Option Guid :=
  if text.head? = some '{' ∧ text.drop (text.length - 2) = ['}', '}'] then
    match text.tail.dropLast.dropLast.splitOn ',' with
    | a :: b :: c :: ('{' :: d) :: bytes =>
      if bytes.length = 7 then do
        let a ← prefixedNumber 32 a
        let b ← prefixedNumber 16 b
        let c ← prefixedNumber 16 c
        let bytes ← (d :: bytes).mapM (prefixedNumber 8)
        return BitVec.ofNat 128
          (bytes.foldl (fun n byte => 256 * n + byte) (2 ^ 32 * a + 2 ^ 16 * b + c))
      else none
    | _ => none
  else none

variable (isWhiteSpace : Char → Bool)

def trim (text : List Char) : List Char :=
  ((text.dropWhile isWhiteSpace).reverse.dropWhile isWhiteSpace).reverse

/-- `Guid.TryParse`. -/
def tryParse (text : String) : Option Guid :=
  match trim isWhiteSpace text.toList with
  | [] => none
  | '(' :: rest => tryParseEnclosed '(' ')' ('(' :: rest)
  | '{' :: rest =>
    if '-' ∈ rest then tryParseEnclosed '{' '}' ('{' :: rest)
    else tryParseExactX (('{' :: rest).filter fun c => !isWhiteSpace c)
  | first :: rest =>
    if '-' ∈ first :: rest then tryParseExactD (first :: rest) else tryParseExactN (first :: rest)

example : tryParse (· == ' ') " 00000000-0000-0000-0000-0000000000fF" = some 255 := by
  decide +kernel

example : tryParse (· == ' ')
    "{0x0,0x0,0x1,{0x00,0x00,0x00,0x00,0x00,0x00,0x00,0xff}}" = some 0x100000000000000ff := by
  decide +kernel

theorem trim_subset (text : List Char) : trim isWhiteSpace text ⊆ text := by
  intro c hc
  have hc := List.dropWhile_subset _ (List.mem_reverse.mp hc)
  exact List.dropWhile_subset _ (List.mem_reverse.mp hc)

theorem trim_length_le (text : List Char) : (trim isWhiteSpace text).length ≤ text.length := by
  have houter := (List.dropWhile_sublist isWhiteSpace
    (l := (text.dropWhile isWhiteSpace).reverse)).length_le
  have hinner := (List.dropWhile_sublist isWhiteSpace (l := text)).length_le
  rw [List.length_reverse] at houter
  unfold trim
  rw [List.length_reverse]
  omega

/-- Without brackets a GUID has 32 characters at least. -/
theorem tryParse_of_short {text : String} (hshort : text.toList.length < 32)
    (hplain : ∀ c ∈ text.toList, c ≠ '(' ∧ c ≠ '{') : tryParse isWhiteSpace text = none := by
  have hlength := trim_length_le isWhiteSpace text.toList
  have hsubset := trim_subset isWhiteSpace text.toList
  unfold tryParse
  split
  · rfl
  · rename_i rest heq
    rw [heq] at hsubset
    exact absurd rfl (hplain '(' (hsubset List.mem_cons_self)).1
  · rename_i rest heq
    rw [heq] at hsubset
    exact absurd rfl (hplain '{' (hsubset List.mem_cons_self)).2
  · rename_i first rest _ _ heq
    rw [heq] at hlength
    split
    · exact if_neg fun h => by omega
    · exact if_neg fun h => by omega

/-- A decimal number of up to 31 digits is no GUID. -/
theorem tryParse_decimal {n : ℕ} (h : n < 10 ^ 31) : tryParse isWhiteSpace (toString n) = none := by
  have htext : (toString n).toList = Nat.toDigits 10 n := Nat.toList_repr
  apply tryParse_of_short
  · have hlength : (Nat.toDigits 10 n).length ≤ 31 :=
      (Nat.length_toDigits_le_iff (by decide) (by decide)).mpr h
    rw [htext]
    omega
  · intro c hc
    rw [htext] at hc
    have hdigit := Nat.isDigit_of_mem_toDigits (by decide) (by decide) hc
    constructor
    · rintro rfl
      exact absurd hdigit (by decide)
    · rintro rfl
      exact absurd hdigit (by decide)

end Guids
