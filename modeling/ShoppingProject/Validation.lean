import Mathlib.Data.Rat.Defs
import Mathlib.Algebra.Order.Ring.Rat
import Mathlib.Algebra.Ring.Nat
import Mathlib.Tactic.Common

/-!
# Validators

Rules on a request, each with the property and the message it reports. A
validator reports the failures of all its rules, in their order. Strings are
judged as .NET judges them: white space by its Unicode table and lengths in
UTF-16 units.
-/
namespace Validation

variable {α : Type}

structure Failure where
  propertyName : String
  errorMessage : String
  deriving DecidableEq, Repr

abbrev Rule (α : Type) := α → List Failure

def rule (propertyName errorMessage : String) (valid : α → Bool) : Rule α := fun x =>
  if valid x then [] else [⟨propertyName, errorMessage⟩]

def validate (rules : List (Rule α)) (x : α) : List Failure := rules.flatMap fun r => r x

def isWhiteSpace (c : Char) : Bool :=
  let n := c.toNat
  (9 ≤ n && n ≤ 13) || n == 0x20 || n == 0x85 || n == 0xA0 || n == 0x1680 ||
    (0x2000 ≤ n && n ≤ 0x200A) || n == 0x2028 || n == 0x2029 || n == 0x202F || n == 0x205F ||
    n == 0x3000

def isNullOrWhiteSpace : Option String → Bool
  | none => true
  | some s => s.toList.all isWhiteSpace

/-- `string.Length`. -/
def utf16Length (s : String) : Nat :=
  (s.toList.map fun c => if c.toNat ≤ 0xFFFF then 1 else 2).sum

def notEmpty (propertyName errorMessage : String) (get : α → String) : Rule α :=
  rule propertyName errorMessage fun x => !isNullOrWhiteSpace (some (get x))

/-- The rule for numbers, whose default value counts as empty. -/
def notZero (propertyName errorMessage : String) (get : α → Int) : Rule α :=
  rule propertyName errorMessage fun x => get x != 0

/-- One `@` that is neither the first nor the last character. -/
def isEmailAddress (s : String) : Bool :=
  s.toList.count '@' == 1 && s.toList.head? != some '@' && s.toList.getLast? != some '@'

def emailAddress (propertyName errorMessage : String) (get : α → String) : Rule α :=
  rule propertyName errorMessage fun x => isEmailAddress (get x)

def minimumLength (n : Nat) (propertyName errorMessage : String) (get : α → String) : Rule α :=
  rule propertyName errorMessage fun x => decide (n ≤ utf16Length (get x))

def maximumLength (n : Nat) (propertyName errorMessage : String) (get : α → String) : Rule α :=
  rule propertyName errorMessage fun x => decide (utf16Length (get x) ≤ n)

def greaterThan (bound : ℚ) (propertyName errorMessage : String) (get : α → ℚ) : Rule α :=
  rule propertyName errorMessage fun x => decide (bound < get x)

def greaterThanOrEqualTo (bound : ℚ) (propertyName errorMessage : String) (get : α → ℚ) :
    Rule α :=
  rule propertyName errorMessage fun x => decide (bound ≤ get x)

@[simp] theorem rule_eq_nil_iff (propertyName errorMessage : String) (valid : α → Bool) (x : α) :
    rule propertyName errorMessage valid x = [] ↔ valid x = true := by
  unfold rule
  split <;> simp [*]

/-- A request is accepted exactly if no rule objects. -/
@[simp] theorem validate_eq_nil_iff (rules : List (Rule α)) (x : α) :
    validate rules x = [] ↔ ∀ r ∈ rules, r x = [] := by
  simp [validate, List.flatMap_eq_nil_iff]

end Validation
