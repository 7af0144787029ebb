import Mathlib.Data.Rat.Defs
import Mathlib.Tactic.Common

/-!
# JSON values

A stored or transmitted JSON text is represented by the value it spells, so
that printing a value and parsing it back is the identity. Objects keep their
fields in order, as both serializers do.
-/
inductive Json where
  | null : Json
  | bool : Bool → Json
  | num : ℚ → Json
  | str : String → Json
  | arr : List Json → Json
  | obj : List (String × Json) → Json

namespace Json

mutual

def beq : Json → Json → Bool
  | .null, .null => true
  | .bool a, .bool b => a == b
  | .num a, .num b => a == b
  | .str a, .str b => a == b
  | .arr as, .arr bs => beqItems as bs
  | .obj as, .obj bs => beqFields as bs
  | _, _ => false

def beqItems : List Json → List Json → Bool
  | [], [] => true
  | a :: as, b :: bs => beq a b && beqItems as bs
  | _, _ => false

def beqFields : List (String × Json) → List (String × Json) → Bool
  | [], [] => true
  | (k, a) :: as, (l, b) :: bs => k == l && beq a b && beqFields as bs
  | _, _ => false

end

mutual

theorem beq_iff : (a b : Json) → (beq a b = true ↔ a = b)
  | .null, b => by cases b <;> simp [beq]
  | .bool a, b => by cases b <;> simp [beq]
  | .num a, b => by cases b <;> simp [beq]
  | .str a, b => by cases b <;> simp [beq]
  | .arr as, b => by cases b <;> simp [beq, beqItems_iff as]
  | .obj as, b => by cases b <;> simp [beq, beqFields_iff as]

theorem beqItems_iff : (as bs : List Json) → (beqItems as bs = true ↔ as = bs)
  | [], bs => by cases bs <;> simp [beqItems]
  | a :: as, [] => by simp [beqItems]
  | a :: as, b :: bs => by simp [beqItems, beq_iff a b, beqItems_iff as bs]

theorem beqFields_iff :
    (as bs : List (String × Json)) → (beqFields as bs = true ↔ as = bs)
  | [], bs => by cases bs <;> simp [beqFields]
  | (k, a) :: as, [] => by simp [beqFields]
  | (k, a) :: as, (l, b) :: bs => by
    simp [beqFields, beq_iff a b, beqFields_iff as bs, and_assoc]

end

instance : DecidableEq Json := fun a b => decidable_of_iff _ (beq_iff a b)

/-- Property access; the last of several fields with one name wins. -/
def field (name : String) : Json → Option Json
  | .obj fields => (fields.reverse.find? fun f => f.1 == name).map Prod.snd
  | _ => none

def asNum : Json → Option ℚ
  | .num n => some n
  | _ => none

/-- A number that a 32-bit or 64-bit integer property accepts has no fraction. -/
def asInt : Json → Option Int
  | .num n => if n.den = 1 then some n.num else none
  | _ => none

@[simp] theorem asInt_num (n : Int) : asInt (.num n) = some n := by simp [asInt]

def asStr : Json → Option String
  | .str s => some s
  | _ => none

/-- An array of what was encoded one by one is decoded one by one. -/
theorem mapM_map_some {β : Type} {encode : β → Json} {decode : Json → Option β}
    (h : ∀ b, decode (encode b) = some b) (bs : List β) :
    (bs.map encode).mapM decode = some bs := by
  induction bs with
  | nil => rfl
  | cons b bs ih => rw [List.map_cons, List.mapM_cons, h, ih]; rfl

def equalsIgnoreCase (a b : String) : Bool :=
  a.toList.map Char.toLower == b.toList.map Char.toLower

/-- Property access of a binder that ignores the case of property names. -/
def fieldIgnoreCase (name : String) : Json → Option Json
  | .obj fields => (fields.reverse.find? fun f => equalsIgnoreCase f.1 name).map Prod.snd
  | _ => none

end Json
