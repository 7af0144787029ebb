import Mathlib.Data.List.Basic
import Mathlib.Data.List.Infix
import Mathlib.Tactic.Common

/-!
# Expression trees

Conditions on rows as trees with parameters. Invoking a lambda binds its parameter to the
argument; a lambda with a body that knows no other parameter is worth the same wherever it
is invoked. The meaning of the connectives and of a missing value is left to the one who
evaluates: where a tree is compiled a missing value is an exception, in a database the
truth of a condition on it is unknown.
-/
namespace ExpressionTrees

/-- The type of a tree is that of its values. -/
inductive Expr (α : Type) : Type → Type 1 where
  | parameter (x : ℕ) : Expr α α
  | constant {β : Type} (b : β) : Expr α β
  /-- What a given function makes of its argument. -/
  | call {β : Type} (f : α → β) (argument : Expr α α) : Expr α β
  | invoke {β : Type} (x : ℕ) (body : Expr α β) (argument : Expr α α) : Expr α β
  | and (a b : Expr α Bool) : Expr α Bool
  | or (a b : Expr α Bool) : Expr α Bool
  /-- `text.Contains(part)` on a text that may be missing. -/
  | contains (text : Expr α (Option String)) (part : Expr α String) : Expr α Bool

/-- How conditions are connected that may have no truth value. -/
structure Logic where
  and : Option Bool → Option Bool → Option Bool
  or : Option Bool → Option Bool → Option Bool
  and_some : ∀ a b, and (some a) (some b) = some (a && b)
  or_some : ∀ a b, or (some a) (some b) = some (a || b)

/-- Both sides are evaluated, and have to have a value. -/
def strict : Logic where
  and a b := a.bind fun x => b.map fun y => x && y
  or a b := a.bind fun x => b.map fun y => x || y
  and_some _ _ := rfl
  or_some _ _ := rfl

/-- One side decides if it can. -/
def threeValued : Logic where
  and
    | some false, _ => some false
    | _, some false => some false
    | some true, some true => some true
    | _, _ => none
  or
    | some true, _ => some true
    | _, some true => some true
    | some false, some false => some false
    | _, _ => none
  and_some a b := by cases a <;> cases b <;> rfl
  or_some a b := by cases a <;> cases b <;> rfl

/-- Conditions joined by `or`, from left to right. -/
def Logic.any (L : Logic) (first : Option Bool) (others : List (Option Bool)) : Option Bool :=
  others.foldl L.or first

/-- Compiled, a disjunction needs every side. -/
theorem strict_any_isSome (first : Option Bool) (others : List (Option Bool)) :
    (strict.any first others).isSome ↔ ∀ b ∈ first :: others, b.isSome := by
  induction others generalizing first with
  | nil => simp [Logic.any]
  | cons b others ih =>
    have hor : (strict.or first b).isSome ↔ first.isSome ∧ b.isSome := by
      cases first <;> cases b <;> simp [strict]
    rw [Logic.any, List.foldl_cons]
    refine (ih (strict.or first b)).trans ?_
    simp only [List.forall_mem_cons, hor, and_assoc]

theorem strict_any_true {first : Option Bool} {others : List (Option Bool)}
    (h : ∀ b ∈ first :: others, b.isSome) :
    strict.any first others = some true ↔ some true ∈ first :: others := by
  induction others generalizing first with
  | nil => simp [Logic.any, eq_comm]
  | cons b others ih =>
    obtain ⟨x, rfl⟩ := Option.isSome_iff_exists.mp (h first List.mem_cons_self)
    obtain ⟨y, rfl⟩ := Option.isSome_iff_exists.mp (h b (by simp))
    rw [Logic.any, List.foldl_cons, strict.or_some]
    refine (@ih (some (x || y)) ?_).trans ?_
    · intro c hc
      rcases List.mem_cons.mp hc with rfl | hc
      · rfl
      · exact h c (by simp [hc])
    · cases x <;> cases y <;> simp

/-- In a database one side that is true is enough. -/
theorem threeValued_any_true (first : Option Bool) (others : List (Option Bool)) :
    threeValued.any first others = some true ↔ some true ∈ first :: others := by
  induction others generalizing first with
  | nil => simp [Logic.any, eq_comm]
  | cons b others ih =>
    have hor : threeValued.or first b = some true ↔ first = some true ∨ b = some true := by
      rcases first with _ | _ | _ <;> rcases b with _ | _ | _ <;> simp [threeValued]
    rw [Logic.any, List.foldl_cons]
    refine (ih (threeValued.or first b)).trans ?_
    simp only [List.mem_cons, eq_comm (a := some true), hor, or_assoc]

variable {α β : Type} (L : Logic)

/-- Binds a parameter. -/
def bind (env : ℕ → Option α) (x : ℕ) (a : α) : ℕ → Option α :=
  fun y => if y = x then some a else env y

def eval {β : Type} (env : ℕ → Option α) : Expr α β → Option β
  | .parameter x => env x
  | .constant b => some b
  | .call f argument => (eval env argument).map f
  | .invoke x body argument => (eval env argument).bind fun a => eval (bind env x a) body
  | .and a b => L.and (eval env a) (eval env b)
  | .or a b => L.or (eval env a) (eval env b)
  | .contains text part => (eval env text).bind fun t => (eval env part).bind fun p =>
    t.map fun t => decide (p.toList <:+: t.toList)

/-- Every parameter is one of these or bound inside. -/
def Closed {β : Type} (known : ℕ → Prop) : Expr α β → Prop
  | .parameter x => known x
  | .constant _ => True
  | .call _ argument => Closed known argument
  | .invoke x body argument => Closed known argument ∧ Closed (fun y => y = x ∨ known y) body
  | .and a b => Closed known a ∧ Closed known b
  | .or a b => Closed known a ∧ Closed known b
  | .contains text part => Closed known text ∧ Closed known part

theorem Closed.mono {β : Type} {known more : ℕ → Prop} {e : Expr α β} (h : Closed known e)
    (hsub : ∀ x, known x → more x) : Closed more e := by
  induction e generalizing known more with
  | parameter x => exact hsub x h
  | constant b => trivial
  | call f argument ih => exact ih h hsub
  | invoke x body argument ihbody ih =>
    refine ⟨ih h.1 hsub, ihbody h.2 ?_⟩
    rintro y (rfl | hy)
    · exact .inl rfl
    · exact .inr (hsub y hy)
  | and a b iha ihb => exact ⟨iha h.1 hsub, ihb h.2 hsub⟩
  | or a b iha ihb => exact ⟨iha h.1 hsub, ihb h.2 hsub⟩
  | contains text part iht ihp => exact ⟨iht h.1 hsub, ihp h.2 hsub⟩

/-- A tree only asks for its own parameters. -/
theorem eval_congr {β : Type} {known : ℕ → Prop} {e : Expr α β} (h : Closed known e)
    {env env' : ℕ → Option α} (hsame : ∀ x, known x → env x = env' x) :
    eval L env e = eval L env' e := by
  induction e generalizing known env env' with
  | parameter x => exact hsame x h
  | constant b => rfl
  | call f argument ih => rw [eval, eval, ih h hsame]
  | invoke x body argument ihbody ih =>
    rw [eval, eval, ih h.1 hsame]
    congr 1
    funext a
    refine ihbody h.2 ?_
    rintro y (rfl | hy)
    · simp [bind]
    · simp only [bind, hsame y hy]
  | and a b iha ihb => rw [eval, eval, iha h.1 hsame, ihb h.2 hsame]
  | or a b iha ihb => rw [eval, eval, iha h.1 hsame, ihb h.2 hsame]
  | contains text part iht ihp => rw [eval, eval, iht h.1 hsame, ihp h.2 hsame]

/-! ## Lambdas -/

structure Lambda (α β : Type) where
  parameter : ℕ
  body : Expr α β
  closed : Closed (fun x => x = parameter) body

def noParameters : ℕ → Option α := fun _ => none

/-- The value of a lambda on a row. -/
def Lambda.apply (f : Lambda α β) (a : α) : Option β :=
  eval L (bind noParameters f.parameter a) f.body

/-- A function as the programmer writes it. -/
def Lambda.of (x : ℕ) (f : α → β) : Lambda α β := ⟨x, .call f (.parameter x), rfl⟩

@[simp] theorem Lambda.of_apply (x : ℕ) (f : α → β) (a : α) :
    (Lambda.of x f).apply L a = some (f a) := by
  simp [Lambda.of, Lambda.apply, eval, bind]

/-- `Expression.Invoke(lambda, parameter)`. -/
def Lambda.on (f : Lambda α β) (x : ℕ) : Expr α β := .invoke f.parameter f.body (.parameter x)

theorem Lambda.on_closed (f : Lambda α β) (x : ℕ) : Closed (fun y => y = x) (f.on x) :=
  ⟨rfl, f.closed.mono fun _ hy => .inl hy⟩

/-- An invoked lambda is worth what it is worth by itself, whatever else is bound. -/
theorem Lambda.eval_on (f : Lambda α β) {x : ℕ} {env : ℕ → Option α} {a : α}
    (h : env x = some a) : eval L env (f.on x) = f.apply L a := by
  rw [Lambda.on, eval, eval, h, Option.bind_some]
  refine eval_congr L f.closed ?_
  rintro y rfl
  simp [bind]

theorem Lambda.eval_on_bind (f : Lambda α β) (x : ℕ) (a : α) :
    eval L (bind noParameters x a) (f.on x) = f.apply L a :=
  f.eval_on L (by simp [bind])

end ExpressionTrees
