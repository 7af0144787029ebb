import Mathlib.Data.List.Infix
import ShoppingProject.Lexing

/-!
# Conditions on rows

The tokens of a condition are parsed by recursive descent, with a level for each kind of
operator, and the expression that comes out has a value on every row. A condition is
built up from the bottom: what is read as an operand in parentheses is read so inside
every larger expression.
-/
namespace Conditions

open Lexing

inductive Operator where
  | or | and | equal | notEqual | less | lessEqual | greater | greaterEqual
  deriving DecidableEq, Repr

inductive Expr where
  | null : Expr
  | text : List Char → Expr
  | member : List Char → Expr
  | binary : Operator → Expr → Expr → Expr
  /-- A method without arguments. -/
  | method : Expr → List Char → Expr
  | methodOn : Expr → List Char → Expr → Expr
  deriving DecidableEq

/-- The levels of the operators, which bind less and less. -/
inductive Level where
  | comparison | conjunction | disjunction
  deriving DecidableEq, Repr

/-- The part of the grammar that is read next. -/
inductive Goal where
  /-- Operands of this level with operators between them. -/
  | operands : Level → Goal
  /-- What follows a first operand. -/
  | operators : Level → Expr → Goal
  | primary : Goal
  /-- What follows a primary expression. -/
  | selectors : Expr → Goal

/-- What an operand of a level consists of. -/
def Level.operand : Level → Goal
  | .comparison => .primary
  | .conjunction => .operands .comparison
  | .disjunction => .operands .conjunction

variable (A : Alphabet)

/-- Words are compared without their case. -/
def sameWord (w v : List Char) : Bool := w.map A.toLower == v.map A.toLower

def isOneOf (w : List Char) (words : List String) : Bool :=
  words.any fun v => sameWord A w v.toList

def comparisons : List (List Char × Operator) :=
  [("==".toList, .equal), ("!=".toList, .notEqual), ("<".toList, .less),
    ("<=".toList, .lessEqual), (">".toList, .greater), (">=".toList, .greaterEqual)]

/-- The operator of this level that a token stands for. -/
def Level.operator : Level → Token → Option Operator
  | .comparison, .symbol s => comparisons.lookup s
  | .conjunction, .symbol s => if s = "&&".toList then some .and else none
  | .conjunction, .word w => if isOneOf A w ["and", "andalso"] then some .and else none
  | .disjunction, .symbol s => if s = "||".toList then some .or else none
  | .disjunction, .word w => if isOneOf A w ["or", "orelse"] then some .or else none
  | _, _ => none

/-- What a word stands for; `reserved` are the words that are no members. -/
def atom (reserved : List Char → Bool) (w : List Char) : Option Expr :=
  if sameWord A w "null".toList then some .null
  else if reserved w then none else some (.member w)

def opening : Token := .symbol ['(']

def closing : Token := .symbol [')']

def dot : Token := .symbol ['.']

/-- The expression and the tokens after it. The number bounds the depth of the descent. -/
def parse (reserved : List Char → Bool) : ℕ → Goal → List Token → Option (Expr × List Token)
  | 0, _, _ => none
  | n + 1, .operands l, ts =>
    (parse reserved n l.operand ts).bind fun r => parse reserved n (.operators l r.1) r.2
  | n + 1, .operators l e, ts => match ts with
    | [] => some (e, [])
    | t :: rest => match l.operator A t with
      | none => some (e, t :: rest)
      | some op => (parse reserved n l.operand rest).bind fun r =>
        parse reserved n (.operators l (.binary op e r.1)) r.2
  | n + 1, .primary, ts => match ts with
    | .literal v :: rest => parse reserved n (.selectors (.text v)) rest
    | .word w :: rest => (atom A reserved w).bind fun e => parse reserved n (.selectors e) rest
    | t :: rest =>
      if t = opening then (parse reserved n (.operands .disjunction) rest).bind fun r =>
        match r.2 with
        | t' :: rest' => if t' = closing then parse reserved n (.selectors r.1) rest' else none
        | [] => none
      else none
    | [] => none
  | n + 1, .selectors e, ts => match ts with
    | t :: .word m :: t' :: t'' :: rest =>
      if t = dot then
        if t' = opening then
          if t'' = closing then parse reserved n (.selectors (.method e m)) rest
          else (parse reserved n (.operands .disjunction) (t'' :: rest)).bind fun r =>
            match r.2 with
            | c :: rest' =>
              if c = closing then parse reserved n (.selectors (.methodOn e m r.1)) rest' else none
            | [] => none
        else none
      else some (e, ts)
    | t :: rest => if t = dot then none else some (e, t :: rest)
    | [] => some (e, [])

/-- Every token is worth five steps of descent. -/
def parseCondition (reserved : List Char → Bool) (ts : List Token) : Option Expr :=
  match parse A reserved (5 * ts.length + 5) (.operands .disjunction) ts with
  | some (e, []) => some e
  | _ => none

/-! ## What is parsed -/

def Level.rank : Level → ℕ
  | .comparison => 0
  | .conjunction => 1
  | .disjunction => 2

def Goal.height : Goal → ℕ
  | .operands l => l.rank + 1
  | _ => 0

@[simp] theorem Level.operand_height (l : Level) : l.operand.height = l.rank := by
  cases l <;> rfl

/-- The tokens do not go on with what was read up to this height. -/
def Ends (height : ℕ) (rest : List Token) : Prop :=
  ∀ t ∈ rest.head?, t ≠ dot ∧ ∀ l : Level, l.rank < height → l.operator A t = none

/-- The tokens are read as this expression wherever it may end. -/
def Parses (reserved : List Char → Bool) (g : Goal) (ts : List Token) (e : Expr) : Prop :=
  ∀ n rest, 5 * ts.length + g.height + 1 ≤ n → Ends A g.height rest →
    parse A reserved n g (ts ++ rest) = some (e, rest)

variable {A} {reserved : List Char → Bool}

theorem ends_nil (height : ℕ) : Ends A height [] := by
  intro t ht
  cases ht

theorem Ends.mono {height lower : ℕ} {rest : List Token} (h : Ends A height rest)
    (hle : lower ≤ height) : Ends A lower rest :=
  fun t ht => ⟨(h t ht).1, fun l hl => (h t ht).2 l (Nat.lt_of_lt_of_le hl hle)⟩

theorem ends_closing (height : ℕ) (rest : List Token) : Ends A height (closing :: rest) := by
  intro t ht
  cases ht
  refine ⟨by decide, fun l _ => ?_⟩
  cases l <;> rfl

theorem operators_end (n : ℕ) {l : Level} (e : Expr) {rest : List Token}
    (h : Ends A (l.rank + 1) rest) :
    parse A reserved (n + 1) (.operators l e) rest = some (e, rest) := by
  cases rest with
  | nil => rfl
  | cons t rest =>
    have hnone := (h t rfl).2 l (Nat.lt_succ_self _)
    simp only [parse, hnone]

theorem selectors_end (n : ℕ) (e : Expr) {rest : List Token} (h : Ends A 0 rest) :
    parse A reserved (n + 1) (.selectors e) rest = some (e, rest) := by
  cases rest with
  | nil => rfl
  | cons t rest =>
    have hne : t ≠ dot := (h t rfl).1
    match rest with
    | [] => simp [parse, hne]
    | [t₁] => simp [parse, hne]
    | [t₁, t₂] => simp [parse, hne]
    | t₁ :: t₂ :: t₃ :: rest =>
      cases t₁ <;> simp [parse, hne]

/-- Behind an operand stands the operator of the chain or what follows the chain. -/
theorem ends_chain {l : Level} {s : Token} (hends : ∀ rest, Ends A l.rank (s :: rest))
    {rest : List Token} (hrest : Ends A (l.rank + 1) rest) (xs : List (List Token × Expr)) :
    Ends A l.rank ((xs.flatMap fun p => s :: p.1) ++ rest) := by
  cases xs with
  | nil => exact hrest.mono (Nat.le_succ _)
  | cons q xs =>
    rw [List.flatMap_cons, List.cons_append, List.cons_append]
    exact hends _

/-- Operands of a level, with the same operator between every two of them. -/
theorem operators_chain {l : Level} {s : Token} {op : Operator} (hs : l.operator A s = some op)
    (hends : ∀ rest, Ends A l.rank (s :: rest)) {xs : List (List Token × Expr)}
    (hxs : ∀ p ∈ xs, Parses A reserved l.operand p.1 p.2) :
    ∀ (e : Expr) (n : ℕ) (rest : List Token),
      5 * (xs.flatMap fun p => s :: p.1).length + l.rank + 1 ≤ n → Ends A (l.rank + 1) rest →
      parse A reserved n (.operators l e) ((xs.flatMap fun p => s :: p.1) ++ rest) =
        some (xs.foldl (fun a p => .binary op a p.2) e, rest) := by
  induction xs with
  | nil =>
    intro e n rest hn hrest
    obtain ⟨n, rfl⟩ : ∃ k, n = k + 1 := ⟨n - 1, by omega⟩
    exact operators_end n e hrest
  | cons p xs ih =>
    intro e n rest hn hrest
    obtain ⟨n, rfl⟩ : ∃ k, n = k + 1 := ⟨n - 1, by omega⟩
    simp only [List.flatMap_cons, List.cons_append, List.append_assoc, List.length_cons,
      List.length_append] at hn ⊢
    have hafter := ends_chain hends hrest xs
    have hoperand := hxs p List.mem_cons_self n _
      (by rw [Level.operand_height]; omega) (by rwa [Level.operand_height])
    simp only [parse, hs, hoperand, Option.bind_some]
    exact ih (fun q hq => hxs q (List.mem_cons_of_mem p hq)) _ n rest (by omega) hrest

theorem parses_chain {l : Level} {s : Token} {op : Operator} (hs : l.operator A s = some op)
    (hends : ∀ rest, Ends A l.rank (s :: rest)) {x : List Token} {e : Expr}
    (hx : Parses A reserved l.operand x e) {xs : List (List Token × Expr)}
    (hxs : ∀ p ∈ xs, Parses A reserved l.operand p.1 p.2) :
    Parses A reserved (.operands l) (x ++ xs.flatMap fun p => s :: p.1)
      (xs.foldl (fun a p => .binary op a p.2) e) := by
  intro n rest hn hrest
  rw [Goal.height, List.length_append] at hn
  obtain ⟨n, rfl⟩ : ∃ k, n = k + 1 := ⟨n - 1, by omega⟩
  have hafter := ends_chain hends hrest xs
  have hfirst := hx n _ (by rw [Level.operand_height]; omega) (by rwa [Level.operand_height])
  rw [List.append_assoc]
  simp only [parse, hfirst, Option.bind_some]
  exact operators_chain hs hends hxs e n rest (by omega) hrest

/-- An operand by itself. -/
theorem parses_operand {l : Level} {ts : List Token} {e : Expr}
    (h : Parses A reserved l.operand ts e) : Parses A reserved (.operands l) ts e := by
  intro n rest hn hrest
  rw [Goal.height] at hn
  obtain ⟨n, rfl⟩ : ∃ k, n = k + 1 := ⟨n - 1, by omega⟩
  obtain ⟨n, rfl⟩ : ∃ k, n = k + 1 := ⟨n - 1, by omega⟩
  have hfirst := h (n + 1) rest (by rw [Level.operand_height]; omega)
    (by rw [Level.operand_height]; exact hrest.mono (Nat.le_succ _))
  rw [parse, hfirst]
  exact operators_end n e hrest

theorem parse_opening (n : ℕ) (ts : List Token) :
    parse A reserved (n + 1) .primary (opening :: ts) =
      (parse A reserved n (.operands .disjunction) ts).bind fun r => match r.2 with
        | t :: rest => if t = closing then parse A reserved n (.selectors r.1) rest else none
        | [] => none := rfl

theorem parses_parentheses {ts : List Token} {e : Expr}
    (h : Parses A reserved (.operands .disjunction) ts e) :
    Parses A reserved .primary (opening :: (ts ++ [closing])) e := by
  intro n rest hn hrest
  simp only [List.length_cons, List.length_append, List.length_nil] at hn
  obtain ⟨n, rfl⟩ : ∃ k, n = k + 1 := ⟨n - 1, by omega⟩
  obtain ⟨n, rfl⟩ : ∃ k, n = k + 1 := ⟨n - 1, by omega⟩
  have hheight : (Goal.operands .disjunction).height = 3 := rfl
  have hinside := h (n + 1) (closing :: rest) (by omega) (ends_closing _ _)
  have hassoc : opening :: (ts ++ [closing]) ++ rest = opening :: (ts ++ closing :: rest) := by simp
  rw [hassoc, parse_opening, hinside]
  exact selectors_end n e hrest

theorem parses_word {w : List Char} {e : Expr} (h : atom A reserved w = some e) :
    Parses A reserved .primary [.word w] e := by
  intro n rest hn hrest
  obtain ⟨n, rfl⟩ : ∃ k, n = k + 2 := ⟨n - 2, by simp at hn; omega⟩
  have hafter := @selectors_end A reserved n e rest hrest
  simpa only [parse, List.singleton_append, h, Option.bind_some] using hafter

theorem parses_literal (v : List Char) : Parses A reserved .primary [.literal v] (.text v) := by
  intro n rest hn hrest
  obtain ⟨n, rfl⟩ : ∃ k, n = k + 2 := ⟨n - 2, by simp at hn; omega⟩
  exact selectors_end n (.text v) hrest

/-- A method is called on a member. -/
theorem parse_method {w : List Char} {e : Expr} (h : atom A reserved w = some e) (m : List Char)
    (n : ℕ) (rest : List Token) :
    parse A reserved (n + 2) .primary (.word w :: dot :: .word m :: opening :: closing :: rest) =
      parse A reserved n (.selectors (.method e m)) rest := by
  rw [parse, h]
  rfl

theorem parses_method {w : List Char} {e : Expr} (h : atom A reserved w = some e)
    (m : List Char) : Parses A reserved .primary [.word w, dot, .word m, opening, closing]
      (.method e m) := by
  intro n rest hn hrest
  obtain ⟨n, rfl⟩ : ∃ k, n = k + 3 := ⟨n - 3, by simp at hn; omega⟩
  exact (parse_method h m (n + 1) rest).trans (selectors_end n _ hrest)

/-- A primary expression is a condition. -/
theorem parses_condition {ts : List Token} {e : Expr} (h : Parses A reserved .primary ts e) :
    Parses A reserved (.operands .disjunction) ts e := by
  have hcomparison : Parses A reserved (.operands .comparison) ts e := parses_operand h
  have hconjunction : Parses A reserved (.operands .conjunction) ts e :=
    parses_operand hcomparison
  exact parses_operand hconjunction

/-- A method is called on what another method made of a member. -/
theorem parses_methodOn {w : List Char} {e : Expr} (h : atom A reserved w = some e)
    (m m' v : List Char) : Parses A reserved .primary
      [.word w, dot, .word m, opening, closing, dot, .word m', opening, .literal v, closing]
      (.methodOn (.method e m) m' (.text v)) := by
  intro n rest hn hrest
  obtain ⟨n, rfl⟩ : ∃ k, n = k + 14 := ⟨n - 14, by simp at hn; omega⟩
  have hargument : parse A reserved (n + 11) (.operands .disjunction)
      (.literal v :: closing :: rest) = some (.text v, closing :: rest) :=
    parses_condition (parses_literal v) (n + 11) (closing :: rest)
      (by simp [Goal.height, Level.rank]) (ends_closing _ _)
  have hcall : parse A reserved (n + 12) (.selectors (.method e m))
      (dot :: .word m' :: opening :: .literal v :: closing :: rest) =
      (parse A reserved (n + 11) (.operands .disjunction) (.literal v :: closing :: rest)).bind
        fun r => match r.2 with
          | c :: rest' => if c = closing then
              parse A reserved (n + 11) (.selectors (.methodOn (.method e m) m' r.1)) rest'
            else none
          | [] => none := rfl
  have hmember := parse_method h m (n + 12)
    (dot :: .word m' :: opening :: .literal v :: closing :: rest)
  refine hmember.trans ?_
  rw [hcall, hargument]
  exact selectors_end (n + 10) _ hrest

theorem parseCondition_eq {ts : List Token} {e : Expr}
    (h : Parses A reserved (.operands .disjunction) ts e) :
    parseCondition A reserved ts = some e := by
  have hheight : (Goal.operands .disjunction).height = 3 := rfl
  have hall := h (5 * ts.length + 5) [] (by omega) (ends_nil _)
  rw [List.append_nil] at hall
  rw [parseCondition, hall]

/-! ## Values -/

inductive Value where
  | null : Value
  | text : List Char → Value
  | bool : Bool → Value
  deriving DecidableEq

/-- What an expression asks about rows and texts. A member is read as nothing if the row
does not have it. -/
structure Reading (Row : Type) where
  member : Row → List Char → Option Value
  toLower : Char → Char
  compare : List Char → List Char → Ordering

/-- Equality knows every two values, order only texts. -/
def Operator.apply (compare : List Char → List Char → Ordering) :
    Operator → Value → Value → Option Bool
  | .equal, a, b => some (a == b)
  | .notEqual, a, b => some (a != b)
  | .less, .text a, .text b => some (compare a b).isLT
  | .lessEqual, .text a, .text b => some (compare a b).isLE
  | .greater, .text a, .text b => some (compare a b).isGT
  | .greaterEqual, .text a, .text b => some (compare a b).isGE
  | _, _, _ => none

variable {Row : Type} (R : Reading Row) (row : Row)

/-- The value on a row; there is none where a method is called on `null`, or an operator on
values that it does not know. Connectives look at their second operand only if they have
to. -/
def Expr.eval : Expr → Option Value
  | .null => some .null
  | .text v => some (.text v)
  | .member name => R.member row name
  | .binary .and a b => match a.eval with
    | some (.bool false) => some (.bool false)
    | some (.bool true) => b.eval
    | _ => none
  | .binary .or a b => match a.eval with
    | some (.bool true) => some (.bool true)
    | some (.bool false) => b.eval
    | _ => none
  | .binary op a b =>
    a.eval.bind fun x => b.eval.bind fun y => (op.apply R.compare x y).map .bool
  | .method a name => a.eval.bind fun x => match x with
    | .text v => if name = "ToLower".toList then some (.text (v.map R.toLower)) else none
    | _ => none
  | .methodOn a name b => a.eval.bind fun x => b.eval.bind fun y => match x, y with
    | .text v, .text w =>
      if name = "Contains".toList then some (.bool (decide (w <:+: v))) else none
    | _, _ => none

/-- What kind of value an expression has, by the kinds of its parts. -/
inductive Kind where
  | null | text | bool
  deriving DecidableEq, Repr

def Operator.kind : Operator → Kind → Kind → Option Kind
  | .and, .bool, .bool => some .bool
  | .or, .bool, .bool => some .bool
  | .equal, .text, .text => some .bool
  | .equal, .text, .null => some .bool
  | .notEqual, .text, .text => some .bool
  | .notEqual, .text, .null => some .bool
  | .less, .text, .text => some .bool
  | .lessEqual, .text, .text => some .bool
  | .greater, .text, .text => some .bool
  | .greaterEqual, .text, .text => some .bool
  | _, _, _ => none

/-- `isText` says which members are texts. -/
def Expr.kind (isText : List Char → Bool) : Expr → Option Kind
  | .null => some .null
  | .text _ => some .text
  | .member name => if isText name then some .text else none
  | .binary op a b =>
    (a.kind isText).bind fun x => (b.kind isText).bind fun y => op.kind x y
  | .method a name =>
    if a.kind isText = some .text ∧ name = "ToLower".toList then some .text else none
  | .methodOn a name b =>
    if a.kind isText = some .text ∧ b.kind isText = some .text ∧ name = "Contains".toList then
      some .bool
    else none

/-- The truth of a condition. -/
def Expr.holds (e : Expr) : Option Bool :=
  match e.eval R row with
  | some (.bool b) => some b
  | _ => none

variable {R row}

theorem eval_compared {op : Operator} (hand : op ≠ .and) (hor : op ≠ .or) {a b : Expr}
    {x y : Value} (ha : a.eval R row = some x) (hb : b.eval R row = some y) :
    (Expr.binary op a b).eval R row = (op.apply R.compare x y).map .bool := by
  cases op with
  | and => exact absurd rfl hand
  | or => exact absurd rfl hor
  | _ => simp [Expr.eval, ha, hb]

theorem eval_lowered {a : Expr} {v : List Char} (ha : a.eval R row = some (.text v)) :
    (Expr.method a "ToLower".toList).eval R row = some (.text (v.map R.toLower)) := by
  simp [Expr.eval, ha]

theorem eval_contains {a b : Expr} {v w : List Char} (ha : a.eval R row = some (.text v))
    (hb : b.eval R row = some (.text w)) :
    (Expr.methodOn a "Contains".toList b).eval R row = some (.bool (decide (w <:+: v))) := by
  simp [Expr.eval, ha, hb]

/-- A condition that fails keeps the next one from being looked at. -/
theorem eval_guard_false {a b : Expr} (h : a.eval R row = some (.bool false)) :
    (Expr.binary .and a b).eval R row = some (.bool false) := by
  simp [Expr.eval, h]

theorem eval_guard_true {a b : Expr} (h : a.eval R row = some (.bool true)) :
    (Expr.binary .and a b).eval R row = b.eval R row := by
  simp [Expr.eval, h]

theorem eval_and {es : List Expr} {bs : List Bool}
    (h : List.Forall₂ (fun e b => e.eval R row = some (.bool b)) es bs) {e : Expr} {b : Bool}
    (he : e.eval R row = some (.bool b)) :
    (es.foldl (.binary .and) e).eval R row = some (.bool (b && bs.all id)) := by
  induction h generalizing e b with
  | nil => simpa using he
  | @cons e' b' es bs he' _ ih =>
    have hboth : (Expr.binary .and e e').eval R row = some (.bool (b && b')) := by
      cases b <;> simp [Expr.eval, he, he']
    rw [List.foldl_cons, ih hboth, List.all_cons, Bool.and_assoc]
    rfl

theorem eval_or {es : List Expr} {bs : List Bool}
    (h : List.Forall₂ (fun e b => e.eval R row = some (.bool b)) es bs) {e : Expr} {b : Bool}
    (he : e.eval R row = some (.bool b)) :
    (es.foldl (.binary .or) e).eval R row = some (.bool (b || bs.any id)) := by
  induction h generalizing e b with
  | nil => simpa using he
  | @cons e' b' es bs he' _ ih =>
    have hboth : (Expr.binary .or e e').eval R row = some (.bool (b || b')) := by
      cases b <;> simp [Expr.eval, he, he']
    rw [List.foldl_cons, ih hboth, List.any_cons, Bool.or_assoc]
    rfl

theorem kind_connective {isText : List Char → Bool} {op : Operator} (hop : op = .and ∨ op = .or)
    {es : List Expr} (h : ∀ e ∈ es, e.kind isText = some .bool) {e : Expr}
    (he : e.kind isText = some .bool) : (es.foldl (.binary op) e).kind isText = some .bool := by
  induction es generalizing e with
  | nil => exact he
  | cons e' es ih =>
    have hboth : (Expr.binary op e e').kind isText = some .bool := by
      rw [Expr.kind, he, h e' List.mem_cons_self]
      rcases hop with rfl | rfl <;> rfl
    exact ih (fun e'' h'' => h e'' (List.mem_cons_of_mem e' h'')) hboth

end Conditions
