import ShoppingProject.Conditions
import ShoppingProject.DomainEvents
import ShoppingProject.DynamicQueries
import ShoppingProject.Queries

/-!
# What a filter selects

A filter says which rows it keeps. The text that `BuildWhereClause` writes for it is
parsed by `System.Linq.Dynamic.Core`, of which the grammar of conditions is all that is
known; the condition that comes out keeps the same rows.
-/
namespace FilterMeaning

open Conditions DynamicQueries Lexing
open Queries (keep keep_of_total)

/-- The expression language. `reserved` are the words that are not read as members:
keywords, names of types, words that begin with `@`. -/
structure Language (A : Alphabet) where
  reserved : List Char → Bool
  compare : List Char → List Char → Ordering
  null : reserved "null".toList = true
  ignoresCase : ∀ w v, sameWord A w v = true → reserved w = reserved v

/-- An entity with the values of its string properties. -/
structure Entity {A : Alphabet} (L : Language A) where
  type : EntityType A
  Row : Type
  read : Row → Property → Option (List Char)
  unreserved : ∀ p ∈ type.properties, L.reserved p.name.toList = false

variable {A : Alphabet} {L : Language A} (E : Entity L)

def Entity.reading : Reading E.Row where
  member row w := match getProperty E.type (String.ofList w) with
    | some p => if p.isString then some ((E.read row p).elim .null .text) else none
    | none => none
  toLower := A.toLower
  compare := L.compare

def Entity.isText (w : List Char) : Bool := isString E.type (String.ofList w)

/-- Inside a literal between double quotes or outside; there is no other literal, and no
backslash, which the library reads in a way of its own. -/
def quoteStep : Option Bool → Char → Option Bool
  | none, _ => none
  | some inside, c =>
    if c = '"' then some !inside
    else if c = '\\' ∨ c = '\'' ∧ inside = false then none
    else some inside

def DoubleQuoted (text : List Char) : Prop := text.foldl quoteStep (some false) = some false

instance : DecidablePred DoubleQuoted := fun _ => inferInstanceAs (Decidable (_ = _))

/-- The parser of `System.Linq.Dynamic.Core` for the rows of an entity. A text that the
grammar reads as a condition, with double quotes around its literals and nothing escaped,
is that condition. -/
structure DynamicLinq where
  parseLambda : String → Option (E.Row → Option Bool)
  grammar : ∀ (clause : String) (ts : List Token) (e : Expr), DoubleQuoted clause.toList →
    lex A clause.toList = some ts → parseCondition A L.reserved ts = some e →
    e.kind E.isText = some .bool → parseLambda clause = some fun row => e.holds E.reading row

/-- `ApplyFilter` on rows in memory; `none` when it throws. -/
def applyFilter (linq : DynamicLinq E) (f : Filter) (rows : List E.Row) : Option (List E.Row) :=
  let clause := buildWhereClause E.type f
  if clause = "" then some rows
  else (linq.parseLambda clause).bind fun p => keep p rows

/-! ## The meaning of a filter -/

/-- How a value compares with that of the filter, as the operator says. -/
def compares (L : Language A) (operator : String) (v w : List Char) : Bool :=
  match operator with
  | "eq" => v == w
  | "neq" => v != w
  | "gt" => (L.compare v w).isGT
  | "gte" => (L.compare v w).isGE
  | "lt" => (L.compare v w).isLT
  | "lte" => (L.compare v w).isLE
  | "contains" => decide (w <:+: v)
  | _ => false

/-- The property is not null, and compares in lower case with the value in lower case. -/
def leafHolds (row : E.Row) (field operator value : String) : Bool :=
  match (getProperty E.type field).bind (E.read row) with
  | none => false
  | some v => compares L operator (v.map A.toLower) (value.toList.map A.toLower)

def combine (logic : Option String) (children : List Bool) : Bool :=
  if logic = some "or" then children.any id else children.all id

mutual

/-- What a filter says of a row; a part that says nothing is left out. -/
def meaning (row : E.Row) : Filter → Option Bool
  | .null => none
  | .mk field value operator logic filters =>
    if filters.isEmpty then value.map (leafHolds E row field operator)
    else match meanings row filters with
      | [] => none
      | b :: bs => some (combine logic (b :: bs))

def meanings (row : E.Row) : List Filter → List Bool
  | [] => []
  | f :: fs => match meaning row f with
    | none => meanings row fs
    | some b => b :: meanings row fs

end

/-- The operators that `GetOperator` knows. -/
def operators : List String := ["eq", "neq", "gt", "gte", "lt", "lte", "contains"]

/-- A value without quotes and backslashes. -/
def PlainValue (value : String) : Prop := '"' ∉ value.toList ∧ '\\' ∉ value.toList

mutual

/-- Leaves name string properties, operators are known, groups are joined by `and` or `or`,
and values are plain. -/
def Admitted (T : EntityType A) : Filter → Prop
  | .null => True
  | .mk field value operator logic filters =>
    if filters.isEmpty then
      isString T field = true ∧ operator ∈ operators ∧ ∀ v ∈ value, PlainValue v
    else logic ∈ [none, some "", some "and", some "or"] ∧ AdmittedAll T filters

def AdmittedAll (T : EntityType A) : List Filter → Prop
  | [] => True
  | f :: fs => Admitted T f ∧ AdmittedAll T fs

end

/-! ## The expression of a clause -/

/-- What `GetOperator` writes for one of the other operators. -/
def comparator (operator : String) : Operator :=
  match operator with
  | "neq" => .notEqual
  | "gt" => .greater
  | "gte" => .greaterEqual
  | "lt" => .less
  | "lte" => .lessEqual
  | _ => .equal

def comparisonExpr (A : Alphabet) (field operator value : String) : Expr :=
  let lowered := .method (.member field.toList) "ToLower".toList
  let lowerValue := value.toList.map A.toLower
  .binary .and (.binary .notEqual (.member field.toList) .null)
    (if operator = "contains" then .methodOn lowered "Contains".toList (.text lowerValue)
    else .binary (comparator operator) lowered (.text lowerValue))

def connective (logic : String) : Operator := if logic = "or" then .or else .and

mutual

def expr (A : Alphabet) : Clause → Expr
  | .comparison field operator value => comparisonExpr A field operator value
  | .group logic children => match exprs A children with
    | [] => .null
    | e :: es => es.foldl (.binary (connective logic)) e

def exprs (A : Alphabet) : List Clause → List Expr
  | [] => []
  | c :: cs => expr A c :: exprs A cs

end

mutual

/-- A clause of an admitted filter. -/
def Sound (T : EntityType A) : Clause → Prop
  | .comparison field operator value =>
    isString T field = true ∧ operator ∈ operators ∧ PlainValue value
  | .group logic children => (logic = "and" ∨ logic = "or") ∧ children ≠ [] ∧ SoundAll T children

def SoundAll (T : EntityType A) : List Clause → Prop
  | [] => True
  | c :: cs => Sound T c ∧ SoundAll T cs

end

theorem field_nonempty {T : EntityType A} {field : String} (h : isString T field = true) :
    field ≠ "" := by
  rintro rfl
  exact isWord_of_isString T h

theorem logicOf_admitted {logic : Option String}
    (h : logic ∈ [none, some "", some "and", some "or"]) :
    logicOf logic = if logic = some "or" then "or" else "and" := by
  simp only [List.mem_cons, List.not_mem_nil, or_false] at h
  rcases h with rfl | rfl | rfl | rfl <;> rfl

mutual

theorem sound_of_admitted {T : EntityType A} : (f : Filter) → Admitted T f →
    ∀ c, clause? f = some c → Sound T c
  | .null => by simp [clause?]
  | .mk field value operator logic filters => by
    intro h c hc
    simp only [Admitted] at h
    simp only [clause?] at hc
    by_cases hleaf : filters.isEmpty = true
    · rw [if_pos hleaf] at h hc
      rw [if_neg (field_nonempty h.1)] at hc
      obtain ⟨v, rfl, rfl⟩ := Option.map_eq_some_iff.mp hc
      exact ⟨h.1, h.2.1, h.2.2 v rfl⟩
    · rw [if_neg hleaf] at h hc
      have hall := soundAll_of_admitted filters h.2
      cases hchildren : clauses filters with
      | nil => simp [hchildren] at hc
      | cons c' cs =>
        rw [hchildren] at hc hall
        cases hc
        refine ⟨?_, List.cons_ne_nil _ _, hall⟩
        rw [logicOf_admitted h.1]
        split
        · exact .inr rfl
        · exact .inl rfl

theorem soundAll_of_admitted {T : EntityType A} : (fs : List Filter) → AdmittedAll T fs →
    SoundAll T (clauses fs)
  | [] => by simp [clauses, SoundAll]
  | f :: fs => by
    intro h
    have hrest := soundAll_of_admitted fs h.2
    have hfirst := sound_of_admitted f h.1
    simp only [clauses]
    cases hc : clause? f with
    | none => exact hrest
    | some c => exact ⟨hfirst c hc, hrest⟩

end

theorem sameWord_self (w : List Char) : sameWord A w w = true := beq_self_eq_true _

theorem equalsIgnoreCase_self (s : String) : equalsIgnoreCase A s s = true := beq_self_eq_true _

theorem isWord_connective {logic : String} (h : logic = "and" ∨ logic = "or") :
    IsWord A logic.toList := by
  rcases h with rfl | rfl <;> exact isWord_of_alpha (by decide) (forall_mem_of_all (by decide))

theorem logicToken_eq {logic : String} (h : logic = "and" ∨ logic = "or") :
    logicToken A logic = some (.word logic.toList) := by
  have hword : ["and", "andalso", "or", "orelse"].any
      (equalsIgnoreCase A (String.ofList logic.toList)) = true := by
    rw [String.ofList_toList]
    rcases h with rfl | rfl <;> simp [equalsIgnoreCase_self]
  rw [logicToken, lex_word (isWord_connective h)]
  simp only [hword, if_true]

mutual

theorem clean_of_sound {T : EntityType A} : (c : Clause) → Sound T c → Clean T c
  | .comparison field operator value => by
    rintro ⟨hstring, -, hplain⟩
    refine ⟨⟨hplain.2, fun h => ?_⟩, fun h => ?_⟩ <;> rw [hstring] at h <;> cases h
  | .group logic children => by
    rintro ⟨hlogic, -, hchildren⟩
    refine ⟨cleanAll_of_sound children hchildren, fun _ => ?_⟩
    rw [logicToken_eq hlogic]
    rfl

theorem cleanAll_of_sound {T : EntityType A} : (cs : List Clause) → SoundAll T cs → CleanAll T cs
  | [] => fun _ => trivial
  | c :: cs => fun h => ⟨clean_of_sound c h.1, cleanAll_of_sound cs h.2⟩

end

/-! ## The expression is what the tokens are parsed into -/

theorem property_of_isString {T : EntityType A} {field : String} (h : isString T field = true) :
    ∃ p ∈ T.properties, getProperty T field = some p ∧ p.isString = true ∧
      equalsIgnoreCase A p.name field = true := by
  unfold isString at h
  cases hfind : getProperty T field with
  | none => simp [hfind] at h
  | some p =>
    have hname := List.find?_some hfind
    exact ⟨p, List.mem_of_find?_eq_some hfind, rfl, by simpa [hfind] using h, by simpa using hname⟩

variable {E}

theorem atom_field {field : String} (h : isString E.type field = true) :
    atom A L.reserved field.toList = some (.member field.toList) := by
  obtain ⟨p, hp, -, -, hname⟩ := property_of_isString h
  have hfree : L.reserved field.toList = false := by
    rw [← L.ignoresCase _ _ hname]
    exact E.unreserved p hp
  have hnull : ¬ sameWord A field.toList "null".toList = true := by
    intro hsame
    have := L.ignoresCase _ _ hsame
    rw [hfree, L.null] at this
    cases this
  rw [atom, if_neg hnull, hfree]
  rfl

theorem atom_null : atom A L.reserved "null".toList = some .null := by
  rw [atom, if_pos (sameWord_self _)]

theorem comparator_operator {operator : String} (h : operator ∈ operators)
    (hop : operator ≠ "contains") :
    Level.comparison.operator A (.symbol (getOperator operator).toList) =
      some (comparator operator) := by
  simp only [operators, List.mem_cons, List.not_mem_nil, or_false] at h
  rcases h with rfl | rfl | rfl | rfl | rfl | rfl | rfl
  all_goals first | rfl | exact absurd rfl hop

theorem ends_comparison {s : List Char} (h : s ≠ ['.']) (rest : List Token) :
    Ends A Level.comparison.rank (.symbol s :: rest) := by
  intro t ht
  cases ht
  exact ⟨by simpa [dot] using h, fun l hl => absurd hl (Nat.not_lt_zero _)⟩

/-- A token that neither selects nor compares ends an operand of a conjunction. -/
theorem ends_conjunction {t : Token} (hdot : t ≠ dot)
    (hcomparison : Level.comparison.operator A t = none) (rest : List Token) :
    Ends A Level.conjunction.rank (t :: rest) := by
  intro t' ht
  cases ht
  refine ⟨hdot, fun l hl => ?_⟩
  cases l with
  | comparison => exact hcomparison
  | conjunction => exact absurd hl (Nat.lt_irrefl _)
  | disjunction => exact absurd hl (by decide)

/-- Two operands with a comparison between them. -/
theorem parses_comparison {x y : List Token} {a b : Expr} {s : List Char} {op : Operator}
    (hs : Level.comparison.operator A (.symbol s) = some op) (hdot : s ≠ ['.'])
    (hx : Parses A L.reserved .primary x a) (hy : Parses A L.reserved .primary y b) :
    Parses A L.reserved (.operands .comparison) (x ++ .symbol s :: y) (.binary op a b) := by
  have hxs : ∀ p ∈ [(y, b)], Parses A L.reserved Level.comparison.operand p.1 p.2 := by
    intro p hp
    obtain rfl := List.mem_singleton.mp hp
    exact hy
  simpa using parses_chain hs (ends_comparison hdot) hx hxs

theorem getOperator_contains {operator : String} (h : operator ∈ operators) :
    getOperator operator = "contains" ↔ operator = "contains" := by
  simp only [operators, List.mem_cons, List.not_mem_nil, or_false] at h
  rcases h with rfl | rfl | rfl | rfl | rfl | rfl | rfl <;> decide

theorem comparison_parses {field operator value : String} {x : List Token}
    (hstring : isString E.type field = true) (hop : operator ∈ operators)
    (hx : comparisonTokens E.type field operator value = some x) :
    Parses A L.reserved .primary x (comparisonExpr A field operator value) := by
  have hmember := atom_field hstring
  have hnull : Parses A L.reserved (.operands .comparison)
      ([.word field.toList] ++ .symbol "!=".toList :: [.word "null".toList])
      (.binary .notEqual (.member field.toList) .null) :=
    parses_comparison rfl (by decide) (parses_word hmember) (parses_word atom_null)
  -- the comparison itself, which ends before the last parenthesis
  obtain ⟨y, e, hy, hinside, he⟩ : ∃ y e, x = opening :: ([.word field.toList] ++
      .symbol "!=".toList :: [.word "null".toList] ++ .symbol "&&".toList :: y ++ [closing]) ∧
      Parses A L.reserved (.operands .comparison) y e ∧
      comparisonExpr A field operator value =
        .binary .and (.binary .notEqual (.member field.toList) .null) e := by
    simp only [comparisonTokens, hstring, if_true, getOperator_contains hop] at hx
    by_cases hcontains : operator = "contains"
    · rw [if_pos hcontains] at hx
      refine ⟨_, _, ?_, parses_operand (parses_methodOn hmember "ToLower".toList
        "Contains".toList (value.toList.map A.toLower)), by simp [comparisonExpr, hcontains]⟩
      rw [← Option.some.inj hx]
      rfl
    · rw [if_neg hcontains] at hx
      refine ⟨_, _, ?_, parses_comparison (comparator_operator hop hcontains) ?_
        (parses_method hmember "ToLower".toList) (parses_literal (value.toList.map A.toLower)),
        by simp [comparisonExpr, hcontains]⟩
      · rw [← Option.some.inj hx]
        rfl
      · simp only [operators, List.mem_cons, List.not_mem_nil, or_false] at hop
        rcases hop with rfl | rfl | rfl | rfl | rfl | rfl | rfl <;> decide
  have hands : ∀ rest, Ends A Level.conjunction.rank (.symbol "&&".toList :: rest) :=
    ends_conjunction (by decide) rfl
  have hxs : ∀ p ∈ [(y, e)], Parses A L.reserved Level.conjunction.operand p.1 p.2 := by
    intro p hp
    obtain rfl := List.mem_singleton.mp hp
    exact hinside
  have hboth : Parses A L.reserved (.operands .conjunction) _ _ :=
    parses_chain rfl hands hnull hxs
  rw [hy, he]
  simpa using parses_parentheses (parses_operand hboth)

theorem joined_pairs (s : Token) (x : List Token) (ps : List (List Token × Expr)) :
    joined (some s) (x :: ps.map Prod.fst) = some (x ++ ps.flatMap fun p => s :: p.1) := by
  induction ps generalizing x with
  | nil => simp [joined]
  | cons p ps ih =>
    have hrest := ih p.1
    rw [List.map_cons, joined, hrest]
    · simp
    · simp

theorem pairs_of_forall₂ {R : List Token → Expr → Prop} {xs : List (List Token)} {es : List Expr}
    (h : List.Forall₂ R xs es) :
    ∃ ps : List (List Token × Expr), xs = ps.map Prod.fst ∧ es = ps.map Prod.snd ∧
      ∀ p ∈ ps, R p.1 p.2 := by
  induction h with
  | nil => exact ⟨[], rfl, rfl, by simp⟩
  | @cons x e xs es hx hxs ih =>
    obtain ⟨ps, rfl, rfl, hps⟩ := ih
    exact ⟨(x, e) :: ps, rfl, rfl, by simpa using ⟨hx, fun a b hab => hps (a, b) hab⟩⟩

theorem sameWord_of_length {w v : List Char} (h : w.length ≠ v.length) :
    sameWord A w v = false := by
  rw [sameWord, beq_eq_false_iff_ne]
  intro heq
  have hlength := congrArg List.length heq
  rw [List.length_map, List.length_map] at hlength
  exact h hlength

/-- The word of a disjunction is none of a conjunction, in any folding of letters. -/
theorem or_not_conjunction : Level.conjunction.operator A (.word "or".toList) = none := by
  have hnone : isOneOf A "or".toList ["and", "andalso"] = false := by
    simp only [isOneOf, List.any_cons, List.any_nil, Bool.or_false]
    rw [sameWord_of_length (by decide), sameWord_of_length (by decide)]
    rfl
  rw [Level.operator, hnone]
  rfl

/-- Operands that a connective joins. -/
theorem parses_joined {logic : String} (h : logic = "and" ∨ logic = "or") {x : List Token}
    {e : Expr} (hx : Parses A L.reserved .primary x e) {ps : List (List Token × Expr)}
    (hps : ∀ p ∈ ps, Parses A L.reserved .primary p.1 p.2) :
    Parses A L.reserved (.operands .disjunction)
      (x ++ ps.flatMap fun p => .word logic.toList :: p.1)
      (ps.foldl (fun a p => .binary (connective logic) a p.2) e) := by
  rcases h with rfl | rfl
  · have hand : Level.conjunction.operator A (.word "and".toList) = some .and := by
      simp [Level.operator, isOneOf, sameWord_self]
    exact parses_operand (parses_chain hand (ends_conjunction (by simp [dot]) rfl)
      (parses_operand hx) fun p hp => parses_operand (hps p hp))
  · have hor : Level.disjunction.operator A (.word "or".toList) = some .or := by
      simp [Level.operator, isOneOf, sameWord_self]
    have hends : ∀ rest, Ends A Level.disjunction.rank (.word "or".toList :: rest) := by
      intro rest t ht
      cases ht
      refine ⟨by simp [dot], fun l hl => ?_⟩
      cases l with
      | comparison => rfl
      | conjunction => exact or_not_conjunction
      | disjunction => exact absurd hl (Nat.lt_irrefl _)
    exact parses_chain hor hends (parses_operand (parses_operand hx))
      fun p hp => parses_operand (parses_operand (hps p hp))

mutual

theorem clause_parses : (c : Clause) → Sound E.type c → ∀ x, tokens E.type c = some x →
    Parses A L.reserved .primary x (expr A c)
  | .comparison field operator value => by
    intro h x hx
    exact comparison_parses h.1 h.2.1 hx
  | .group logic children => by
    rintro ⟨hlogic, hne, hchildren⟩ x hx
    obtain ⟨xs, hxs, hx⟩ := Option.bind_eq_some_iff.mp hx
    obtain ⟨body, hbody, rfl⟩ := Option.map_eq_some_iff.mp hx
    obtain ⟨ps, rfl, hes, hps⟩ := pairs_of_forall₂ (clauses_parse children hchildren xs hxs)
    cases ps with
    | nil =>
      cases children with
      | nil => exact absurd rfl hne
      | cons c cs => simp [exprs] at hes
    | cons p ps =>
      rw [logicToken_eq hlogic, List.map_cons, joined_pairs] at hbody
      obtain rfl := Option.some.inj hbody
      have hfirst := hps p List.mem_cons_self
      have hinside := parses_joined hlogic hfirst fun q hq => hps q (List.mem_cons_of_mem p hq)
      have hexpr : expr A (.group logic children) =
          ps.foldl (fun a q => .binary (connective logic) a q.2) p.2 := by
        rw [expr, hes]
        exact List.foldl_map
      rw [hexpr]
      exact parses_parentheses hinside

theorem clauses_parse : (cs : List Clause) → SoundAll E.type cs → ∀ xs,
    tokensAll E.type cs = some xs →
      List.Forall₂ (Parses A L.reserved .primary) xs (exprs A cs)
  | [] => by
    intro _ xs hxs
    cases hxs
    exact .nil
  | c :: cs => by
    intro h xs hxs
    obtain ⟨x, hx, hxs⟩ := Option.bind_eq_some_iff.mp hxs
    obtain ⟨rest, hrest, rfl⟩ := Option.map_eq_some_iff.mp hxs
    exact .cons (clause_parses c h.1 x hx) (clauses_parse cs h.2 rest hrest)

end

/-! ## The expression means what the filter says -/

theorem reading_member {field : String} {p : Property} (hp : getProperty E.type field = some p)
    (hpstring : p.isString = true) (row : E.Row) :
    E.reading.member row field.toList = some ((E.read row p).elim .null .text) := by
  simp only [Entity.reading, String.ofList_toList, hp, hpstring, if_true]

/-- The comparison of a value that is not null. -/
theorem compared_eval {field operator : String} (value : String) (hop : operator ∈ operators)
    {row : E.Row} {v : List Char}
    (hread : E.reading.member row field.toList = some (.text v)) :
    (if operator = "contains" then
        Expr.methodOn (.method (.member field.toList) "ToLower".toList) "Contains".toList
          (.text (value.toList.map A.toLower))
      else .binary (comparator operator) (.method (.member field.toList) "ToLower".toList)
        (.text (value.toList.map A.toLower))).eval E.reading row =
      some (.bool (compares L operator (v.map A.toLower) (value.toList.map A.toLower))) := by
  have hlowered : (Expr.method (.member field.toList) "ToLower".toList).eval E.reading row =
      some (.text (v.map A.toLower)) := eval_lowered hread
  have hvalue : (Expr.text (value.toList.map A.toLower)).eval E.reading row =
      some (.text (value.toList.map A.toLower)) := rfl
  by_cases hcontains : operator = "contains"
  · subst hcontains
    exact eval_contains hlowered hvalue
  · have hother : comparator operator ≠ .and ∧ comparator operator ≠ .or := by
      unfold comparator
      split <;> decide
    rw [if_neg hcontains, eval_compared hother.1 hother.2 hlowered hvalue]
    have hbeq : ∀ v w : List Char, (Value.text v == Value.text w) = (v == w) := by
      intro v w
      simp [beq_eq_decide]
    simp only [operators, List.mem_cons, List.not_mem_nil, or_false] at hop
    rcases hop with rfl | rfl | rfl | rfl | rfl | rfl | rfl
    · simp [comparator, Operator.apply, compares, hbeq]
    · simp [comparator, Operator.apply, compares, hbeq, bne]
    · rfl
    · rfl
    · rfl
    · rfl
    · exact absurd rfl hcontains

theorem comparison_eval {field operator : String} (value : String)
    (hstring : isString E.type field = true) (hop : operator ∈ operators) (row : E.Row) :
    (comparisonExpr A field operator value).eval E.reading row =
      some (.bool (leafHolds E row field operator value)) := by
  obtain ⟨p, -, hp, hpstring, -⟩ := property_of_isString hstring
  have hread := reading_member hp hpstring row
  simp only [comparisonExpr, leafHolds, hp, Option.bind_some]
  cases hv : E.read row p with
  | none =>
    rw [hv] at hread
    exact eval_guard_false (by simp [Expr.eval, hread, Operator.apply])
  | some v =>
    rw [hv] at hread
    rw [eval_guard_true (by simp [Expr.eval, hread, Operator.apply])]
    exact compared_eval value hop hread

theorem comparison_kind {field operator : String} (value : String)
    (hstring : isString E.type field = true) (hop : operator ∈ operators) :
    (comparisonExpr A field operator value).kind E.isText = some .bool := by
  have htext : E.isText field.toList = true := by
    rwa [Entity.isText, String.ofList_toList]
  simp only [operators, List.mem_cons, List.not_mem_nil, or_false] at hop
  rcases hop with rfl | rfl | rfl | rfl | rfl | rfl | rfl <;>
    simp [comparisonExpr, Expr.kind, htext, Operator.kind, comparator]

theorem combine_eq (logic : Option String) (b : Bool) (bs : List Bool) :
    combine logic (b :: bs) =
      if logic = some "or" then b || bs.any id else b && bs.all id := by
  unfold combine
  split <;> rfl


theorem connective_eval {logic : Option String} {e : Expr} {b : Bool} {es : List Expr}
    {bs : List Bool} {row : E.Row} (he : e.eval E.reading row = some (.bool b))
    (h : List.Forall₂ (fun e b => e.eval E.reading row = some (.bool b)) es bs)
    (hlogic : logic ∈ [none, some "", some "and", some "or"]) :
    (es.foldl (.binary (connective (logicOf logic))) e).eval E.reading row =
      some (.bool (combine logic (b :: bs))) := by
  rw [combine_eq, logicOf_admitted hlogic]
  by_cases hor : logic = some "or"
  · simp only [if_pos hor]
    exact eval_or h he
  · simp only [if_neg hor]
    exact eval_and h he

/-- The filter says something of every row exactly if it has a clause, and the expression
of the clause says the same. -/
structure Denotes (row : E.Row) (said : Option Bool) (e : Option Expr) : Prop where
  empty : e = none → said = none
  value : ∀ e' ∈ e, ∃ b, said = some b ∧ e'.eval E.reading row = some (.bool b)

mutual

theorem filter_denoted (row : E.Row) : (f : Filter) → Admitted E.type f →
    Denotes row (meaning E row f) ((clause? f).map (expr A))
  | .null => by
    intro _
    exact ⟨fun _ => by rw [meaning], fun e he => by simp [clause?] at he⟩
  | .mk field value operator logic filters => by
    intro h
    simp only [Admitted] at h
    simp only [clause?, meaning]
    by_cases hleaf : filters.isEmpty = true
    · rw [if_pos hleaf] at h
      rw [if_pos hleaf, if_pos hleaf, if_neg (field_nonempty h.1)]
      cases value with
      | none => exact ⟨fun _ => rfl, fun e he => by simp at he⟩
      | some v =>
        refine ⟨fun he => by simp at he, fun e he => ?_⟩
        obtain rfl : comparisonExpr A field operator v = e := by simpa [expr] using he
        exact ⟨_, rfl, comparison_eval v h.1 h.2.1 row⟩
    · rw [if_neg hleaf] at h
      rw [if_neg hleaf, if_neg hleaf]
      have hall := filters_denoted row filters h.2
      generalize meanings E row filters = said at hall ⊢
      cases hc : clauses filters with
      | nil =>
        rw [hc, exprs] at hall
        cases hall
        exact ⟨fun _ => rfl, fun e he => by simp at he⟩
      | cons c cs =>
        rw [hc, exprs] at hall
        cases hall with
        | @cons _ b _ bs hfirst hrest =>
          refine ⟨fun he => by simp at he, fun e he => ?_⟩
          obtain rfl : expr A (.group (logicOf logic) (c :: cs)) = e := by simpa using he
          refine ⟨_, rfl, ?_⟩
          rw [expr, exprs]
          exact connective_eval hfirst hrest h.1

theorem filters_denoted (row : E.Row) : (fs : List Filter) → AdmittedAll E.type fs →
    List.Forall₂ (fun e b => e.eval E.reading row = some (.bool b)) (exprs A (clauses fs))
      (meanings E row fs)
  | [] => by
    intro _
    simp [clauses, exprs, meanings]
  | f :: fs => by
    intro h
    have hfirst := filter_denoted row f h.1
    have hrest := filters_denoted row fs h.2
    simp only [clauses, meanings]
    cases hc : clause? f with
    | none =>
      rw [hc] at hfirst
      rw [hfirst.empty rfl]
      exact hrest
    | some c =>
      rw [hc] at hfirst
      obtain ⟨b, hb, heval⟩ := hfirst.value _ rfl
      rw [hb]
      exact .cons heval hrest

end

mutual

theorem clause_kind : (c : Clause) → Sound E.type c → (expr A c).kind E.isText = some .bool
  | .comparison field operator value => fun h => comparison_kind value h.1 h.2.1
  | .group logic children => by
    rintro ⟨-, hne, hchildren⟩
    have hall := clauses_kind children hchildren
    cases children with
    | nil => exact absurd rfl hne
    | cons c cs =>
      rw [exprs] at hall
      have hop : connective logic = .and ∨ connective logic = .or := by
        unfold connective
        split
        · exact .inr rfl
        · exact .inl rfl
      rw [expr, exprs]
      exact kind_connective hop (fun e he => hall e (List.mem_cons_of_mem _ he))
        (hall _ List.mem_cons_self)

theorem clauses_kind : (cs : List Clause) → SoundAll E.type cs →
    ∀ e ∈ exprs A cs, e.kind E.isText = some .bool
  | [] => by simp [exprs]
  | c :: cs => by
    intro h e he
    rcases List.mem_cons.mp he with rfl | he
    · exact clause_kind c h.1
    · exact clauses_kind cs h.2 e he

end

/-! ## The literals of a clause -/

theorem DoubleQuoted.append {a b : List Char} (ha : DoubleQuoted a) (hb : DoubleQuoted b) :
    DoubleQuoted (a ++ b) := by
  rw [DoubleQuoted, List.foldl_append, ha]
  exact hb

theorem doubleQuoted_free {a : List Char}
    (h : ∀ c ∈ a, c ≠ '\\' ∧ c ≠ '"' ∧ c ≠ '\'') : DoubleQuoted a := by
  induction a with
  | nil => rfl
  | cons c a ih =>
    obtain ⟨hback, hdouble, hsingle⟩ := h c List.mem_cons_self
    have hstep : quoteStep (some false) c = some false := by
      simp [quoteStep, hback, hdouble, hsingle]
    rw [DoubleQuoted, List.foldl_cons, hstep]
    exact ih fun d hd => h d (List.mem_cons_of_mem c hd)

theorem doubleQuoted_literal {v : List Char} (h : '"' ∉ v) (hback : '\\' ∉ v) :
    DoubleQuoted ('"' :: (v ++ ['"'])) := by
  have hinside : ∀ w : List Char, '"' ∉ w → '\\' ∉ w →
      w.foldl quoteStep (some true) = some true := by
    intro w hw hwback
    induction w with
    | nil => rfl
    | cons c w ih =>
      have hc : c ≠ '"' := fun heq => hw (heq ▸ List.mem_cons_self)
      have hcback : c ≠ '\\' := fun heq => hwback (heq ▸ List.mem_cons_self)
      have hstep : quoteStep (some true) c = some true := by simp [quoteStep, hc, hcback]
      rw [List.foldl_cons, hstep]
      exact ih (fun hin => hw (List.mem_cons_of_mem c hin))
        fun hin => hwback (List.mem_cons_of_mem c hin)
  rw [DoubleQuoted, List.foldl_cons, List.foldl_append]
  have hopen : quoteStep (some false) '"' = some true := rfl
  rw [hopen, hinside v h hback]
  rfl

theorem doubleQuoted_word {w : List Char} (h : IsWord A w) : DoubleQuoted w := by
  have hback := A.marks '\\' (by decide)
  have hdouble := A.marks '"' (by decide)
  have hsingle := A.marks '\'' (by decide)
  have hchar : ∀ c, wordChar A c = true ∨ wordStart A c = true →
      c ≠ '\\' ∧ c ≠ '"' ∧ c ≠ '\'' := by
    intro c hc
    refine ⟨?_, ?_, ?_⟩
    · rintro rfl
      simp [wordChar, wordStart, hback.1, hback.2.1] at hc
    · rintro rfl
      simp [wordChar, wordStart, hdouble.1, hdouble.2.1] at hc
    · rintro rfl
      simp [wordChar, wordStart, hsingle.1, hsingle.2.1] at hc
  cases w with
  | nil => exact h.elim
  | cons c w =>
    refine doubleQuoted_free fun d hd => ?_
    rcases List.mem_cons.mp hd with rfl | hd
    · exact hchar d (.inr h.1)
    · exact hchar d (.inl (h.2 d hd))

theorem doubleQuoted_intercalate {sep : List Char} (hsep : DoubleQuoted sep)
    {as : List (List Char)} (h : ∀ a ∈ as, DoubleQuoted a) : DoubleQuoted (sep.intercalate as) := by
  induction as with
  | nil => rfl
  | cons a as ih =>
    have hrest := ih fun b hb => h b (List.mem_cons_of_mem a hb)
    cases as with
    | nil => simpa [List.intercalate] using h a List.mem_cons_self
    | cons b as =>
      rw [intercalate_cons_cons]
      exact ((h a List.mem_cons_self).append hsep).append hrest

theorem escapeQuotes_plain {value : String} (h : PlainValue value) :
    (toLower A (escapeQuotes value)).toList = value.toList.map A.toLower := by
  rw [toLower_escapeQuotes]
  have hfree : '"' ∉ value.toList.map A.toLower := by
    simpa [A.foldsQuote] using h.1
  generalize value.toList.map A.toLower = v at hfree
  induction v with
  | nil => rfl
  | cons c v ih =>
    have hc : c ≠ '"' := fun heq => hfree (heq ▸ List.mem_cons_self)
    rw [quoted_cons v hc, ih fun hin => hfree (List.mem_cons_of_mem c hin)]

theorem comparison_doubleQuoted {T : EntityType A} {field operator value : String}
    (hstring : isString T field = true) (h : PlainValue value) :
    DoubleQuoted (comparisonText T field operator value).toList := by
  have hfield := doubleQuoted_word (isWord_of_isString T hstring)
  have hliteral : DoubleQuoted ('"' :: (value.toList.map A.toLower ++ ['"'])) :=
    doubleQuoted_literal (by simpa [A.foldsQuote] using h.1)
      (by simpa [A.foldsBackslash] using h.2)
  have hfixed : ∀ s : String, (s.toList.all fun c => c ≠ '\\' && (c ≠ '"' && c ≠ '\'')) = true →
      DoubleQuoted s.toList := by
    intro s hs
    refine doubleQuoted_free fun c hc => ?_
    simpa using List.all_eq_true.mp hs c hc
  have hlowered := (((hfixed "(" (by decide)).append hfield).append
    (hfixed " != null && " (by decide))).append (hfield.append (hfixed ".ToLower()" (by decide)))
  unfold comparisonText
  rw [if_pos hstring]
  by_cases hcontains : getOperator operator = "contains"
  · have hall := (hlowered.append (hfixed ".Contains(" (by decide))).append
      (hliteral.append (hfixed "))" (by decide)))
    simpa [hcontains, escapeQuotes_plain h] using hall
  · have hcomparator : DoubleQuoted (getOperator operator).toList := by
      have hmem := getOperator_mem hcontains
      generalize getOperator operator = op at hmem
      simp only [comparators, List.mem_cons, List.not_mem_nil, or_false] at hmem
      rcases hmem with rfl | rfl | rfl | rfl | rfl | rfl <;> exact hfixed _ (by decide)
    have hall := ((hlowered.append (hfixed " " (by decide))).append
      (hcomparator.append (hfixed " " (by decide)))).append
      (hliteral.append (hfixed ")" (by decide)))
    simpa [hcontains, escapeQuotes_plain h] using hall

mutual

theorem text_doubleQuoted {T : EntityType A} : (c : Clause) → Sound T c →
    DoubleQuoted (text T c).toList
  | .comparison field operator value => fun h => comparison_doubleQuoted h.1 h.2.2
  | .group logic children => by
    rintro ⟨hlogic, -, hchildren⟩
    have hall := texts_doubleQuoted children hchildren
    have hsep : DoubleQuoted (" " ++ logic ++ " ").toList := by
      rcases hlogic with rfl | rfl <;> decide
    have hopen : DoubleQuoted ['('] := by decide
    have hclose : DoubleQuoted [')'] := by decide
    have hbody := @doubleQuoted_intercalate _ hsep ((texts T children).map String.toList)
      (by simpa using hall)
    simpa [text, String.toList_intercalate] using (hopen.append hbody).append hclose

theorem texts_doubleQuoted {T : EntityType A} : (cs : List Clause) → SoundAll T cs →
    ∀ s ∈ texts T cs, DoubleQuoted s.toList
  | [] => by simp [texts]
  | c :: cs => by
    intro h s hs
    rcases List.mem_cons.mp hs with rfl | hs
    · exact text_doubleQuoted c h.1
    · exact texts_doubleQuoted cs h.2 s hs

end

/-- What the parser makes of the clause of an admitted filter. -/
theorem clause_parsed (linq : DynamicLinq E) {c : Clause} (h : Sound E.type c) :
    linq.parseLambda (text E.type c) = some fun row => (expr A c).holds E.reading row := by
  obtain ⟨x, hx, hlex⟩ := (filter_confined_iff E.type c).mpr (clean_of_sound c h)
  have hparse : parseCondition A L.reserved x = some (expr A c) :=
    parseCondition_eq (parses_condition (clause_parses c h x hx))
  exact linq.grammar _ x _ (text_doubleQuoted c h) hlex hparse (clause_kind c h)

/-- The parser reads the clause of an admitted filter as its meaning, and there is no clause
only if the filter says nothing; the rows that are kept are those that it is true of. -/
theorem filter_denotes (linq : DynamicLinq E) (f : Filter) (h : Admitted E.type f) :
    (buildWhereClause E.type f = "" → ∀ row, meaning E row f = none) ∧
    (buildWhereClause E.type f ≠ "" → ∃ p, linq.parseLambda (buildWhereClause E.type f) = some p ∧
      ∀ row, ∃ b, p row = some b ∧ meaning E row f = some b) ∧
    ∀ rows, applyFilter E linq f rows =
      some (rows.filter fun row => (meaning E row f).getD true) := by
  have hdenoted := fun row => filter_denoted row f h
  cases hc : clause? f with
  | none =>
    have hclause : buildWhereClause E.type f = "" := by
      rw [buildWhereClause_eq, hc]
      rfl
    have hnone : ∀ row, meaning E row f = none := by
      intro row
      exact (hdenoted row).empty (by rw [hc]; rfl)
    refine ⟨fun _ => hnone, fun hne => absurd hclause hne, fun rows => ?_⟩
    simp [applyFilter, hclause, hnone]
  | some c =>
    have hclause : buildWhereClause E.type f = text E.type c := by
      rw [buildWhereClause_eq, hc]
      rfl
    have hparsed := clause_parsed linq (sound_of_admitted f h c hc)
    have hvalue : ∀ row, ∃ b, (expr A c).holds E.reading row = some b ∧
        meaning E row f = some b := by
      intro row
      obtain ⟨b, hb, heval⟩ := (hdenoted row).value (expr A c) (by rw [hc]; rfl)
      exact ⟨b, by rw [Expr.holds, heval], hb⟩
    rw [hclause]
    refine ⟨fun hempty => absurd hempty (text_nonempty E.type c), fun _ => ⟨_, hparsed, hvalue⟩,
      fun rows => ?_⟩
    have hkeep : keep (fun row => (expr A c).holds E.reading row) rows =
        some (rows.filter fun row => (meaning E row f).getD true) := by
      apply keep_of_total
      intro row _
      obtain ⟨b, hb, hmeaning⟩ := hvalue row
      rw [hb, hmeaning]
      rfl
    simp [applyFilter, hclause, text_nonempty, hparsed, hkeep]

/-! ## Products -/

/-- The words that the library reserves, and an order of texts by their characters. -/
def plainLanguage (A : Alphabet) : Language A where
  reserved w := w.head? == some '@' || isOneOf A w ["null", "true", "false", "it", "parent", "root",
    "new", "iif", "isnull", "np", "is", "as", "cast", "in", "out", "not", "and", "or", "mod",
    "object", "string", "char", "guid", "math", "convert", "datetime", "decimal", "double", "int"]
  compare v w := if v = w then .eq else if v < w then .lt else .gt
  null := by
    simp [isOneOf, sameWord_self]
  ignoresCase := by
    intro w v h
    have hmap : w.map A.toLower = v.map A.toLower := eq_of_beq h
    have hsame : ∀ u : List Char, sameWord A w u = sameWord A v u := by
      intro u
      rw [sameWord, sameWord, hmap]
    have hhead : (w.head? == some '@') = (v.head? == some '@') := by
      cases w with
      | nil =>
        obtain rfl : v = [] := by simpa using hmap.symm
        rfl
      | cons c w => cases v with
        | nil => simp at hmap
        | cons d v =>
          have hat := (A.foldsLetters c d (List.cons.inj hmap).1).2.2.2
          simp [beq_eq_decide, hat]
    rw [hhead]
    simp only [isOneOf, hsame]

def products : Entity (plainLanguage ascii) where
  type := product
  Row := DomainEvents.Product
  read p property := (match property.name with
    | "Title" => some p.title
    | "Description" => some p.description
    | "Category" => some p.category
    | "Image" => some p.image
    | "CreatedBy" => p.createdBy
    | "LastModifiedBy" => p.lastModifiedBy
    | _ => none).map String.toList
  unreserved := by decide +kernel

/-- A parser that knows the grammar and nothing else. -/
def grammarOnly {A : Alphabet} {L : Language A} (E : Entity L) : DynamicLinq E where
  parseLambda clause :=
    if DoubleQuoted clause.toList then
      ((lex A clause.toList).bind (parseCondition A L.reserved)).bind fun e =>
        if e.kind E.isText = some .bool then some fun row => e.holds E.reading row else none
    else none
  grammar := by
    intro clause ts e hquoted hlex hparse hkind
    simp [hquoted, hlex, hparse, hkind]

/-- A title that contains a word or a category, and a condition without a value. -/
def phones : Filter :=
  .mk "" none "" none [
    .mk "" none "" (some "or") [.mk "title" (some "Phone") "contains" none [],
      .mk "" none "" none [.mk "CATEGORY" (some "Men's") "eq" none []]],
    .mk "Image" none "neq" none []]

example : buildWhereClause product phones =
    "(((title != null && title.ToLower().Contains(\"phone\")) " ++
      "or ((CATEGORY != null && CATEGORY.ToLower() == \"men's\"))))" := by decide +kernel

theorem phones_admitted : Admitted product phones := by
  have hproperties : isString product "title" = true ∧ isString product "CATEGORY" = true ∧
      isString product "Image" = true := by decide +kernel
  have htitle : ∀ v ∈ some "Phone", PlainValue v := by
    rintro v ⟨⟩
    exact ⟨by decide, by decide⟩
  have hcategory : ∀ v ∈ some "Men's", PlainValue v := by
    rintro v ⟨⟩
    exact ⟨by decide, by decide⟩
  have himage : ∀ v ∈ (none : Option String), PlainValue v := by
    rintro v ⟨⟩
  refine ⟨by decide, ?_, ?_, trivial⟩
  · exact ⟨by decide, ⟨hproperties.1, by decide, htitle⟩,
      ⟨by decide, ⟨hproperties.2.1, by decide, hcategory⟩, trivial⟩, trivial⟩
  · exact ⟨hproperties.2.2, by decide, himage⟩

def shirt : DomainEvents.Product :=
  ⟨1, .active, 0, none, 0, none, "Shirt", 20, "", "men's", "", ⟨0, 0⟩⟩

theorem phones_denoted : applyFilter products (grammarOnly products) phones [shirt] =
    some ([shirt].filter fun row => (meaning products row phones).getD true) :=
  (filter_denotes (grammarOnly products) phones phones_admitted).2.2 [shirt]

end FilterMeaning
