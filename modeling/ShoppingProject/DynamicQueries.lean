import ShoppingProject.Lexing

/-!
# Dynamic queries

`ToDynamic` writes the filters and sorts of a request into expression texts for
`System.Linq.Dynamic.Core`. Fields, logics and directions go in as they are, and of a
value only the quotes are escaped, only where the field is a string property. What the
texts mean is compared with what the trees say by the tokens that they are read as.
-/
namespace DynamicQueries

open Lexing

structure SortBy where
  field : String
  dir : String
  deriving DecidableEq

/-- `null` is a null reference in the place of a filter. -/
inductive Filter where
  | null : Filter
  | mk (field : String) (value : Option String) (operator : String) (logic : Option String)
    (filters : List Filter) : Filter

structure DynamicQuery where
  sort : Option (List SortBy)
  filter : Filter

structure Property where
  name : String
  isString : Bool
  deriving DecidableEq

/-- The public properties of an entity; their names are identifiers. -/
structure EntityType (A : Alphabet) where
  properties : List Property
  named : ∀ p ∈ properties, IsWord A p.name.toList

variable {A : Alphabet} (T : EntityType A)

def toLower (A : Alphabet) (s : String) : String := String.ofList (s.toList.map A.toLower)

def equalsIgnoreCase (A : Alphabet) (a b : String) : Bool :=
  a.toList.map A.toLower == b.toList.map A.toLower

def getProperty (name : String) : Option Property :=
  T.properties.find? fun p => equalsIgnoreCase A p.name name

def getOperator (op : String) : String :=
  match op with
  | "eq" => "=="
  | "neq" => "!="
  | "gt" => ">"
  | "gte" => ">="
  | "lt" => "<"
  | "lte" => "<="
  | "contains" => "contains"
  | _ => "=="

/-- `value.Replace("\"", "\\\"")`. -/
def escapeQuotes (value : String) : String :=
  String.ofList (value.toList.flatMap fun c => if c = '"' then ['\\', '"'] else [c])

def isString (field : String) : Bool := (getProperty T field).any Property.isString

/-- The branch of `BuildWhereClause` for a filter without filters below it. -/
def comparisonText (field operator value : String) : String :=
  let op := getOperator operator
  if isString T field then
    let safeValue := escapeQuotes value
    if op = "contains" then
      "(" ++ field ++ " != null && " ++ field ++ ".ToLower().Contains(\"" ++
        toLower A safeValue ++ "\"))"
    else
      "(" ++ field ++ " != null && " ++ field ++ ".ToLower() " ++ op ++ " \"" ++
        toLower A safeValue ++ "\")"
  else field ++ " " ++ op ++ " \"" ++ value ++ "\""

/-- `IsNullOrEmpty(filter.Logic) ? "and" : filter.Logic`. -/
def logicOf (logic : Option String) : String :=
  match logic with
  | none => "and"
  | some l => if l = "" then "and" else l

mutual

def buildWhereClause : Filter → String
  | .null => ""
  | .mk field value operator logic filters =>
    if filters.isEmpty then
      if field = "" then "" else match value with
        | none => ""
        | some v => comparisonText T field operator v
    else
      let childFilters := (buildWhereClauses filters).filter (· ≠ "")
      if childFilters.isEmpty then ""
      else "(" ++ String.intercalate (" " ++ logicOf logic ++ " ") childFilters ++ ")"

def buildWhereClauses : List Filter → List String
  | [] => []
  | f :: fs => buildWhereClause f :: buildWhereClauses fs

end

/-- The ordering of `ApplySort`. -/
def ordering (sorts : List SortBy) : String :=
  String.intercalate "," (sorts.map fun s => s.field ++ " " ++ s.dir)

/-- The texts that `ToDynamic` hands to `Where` and to `OrderBy`. -/
def whereClause (q : DynamicQuery) : Option String :=
  let clause := buildWhereClause T q.filter
  if clause = "" then none else some clause

def orderBy (q : DynamicQuery) : Option String :=
  match q.sort with
  | none => none
  | some sorts => if sorts.isEmpty then none else some (ordering sorts)

/-! ## What a filter says -/

/-- A filter without the parts that say nothing. -/
inductive Clause where
  | comparison (field operator value : String) : Clause
  | group (logic : String) (children : List Clause) : Clause

mutual

def clause? : Filter → Option Clause
  | .null => none
  | .mk field value operator logic filters =>
    if filters.isEmpty then
      if field = "" then none else value.map (.comparison field operator)
    else match clauses filters with
      | [] => none
      | c :: cs => some (.group (logicOf logic) (c :: cs))

def clauses : List Filter → List Clause
  | [] => []
  | f :: fs => match clause? f with
    | none => clauses fs
    | some c => c :: clauses fs

end

mutual

def text : Clause → String
  | .comparison field operator value => comparisonText T field operator value
  | .group logic children =>
    "(" ++ String.intercalate (" " ++ logic ++ " ") (texts children) ++ ")"

def texts : List Clause → List String
  | [] => []
  | c :: cs => text c :: texts cs

end

theorem text_nonempty (c : Clause) : text T c ≠ "" := by
  intro h
  have hlength := congrArg String.length h
  cases c with
  | comparison field operator value =>
    simp only [text, comparisonText] at hlength
    split_ifs at hlength <;> simp [String.length_append] at hlength
  | group logic children =>
    simp [text, String.length_append] at hlength

mutual

/-- The clause is the text of what the filter says. -/
theorem buildWhereClause_eq : (f : Filter) →
    buildWhereClause T f = ((clause? f).map (text T)).getD ""
  | .null => by simp [buildWhereClause, clause?]
  | .mk field value operator logic filters => by
    have hchildren := buildWhereClauses_eq filters
    simp only [buildWhereClause, clause?]
    split
    · split
      · rfl
      · cases value <;> rfl
    · rw [hchildren]
      cases clauses filters with
      | nil => rfl
      | cons c cs => rfl

theorem buildWhereClauses_eq : (fs : List Filter) →
    (buildWhereClauses T fs).filter (· ≠ "") = texts T (clauses fs)
  | [] => by simp [buildWhereClauses, clauses, texts]
  | f :: fs => by
    have hhead := buildWhereClause_eq f
    have htail := buildWhereClauses_eq fs
    simp only [buildWhereClauses, clauses, List.filter_cons]
    rw [hhead, htail]
    cases clause? f with
    | none => rfl
    | some c => simp [texts, text_nonempty]

end

/-! ## The tokens that a filter stands for -/

/-- The name that a word refers to; `@` may stand before it. -/
def memberName : List Char → List Char
  | '@' :: c :: cs => c :: cs
  | w => w

/-- A field that is read as one word, the name of a public property. -/
def fieldToken (field : String) : Option Token :=
  match lex A field.toList with
  | some [.word w] =>
    if (getProperty T (String.ofList (memberName w))).isSome then some (.word w) else none
  | _ => none

/-- A logic that is read as one connective. -/
def logicToken (A : Alphabet) (logic : String) : Option Token :=
  match lex A logic.toList with
  | some [.symbol s] => if s = ['&', '&'] ∨ s = ['|', '|'] then some (.symbol s) else none
  | some [.word w] =>
    if ["and", "andalso", "or", "orelse"].any (equalsIgnoreCase A (String.ofList w)) then
      some (.word w)
    else none
  | _ => none

/-- A direction that is read as one of the words for it, or as nothing. -/
def dirTokens (A : Alphabet) (dir : String) : Option (List Token) :=
  match lex A dir.toList with
  | some [] => some []
  | some [.word w] =>
    if ["asc", "ascending", "desc", "descending"].any (equalsIgnoreCase A (String.ofList w)) then
      some [.word w]
    else none
  | _ => none

/-- `(field != null && field.ToLower()`, up to the comparison. -/
def loweredField (field : String) : List Token :=
  [.symbol ['('], .word field.toList, .symbol ['!', '='], .word "null".toList,
    .symbol ['&', '&'], .word field.toList, .symbol ['.'], .word "ToLower".toList,
    .symbol ['('], .symbol [')']]

def comparisonTokens (field operator value : String) : Option (List Token) :=
  if isString T field then
    let literal := Token.literal (value.toList.map A.toLower)
    some (loweredField field ++
      if getOperator operator = "contains" then
        [.symbol ['.'], .word "Contains".toList, .symbol ['('], literal, .symbol [')'],
          .symbol [')']]
      else [.symbol (getOperator operator).toList, literal, .symbol [')']])
  else if getOperator operator = "contains" then none
  else (fieldToken T field).map fun f =>
    [f, .symbol (getOperator operator).toList, .literal value.toList]

mutual

def tokens : Clause → Option (List Token)
  | .comparison field operator value => comparisonTokens T field operator value
  | .group logic children => (tokensAll children).bind fun xs =>
    (joined (logicToken A logic) xs).map fun body => .symbol ['('] :: body ++ [.symbol [')']]

def tokensAll : List Clause → Option (List (List Token))
  | [] => some []
  | c :: cs => (tokens c).bind fun x => (tokensAll cs).map fun xs => x :: xs

end

def sortTokens (s : SortBy) : Option (List Token) :=
  (fieldToken T s.field).bind fun f => (dirTokens A s.dir).map fun d => f :: d

def sortTokensAll : List SortBy → Option (List (List Token))
  | [] => some []
  | s :: sorts => (sortTokens T s).bind fun x => (sortTokensAll sorts).map fun xs => x :: xs

def orderTokens (sorts : List SortBy) : Option (List Token) :=
  (sortTokensAll T sorts).bind (joined (some (.symbol [','])))

/-- What the parser does not reject is read as the tokens that the trees stand for. -/
structure Confined (acceptsWhere acceptsOrder : String → Bool) (q : DynamicQuery) : Prop where
  filter : ∀ t, whereClause T q = some t → acceptsWhere t = true →
    ∃ c x, clause? q.filter = some c ∧ tokens T c = some x ∧ lex A t.toList = some x
  sort : ∀ t, orderBy q = some t → acceptsOrder t = true →
    ∃ sorts x, q.sort = some sorts ∧ orderTokens T sorts = some x ∧ lex A t.toList = some x

/-- Values of string properties hold no backslash; other fields are property names by
themselves, compared with values that hold neither backslashes nor quotes. -/
def CleanComparison (field operator value : String) : Prop :=
  Plain (isString T field) value.toList ∧ (isString T field = false →
    (fieldToken T field).isSome ∧ getOperator operator ≠ "contains")

mutual

def Clean : Clause → Prop
  | .comparison field operator value => CleanComparison T field operator value
  | .group logic children =>
    CleanAll children ∧ (2 ≤ children.length → (logicToken A logic).isSome)

def CleanAll : List Clause → Prop
  | [] => True
  | c :: cs => Clean c ∧ CleanAll cs

end

def CleanSort (s : SortBy) : Prop := (fieldToken T s.field).isSome ∧ (dirTokens A s.dir).isSome

/-- Whatever the parser accepts comes from a clean filter and clean sorts. -/
structure CleanQuery (acceptsWhere acceptsOrder : String → Bool) (q : DynamicQuery) : Prop where
  filter : ∀ c, clause? q.filter = some c → acceptsWhere (text T c) = true → Clean T c
  sort : ∀ sorts, q.sort = some sorts → sorts ≠ [] → acceptsOrder (ordering sorts) = true →
    ∀ s ∈ sorts, CleanSort T s

/-! ## How the texts are read -/

theorem isWord_of_equalsIgnoreCase {a b : String} (h : equalsIgnoreCase A a b = true)
    (ha : IsWord A a.toList) : IsWord A b.toList := by
  have hmap : a.toList.map A.toLower = b.toList.map A.toLower := by
    simpa [equalsIgnoreCase] using h
  have hchar : ∀ c d, A.toLower c = A.toLower d → wordChar A c = wordChar A d ∧
      wordStart A c = wordStart A d := by
    intro c d hcd
    obtain ⟨hletter, hdigit, hunder, hat⟩ := A.foldsLetters c d hcd
    have hunder' : (c == '_') = (d == '_') := by simp [beq_eq_decide, hunder]
    have hat' : (c == '@') = (d == '@') := by simp [beq_eq_decide, hat]
    simp [wordChar, wordStart, hletter, hdigit, hunder', hat']
  cases hal : a.toList with
  | nil =>
    rw [hal] at ha
    exact ha.elim
  | cons c cs =>
    cases hbl : b.toList with
    | nil => simp [hal, hbl] at hmap
    | cons d ds =>
      rw [hal, hbl] at hmap
      rw [hal] at ha
      obtain ⟨hhead, htail⟩ := List.cons.inj hmap
      refine ⟨(hchar c d hhead).2 ▸ ha.1, ?_⟩
      intro e he
      obtain ⟨e', he', heq⟩ := List.mem_map.mp (htail ▸ List.mem_map_of_mem he)
      exact (hchar e' e heq).1 ▸ ha.2 e' he'

theorem isWord_of_isString {field : String} (h : isString T field = true) :
    IsWord A field.toList := by
  unfold isString at h
  cases hfind : getProperty T field with
  | none => simp [hfind] at h
  | some p =>
    have hname : equalsIgnoreCase A p.name field = true := by
      have := List.find?_some hfind
      simpa using this
    exact isWord_of_equalsIgnoreCase hname (T.named p (List.mem_of_find?_eq_some hfind))

theorem toLower_escapeQuotes (value : String) :
    (toLower A (escapeQuotes value)).toList = quoted true (value.toList.map A.toLower) := by
  simp only [toLower, escapeQuotes, quoted, String.toList_ofList]
  induction value.toList with
  | nil => rfl
  | cons c cs ih =>
    simp only [List.flatMap_cons, List.map_append, List.map_cons, ih]
    congr 1
    by_cases h : c = '"'
    · subst h
      have hquote : A.toLower '"' = '"' := (A.foldsQuote '"').mpr rfl
      have hbackslash : A.toLower '\\' = '\\' := (A.foldsBackslash '\\').mpr rfl
      simp [hquote, hbackslash]
    · have h' : A.toLower c ≠ '"' := fun heq => h ((A.foldsQuote c).mp heq)
      simp [h, h']

theorem plain_lower {v : List Char} : Plain true (v.map A.toLower) ↔ Plain true v := by
  simp [Plain, A.foldsBackslash]

theorem quoted_raw (v : List Char) : quoted false v = v := by
  simp [quoted]

/-- The symbols that `GetOperator` writes. -/
def comparators : List String := ["==", "!=", ">", ">=", "<", "<="]

theorem getOperator_mem {operator : String} (h : getOperator operator ≠ "contains") :
    getOperator operator ∈ comparators := by
  unfold getOperator at h ⊢
  split at h <;> first | exact absurd rfl h | simp [comparators]

theorem lex_comparator {operator : String} (h : operator ∈ comparators) :
    lex A operator.toList = some [.symbol operator.toList] := by
  simp only [comparators, List.mem_cons, List.not_mem_nil, or_false] at h
  rcases h with rfl | rfl | rfl | rfl | rfl | rfl
  · exact lex_pair (by decide) (by decide)
  · exact lex_pair (by decide) (by decide)
  · exact lex_mark (by decide)
  · exact lex_pair (by decide) (by decide)
  · exact lex_mark (by decide)
  · exact lex_pair (by decide) (by decide)

theorem reads_loweredField {field : String} (h : IsWord A field.toList) :
    Reads A ("(" ++ field ++ " != null && " ++ field ++ ".ToLower()").toList
      (loweredField field) := by
  have hnull : IsWord A "null".toList :=
      isWord_of_alpha (by decide) (forall_mem_of_all (by decide))
  have hlower : IsWord A "ToLower".toList :=
      isWord_of_alpha (by decide) (forall_mem_of_all (by decide))
  have hfield := reads_spaced (lex_word h)
  have hne : Reads A (['!', '='] ++ [' ']) [.symbol ['!', '=']] :=
    reads_spaced (lex_pair (by decide) (by decide))
  have hand : Reads A (['&', '&'] ++ [' ']) [.symbol ['&', '&']] :=
    reads_spaced (lex_pair (by decide) (by decide))
  have hall := ((((((@reads_closer A '(' (by decide)).append hfield).append hne).append
    (reads_spaced (lex_word hnull))).append hand).append
    (@reads_word_closer A _ h '.' (by decide))).append
    ((@reads_word_closer A _ hlower '(' (by decide)).append (@reads_closer A ')' (by decide)))
  simpa [loweredField] using hall

theorem fieldToken_lex {field : String} {f : Token} (h : fieldToken T field = some f) :
    lex A field.toList = some [f] := by
  unfold fieldToken at h
  split at h
  · rename_i w hlex
    split at h
    · cases h
      exact hlex
    · cases h
  · cases h

theorem logicToken_lex {logic : String} {l : Token} (h : logicToken A logic = some l) :
    lex A logic.toList = some [l] := by
  unfold logicToken at h
  split at h
  · rename_i w hlex
    split at h
    · cases h
      exact hlex
    · cases h
  · rename_i w hlex
    split at h
    · cases h
      exact hlex
    · cases h
  · cases h

/-- Whether a text is read as its tokens is whether it is clean. -/
structure Judged (A : Alphabet) (clean : Prop) (text : List Char) (x : List Token) : Prop where
  reads : clean → Reads A text x
  misreads : ¬ clean → Misreads A text x

structure JudgedAll (A : Alphabet) (clean : Prop) (texts : List (List Char))
    (xs : List (List Token)) : Prop where
  reads : clean → List.Forall₂ (Reads A) texts xs
  broken : ¬ clean → Broken A texts xs
  length : texts.length = xs.length

theorem judged_around {before after : List Char} {pre post : List Token} (escaped : Bool)
    (v : List Char) (hbefore : Reads A before pre) (hafter : Reads A after post) :
    Judged A (Plain escaped v) (before ++ '"' :: (quoted escaped v ++ '"' :: after))
      (pre ++ .literal v :: post) where
  reads := fun hplain => reads_around hbefore hafter hplain
  misreads := fun hplain => misreads_around hbefore hplain after post

/-- A comparison is read as its tokens or, where its value is not plain, as something
else. -/
theorem comparison_read {field operator value : String} {x : List Token}
    (h : comparisonTokens T field operator value = some x) :
    Judged A (Plain (isString T field) value.toList)
      (comparisonText T field operator value).toList x := by
  unfold comparisonTokens at h
  unfold comparisonText
  cases hstring : isString T field with
  | true =>
    have hfield := isWord_of_isString T hstring
    have hlowered := reads_loweredField hfield
    have hclose := @reads_closer A ')' (by decide)
    rw [hstring, if_pos rfl] at h
    rw [if_pos rfl, ← @plain_lower A]
    by_cases hop : getOperator operator = "contains"
    · have hcontains : IsWord A "Contains".toList :=
        isWord_of_alpha (by decide) (forall_mem_of_all (by decide))
      have hbefore := hlowered.append ((@reads_closer A '.' (by decide)).append
        (@reads_word_closer A _ hcontains '(' (by decide)))
      simp only [hop, if_true] at h ⊢
      cases h
      simpa [toLower_escapeQuotes] using judged_around _ _ hbefore (hclose.append hclose)
    · have hbefore := hlowered.append (reads_blank.append
        (reads_spaced (@lex_comparator A _ (getOperator_mem hop))))
      simp only [hop, if_false] at h ⊢
      cases h
      simpa [toLower_escapeQuotes] using judged_around _ _ hbefore hclose
  | false =>
    simp only [hstring, Bool.false_eq_true, if_false] at h ⊢
    by_cases hop : getOperator operator = "contains"
    · simp [hop] at h
    · rw [if_neg hop] at h
      obtain ⟨f, hf, rfl⟩ := Option.map_eq_some_iff.mp h
      have hbefore := (reads_spaced (fieldToken_lex T hf)).append
        (reads_spaced (@lex_comparator A _ (getOperator_mem hop)))
      have hnone : Reads A [] [] := by
        intro ts rest
        simp
      simpa [quoted_raw] using judged_around false value.toList hbefore hnone

theorem comparison_judged {field operator value : String} {x : List Token}
    (h : comparisonTokens T field operator value = some x) :
    Judged A (CleanComparison T field operator value) (comparisonText T field operator value).toList
      x := by
  have hjudged := comparison_read T h
  have hnamed : isString T field = false →
      (fieldToken T field).isSome ∧ getOperator operator ≠ "contains" := by
    intro hstring
    simp only [comparisonTokens, hstring, Bool.false_eq_true, if_false] at h
    split at h
    · cases h
    · rename_i hop
      obtain ⟨f, hf, -⟩ := Option.map_eq_some_iff.mp h
      exact ⟨by rw [hf]; rfl, hop⟩
  exact ⟨fun hclean => hjudged.reads hclean.1, fun hclean => hjudged.misreads fun hplain =>
    hclean ⟨hplain, hnamed⟩⟩

theorem comparison_unclean {field operator value : String}
    (h : comparisonTokens T field operator value = none) :
    ¬ CleanComparison T field operator value := by
  intro hclean
  cases hstring : isString T field with
  | true =>
    simp only [comparisonTokens, hstring, if_true] at h
    cases h
  | false =>
    obtain ⟨hfield, hop⟩ := hclean.2 hstring
    obtain ⟨f, hf⟩ := Option.isSome_iff_exists.mp hfield
    simp only [comparisonTokens, hstring, Bool.false_eq_true, if_false, if_neg hop, hf] at h
    cases h

theorem reads_separator {logic : String} {l : Token} (h : logicToken A logic = some l) :
    Reads A (" " ++ logic ++ " ").toList [l] := by
  have hall := reads_blank.append (reads_spaced (logicToken_lex h))
  simpa using hall

mutual

theorem clause_judged : (c : Clause) → (∀ x, tokens T c = some x →
    Judged A (Clean T c) (text T c).toList x) ∧ (tokens T c = none → ¬ Clean T c)
  | .comparison field operator value => by
    simp only [tokens, Clean, text]
    exact ⟨fun x hx => comparison_judged T hx, comparison_unclean T⟩
  | .group logic children => by
    obtain ⟨hjudged, hnone⟩ := clauses_judged children
    simp only [tokens, Clean, text]
    constructor
    · intro x hx
      obtain ⟨xs, hxs, hx⟩ := Option.bind_eq_some_iff.mp hx
      obtain ⟨body, hbody, rfl⟩ := Option.map_eq_some_iff.mp hx
      obtain ⟨hall, hlength⟩ := hjudged xs hxs
      have hlogic : 2 ≤ children.length → (logicToken A logic).isSome := by
        intro htwo
        rw [← hlength] at htwo
        obtain ⟨x₁, x₂, rest, rfl⟩ : ∃ x₁ x₂ rest, xs = x₁ :: x₂ :: rest := by
          match xs, htwo with
          | x₁ :: x₂ :: rest, _ => exact ⟨x₁, x₂, rest, rfl⟩
        obtain ⟨s, -, hs, -⟩ := joined_cons hbody
        rw [hs]
        rfl
      have hsep : ∀ s, logicToken A logic = some s → Reads A (" " ++ logic ++ " ").toList [s] :=
        fun s hs => reads_separator hs
      have hopen := @reads_closer A '(' (by decide)
      have hclose := @reads_closer A ')' (by decide)
      constructor
      · intro hclean
        have hbodyReads := reads_joined hsep (hall.reads hclean.1) body hbody
        simpa [String.toList_intercalate] using (hopen.append hbodyReads).append hclose
      · intro hclean
        have hbroken := hall.broken fun hchildren => hclean ⟨hchildren, hlogic⟩
        have hbodyMisreads := misreads_joined hsep hall.length hbroken body hbody
        simpa [String.toList_intercalate] using
          (hopen.misreads hbodyMisreads).append [')'] [.symbol [')']]
    · intro hx hclean
      cases hxs : tokensAll T children with
      | none => exact hnone hxs hclean.1
      | some xs =>
        have hbody : joined (logicToken A logic) xs = none := by simpa [hxs] using hx
        obtain ⟨hlogic, htwo⟩ := joined_eq_none hbody
        rw [(hjudged xs hxs).2] at htwo
        have hsome := hclean.2 htwo
        rw [hlogic] at hsome
        cases hsome

theorem clauses_judged : (cs : List Clause) → (∀ xs, tokensAll T cs = some xs →
    JudgedAll A (CleanAll T cs) ((texts T cs).map String.toList) xs ∧ xs.length = cs.length) ∧
      (tokensAll T cs = none → ¬ CleanAll T cs)
  | [] => by
    simp only [tokensAll, CleanAll, texts]
    constructor
    · intro xs hxs
      cases hxs
      exact ⟨⟨fun _ => .nil, fun hclean => absurd trivial hclean, rfl⟩, rfl⟩
    · intro h
      cases h
  | c :: cs => by
    obtain ⟨hjudged, hnone⟩ := clause_judged c
    obtain ⟨hjudgedAll, hnoneAll⟩ := clauses_judged cs
    simp only [tokensAll, CleanAll, texts]
    constructor
    · intro xs hxs
      obtain ⟨x, hx, hxs⟩ := Option.bind_eq_some_iff.mp hxs
      obtain ⟨rest, hrest, rfl⟩ := Option.map_eq_some_iff.mp hxs
      obtain ⟨hall, hlength⟩ := hjudgedAll rest hrest
      have hone := hjudged x hx
      refine ⟨⟨fun hclean => .cons (hone.reads hclean.1) (hall.reads hclean.2), ?_, ?_⟩, ?_⟩
      · intro hclean
        by_cases hc : Clean T c
        · exact .there (hone.reads hc) (hall.broken fun hcs => hclean ⟨hc, hcs⟩)
        · exact .here (hone.misreads hc)
      · simp [hall.length]
      · simp [hlength]
    · intro hxs hclean
      cases hx : tokens T c with
      | none => exact hnone hx hclean.1
      | some x =>
        have hrest : tokensAll T cs = none := by simpa [hx] using hxs
        exact hnoneAll hrest hclean.2

end

theorem dirTokens_ends {dir : String} {x : List Token} (h : dirTokens A dir = some x) :
    Ends A dir.toList x := by
  unfold dirTokens at h
  split at h
  · rename_i hlex
    cases h
    exact ends_of_lex hlex (.inl rfl)
  · rename_i w hlex
    split at h
    · cases h
      exact ends_of_lex hlex (.inr ⟨w, rfl⟩)
    · cases h
  · cases h

theorem sortTokensAll_ends {sorts : List SortBy} : ∀ {xs : List (List Token)},
    sortTokensAll T sorts = some xs → List.Forall₂ (Ends A)
      ((sorts.map fun s => s.field ++ " " ++ s.dir).map String.toList) xs := by
  induction sorts with
  | nil =>
    intro xs h
    cases h
    exact .nil
  | cons s sorts ih =>
    intro xs h
    obtain ⟨x, hx, h⟩ := Option.bind_eq_some_iff.mp h
    obtain ⟨rest, hrest, rfl⟩ := Option.map_eq_some_iff.mp h
    obtain ⟨f, hf, hx⟩ := Option.bind_eq_some_iff.mp hx
    obtain ⟨d, hd, rfl⟩ := Option.map_eq_some_iff.mp hx
    have hends := (reads_spaced (fieldToken_lex T hf)).ends (dirTokens_ends hd)
    exact .cons (by simpa using hends) (ih hrest)

/-- The sorts stand for tokens exactly if they are clean. -/
theorem sortTokensAll_isSome {sorts : List SortBy} :
    (sortTokensAll T sorts).isSome ↔ ∀ s ∈ sorts, CleanSort T s := by
  have hone : ∀ s : SortBy, (sortTokens T s).isSome ↔ CleanSort T s := by
    intro s
    unfold sortTokens CleanSort
    cases fieldToken T s.field <;> cases dirTokens A s.dir <;> simp
  induction sorts with
  | nil => simp [sortTokensAll]
  | cons s sorts ih =>
    have hboth : (sortTokensAll T (s :: sorts)).isSome ↔
        (sortTokens T s).isSome ∧ (sortTokensAll T sorts).isSome := by
      rw [sortTokensAll]
      cases sortTokens T s <;> cases sortTokensAll T sorts <;> simp
    rw [hboth, List.forall_mem_cons]
    exact and_congr (hone s) ih

theorem ordering_lex {sorts : List SortBy} {x : List Token} (h : orderTokens T sorts = some x) :
    lex A (ordering sorts).toList = some x := by
  obtain ⟨xs, hxs, hx⟩ := Option.bind_eq_some_iff.mp h
  have hlex := lex_joined (sortTokensAll_ends T hxs) x [] hx
  rw [ordering, String.toList_intercalate]
  exact hlex

theorem orderTokens_isSome {sorts : List SortBy} :
    (orderTokens T sorts).isSome ↔ ∀ s ∈ sorts, CleanSort T s := by
  rw [← sortTokensAll_isSome T, orderTokens]
  cases sortTokensAll T sorts with
  | none => simp
  | some xs =>
    cases hx : joined (some (.symbol [','])) xs with
    | some x => simp [hx]
    | none => exact absurd (joined_eq_none hx).1 (by simp)

/-- The clause is confined exactly if the filter is clean. -/
theorem filter_confined_iff (c : Clause) :
    (∃ x, tokens T c = some x ∧ lex A (text T c).toList = some x) ↔ Clean T c := by
  obtain ⟨hjudged, hnone⟩ := clause_judged T c
  constructor
  · rintro ⟨x, hx, hlex⟩
    by_contra hclean
    exact ((hjudged x hx).misreads hclean).lex hlex
  · intro hclean
    cases hx : tokens T c with
    | none => exact absurd hclean (hnone hx)
    | some x => exact ⟨x, rfl, ((hjudged x hx).reads hclean).lex⟩

theorem whereClause_eq (q : DynamicQuery) :
    whereClause T q = (clause? q.filter).map (text T) := by
  unfold whereClause
  simp only [buildWhereClause_eq T q.filter]
  cases clause? q.filter with
  | none => rfl
  | some c => simp [text_nonempty]

/-- A query is confined exactly if everything of it that the parser accepts is clean. -/
theorem confined_iff (A : Alphabet) (T : EntityType A) (acceptsWhere acceptsOrder : String → Bool)
    (q : DynamicQuery) :
    Confined T acceptsWhere acceptsOrder q ↔ CleanQuery T acceptsWhere acceptsOrder q := by
  constructor
  · rintro ⟨hfilter, hsort⟩
    constructor
    · intro c hc haccepts
      obtain ⟨c', x, hc', hx, hlex⟩ := hfilter (text T c) (by rw [whereClause_eq, hc]; rfl) haccepts
      rw [hc] at hc'
      cases hc'
      exact (filter_confined_iff T c).mp ⟨x, hx, hlex⟩
    · intro sorts hsorts hne haccepts
      have horder : orderBy q = some (ordering sorts) := by
        simp [orderBy, hsorts, hne]
      obtain ⟨sorts', x, hsorts', hx, -⟩ := hsort _ horder haccepts
      rw [hsorts] at hsorts'
      cases hsorts'
      exact (orderTokens_isSome T).mp (by rw [hx]; rfl)
  · rintro ⟨hfilter, hsort⟩
    constructor
    · intro t ht haccepts
      rw [whereClause_eq] at ht
      obtain ⟨c, hc, rfl⟩ := Option.map_eq_some_iff.mp ht
      obtain ⟨x, hx, hlex⟩ := (filter_confined_iff T c).mpr (hfilter c hc haccepts)
      exact ⟨c, x, hc, hx, hlex⟩
    · intro t ht haccepts
      unfold orderBy at ht
      split at ht
      · cases ht
      · rename_i sorts hsorts
        split at ht
        · cases ht
        · rename_i hne
          cases ht
          have hclean := hsort sorts hsorts (by simpa using hne) haccepts
          obtain ⟨x, hx⟩ := Option.isSome_iff_exists.mp ((orderTokens_isSome T).mpr hclean)
          exact ⟨sorts, x, hsorts, hx, ordering_lex T hx⟩

/-- The public properties of `Product`. -/
def product : EntityType ascii where
  properties :=
    [⟨"Title", true⟩, ⟨"Price", false⟩, ⟨"Description", true⟩, ⟨"Category", true⟩, ⟨"Image", true⟩,
      ⟨"Rating", false⟩, ⟨"Created", false⟩, ⟨"CreatedBy", true⟩, ⟨"LastModified", false⟩,
      ⟨"LastModifiedBy", true⟩, ⟨"Id", false⟩, ⟨"Status", false⟩, ⟨"DomainEvents", false⟩]
  named := by
    intro p hp
    simp only [List.mem_cons, List.not_mem_nil, or_false] at hp
    rcases hp with rfl | rfl | rfl | rfl | rfl | rfl | rfl | rfl | rfl | rfl | rfl | rfl | rfl <;>
      exact isWord_of_alpha (by decide) (forall_mem_of_all (by decide))

/-- A field may bring a condition of its own that is met by every product. -/
def smuggled : DynamicQuery where
  sort := none
  filter := .mk "1 == 1 || Title" (some "x") "eq" none []

example : whereClause product smuggled = some "1 == 1 || Title == \"x\"" := by decide

theorem smuggled_condition : ¬ ∀ (A : Alphabet) (T : EntityType A)
    (acceptsWhere acceptsOrder : String → Bool) (q : DynamicQuery),
    Confined T acceptsWhere acceptsOrder q := by
  intro hall
  let accepts : String → Bool := fun t => t == "1 == 1 || Title == \"x\""
  have hclause : whereClause product smuggled = some "1 == 1 || Title == \"x\"" := by decide
  obtain ⟨c, x, hc, hx, -⟩ :=
    (hall ascii product accepts accepts smuggled).filter _ hclause (by decide)
  have hnone : (clause? smuggled.filter).bind (tokens product) = none := by decide
  rw [hc, Option.bind_some, hx] at hnone
  cases hnone

end DynamicQueries
