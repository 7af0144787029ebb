import Mathlib.Data.List.Basic
import Mathlib.Tactic.Common

/-!
# Reading expressions with string literals

A one-pass scanner for an expression language: words, numbers, symbols, and string
literals in which a backslash escapes the next character. What a text pasted into an
expression can do is decided by where the scanner stands when the text is over.
-/

/-- What the scanner asks about characters. -/
structure Alphabet where
  isLetter : Char → Bool
  isDigit : Char → Bool
  isWhiteSpace : Char → Bool
  toLower : Char → Char
  letters : ∀ c, c.isAlpha = true → isLetter c = true
  space : isWhiteSpace ' ' = true
  letterNotSpace : ∀ c, isLetter c = true → isWhiteSpace c = false
  digitNotSpace : ∀ c, isDigit c = true → isWhiteSpace c = false
  marks : ∀ c ∈ "\"'\\()[]{},.:=!<>&|_@".toList,
    isLetter c = false ∧ isDigit c = false ∧ isWhiteSpace c = false
  foldsLetters : ∀ c d, toLower c = toLower d →
    isLetter c = isLetter d ∧ isDigit c = isDigit d ∧ (c = '_' ↔ d = '_') ∧ (c = '@' ↔ d = '@')
  foldsQuote : ∀ c, toLower c = '"' ↔ c = '"'
  foldsBackslash : ∀ c, toLower c = '\\' ↔ c = '\\'

namespace Lexing

inductive Token where
  | word : List Char → Token
  | number : List Char → Token
  | literal : List Char → Token
  | symbol : List Char → Token
  deriving DecidableEq

/-- What has been read of the current token; `escape` stands behind a backslash. -/
inductive Mode where
  | start : Mode
  | word : List Char → Mode
  | number : List Char → Mode
  | symbol : Char → Mode
  | literal (quote : Char) : List Char → Mode
  | escape (quote : Char) : List Char → Mode
  deriving DecidableEq

structure Scan where
  tokens : List Token
  mode : Mode
  deriving DecidableEq

/-- Symbols that are a token at once. -/
def singles : List Char := ['(', ')', '[', ']', '{', '}', ',', '.', ':']

def pairs : List (Char × Char) :=
  [('=', '='), ('!', '='), ('<', '='), ('>', '='), ('&', '&'), ('|', '|'), ('<', '>'), ('=', '>'),
    ('<', '<'), ('>', '>'), ('?', '?'), ('?', '.')]

variable (A : Alphabet)

def wordStart (c : Char) : Bool := A.isLetter c || c == '_' || c == '@'

def wordChar (c : Char) : Bool := A.isLetter c || A.isDigit c || c == '_'

/-- Between two tokens. -/
def begin (tokens : List Token) (c : Char) : Scan :=
  if A.isWhiteSpace c then ⟨tokens, .start⟩
  else if wordStart A c then ⟨tokens, .word [c]⟩
  else if A.isDigit c then ⟨tokens, .number [c]⟩
  else if c = '"' ∨ c = '\'' then ⟨tokens, .literal c []⟩
  else if c ∈ singles then ⟨tokens ++ [.symbol [c]], .start⟩
  else ⟨tokens, .symbol c⟩

def step (s : Scan) (c : Char) : Scan :=
  match s.mode with
  | .start => begin A s.tokens c
  | .word w =>
    if wordChar A c then ⟨s.tokens, .word (w ++ [c])⟩ else begin A (s.tokens ++ [.word w]) c
  | .number n =>
    if wordChar A c || c == '.' then ⟨s.tokens, .number (n ++ [c])⟩
    else begin A (s.tokens ++ [.number n]) c
  | .symbol d =>
    if (d, c) ∈ pairs then ⟨s.tokens ++ [.symbol [d, c]], .start⟩
    else begin A (s.tokens ++ [.symbol [d]]) c
  | .literal quote text =>
    if c = '\\' then ⟨s.tokens, .escape quote text⟩
    else if c = quote then ⟨s.tokens ++ [.literal text], .start⟩
    else ⟨s.tokens, .literal quote (text ++ [c])⟩
  | .escape quote text => ⟨s.tokens, .literal quote (text ++ [c])⟩

def run (s : Scan) (text : List Char) : Scan := text.foldl (step A) s

/-- The tokens at the end of the text; there are none in an open literal. -/
def finish (s : Scan) : Option (List Token) :=
  match s.mode with
  | .start => some s.tokens
  | .word w => some (s.tokens ++ [.word w])
  | .number n => some (s.tokens ++ [.number n])
  | .symbol c => some (s.tokens ++ [.symbol [c]])
  | .literal _ _ => none
  | .escape _ _ => none

def lex (text : List Char) : Option (List Token) := finish (run A ⟨[], .start⟩ text)

variable {A}

@[simp] theorem run_nil (s : Scan) : run A s [] = s := rfl

@[simp] theorem run_cons (s : Scan) (c : Char) (text : List Char) :
    run A s (c :: text) = run A (step A s c) text := rfl

theorem run_append (s : Scan) (a b : List Char) : run A s (a ++ b) = run A (run A s a) b := by
  simp [run, List.foldl_append]

/-- The tokens read before do not matter. -/
theorem begin_shift (ts tokens : List Token) (c : Char) :
    begin A (ts ++ tokens) c = ⟨ts ++ (begin A tokens c).tokens, (begin A tokens c).mode⟩ := by
  unfold begin
  split_ifs <;> simp

theorem step_shift (ts : List Token) (s : Scan) (c : Char) :
    step A ⟨ts ++ s.tokens, s.mode⟩ c = ⟨ts ++ (step A s c).tokens, (step A s c).mode⟩ := by
  unfold step
  cases s.mode with
  | start => exact begin_shift ts s.tokens c
  | word w =>
    simp only [List.append_assoc]
    split_ifs
    · rfl
    · exact begin_shift ts _ c
  | number n =>
    simp only [List.append_assoc]
    split_ifs
    · rfl
    · exact begin_shift ts _ c
  | symbol d =>
    simp only [List.append_assoc]
    split_ifs
    · rfl
    · exact begin_shift ts _ c
  | literal quote text =>
    simp only
    split_ifs <;> simp
  | escape quote text => rfl

theorem run_shift (ts : List Token) (s : Scan) (text : List Char) :
    run A ⟨ts ++ s.tokens, s.mode⟩ text =
      ⟨ts ++ (run A s text).tokens, (run A s text).mode⟩ := by
  induction text generalizing s with
  | nil => rfl
  | cons c text ih =>
    simp only [run_cons]
    rw [step_shift, ih]

theorem finish_shift (ts : List Token) (s : Scan) :
    finish ⟨ts ++ s.tokens, s.mode⟩ = (finish s).map (ts ++ ·) := by
  unfold finish
  cases s.mode <;> simp

/-- A scan goes on from its tokens as from the beginning. -/
theorem run_from (ts : List Token) (text : List Char) :
    run A ⟨ts, .start⟩ text =
      ⟨ts ++ (run A ⟨[], .start⟩ text).tokens, (run A ⟨[], .start⟩ text).mode⟩ := by
  have h := @run_shift A ts ⟨[], .start⟩ text
  rwa [List.append_nil] at h

/-- What has been read stays read. -/
theorem tokens_kept {s : Scan} {text : List Char} {z : List Token}
    (h : finish (run A s text) = some z) : s.tokens <+: z := by
  have hshift := @run_shift A s.tokens ⟨[], s.mode⟩ text
  rw [List.append_nil] at hshift
  rw [hshift, finish_shift] at h
  obtain ⟨y, -, rfl⟩ := Option.map_eq_some_iff.mp h
  exact List.prefix_append _ _

theorem begin_space (tokens : List Token) : begin A tokens ' ' = ⟨tokens, .start⟩ := by
  simp [begin, A.space]

theorem not_wordChar_of_space {c : Char} (h : A.isWhiteSpace c = true) (hne : c ≠ '_') :
    wordChar A c = false := by
  have hletter : A.isLetter c = false := by
    by_contra hc
    have := A.letterNotSpace c (by simpa using hc)
    simp [h] at this
  have hdigit : A.isDigit c = false := by
    by_contra hc
    have := A.digitNotSpace c (by simpa using hc)
    simp [h] at this
  simp [wordChar, hletter, hdigit, hne]

/-- A blank ends every token but a literal. -/
theorem step_space {s : Scan} {z : List Token} (h : finish s = some z) :
    step A s ' ' = ⟨z, .start⟩ := by
  have hblank : wordChar A ' ' = false := not_wordChar_of_space A.space (by decide)
  unfold finish at h
  unfold step
  cases hmode : s.mode with
  | start =>
    rw [hmode] at h
    cases h
    exact begin_space _
  | word w =>
    rw [hmode] at h
    cases h
    simp [hblank, begin_space]
  | number n =>
    rw [hmode] at h
    cases h
    simp [hblank, begin_space]
  | symbol d =>
    rw [hmode] at h
    cases h
    have hpair : (d, ' ') ∉ pairs := by simp [pairs]
    simp [hpair, begin_space]
  | literal quote text => simp [hmode] at h
  | escape quote text => simp [hmode] at h

/-- A text that is read by itself is read the same before a blank. -/
theorem run_space {text : List Char} {x : List Token} (h : lex A text = some x)
    (ts : List Token) (rest : List Char) :
    run A ⟨ts, .start⟩ (text ++ ' ' :: rest) = run A ⟨ts ++ x, .start⟩ rest := by
  rw [run_append, run_from, run_cons]
  congr 1
  apply step_space
  have hfinish := finish_shift ts (run A ⟨[], .start⟩ text)
  rw [hfinish, show finish (run A ⟨[], .start⟩ text) = some x from h]
  rfl

/-- A nonempty run of word characters that begins like a word. -/
def IsWord (A : Alphabet) : List Char → Prop
  | [] => False
  | c :: cs => wordStart A c = true ∧ ∀ d ∈ cs, wordChar A d = true

theorem run_wordChars (ts : List Token) (w cs : List Char) (h : ∀ d ∈ cs, wordChar A d = true) :
    run A ⟨ts, .word w⟩ cs = ⟨ts, .word (w ++ cs)⟩ := by
  induction cs generalizing w with
  | nil => simp
  | cons c cs ih =>
    rw [run_cons]
    have hstep : step A ⟨ts, .word w⟩ c = ⟨ts, .word (w ++ [c])⟩ := by
      simp [step, h c List.mem_cons_self]
    rw [hstep, ih (w ++ [c]) fun d hd => h d (List.mem_cons_of_mem c hd)]
    simp

theorem begin_wordStart (ts : List Token) {c : Char} (h : wordStart A c = true) :
    begin A ts c = ⟨ts, .word [c]⟩ := by
  have hspace : A.isWhiteSpace c = false := by
    simp only [wordStart, Bool.or_eq_true, beq_iff_eq] at h
    rcases h with (hletter | rfl) | rfl
    · exact A.letterNotSpace c hletter
    · exact (A.marks '_' (by decide)).2.2
    · exact (A.marks '@' (by decide)).2.2
  simp [begin, hspace, h]

theorem run_word (ts : List Token) {w : List Char} (h : IsWord A w) :
    run A ⟨ts, .start⟩ w = ⟨ts, .word w⟩ := by
  cases w with
  | nil => exact h.elim
  | cons c cs =>
    rw [run_cons, show step A ⟨ts, .start⟩ c = ⟨ts, .word [c]⟩ from begin_wordStart ts h.1,
      run_wordChars ts [c] cs h.2]
    rfl

theorem lex_word {w : List Char} (h : IsWord A w) : lex A w = some [.word w] := by
  rw [lex, run_word [] h]
  rfl

theorem isWord_of_alpha {w : List Char} (hne : w ≠ []) (h : ∀ c ∈ w, c.isAlpha = true) :
    IsWord A w := by
  cases w with
  | nil => exact absurd rfl hne
  | cons c cs =>
    constructor
    · simp [wordStart, A.letters c (h c List.mem_cons_self)]
    · intro d hd
      simp [wordChar, A.letters d (h d (List.mem_cons_of_mem c hd))]

/-- The symbols that stand next to words and literals here. -/
def closers : List Char := ['(', ')', ',', '.']

theorem begin_closer (ts : List Token) {c : Char} (h : c ∈ closers) :
    begin A ts c = ⟨ts ++ [.symbol [c]], .start⟩ ∧ wordChar A c = false := by
  have hmark : c ∈ "\"'\\()[]{},.:=!<>&|_@".toList := by
    simp only [closers, List.mem_cons, List.not_mem_nil, or_false] at h
    rcases h with rfl | rfl | rfl | rfl <;> decide
  obtain ⟨hletter, hdigit, hspace⟩ := A.marks c hmark
  simp only [closers, List.mem_cons, List.not_mem_nil, or_false] at h
  rcases h with rfl | rfl | rfl | rfl <;>
    simp [begin, wordStart, wordChar, singles, hletter, hdigit, hspace]

/-- What holds of each letter of a given text is checked letter by letter. -/
theorem forall_mem_of_all {p : Char → Prop} [DecidablePred p] {l : List Char}
    (h : (l.all fun c => decide (p c)) = true) : ∀ c ∈ l, p c := by
  intro c hc
  exact of_decide_eq_true (List.all_eq_true.mp h c hc)

theorem begin_mark (ts : List Token) {c : Char} (h : c ∈ "=!<>&|".toList) :
    begin A ts c = ⟨ts, .symbol c⟩ := by
  have hmark : c ∈ "\"'\\()[]{},.:=!<>&|_@".toList := by
    have hsub : ∀ d ∈ "=!<>&|".toList, d ∈ "\"'\\()[]{},.:=!<>&|_@".toList :=
      forall_mem_of_all (by decide)
    exact hsub c h
  obtain ⟨hletter, hdigit, hspace⟩ := A.marks c hmark
  have hother : ∀ d ∈ "=!<>&|".toList, d ≠ '_' ∧ d ≠ '@' ∧ d ≠ '"' ∧ d ≠ '\'' ∧ d ∉ singles :=
    forall_mem_of_all (by decide)
  obtain ⟨hunder, hat, hdouble, hsingle, hnot⟩ := hother c h
  simp [begin, wordStart, hletter, hdigit, hspace, hunder, hat, hdouble, hsingle, hnot]

theorem lex_mark {c : Char} (h : c ∈ "=!<>&|".toList) : lex A [c] = some [.symbol [c]] := by
  rw [lex, run_cons, show step A ⟨[], .start⟩ c = _ from begin_mark [] h]
  rfl

theorem lex_pair {c d : Char} (h : c ∈ "=!<>&|".toList) (hpair : (c, d) ∈ pairs) :
    lex A [c, d] = some [.symbol [c, d]] := by
  rw [lex, run_cons, show step A ⟨[], .start⟩ c = _ from begin_mark [] h, run_cons]
  simp [step, hpair, finish]

theorem run_closer (ts : List Token) {c : Char} (h : c ∈ closers) (rest : List Char) :
    run A ⟨ts, .start⟩ (c :: rest) = run A ⟨ts ++ [.symbol [c]], .start⟩ rest := by
  rw [run_cons, show step A ⟨ts, .start⟩ c = _ from (begin_closer ts h).1]

theorem run_blank (ts : List Token) (rest : List Char) :
    run A ⟨ts, .start⟩ (' ' :: rest) = run A ⟨ts, .start⟩ rest := by
  rw [run_cons, show step A ⟨ts, .start⟩ ' ' = _ from begin_space ts]

theorem run_word_closer (ts : List Token) {w : List Char} (hw : IsWord A w) {c : Char}
    (h : c ∈ closers) (rest : List Char) :
    run A ⟨ts, .start⟩ (w ++ c :: rest) = run A ⟨ts ++ [.word w, .symbol [c]], .start⟩ rest := by
  obtain ⟨hbegin, hchar⟩ := @begin_closer A (ts ++ [.word w]) c h
  rw [run_append, run_word ts hw, run_cons]
  simp [step, hchar, hbegin]

theorem run_quote (ts : List Token) (rest : List Char) :
    run A ⟨ts, .start⟩ ('"' :: rest) = run A ⟨ts, .literal '"' []⟩ rest := by
  obtain ⟨hletter, hdigit, hspace⟩ := A.marks '"' (by decide)
  simp [step, begin, wordStart, hletter, hdigit, hspace]

/-! ## What a literal can hold -/

/-- A text between double quotes, with its own quotes escaped or as it is. -/
def quoted (escaped : Bool) (v : List Char) : List Char :=
  v.flatMap fun c => if c = '"' ∧ escaped = true then ['\\', '"'] else [c]

/-- The text cannot be told from the literal's own syntax. -/
def Plain (escaped : Bool) (v : List Char) : Prop := '\\' ∉ v ∧ (escaped = false → '"' ∉ v)

instance (escaped : Bool) : DecidablePred (Plain escaped) :=
  fun _ => inferInstanceAs (Decidable (_ ∧ _))

theorem Plain.cons {escaped : Bool} {v : List Char} (h : Plain escaped v) {c : Char}
    (hbackslash : c ≠ '\\') (hraw : ¬ (c = '"' ∧ escaped = false)) : Plain escaped (c :: v) := by
  refine ⟨?_, fun he => ?_⟩
  · intro hin
    rcases List.mem_cons.mp hin with heq | hin
    · exact hbackslash heq.symm
    · exact h.1 hin
  · intro hin
    rcases List.mem_cons.mp hin with heq | hin
    · exact hraw ⟨heq.symm, he⟩
    · exact h.2 he hin

theorem run_char (ts : List Token) (text : List Char) {c : Char} (hquote : c ≠ '"')
    (hbackslash : c ≠ '\\') (rest : List Char) :
    run A ⟨ts, .literal '"' text⟩ (c :: rest) = run A ⟨ts, .literal '"' (text ++ [c])⟩ rest := by
  simp [step, hquote, hbackslash]

theorem run_escaped (ts : List Token) (text : List Char) (c : Char) (rest : List Char) :
    run A ⟨ts, .literal '"' text⟩ ('\\' :: c :: rest) =
      run A ⟨ts, .literal '"' (text ++ [c])⟩ rest := by
  simp [step]

theorem run_closing (ts : List Token) (text rest : List Char) :
    run A ⟨ts, .literal '"' text⟩ ('"' :: rest) = run A ⟨ts ++ [.literal text], .start⟩ rest := by
  simp [step]

/-- A plain text is read back. -/
theorem run_quoted {escaped : Bool} {v : List Char} (h : Plain escaped v) (ts : List Token)
    (text rest : List Char) :
    run A ⟨ts, .literal '"' text⟩ (quoted escaped v ++ '"' :: rest) =
      run A ⟨ts ++ [.literal (text ++ v)], .start⟩ rest := by
  induction v generalizing text with
  | nil =>
    rw [List.append_nil]
    exact run_closing ts text rest
  | cons c v ih =>
    have hrest : Plain escaped v := ⟨fun hin => h.1 (List.mem_cons_of_mem c hin),
      fun he hin => h.2 he (List.mem_cons_of_mem c hin)⟩
    have hbackslash : c ≠ '\\' := fun heq => h.1 (heq ▸ List.mem_cons_self)
    have hread : run A ⟨ts, .literal '"' text⟩ (quoted escaped (c :: v) ++ '"' :: rest) =
        run A ⟨ts, .literal '"' (text ++ [c])⟩ (quoted escaped v ++ '"' :: rest) := by
      by_cases hquote : c = '"'
      · subst hquote
        cases escaped with
        | true => exact run_escaped ts text '"' _
        | false => exact absurd List.mem_cons_self (h.2 rfl)
      · have hsame : quoted escaped (c :: v) = c :: quoted escaped v := by
          simp [quoted, hquote]
        rw [hsame]
        exact run_char ts text hquote hbackslash _
    rw [hread, ih hrest, List.append_assoc, List.singleton_append]

/-- An open literal can only grow. -/
theorem literal_grows {quote : Char} {rest : List Char} {ts z : List Token} :
    (∀ text, finish (run A ⟨ts, .literal quote text⟩ rest) = some z →
      ∃ c y, z = ts ++ .literal (text ++ c) :: y) ∧
    (∀ text, finish (run A ⟨ts, .escape quote text⟩ rest) = some z →
      ∃ c y, z = ts ++ .literal (text ++ c) :: y) := by
  induction rest with
  | nil =>
    constructor
    · intro text h
      cases h
    · intro text h
      cases h
  | cons c rest ih =>
    obtain ⟨ihliteral, ihescape⟩ := ih
    constructor
    · intro text h
      rw [run_cons] at h
      by_cases hbackslash : c = '\\'
      · simp only [step, hbackslash, if_true] at h
        exact ihescape text h
      · by_cases hquote : c = quote
        · simp only [step, if_neg hbackslash, if_pos hquote] at h
          obtain ⟨y, rfl⟩ := tokens_kept h
          exact ⟨[], y, by simp⟩
        · simp only [step, if_neg hbackslash, if_neg hquote] at h
          obtain ⟨c', y, rfl⟩ := ihliteral _ h
          exact ⟨c :: c', y, by simp⟩
    · intro text h
      obtain ⟨c', y, rfl⟩ := ihliteral _ h
      exact ⟨c :: c', y, by simp⟩

/-- However the text goes on, the next literal will not be the expected one. -/
def Misread (A : Alphabet) (s : Scan) (rest : List Char) (ts : List Token)
    (expected : List Char) : Prop :=
  ∀ y, finish (run A s rest) ≠ some (ts ++ .literal expected :: y)

theorem misread_char {ts : List Token} {text rest expected : List Char} {c d : Char}
    (h : c ≠ d) :
    Misread A ⟨ts, .literal '"' (text ++ [c])⟩ rest ts (text ++ d :: expected) := by
  intro y hz
  obtain ⟨c', y', heq⟩ := literal_grows.1 _ hz
  have hliteral := (List.cons.inj (List.append_cancel_left heq)).1
  simp only [Token.literal.injEq, List.append_assoc, List.singleton_append] at hliteral
  exact h (List.cons.inj (List.append_cancel_left hliteral)).1.symm

theorem misread_closed {ts : List Token} {text rest expected : List Char}
    (h : expected ≠ []) :
    Misread A ⟨ts ++ [.literal text], .start⟩ rest ts (text ++ expected) := by
  intro y hz
  obtain ⟨y', heq⟩ := tokens_kept hz
  rw [List.append_assoc, List.singleton_append] at heq
  have hliteral := (List.cons.inj (List.append_cancel_left heq)).1
  simp only [Token.literal.injEq, List.self_eq_append_right] at hliteral
  exact h hliteral

theorem quoted_cons {escaped : Bool} {c : Char} (v : List Char) (h : c ≠ '"') :
    quoted escaped (c :: v) = c :: quoted escaped v := by
  simp [quoted, h]

theorem quoted_quote (v : List Char) : quoted true ('"' :: v) = '\\' :: '"' :: quoted true v := by
  simp [quoted]

theorem quoted_quote_raw (v : List Char) : quoted false ('"' :: v) = '"' :: quoted false v := by
  simp [quoted]

/-- A backslash in the text is read as the character behind it. -/
theorem misread_backslash {escaped : Bool} {ts : List Token} {rest : List Char} (v : List Char)
    (j : Nat) (text : List Char)
    (hnext : ∀ w, v = '\\' :: w → Misread A ⟨ts, .literal '"' (text ++ ['\\'])⟩
      (quoted escaped w ++ '"' :: rest) ts
      (text ++ ['\\'] ++ (List.replicate (j + 1) '\\' ++ w))) :
    Misread A ⟨ts, .literal '"' text⟩ (quoted escaped ('\\' :: v) ++ '"' :: rest) ts
      (text ++ (List.replicate (j + 1) '\\' ++ v)) := by
  rw [quoted_cons v (by decide), List.cons_append]
  intro y
  cases v with
  | nil =>
    rw [show quoted escaped [] ++ '"' :: rest = '"' :: rest from rfl, run_escaped]
    exact misread_char (by decide) y
  | cons d v =>
    by_cases hquote : d = '"'
    · subst hquote
      cases escaped with
      | true =>
        rw [quoted_quote, List.cons_append, run_escaped, List.cons_append, run_closing]
        have hclosed := @misread_closed A ts (text ++ ['\\']) (quoted true v ++ '"' :: rest)
          (List.replicate j '\\' ++ '"' :: v) (by simp) y
        simpa [List.replicate_succ] using hclosed
      | false =>
        rw [quoted_quote_raw, List.cons_append, run_escaped]
        exact misread_char (by decide) y
    · rw [quoted_cons v hquote, List.cons_append, run_escaped]
      by_cases hbackslash : d = '\\'
      · subst hbackslash
        have hlag := hnext v rfl y
        have hshift : List.replicate (j + 1) '\\' ++ '\\' :: v =
            '\\' :: (List.replicate (j + 1) '\\' ++ v) := by
          rw [← List.singleton_append, ← List.append_assoc, ← List.replicate_succ',
            List.replicate_succ, List.cons_append]
        rwa [hshift, List.append_cons text '\\' (List.replicate (j + 1) '\\' ++ v)]
      · exact misread_char hbackslash y

/-- The scanner may lag behind the text by `j` backslashes: once it does, or meets a
character that is not plain, it never reads the text. -/
theorem misread {escaped : Bool} {ts : List Token} {rest : List Char} (v : List Char) :
    ∀ (j : Nat) (text : List Char), 0 < j ∨ ¬ Plain escaped v →
      Misread A ⟨ts, .literal '"' text⟩ (quoted escaped v ++ '"' :: rest) ts
        (text ++ (List.replicate j '\\' ++ v)) := by
  induction hn : v.length using Nat.strongRecOn generalizing v with
  | _ n ih =>
    subst hn
    intro j text hj
    cases v with
    | nil =>
      have hpos : 0 < j := by
        rcases hj with hj | hj
        · exact hj
        · exact absurd ⟨List.not_mem_nil, fun _ => List.not_mem_nil⟩ hj
      intro y
      rw [show quoted escaped [] ++ '"' :: rest = '"' :: rest from rfl, run_closing]
      exact misread_closed (by simp; omega) y
    | cons c v =>
      by_cases hbackslash : c = '\\'
      · subst hbackslash
        have hshorter (w : List Char) (hw : v = '\\' :: w) : w.length < ('\\' :: v).length := by
          rw [hw, List.length_cons, List.length_cons]
          omega
        have hlag := @misread_backslash A escaped ts rest v j text fun w hw =>
          ih w.length (hshorter w hw) w rfl (j + 1) _ (.inl (Nat.succ_pos j))
        rwa [List.replicate_succ', List.append_assoc] at hlag
      · have hnotPlain : j = 0 → ¬ Plain escaped (c :: v) := by
          intro hz
          exact hj.resolve_left (by omega)
        -- Either the scanner lags and reads `c` for a backslash, or it has read `c` rightly.
        have hread : Misread A ⟨ts, .literal '"' (text ++ [c])⟩ (quoted escaped v ++ '"' :: rest) ts
            (text ++ (List.replicate j '\\' ++ c :: v)) ∨
              (c = '"' ∧ escaped = false) := by
          cases j with
          | succ j => exact .inl (misread_char hbackslash)
          | zero =>
            by_cases hraw : c = '"' ∧ escaped = false
            · exact .inr hraw
            · left
              have hv : ¬ Plain escaped v := by
                intro hplain
                exact hnotPlain rfl (hplain.cons hbackslash hraw)
              have hlater := ih v.length (by simp) v rfl 0 (text ++ [c]) (.inr hv)
              simpa using hlater
        intro y
        by_cases hquote : c = '"'
        · subst hquote
          cases escaped with
          | true =>
            rw [quoted_quote, List.cons_append, List.cons_append, run_escaped]
            exact (hread.resolve_right (by simp)) y
          | false =>
            rw [quoted_quote_raw, List.cons_append, run_closing]
            exact misread_closed (by simp) y
        · rw [quoted_cons v hquote, List.cons_append, run_char ts text hquote hbackslash]
          exact (hread.resolve_right (by simp [hquote])) y

/-! ## Texts put together -/

/-- The text is read as these tokens wherever a token may begin. -/
def Reads (A : Alphabet) (text : List Char) (x : List Token) : Prop :=
  ∀ ts rest, run A ⟨ts, .start⟩ (text ++ rest) = run A ⟨ts ++ x, .start⟩ rest

/-- The text is not read as these tokens, whatever comes before and after it. -/
def Misreads (A : Alphabet) (text : List Char) (x : List Token) : Prop :=
  ∀ ts rest y, finish (run A ⟨ts, .start⟩ (text ++ rest)) ≠ some (ts ++ x ++ y)

theorem Reads.append {a b : List Char} {x y : List Token} (ha : Reads A a x) (hb : Reads A b y) :
    Reads A (a ++ b) (x ++ y) := by
  intro ts rest
  rw [List.append_assoc, ha, hb, List.append_assoc]

theorem Reads.misreads {a b : List Char} {x y : List Token} (ha : Reads A a x)
    (hb : Misreads A b y) : Misreads A (a ++ b) (x ++ y) := by
  intro ts rest z
  rw [List.append_assoc, ha, ← List.append_assoc ts x y]
  exact hb (ts ++ x) rest z

theorem Misreads.append {a : List Char} {x : List Token} (ha : Misreads A a x) (b : List Char)
    (y : List Token) : Misreads A (a ++ b) (x ++ y) := by
  intro ts rest z
  rw [List.append_assoc, ← List.append_assoc ts x y, List.append_assoc (ts ++ x) y z]
  exact ha ts (b ++ rest) (y ++ z)

theorem Reads.lex {text : List Char} {x : List Token} (h : Reads A text x) :
    Lexing.lex A text = some x := by
  have hrun := h [] []
  rw [List.append_nil] at hrun
  rw [Lexing.lex, hrun]
  rfl

theorem Misreads.lex {text : List Char} {x : List Token} (h : Misreads A text x) :
    Lexing.lex A text ≠ some x := by
  have hrun := h [] [] []
  rwa [List.append_nil, List.append_nil] at hrun

theorem reads_blank : Reads A [' '] [] := by
  intro ts rest
  rw [List.append_nil]
  exact run_blank ts rest

theorem reads_closer {c : Char} (h : c ∈ closers) : Reads A [c] [.symbol [c]] :=
  fun ts rest => run_closer ts h rest

theorem reads_word_closer {w : List Char} (hw : IsWord A w) {c : Char} (h : c ∈ closers) :
    Reads A (w ++ [c]) [.word w, .symbol [c]] := by
  intro ts rest
  rw [List.append_assoc]
  exact run_word_closer ts hw h rest

theorem reads_spaced {text : List Char} {x : List Token} (h : Lexing.lex A text = some x) :
    Reads A (text ++ [' ']) x := by
  intro ts rest
  rw [List.append_assoc]
  exact run_space h ts rest

theorem reads_quoted {escaped : Bool} {v : List Char} (h : Plain escaped v) :
    Reads A ('"' :: (quoted escaped v ++ ['"'])) [.literal v] := by
  intro ts rest
  rw [List.cons_append, run_quote, List.append_assoc]
  exact run_quoted h ts [] rest

theorem misreads_quoted {escaped : Bool} {v : List Char} (h : ¬ Plain escaped v) :
    Misreads A ('"' :: (quoted escaped v ++ ['"'])) [.literal v] := by
  intro ts rest y
  rw [List.cons_append, run_quote, List.append_assoc, List.append_assoc]
  exact @misread A escaped ts rest v 0 [] (.inr h) y

theorem reads_around {before after v : List Char} {pre post : List Token} {escaped : Bool}
    (hbefore : Reads A before pre) (hafter : Reads A after post) (h : Plain escaped v) :
    Reads A (before ++ '"' :: (quoted escaped v ++ '"' :: after)) (pre ++ .literal v :: post) := by
  have hall := (hbefore.append (reads_quoted h)).append hafter
  simpa using hall

theorem misreads_around {before v : List Char} {pre : List Token} {escaped : Bool}
    (hbefore : Reads A before pre) (h : ¬ Plain escaped v) (after : List Char)
    (post : List Token) :
    Misreads A (before ++ '"' :: (quoted escaped v ++ '"' :: after))
      (pre ++ .literal v :: post) := by
  have hall := (hbefore.misreads (misreads_quoted h)).append after post
  simpa using hall

/-- Token lists with a separator between them. -/
def joined (separator : Option Token) : List (List Token) → Option (List Token)
  | [] => some []
  | [x] => some x
  | x :: xs => separator.bind fun s => (joined separator xs).map fun rest => x ++ s :: rest

/-- The first text that is not read as it should be. -/
inductive Broken (A : Alphabet) : List (List Char) → List (List Token) → Prop where
  | here {a : List Char} {x : List Token} {as : List (List Char)} {xs : List (List Token)}
    (h : Misreads A a x) : Broken A (a :: as) (x :: xs)
  | there {a : List Char} {x : List Token} {as : List (List Char)} {xs : List (List Token)}
    (h : Reads A a x) (hs : Broken A as xs) : Broken A (a :: as) (x :: xs)

theorem joined_cons {separator : Option Token} {x x' : List Token} {xs : List (List Token)}
    {body : List Token} (h : joined separator (x :: x' :: xs) = some body) :
    ∃ s rest, separator = some s ∧ joined separator (x' :: xs) = some rest ∧
      body = x ++ [s] ++ rest := by
  obtain ⟨s, hs, h⟩ := Option.bind_eq_some_iff.mp h
  obtain ⟨rest, hrest, rfl⟩ := Option.map_eq_some_iff.mp h
  exact ⟨s, rest, hs, hrest, by simp⟩

theorem joined_eq_none {separator : Option Token} {xs : List (List Token)}
    (h : joined separator xs = none) : separator = none ∧ 2 ≤ xs.length := by
  induction xs with
  | nil => cases h
  | cons x xs ih =>
    cases xs with
    | nil => cases h
    | cons x' xs =>
      cases separator with
      | none => exact ⟨rfl, by simp⟩
      | some s =>
        have hrest : joined (some s) (x' :: xs) = none := by simpa [joined] using h
        exact absurd (ih hrest).1 (by simp)

theorem intercalate_cons_cons (sep a b : List Char) (as : List (List Char)) :
    sep.intercalate (a :: b :: as) = a ++ sep ++ sep.intercalate (b :: as) := by
  simp [List.intercalate]

theorem reads_joined {separator : Option Token} {sep : List Char}
    (hsep : ∀ s, separator = some s → Reads A sep [s]) {as : List (List Char)}
    {xs : List (List Token)} (h : List.Forall₂ (Reads A) as xs) :
    ∀ body, joined separator xs = some body → Reads A (sep.intercalate as) body := by
  induction h with
  | nil =>
    intro body hbody
    cases hbody
    intro ts rest
    simp [List.intercalate]
  | @cons a x as xs ha hs ih =>
    intro body hbody
    cases hs with
    | nil =>
      cases hbody
      simpa [List.intercalate] using ha
    | @cons b x' as xs hb hs =>
      obtain ⟨s, rest, hs', hrest, rfl⟩ := joined_cons hbody
      rw [intercalate_cons_cons]
      exact (ha.append (hsep s hs')).append (ih rest hrest)

theorem misreads_joined {separator : Option Token} {sep : List Char}
    (hsep : ∀ s, separator = some s → Reads A sep [s]) {as : List (List Char)}
    {xs : List (List Token)} (hlength : as.length = xs.length) (h : Broken A as xs) :
    ∀ body, joined separator xs = some body → Misreads A (sep.intercalate as) body := by
  induction h with
  | @here a x as xs ha =>
    intro body hbody
    cases as with
    | nil =>
      obtain rfl : xs = [] := List.length_eq_zero_iff.mp (by simpa using hlength.symm)
      cases hbody
      simpa [List.intercalate] using ha
    | cons b as =>
      cases xs with
      | nil => simp at hlength
      | cons x' xs =>
        obtain ⟨s, rest, -, -, rfl⟩ := joined_cons hbody
        rw [intercalate_cons_cons, List.append_assoc, List.append_assoc]
        exact ha.append _ _
  | @there a x as xs ha hs ih =>
    intro body hbody
    cases as with
    | nil => cases hs
    | cons b as =>
      cases xs with
      | nil => simp at hlength
      | cons x' xs =>
        obtain ⟨s, rest, hs', hrest, rfl⟩ := joined_cons hbody
        rw [intercalate_cons_cons]
        exact (ha.append (hsep s hs')).misreads (ih (by simpa using hlength) rest hrest)

/-- The text is read as these tokens before a comma and at the end. -/
structure Ends (A : Alphabet) (text : List Char) (x : List Token) : Prop where
  finish : ∀ ts, finish (run A ⟨ts, .start⟩ text) = some (ts ++ x)
  comma : Reads A (text ++ [',']) (x ++ [.symbol [',']])

theorem Reads.ends {a b : List Char} {x y : List Token} (ha : Reads A a x) (hb : Ends A b y) :
    Ends A (a ++ b) (x ++ y) := by
  constructor
  · intro ts
    rw [ha, hb.finish, List.append_assoc]
  · rw [List.append_assoc, List.append_assoc]
    exact ha.append hb.comma

theorem step_comma {s : Scan} {z : List Token} (h : finish s = some z)
    (hstart : s.mode = .start ∨ ∃ w, s.mode = .word w) :
    step A s ',' = ⟨z ++ [.symbol [',']], .start⟩ := by
  unfold finish at h
  unfold step
  rcases hstart with hmode | ⟨w, hmode⟩
  · rw [hmode] at h ⊢
    cases h
    exact (begin_closer _ (by decide)).1
  · rw [hmode] at h ⊢
    cases h
    obtain ⟨hbegin, hchar⟩ := @begin_closer A (s.tokens ++ [.word w]) ',' (by decide)
    simp [hchar, hbegin]

/-- A text of at most one word ends before a comma. -/
theorem ends_of_lex {text : List Char} {x : List Token} (h : lex A text = some x)
    (hx : x = [] ∨ ∃ w, x = [.word w]) : Ends A text x := by
  have hfinish : ∀ ts, finish (run A ⟨ts, .start⟩ text) = some (ts ++ x) := by
    intro ts
    rw [run_from, finish_shift, show finish (run A ⟨[], .start⟩ text) = some x from h]
    rfl
  refine ⟨hfinish, fun ts rest => ?_⟩
  rw [List.append_assoc, run_append, List.singleton_append, run_cons,
    step_comma (hfinish ts), List.append_assoc]
  rw [run_from]
  have hlex : finish (run A ⟨[], .start⟩ text) = some x := h
  unfold finish at hlex
  cases hmode : (run A ⟨[], .start⟩ text).mode with
  | start => exact .inl rfl
  | word w => exact .inr ⟨w, rfl⟩
  | number n =>
    rw [hmode] at hlex
    obtain rfl := Option.some.inj hlex
    rcases hx with hx | ⟨w, hx⟩ <;> simp [List.append_eq_singleton_iff] at hx
  | symbol c =>
    rw [hmode] at hlex
    obtain rfl := Option.some.inj hlex
    rcases hx with hx | ⟨w, hx⟩ <;> simp [List.append_eq_singleton_iff] at hx
  | literal quote t => simp [hmode] at hlex
  | escape quote t => simp [hmode] at hlex

theorem lex_joined {as : List (List Char)} {xs : List (List Token)}
    (h : List.Forall₂ (Ends A) as xs) : ∀ body ts, joined (some (.symbol [','])) xs = some body →
      finish (run A ⟨ts, .start⟩ ([','].intercalate as)) = some (ts ++ body) := by
  induction h with
  | nil =>
    intro body ts hbody
    cases hbody
    simp [List.intercalate, finish]
  | @cons a x as xs ha hs ih =>
    intro body ts hbody
    cases hs with
    | nil =>
      cases hbody
      simpa [List.intercalate] using ha.finish ts
    | @cons b x' as xs hb hs =>
      obtain ⟨s, rest, hs', hrest, rfl⟩ := joined_cons hbody
      cases hs'
      rw [intercalate_cons_cons, ha.comma, ih rest _ hrest]
      simp

/-! ## ASCII -/

theorem isUpper_iff (c : Char) : c.isUpper = true ↔ 65 ≤ c.toNat ∧ c.toNat ≤ 90 := by
  change decide (c.val ≥ 'A'.val ∧ c.val ≤ 'Z'.val) = true ↔ _
  simp [UInt32.le_iff_toNat_le]

theorem isLower_iff (c : Char) : c.isLower = true ↔ 97 ≤ c.toNat ∧ c.toNat ≤ 122 := by
  change (decide (c.val ≥ 'a'.val) && decide (c.val ≤ 'z'.val)) = true ↔ _
  simp [UInt32.le_iff_toNat_le]

theorem isAlpha_iff (c : Char) : c.isAlpha = true ↔
    65 ≤ c.toNat ∧ c.toNat ≤ 90 ∨ 97 ≤ c.toNat ∧ c.toNat ≤ 122 := by
  change (c.isUpper || c.isLower) = true ↔ _
  rw [Bool.or_eq_true, isUpper_iff, isLower_iff]

theorem isDigit_iff (c : Char) : c.isDigit = true ↔ 48 ≤ c.toNat ∧ c.toNat ≤ 57 := by
  simp [Char.isDigit, UInt32.le_iff_toNat_le]

theorem isWhitespace_iff (c : Char) : c.isWhitespace = true ↔
    c.toNat = 32 ∨ c.toNat = 9 ∨ c.toNat = 13 ∨ c.toNat = 10 := by
  simp [Char.isWhitespace, ← Char.toNat_inj, or_assoc]

theorem toNat_toLower (c : Char) : c.toLower.toNat =
    if 65 ≤ c.toNat ∧ c.toNat ≤ 90 then c.toNat + 32 else c.toNat := by
  unfold Char.toLower
  simp only [UInt32.le_iff_toNat_le, ge_iff_le]
  by_cases h : 65 ≤ c.toNat ∧ c.toNat ≤ 90
  · rw [if_pos h, dif_pos (by simpa using h)]
    have hc : c.val.toNat = c.toNat := rfl
    have hshift : ('a'.val - 'A'.val).toNat = 32 := by decide
    change (c.val + ('a'.val - 'A'.val)).toNat = c.toNat + 32
    rw [UInt32.toNat_add, hshift, hc]
    omega
  · rw [if_neg h, dif_neg (by simpa using h)]

/-- The alphabet that knows ASCII letters and digits only. -/
def ascii : Alphabet where
  isLetter := Char.isAlpha
  isDigit := Char.isDigit
  isWhiteSpace := Char.isWhitespace
  toLower := Char.toLower
  letters := fun _ h => h
  space := rfl
  letterNotSpace := by
    intro c h
    rw [isAlpha_iff] at h
    rw [← Bool.not_eq_true, isWhitespace_iff]
    omega
  digitNotSpace := by
    intro c h
    rw [isDigit_iff] at h
    rw [← Bool.not_eq_true, isWhitespace_iff]
    omega
  marks := forall_mem_of_all (by decide)
  foldsLetters := by
    intro c d h
    have hcd := congrArg Char.toNat h
    rw [toNat_toLower, toNat_toLower] at hcd
    have halpha : c.isAlpha = d.isAlpha := by
      rw [Bool.eq_iff_iff, isAlpha_iff, isAlpha_iff]
      split_ifs at hcd <;> omega
    have hdigit : c.isDigit = d.isDigit := by
      rw [Bool.eq_iff_iff, isDigit_iff, isDigit_iff]
      split_ifs at hcd <;> omega
    refine ⟨halpha, hdigit, ?_, ?_⟩
    · simp only [← Char.toNat_inj, show '_'.toNat = 95 from rfl]
      split_ifs at hcd <;> omega
    · simp only [← Char.toNat_inj, show '@'.toNat = 64 from rfl]
      split_ifs at hcd <;> omega
  foldsQuote := by
    intro c
    rw [← Char.toNat_inj, ← Char.toNat_inj, toNat_toLower, show '"'.toNat = 34 from rfl]
    split_ifs <;> omega
  foldsBackslash := by
    intro c
    rw [← Char.toNat_inj, ← Char.toNat_inj, toNat_toLower, show '\\'.toNat = 92 from rfl]
    split_ifs <;> omega

end Lexing
