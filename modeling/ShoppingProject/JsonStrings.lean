import Mathlib.Data.List.Basic
import Mathlib.Tactic.Common
import Mathlib.Tactic.IntervalCases

/-!
# Texts as JSON string literals

A text is written between quotation marks, with what may not stand there escaped, and is read
back by a scan. A `\u` escape is read as the character it spells; half a surrogate pair
spells none.
-/
namespace JsonStrings

/-- The four digits of a character below U+0020. -/
def unicodeEscape (c : Char) : List Char :=
  ['\\', 'u', '0', '0', Nat.digitChar (c.toNat / 16), Nat.digitChar (c.toNat % 16)]

def escape (c : Char) : List Char :=
  if c = '"' then ['\\', '"']
  else if c = '\\' then ['\\', '\\']
  else if c = '\x08' then ['\\', 'b']
  else if c = '\x0c' then ['\\', 'f']
  else if c = '\n' then ['\\', 'n']
  else if c = '\r' then ['\\', 'r']
  else if c = '\t' then ['\\', 't']
  else if c.toNat < 0x20 then unicodeEscape c
  else [c]

def stringify (text : List Char) : List Char := '"' :: (text.flatMap escape ++ ['"'])

/-! ## Reading -/

def isSpace (c : Char) : Bool := c = ' ' || c = '\t' || c = '\n' || c = '\r'

/-- The character after a backslash, `u` apart. -/
def unescape (c : Char) : Option Char :=
  if c = '"' ∨ c = '\\' ∨ c = '/' then some c
  else if c = 'b' then some '\x08'
  else if c = 'f' then some '\x0c'
  else if c = 'n' then some '\n'
  else if c = 'r' then some '\r'
  else if c = 't' then some '\t'
  else none

def hexValue (c : Char) : Option Nat :=
  if '0' ≤ c ∧ c ≤ '9' then some (c.toNat - 48)
  else if 'a' ≤ c ∧ c ≤ 'f' then some (c.toNat - 87)
  else if 'A' ≤ c ∧ c ≤ 'F' then some (c.toNat - 55)
  else none

inductive Scan where
  | before
  | inside (text : List Char)
  | escaped (text : List Char)
  /-- Inside `\u`, with so many digits missing. -/
  | digits (text : List Char) (missing : Nat) (value : Nat)
  | after (text : List Char)
  | failed
  deriving DecidableEq, Repr

/-- A `\u` escape that is complete. -/
def spelled (text : List Char) (value : Nat) : Scan :=
  if value.isValidChar then .inside (text ++ [Char.ofNat value]) else .failed

def digit (text : List Char) (missing value d : Nat) : Scan :=
  match missing with
  | 0 => spelled text (16 * value + d)
  | m + 1 => .digits text m (16 * value + d)

def step (s : Scan) (c : Char) : Scan :=
  match s with
  | .before => if isSpace c then .before else if c = '"' then .inside [] else .failed
  | .inside text =>
    if c = '"' then .after text
    else if c = '\\' then .escaped text
    else if c.toNat < 0x20 then .failed
    else .inside (text ++ [c])
  | .escaped text =>
    if c = 'u' then .digits text 3 0
    else match unescape c with
      | none => .failed
      | some d => .inside (text ++ [d])
  | .digits text missing value =>
    match hexValue c with
    | none => .failed
    | some d => digit text missing value d
  | .after text => if isSpace c then .after text else .failed
  | .failed => .failed

/-- The text that a JSON text spells, if this is a string literal. -/
def parse (text : List Char) : Option (List Char) :=
  match text.foldl step .before with
  | .after read => some read
  | _ => none

/-! ## What is written is read -/

theorem hexValue_digitChar {n : Nat} (h : n < 16) : hexValue (Nat.digitChar n) = some n := by
  interval_cases n <;> decide

theorem foldl_unicodeEscape (text : List Char) {c : Char} (h : c.toNat < 0x20) :
    (unicodeEscape c).foldl step (.inside text) = .inside (text ++ [c]) := by
  have hhigh : hexValue (Nat.digitChar (c.toNat / 16)) = some (c.toNat / 16) :=
    hexValue_digitChar (by omega)
  have hlow : hexValue (Nat.digitChar (c.toNat % 16)) = some (c.toNat % 16) :=
    hexValue_digitChar (by omega)
  have hzero : hexValue '0' = some 0 := by decide
  have hvalid : c.toNat.isValidChar := c.valid
  have hdigits : 16 * (c.toNat / 16) + c.toNat % 16 = c.toNat := by omega
  simp [unicodeEscape, step, hzero, hhigh, hlow, digit, spelled, hdigits, hvalid]

/-- The scan reads an escaped character as that character. -/
theorem foldl_escape (text : List Char) (c : Char) :
    (escape c).foldl step (.inside text) = .inside (text ++ [c]) := by
  unfold escape
  split_ifs with hquote hbackslash hb hf hn hr ht hcontrol
  case pos => subst c; rfl
  case pos => subst c; rfl
  case pos => subst c; rfl
  case pos => subst c; rfl
  case pos => subst c; rfl
  case pos => subst c; rfl
  case pos => subst c; rfl
  case pos => exact foldl_unicodeEscape text hcontrol
  case neg => simp [step, hquote, hbackslash, hcontrol]

theorem foldl_flatMap_escape (read text : List Char) :
    (text.flatMap escape).foldl step (.inside read) = .inside (read ++ text) := by
  induction text generalizing read with
  | nil => simp
  | cons c text ih => simp [List.foldl_append, foldl_escape, ih]

/-- Every text is read back from its literal. -/
theorem parse_stringify (text : List Char) : parse (stringify text) = some text := by
  have hfirst : step .before '"' = .inside [] := by decide
  have hlast : step (.inside text) '"' = .after text := by simp [step]
  have hread := foldl_flatMap_escape [] text
  rw [List.nil_append] at hread
  rw [parse, stringify, List.foldl_cons, hfirst, List.foldl_append, hread, List.foldl_cons, hlast,
    List.foldl_nil]

/-! ## What a literal consists of -/

/-- The characters that escapes and the quotation marks are written with. -/
def alphabet : List Char := "\"\\bfnrtu0123456789abcdef".toList

theorem digitChar_mem {n : Nat} (h : n < 16) : Nat.digitChar n ∈ alphabet := by
  interval_cases n <;> decide

theorem mem_unicodeEscape {c d : Char} (h : c.toNat < 0x20) (hd : d ∈ unicodeEscape c) :
    d ∈ alphabet := by
  have hhigh := digitChar_mem (show c.toNat / 16 < 16 by omega)
  have hlow := digitChar_mem (show c.toNat % 16 < 16 by omega)
  have hall : ∀ d ∈ unicodeEscape c, d ∈ alphabet := by
    simp only [unicodeEscape, List.forall_mem_cons]
    exact ⟨by decide, by decide, by decide, by decide, hhigh, hlow, by simp⟩
  exact hall d hd

/-- A character is escaped by characters of the alphabet, or stands for itself. -/
theorem mem_escape {c d : Char} (h : d ∈ escape c) : d ∈ alphabet ∨ d = c ∧ 0x20 ≤ d.toNat := by
  unfold escape at h
  split_ifs at h with hquote hbackslash hb hf hn hr ht hcontrol
  case pos => exact .inl ((by decide : ['\\', '"'] ⊆ alphabet) h)
  case pos => exact .inl ((by decide : ['\\', '\\'] ⊆ alphabet) h)
  case pos => exact .inl ((by decide : ['\\', 'b'] ⊆ alphabet) h)
  case pos => exact .inl ((by decide : ['\\', 'f'] ⊆ alphabet) h)
  case pos => exact .inl ((by decide : ['\\', 'n'] ⊆ alphabet) h)
  case pos => exact .inl ((by decide : ['\\', 'r'] ⊆ alphabet) h)
  case pos => exact .inl ((by decide : ['\\', 't'] ⊆ alphabet) h)
  case pos => exact .inl (mem_unicodeEscape hcontrol h)
  case neg =>
    rw [List.mem_singleton] at h
    subst d
    exact .inr ⟨rfl, Nat.le_of_not_lt hcontrol⟩

/-- No control character below U+0020 is left in a literal. -/
theorem control_escaped {text : List Char} {d : Char} (h : d ∈ stringify text) :
    0x20 ≤ d.toNat := by
  have halphabet : ∀ d ∈ alphabet, 0x20 ≤ d.toNat := List.forall_iff_forall_mem.mp (by decide)
  simp only [stringify, List.mem_cons, List.mem_append, List.mem_flatMap, List.not_mem_nil,
    or_false] at h
  rcases h with rfl | ⟨c, -, hd⟩ | rfl
  · decide
  · rcases mem_escape hd with hmem | ⟨-, hle⟩
    · exact halphabet d hmem
    · exact hle
  · decide

/-- A character that needs no escape is in a literal exactly if it is in the text. -/
theorem mem_stringify_iff {text : List Char} {d : Char} (halphabet : d ∉ alphabet)
    (hescape : escape d = [d]) : d ∈ stringify text ↔ d ∈ text := by
  have hquote : d ≠ '"' := by
    rintro rfl
    exact halphabet (by decide)
  simp only [stringify, List.mem_cons, List.mem_append, List.mem_flatMap, List.not_mem_nil,
    or_false, hquote, false_or]
  constructor
  · rintro ⟨c, hc, hd⟩
    rcases mem_escape hd with hmem | ⟨rfl, -⟩
    · exact absurd hmem halphabet
    · exact hc
  · intro hd
    exact ⟨d, hd, by rw [hescape]; exact List.mem_singleton_self d⟩

end JsonStrings
