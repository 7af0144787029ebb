import Mathlib.Algebra.GroupWithZero.Nat
import Mathlib.Data.List.Basic
import ShoppingProject.Joins
import ShoppingProject.KeyedLists
import ShoppingProject.Splits

/-!
# Cookies as the scripts of a site see them

A jar holds the cookies of a site, all under the path `/`, with at most one of each name. An
assignment to `document.cookie` is parsed and changes one cookie at most; reading it joins the
cookies that have not expired. Of the attributes `Max-Age` is modelled. Times are in seconds.
-/
namespace Cookies

abbrev Text := List Char

structure Cookie where
  name : Text
  value : Text
  expires : Option Int
  deriving DecidableEq, Repr

namespace Cookie

def live (now : Int) (c : Cookie) : Bool :=
  match c.expires with
  | none => true
  | some e => decide (now < e)

/-- A cookie as it is read; one without a name is its value. -/
def pair (c : Cookie) : Text := if c.name = [] then c.value else c.name ++ '=' :: c.value

theorem live_earlier {now later : Int} {c : Cookie} (hle : now ≤ later)
    (h : c.live later = true) : c.live now = true := by
  unfold live at h ⊢
  cases hexpires : c.expires with
  | none => rfl
  | some e =>
    simp only [hexpires, decide_eq_true_eq] at h ⊢
    omega

end Cookie

/-! ## Parsing -/

def isControl (c : Char) : Bool := (c.toNat < 0x20 && c ≠ '\t') || c.toNat = 0x7f

def isBlank (c : Char) : Bool := c = ' ' || c = '\t'

/-- A text cut at its first `=`; what follows is absent if there is none. -/
def cutAtEquals (text : Text) : Text × Option Text :=
  if '=' ∈ text then
    (Splits.trim isBlank (text.takeWhile (· ≠ '=')),
      some (Splits.trim isBlank ((text.dropWhile (· ≠ '=')).drop 1)))
  else (Splits.trim isBlank text, none)

theorem takeWhile_ne_append {before : Text} {mark : Char} (h : mark ∉ before) (after : Text) :
    (before ++ mark :: after).takeWhile (· ≠ mark) = before := by
  rw [List.takeWhile_append_of_pos fun c hc => by simpa using ne_of_mem_of_not_mem hc h]
  simp

theorem cutAtEquals_append {before : Text} (h : '=' ∉ before) (after : Text) :
    cutAtEquals (before ++ '=' :: after) =
      (Splits.trim isBlank before, some (Splits.trim isBlank after)) := by
  have hdrop : (before ++ '=' :: after).dropWhile (· ≠ '=') = '=' :: after := by
    rw [List.dropWhile_append_of_pos fun c hc => by simpa using ne_of_mem_of_not_mem hc h]
    simp
  rw [cutAtEquals, if_pos (by simp), takeWhile_ne_append h, hdrop]
  rfl

/-- Name and value; a text without `=` is a value. -/
def nameValue (text : Text) : Text × Text :=
  match cutAtEquals text with
  | (name, some value) => (name, value)
  | (value, none) => ([], value)

/-- The seconds that a `Max-Age` attribute spells. -/
def seconds (text : Text) : Option Int :=
  match text with
  | '-' :: digits =>
    if digits ≠ [] ∧ digits.all Char.isDigit then some (-(Nat.ofDigitChars 10 digits 0 : Int))
    else none
  | digits =>
    if digits ≠ [] ∧ digits.all Char.isDigit then some (Nat.ofDigitChars 10 digits 0 : Int)
    else none

def maxAgeOf (text : Text) : Option Int :=
  match cutAtEquals text with
  | (name, some value) => if name.map Char.toLower = "max-age".toList then seconds value else none
  | (_, none) => none

/-- The last `Max-Age` attribute counts. -/
def maxAge (attributes : List Text) : Option Int := (attributes.filterMap maxAgeOf).getLast?

/-- No cookie lives longer than 400 days. -/
def ageLimit : Int := 60 * 60 * 24 * 400

def expiry (now : Int) (age : Option Int) : Option Int := age.map fun a => now + min a ageLimit

/-! ## The jar -/

/-- The octets of a text in UTF-8. -/
def octets (text : Text) : Nat := (text.map Char.utf8Size).sum

def sizeLimit : Nat := 4096

/-- A value that a cookie under the name takes as it is. -/
structure Storable (name value : Text) : Prop where
  plain : ∀ c ∈ value, c ≠ ';' ∧ isControl c = false
  trimmed : Splits.trim isBlank value = value
  fits : octets name + octets value ≤ sizeLimit

structure Jar where
  cookies : List Cookie
  distinct : KeyedLists.Distinct Cookie.name cookies
  names : ∀ c ∈ cookies, ';' ∉ c.name ∧ '=' ∉ c.name
  storable : ∀ c ∈ cookies, Storable c.name c.value

namespace Jar

def empty : Jar where
  cookies := []
  distinct := KeyedLists.distinct_nil
  names := by simp
  storable := by simp

/-- The cookies that have not expired. -/
def kept (now : Int) (jar : Jar) : List Cookie := jar.cookies.filter (Cookie.live now)

/-- `document.cookie` -/
def read (now : Int) (jar : Jar) : Text :=
  [';', ' '].intercalate ((jar.kept now).map Cookie.pair)

def find (now : Int) (name : Text) (jar : Jar) : Option Cookie :=
  KeyedLists.lookup Cookie.name name (jar.kept now)

end Jar

/-- The content of a cookie under the name of another. -/
def Cookie.under (c d : Cookie) : Cookie := { c with name := d.name }

/-- A cookie takes the place of one of its name, or comes last; one that has expired goes. -/
def put (now : Int) (c : Cookie) (cookies : List Cookie) : List Cookie :=
  if c.live now then
    if c.name ∈ cookies.map Cookie.name then
      KeyedLists.modifyFirst Cookie.name c.name c.under cookies
    else cookies ++ [c]
  else KeyedLists.without Cookie.name c.name cookies

theorem distinct_put {cookies : List Cookie} (h : KeyedLists.Distinct Cookie.name cookies)
    (now : Int) (c : Cookie) : KeyedLists.Distinct Cookie.name (put now c cookies) := by
  unfold put
  split
  · split
    · exact h.modifyFirst (f := c.under) (fun _ => rfl) c.name
    · rename_i hnew
      exact KeyedLists.distinct_snoc.mpr ⟨h, hnew⟩
  · exact h.without c.name

/-- What a new cookie leaves there is itself or was there before. -/
theorem mem_put {now : Int} {c d : Cookie} {cookies : List Cookie} (h : d ∈ put now c cookies) :
    d = c ∨ d ∈ cookies := by
  unfold put at h
  split at h
  · split at h
    · exact KeyedLists.mem_modifyFirst (fun x hx => by rw [Cookie.under, hx]) h
    · rw [List.mem_append, List.mem_singleton] at h
      exact h.symm
  · exact .inr (List.mem_filter.mp h).1

/-- What is found under a name once a cookie has been put into the jar. -/
theorem lookup_put (now : Int) (c : Cookie) (cookies : List Cookie) (name : Text) :
    KeyedLists.lookup Cookie.name name (put now c cookies) =
      if c.name = name then (if c.live now then some c else none)
      else KeyedLists.lookup Cookie.name name cookies := by
  unfold put
  split
  · split
    · rename_i hmem
      split
      · rename_i hname
        subst name
        cases hfound : KeyedLists.lookup Cookie.name c.name cookies with
        | none => exact absurd hmem (KeyedLists.lookup_eq_none.mp hfound)
        | some d =>
          rw [KeyedLists.lookup_modifyFirst_same (f := c.under) fun _ => rfl, hfound,
            Option.map_some, Cookie.under, KeyedLists.lookup_key hfound]
      · rename_i hname
        exact KeyedLists.lookup_modifyFirst_other (f := c.under) (fun _ => rfl) (Ne.symm hname)
    · rename_i hnew
      exact KeyedLists.lookup_snoc hnew
  · exact KeyedLists.lookup_without name

/-! ## Assignments -/

/-- The cookie that an assigned text describes, unless it has to be ignored. -/
def parse (now : Int) (text : Text) : Option Cookie :=
  if text.any isControl then none
  else
    let (name, value) := nameValue (text.takeWhile (· ≠ ';'))
    if (name = [] ∧ value = []) ∨ sizeLimit < octets name + octets value then none
    else some ⟨name, value, expiry now (maxAge ((text.splitOn ';').drop 1))⟩

theorem mem_cutAtEquals_fst {text : Text} {c : Char} (h : c ∈ (cutAtEquals text).1) :
    c ∈ text := by
  unfold cutAtEquals at h
  split at h
  · exact (List.takeWhile_prefix _).subset (Splits.mem_of_mem_trim _ h)
  · exact Splits.mem_of_mem_trim _ h

theorem mem_cutAtEquals_snd {text value : Text} {c : Char} (h : (cutAtEquals text).2 = some value)
    (hc : c ∈ value) : c ∈ text := by
  unfold cutAtEquals at h
  split at h
  · cases h
    exact (List.dropWhile_suffix _).subset (List.mem_of_mem_drop (Splits.mem_of_mem_trim _ hc))
  · cases h

theorem mem_nameValue_name {text : Text} {c : Char} (h : c ∈ (nameValue text).1) :
    c ∈ text ∧ c ≠ '=' := by
  unfold nameValue cutAtEquals at h
  split_ifs at h with hequals
  · have hc := Splits.mem_of_mem_trim _ h
    exact ⟨(List.takeWhile_prefix _).subset hc, by simpa using List.mem_takeWhile_imp hc⟩
  · exact absurd h List.not_mem_nil

theorem mem_nameValue_value {text : Text} {c : Char} (h : c ∈ (nameValue text).2) : c ∈ text := by
  unfold nameValue at h
  split at h
  · rename_i name value hcut
    exact mem_cutAtEquals_snd (congrArg Prod.snd hcut) h
  · rename_i value hcut
    refine mem_cutAtEquals_fst ?_
    rw [hcut]
    exact h

theorem trim_nameValue (text : Text) :
    Splits.trim isBlank (nameValue text).2 = (nameValue text).2 := by
  unfold nameValue cutAtEquals
  split_ifs with hequals
  · exact Splits.trim_trim isBlank _
  · exact Splits.trim_trim isBlank _

/-- What it takes for a text to describe a cookie. -/
theorem parse_eq_some {now : Int} {text : Text} {c : Cookie} (h : parse now text = some c) :
    (∀ d ∈ text, isControl d = false) ∧ c.name = (nameValue (text.takeWhile (· ≠ ';'))).1 ∧
      c.value = (nameValue (text.takeWhile (· ≠ ';'))).2 ∧
      octets c.name + octets c.value ≤ sizeLimit := by
  unfold parse at h
  split at h
  · cases h
  · rename_i hcontrol
    simp only at h
    split at h
    · cases h
    · rename_i hsize
      cases h
      rw [not_or, Nat.not_lt] at hsize
      exact ⟨by simpa using hcontrol, rfl, rfl, hsize.2⟩

theorem names_of_parse {now : Int} {text : Text} {c : Cookie} (h : parse now text = some c) :
    ';' ∉ c.name ∧ '=' ∉ c.name := by
  obtain ⟨-, hname, -, -⟩ := parse_eq_some h
  rw [hname]
  constructor
  · intro hmem
    have hsemicolon := List.mem_takeWhile_imp (mem_nameValue_name hmem).1
    exact absurd hsemicolon (by decide)
  · intro hmem
    exact (mem_nameValue_name hmem).2 rfl

theorem storable_of_parse {now : Int} {text : Text} {c : Cookie}
    (h : parse now text = some c) : Storable c.name c.value := by
  obtain ⟨hcontrol, -, hvalue, hfits⟩ := parse_eq_some h
  refine ⟨?_, by rw [hvalue, trim_nameValue], hfits⟩
  intro d hd
  rw [hvalue] at hd
  have hmem := mem_nameValue_value hd
  exact ⟨by simpa using List.mem_takeWhile_imp hmem,
    hcontrol d ((List.takeWhile_prefix _).subset hmem)⟩

/-- `document.cookie = text` -/
def Jar.assign (now : Int) (text : Text) (jar : Jar) : Jar :=
  match h : parse now text with
  | none => jar
  | some c =>
    { cookies := put now c (jar.kept now)
      distinct := distinct_put (jar.distinct.sublist (List.filter_sublist.map _)) now c
      names := by
        intro d hd
        rcases mem_put hd with rfl | hd
        · exact names_of_parse h
        · exact jar.names d (List.mem_filter.mp hd).1
      storable := by
        intro d hd
        rcases mem_put hd with rfl | hd
        · exact storable_of_parse h
        · exact jar.storable d (List.mem_filter.mp hd).1 }

namespace Jar

variable {now later : Int} {name text : Text} {jar : Jar}

theorem find_eq : jar.find now name =
    (KeyedLists.lookup Cookie.name name jar.cookies).filter (Cookie.live now) :=
  jar.distinct.lookup_filter _

theorem find_name {c : Cookie} (h : jar.find now name = some c) : c.name = name :=
  KeyedLists.lookup_key h

theorem storable_find {c : Cookie} (h : jar.find now name = some c) : Storable name c.value := by
  have hmem := List.mem_of_find?_eq_some h
  rw [← find_name h]
  exact jar.storable c (List.mem_filter.mp hmem).1

theorem filter_live (h : now ≤ later) (found : Option Cookie) :
    (found.filter (Cookie.live now)).filter (Cookie.live later) =
      found.filter (Cookie.live later) := by
  cases found with
  | none => rfl
  | some c =>
    by_cases hlater : c.live later = true
    · simp [Option.filter, hlater, Cookie.live_earlier h hlater]
    · by_cases hnow : c.live now = true <;> simp [Option.filter, hlater, hnow]

theorem assign_ignored (h : parse now text = none) : jar.assign now text = jar := by
  unfold assign
  split
  · rfl
  · rename_i c hc
    rw [h] at hc
    cases hc

theorem cookies_assign {c : Cookie} (h : parse now text = some c) :
    (jar.assign now text).cookies = put now c (jar.kept now) := by
  unfold assign
  split
  · rename_i hnone
    rw [h] at hnone
    cases hnone
  · rename_i d hd
    rw [h] at hd
    cases hd
    rfl

/-- An assignment changes what is found under the name of its cookie, and nothing else. -/
theorem find_assign {c : Cookie} (hle : now ≤ later) (h : parse now text = some c) :
    (jar.assign now text).find later name =
      if c.name = name then (if c.live later then some c else none) else jar.find later name := by
  rw [find_eq, cookies_assign h, lookup_put]
  split
  · by_cases hlater : c.live later = true
    · simp [Option.filter, hlater, Cookie.live_earlier hle hlater]
    · by_cases hnow : c.live now = true <;> simp [Option.filter, hlater, hnow]
  · have hkept : KeyedLists.lookup Cookie.name name (jar.kept now) = jar.find now name := rfl
    rw [hkept, find_eq, find_eq, filter_live hle]

end Jar

/-! ## Reading -/

/-- Cookies as they stand in a text, each after a semicolon. -/
def pieces (cookies : List Cookie) : List Text := cookies.map (' ' :: ·.pair)

theorem join_pieces (c : Cookie) (cookies : List Cookie) :
    [';', ' '] ++ [';', ' '].intercalate ((c :: cookies).map Cookie.pair) =
      Splits.marked ';' (pieces (c :: cookies)) := by
  induction cookies generalizing c with
  | nil => simp [pieces, Splits.marked]
  | cons d cookies ih =>
    have htail := ih d
    rw [List.map_cons, List.map_cons, List.intercalate_cons_cons, ← List.map_cons (l := cookies),
      List.append_assoc _ [';', ' '], htail]
    simp [pieces, Splits.marked]

/-- What a script that puts `; ` before `document.cookie` cuts up. -/
theorem semicolon_read (now : Int) (jar : Jar) :
    [';', ' '] ++ jar.read now =
      Splits.marked ';' (if jar.kept now = [] then [[' ']] else pieces (jar.kept now)) := by
  unfold Jar.read
  cases h : jar.kept now with
  | nil => rfl
  | cons c cookies =>
    rw [if_neg (List.cons_ne_nil c cookies)]
    exact join_pieces c cookies

theorem semicolon_free {jar : Jar} {c : Cookie} (h : c ∈ jar.cookies) : ';' ∉ ' ' :: c.pair := by
  have hname := (jar.names c h).1
  have hvalue : ';' ∉ c.value := fun hmem => ((jar.storable c h).plain ';' hmem).1 rfl
  unfold Cookie.pair
  split <;> simp [hname, hvalue]

end Cookies
