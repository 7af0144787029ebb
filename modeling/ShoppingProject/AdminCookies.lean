import ShoppingProject.Cookies
import ShoppingProject.Runs

/-!
# The cookie functions of the admin application

A cookie is read by cutting `document.cookie` at its name, and written by an assignment that
puts name and value together as they are.
-/
namespace AdminCookies

open Cookies

def DEFAULT_MAX_AGE : Nat := 60 * 60 * 24 * 7

/-- `cookie` is the text of `document.cookie`. -/
def getCookie (name cookie : Text) : Option Text :=
  match Splits.split ([';', ' '] ++ name ++ ['=']) ([';', ' '] ++ cookie) with
  | [_, part] => (part.splitOn ';').head?
  | _ => none

def setCookieText (name value : Text) (maxAge : Nat) : Text :=
  name ++ ['='] ++ value ++ "; path=/; max-age=".toList ++ Nat.toDigits 10 maxAge

def setCookie (now : Int) (name value : Text) (maxAge : Nat) (jar : Jar) : Jar :=
  jar.assign now (setCookieText name value maxAge)

def removeCookie (now : Int) (name : Text) (jar : Jar) : Jar :=
  jar.assign now (name ++ "=; path=/; max-age=0".toList)

/-- A name that a cookie takes as it is. -/
structure ProperName (name : Text) : Prop where
  nonempty : name ≠ []
  plain : ∀ c ∈ name, c ≠ ';' ∧ c ≠ '=' ∧ isControl c = false
  trimmed : Splits.trim isBlank name = name

/-- No cookie is without a name. -/
def Named (jar : Jar) : Prop := ∀ c ∈ jar.cookies, c.name ≠ []

/-! ## Reading -/

theorem pair_of_name {c : Cookie} (h : c.name ≠ []) : c.pair = c.name ++ ['='] ++ c.value := by
  simp [Cookie.pair, h]

/-- Of two texts without `=`, one with `=` after it begins the other only if they are equal. -/
theorem name_prefix_iff {name other value : Text} (hname : '=' ∉ name) (hother : '=' ∉ other) :
    name ++ ['='] <+: other ++ ['='] ++ value ↔ other = name := by
  constructor
  · intro h
    induction name generalizing other with
    | nil =>
      cases other with
      | nil => rfl
      | cons c other =>
        obtain ⟨rfl, -⟩ := List.cons_prefix_cons.mp h
        exact absurd List.mem_cons_self hother
    | cons c name ih =>
      cases other with
      | nil =>
        obtain ⟨rfl, -⟩ := List.cons_prefix_cons.mp h
        exact absurd List.mem_cons_self hname
      | cons d other =>
        obtain ⟨rfl, htail⟩ := List.cons_prefix_cons.mp h
        rw [List.mem_cons, not_or] at hname hother
        rw [ih hname.2 hother.2 htail]
  · rintro rfl
    exact List.prefix_append _ _

theorem head_splitOn_marked {rest : Text} (hrest : ';' ∉ rest) (after : List Text) :
    ((rest ++ Splits.marked ';' after).splitOn ';').head? = some rest := by
  cases after with
  | nil =>
    rw [Splits.marked, List.flatMap_nil, List.append_nil, List.splitOn_eq_singleton hrest]
    rfl
  | cons piece after =>
    rw [Splits.marked, List.flatMap_cons, List.cons_append, List.splitOn_append_cons_self,
      List.splitOn_eq_singleton hrest]
    rfl

/-- A cookie stands in the text at the word exactly if it has the name. -/
theorem word_prefix_iff {name : Text} (hname : ProperName name) {jar : Jar} (hnamed : Named jar)
    {c : Cookie} (hc : c ∈ jar.cookies) :
    ' ' :: (name ++ ['=']) <+: ' ' :: c.pair ↔ c.name = name := by
  have hequals : '=' ∉ name := fun hmem => (hname.plain '=' hmem).2.1 rfl
  rw [List.prefix_cons_inj, pair_of_name (hnamed c hc),
    name_prefix_iff hequals (jar.names c hc).2]

/-- A cookie is read as it is in the jar. -/
theorem getCookie_read {name : Text} (hname : ProperName name) {jar : Jar} (hnamed : Named jar)
    (now : Int) : getCookie name (jar.read now) = (jar.find now name).map Cookie.value := by
  have hmark : ';' ∉ ' ' :: (name ++ ['=']) := by
    have hsemicolon : ';' ∉ name := fun hmem => (hname.plain ';' hmem).1 rfl
    simp [hsemicolon]
  have hkept : ∀ c ∈ jar.kept now, c ∈ jar.cookies := fun c hc => (List.mem_filter.mp hc).1
  have hfree : ∀ piece ∈ pieces (jar.kept now), ';' ∉ piece := by
    intro piece hpiece
    obtain ⟨c, hc, rfl⟩ := List.mem_map.mp hpiece
    exact semicolon_free (hkept c hc)
  have habsent : ∀ {cookies : List Cookie}, (∀ c ∈ cookies, c ∈ jar.cookies ∧ c.name ≠ name) →
      ∀ piece ∈ pieces cookies, ¬ ' ' :: (name ++ ['=']) <+: piece := by
    intro cookies h piece hpiece
    obtain ⟨c, hc, rfl⟩ := List.mem_map.mp hpiece
    rw [word_prefix_iff hname hnamed (h c hc).1]
    exact (h c hc).2
  have hword : [';', ' '] ++ name ++ ['='] = ';' :: ' ' :: (name ++ ['=']) := rfl
  rw [getCookie, semicolon_read, hword]
  cases hfind : jar.find now name with
  | none =>
    have hother : ∀ c ∈ jar.kept now, c ∈ jar.cookies ∧ c.name ≠ name := by
      intro c hc
      refine ⟨hkept c hc, fun heq => KeyedLists.lookup_eq_none.mp hfind ?_⟩
      rw [← heq]
      exact List.mem_map_of_mem hc
    split
    · rename_i hempty
      split at hempty
      · rw [Splits.split_marked hmark (by simp), Splits.cut_none] at hempty
        · simp at hempty
        · rw [List.forall_mem_singleton, List.prefix_cons_inj]
          intro hprefix
          exact absurd (List.append_eq_nil_iff.mp (List.prefix_nil.mp hprefix)).2 (by simp)
      · rw [Splits.split_marked hmark hfree, Splits.cut_none (habsent hother)] at hempty
        simp at hempty
    · rfl
  | some c =>
    have hc : c ∈ jar.kept now := List.mem_of_find?_eq_some hfind
    have hcname : c.name = name := Jar.find_name hfind
    have hpiece : ' ' :: c.pair = ' ' :: (name ++ ['=']) ++ c.value := by
      rw [pair_of_name (hnamed c (hkept c hc)), hcname]
      rfl
    have hvalue : ';' ∉ c.value := fun h => ((Jar.storable_find hfind).plain ';' h).1 rfl
    have hdistinct : KeyedLists.Distinct Cookie.name (jar.kept now) :=
      jar.distinct.sublist (List.filter_sublist.map _)
    obtain ⟨before, after, hsplit, hbefore, hafter⟩ := hdistinct.lookup_split hfind
    rw [hsplit] at hkept hfree
    have hbefore' : ∀ d ∈ before, d ∈ jar.cookies ∧ d.name ≠ name :=
      fun d hd => ⟨hkept d (List.mem_append_left _ hd), hbefore d hd⟩
    have hafter' : ∀ d ∈ after, d ∈ jar.cookies ∧ d.name ≠ name :=
      fun d hd => ⟨hkept d (List.mem_append_right _ (List.mem_cons_of_mem c hd)), hafter d hd⟩
    rw [if_neg (by simp [hsplit]), hsplit, Splits.split_marked hmark hfree]
    have hpieces : pieces (before ++ c :: after) =
        pieces before ++ (' ' :: (name ++ ['=']) ++ c.value) :: pieces after := by
      rw [← hpiece]
      simp [pieces]
    rw [hpieces, Splits.cut_one (habsent hbefore') (habsent hafter')]
    exact head_splitOn_marked hvalue _

/-! ## Writing -/

theorem toDigits_plain {n : Nat} {c : Char} (h : c ∈ Nat.toDigits 10 n) :
    c ≠ ';' ∧ c ≠ '=' ∧ c ≠ '-' ∧ isControl c = false ∧ isBlank c = false := by
  have hdigit := Nat.isDigit_of_mem_toDigits (by decide) (by decide) h
  refine ⟨?_, ?_, ?_, ?_, ?_⟩
  · rintro rfl
    exact absurd hdigit (by decide)
  · rintro rfl
    exact absurd hdigit (by decide)
  · rintro rfl
    exact absurd hdigit (by decide)
  · have hrange : 48 ≤ c.toNat ∧ c.toNat ≤ 57 := by
      simpa [Char.isDigit, UInt32.le_iff_toNat_le] using hdigit
    have hlow : ¬ c.toNat < 0x20 := by omega
    have hdelete : c.toNat ≠ 0x7f := by omega
    simp [isControl, hlow, hdelete]
  · have hspace : c ≠ ' ' := by
      rintro rfl
      exact absurd hdigit (by decide)
    have htab : c ≠ '\t' := by
      rintro rfl
      exact absurd hdigit (by decide)
    simp [isBlank, hspace, htab]

theorem seconds_toDigits (n : Nat) : seconds (Nat.toDigits 10 n) = some (n : Int) := by
  have hdigits : (Nat.toDigits 10 n).all Char.isDigit = true := by
    rw [List.all_eq_true]
    exact fun c hc => Nat.isDigit_of_mem_toDigits (by decide) (by decide) hc
  have hvalue := Nat.ofDigitChars_ten_toDigits (n := n)
  unfold seconds
  split
  · rename_i digits h
    exact absurd rfl (toDigits_plain (h ▸ List.mem_cons_self)).2.2.1
  · rw [if_pos ⟨Nat.toDigits_ne_nil, hdigits⟩, hvalue]

theorem trim_free {text : Text} (h : ∀ c ∈ text, isBlank c = false) :
    Splits.trim isBlank text = text :=
  (Splits.trim_eq_self_iff isBlank).mpr
    ⟨fun c hc => h c (List.mem_of_mem_head? hc), fun c hc => h c (List.mem_of_getLast? hc)⟩

theorem maxAge_setCookie (n : Nat) :
    maxAge [" path=/".toList, " max-age=".toList ++ Nat.toDigits 10 n] = some (n : Int) := by
  have hpath : maxAgeOf " path=/".toList = none := by decide
  have hage : maxAgeOf (" max-age=".toList ++ Nat.toDigits 10 n) = some (n : Int) := by
    have htext : " max-age=".toList ++ Nat.toDigits 10 n =
        " max-age".toList ++ '=' :: Nat.toDigits 10 n := rfl
    have hname : (Splits.trim isBlank " max-age".toList).map Char.toLower = "max-age".toList := by
      decide
    have hdigits : Splits.trim isBlank (Nat.toDigits 10 n) = Nat.toDigits 10 n :=
      trim_free fun c hc => (toDigits_plain hc).2.2.2.2
    rw [maxAgeOf, htext, cutAtEquals_append (by decide), hdigits]
    simp only
    rw [if_pos hname, seconds_toDigits]
  rw [maxAge, List.filterMap_cons_none hpath, List.filterMap_cons_some hage]
  rfl

/-- The text of `setCookie`, as far as the first semicolon, and its attributes. -/
theorem setCookieText_eq (name value : Text) (n : Nat) :
    setCookieText name value n = name ++ '=' :: value ++ ';' ::
      (" path=/".toList ++ ';' :: (" max-age=".toList ++ Nat.toDigits 10 n)) := by
  simp [setCookieText]

theorem attributes_setCookie {name value : Text} (hname : ';' ∉ name) (hvalue : ';' ∉ value)
    (n : Nat) : ((setCookieText name value n).splitOn ';').drop 1 =
      [" path=/".toList, " max-age=".toList ++ Nat.toDigits 10 n] := by
  have hage : ';' ∉ " max-age=".toList ++ Nat.toDigits 10 n := by
    rw [List.mem_append, not_or]
    exact ⟨by decide, fun h => (toDigits_plain h).1 rfl⟩
  rw [setCookieText_eq, List.splitOn_append_cons_self, List.splitOn_append_cons_self,
    List.splitOn_eq_singleton (by simp [hname, hvalue]), List.splitOn_eq_singleton (by decide),
    List.splitOn_eq_singleton hage]
  rfl

theorem control_setCookie {name value : Text} (hname : ∀ c ∈ name, isControl c = false) (n : Nat) :
    (setCookieText name value n).any isControl = value.any isControl := by
  have hname' : name.any isControl = false := by simpa using hname
  have hdigits : (Nat.toDigits 10 n).any isControl = false := by
    simpa using fun c hc => (toDigits_plain hc).2.2.2.1
  have hpath : "; path=/; max-age=".toList.any isControl = false := by decide
  have hequals : ['='].any isControl = false := by decide
  simp only [setCookieText, List.any_append, hname', hdigits, hpath, hequals, Bool.false_or,
    Bool.or_false]

/-- The cookie that `setCookie` assigns, if the value can be stored. -/
theorem parse_setCookie {name value : Text} (hname : ProperName name)
    (hvalue : Storable name value) (now : Int) (n : Nat) :
    parse now (setCookieText name value n) =
      some ⟨name, value, some (now + min (n : Int) ageLimit)⟩ := by
  have hsemicolon : ';' ∉ name := fun h => (hname.plain ';' h).1 rfl
  have hequals : '=' ∉ name := fun h => (hname.plain '=' h).2.1 rfl
  have hvalue' : ';' ∉ value := fun h => (hvalue.plain ';' h).1 rfl
  have hcontrol : value.any isControl = false := by
    simpa using fun c hc => (hvalue.plain c hc).2
  have hpair : (setCookieText name value n).takeWhile (· ≠ ';') = name ++ '=' :: value := by
    rw [setCookieText_eq, takeWhile_ne_append (by simp [hsemicolon, hvalue'])]
  have hparts : nameValue (name ++ '=' :: value) = (name, value) := by
    rw [nameValue, cutAtEquals_append hequals, hname.trimmed, hvalue.trimmed]
  rw [parse, control_setCookie (fun c hc => (hname.plain c hc).2.2), hcontrol, hpair, hparts,
    attributes_setCookie hsemicolon hvalue', maxAge_setCookie]
  have hfits : ¬ (name = [] ∧ value = [] ∨ sizeLimit < octets name + octets value) := by
    have h := hvalue.fits
    simp only [hname.nonempty, false_and, false_or]
    omega
  simp [hfits, expiry]

/-- A value that only the limits of a cookie keep out is not stored at all. -/
theorem setCookie_unstorable {name value : Text} (hname : ProperName name)
    (hsemicolon : ';' ∉ value) (htrimmed : Splits.trim isBlank value = value)
    (hvalue : ¬ Storable name value) (now : Int) (n : Nat) (jar : Jar) :
    setCookie now name value n jar = jar := by
  have hfree : ';' ∉ name := fun hmem => (hname.plain ';' hmem).1 rfl
  have hequals : '=' ∉ name := fun hmem => (hname.plain '=' hmem).2.1 rfl
  have hpair : (setCookieText name value n).takeWhile (· ≠ ';') = name ++ '=' :: value := by
    rw [setCookieText_eq, takeWhile_ne_append (by simp [hfree, hsemicolon])]
  cases hparse : parse now (setCookieText name value n) with
  | none => exact Jar.assign_ignored hparse
  | some c =>
    obtain ⟨-, hcname, hcvalue, -⟩ := parse_eq_some hparse
    have hparts : nameValue (name ++ '=' :: value) = (name, value) := by
      rw [nameValue, cutAtEquals_append hequals, hname.trimmed, htrimmed]
    rw [hpair, hparts] at hcname hcvalue
    have hstorable := storable_of_parse hparse
    rw [hcname, hcvalue] at hstorable
    exact absurd hstorable hvalue

/-- Whatever the value, only a cookie of the name is assigned. -/
theorem name_of_parse_setCookie {name value : Text} (hname : ProperName name) {now : Int} {n : Nat}
    {c : Cookie} (h : parse now (setCookieText name value n) = some c) : c.name = name := by
  have hsemicolon : ';' ∉ name := fun hmem => (hname.plain ';' hmem).1 rfl
  have hequals : '=' ∉ name := fun hmem => (hname.plain '=' hmem).2.1 rfl
  obtain ⟨-, hfirst, -, -⟩ := parse_eq_some h
  have hpair : ∃ rest, (setCookieText name value n).takeWhile (· ≠ ';') = name ++ '=' :: rest := by
    rw [setCookieText_eq, List.append_assoc,
      List.takeWhile_append_of_pos fun c hc => by simpa using ne_of_mem_of_not_mem hc hsemicolon]
    exact ⟨_, rfl⟩
  obtain ⟨rest, hrest⟩ := hpair
  rw [hfirst, hrest, nameValue, cutAtEquals_append hequals, hname.trimmed]

theorem named_setCookie {name : Text} (hname : ProperName name) {jar : Jar} (hnamed : Named jar)
    (now : Int) (value : Text) (n : Nat) : Named (setCookie now name value n jar) := by
  unfold setCookie
  cases hparse : parse now (setCookieText name value n) with
  | none => rwa [Jar.assign_ignored hparse]
  | some c =>
    intro d hd
    rw [Jar.cookies_assign hparse] at hd
    rcases mem_put hd with rfl | hd
    · rw [name_of_parse_setCookie hname hparse]
      exact hname.nonempty
    · exact hnamed d (List.mem_filter.mp hd).1

/-- What is found under the name after a value that can be stored has been set. -/
theorem find_setCookie {name value : Text} (hname : ProperName name)
    (hvalue : Storable name value) {now later : Int} (hle : now ≤ later) (n : Nat) (jar : Jar) :
    ((setCookie now name value n jar).find later name).map Cookie.value =
      if later < now + min (n : Int) ageLimit then some value else none := by
  rw [setCookie, Jar.find_assign hle (parse_setCookie hname hvalue now n), if_pos rfl]
  by_cases hlive : later < now + min (n : Int) ageLimit <;> simp [Cookie.live, hlive]

theorem find_setCookie_other {name other : Text} (hname : ProperName name) (hother : other ≠ name)
    {now later : Int} (hle : now ≤ later) (value : Text) (n : Nat) (jar : Jar) :
    (setCookie now name value n jar).find later other = jar.find later other := by
  unfold setCookie
  cases hparse : parse now (setCookieText name value n) with
  | none => rw [Jar.assign_ignored hparse]
  | some c =>
    rw [Jar.find_assign hle hparse, name_of_parse_setCookie hname hparse, if_neg (Ne.symm hother)]

/-- A value is read back while it has not expired, exactly if a cookie takes it as it is. -/
theorem getCookie_setCookie_iff {name : Text} (hname : ProperName name) {jar : Jar}
    (hnamed : Named jar) {now later : Int} (hle : now ≤ later) (value : Text) (n : Nat) :
    getCookie name ((setCookie now name value n jar).read later) = some value ↔
      Storable name value ∧ later < now + min (n : Int) ageLimit := by
  rw [getCookie_read hname (named_setCookie hname hnamed now value n)]
  constructor
  · intro h
    obtain ⟨c, hc, hcvalue⟩ := Option.map_eq_some_iff.mp h
    have hvalue : Storable name value := hcvalue ▸ Jar.storable_find hc
    rw [find_setCookie hname hvalue hle] at h
    refine ⟨hvalue, ?_⟩
    by_contra hexpired
    rw [if_neg hexpired] at h
    cases h
  · rintro ⟨hvalue, hlive⟩
    rw [find_setCookie hname hvalue hle, if_pos hlive]

/-- A font that has been set for a minute. -/
theorem font_read_back :
    getCookie "font".toList ((setCookie 0 "font".toList "inter".toList 60 .empty).read 59) =
      some "inter".toList :=
  (getCookie_setCookie_iff ⟨by decide, List.forall_iff_forall_mem.mp (by decide), by decide⟩
    (by simp [Named, Jar.empty]) (by decide) _ _).mpr
      ⟨⟨List.forall_iff_forall_mem.mp (by decide), by decide, by decide⟩, by decide⟩

/-- Setting a cookie, whatever the value, does not change how the others are read. -/
theorem getCookie_setCookie_other {name other : Text} (hname : ProperName name)
    (hothername : ProperName other) (hother : other ≠ name) {jar : Jar} (hnamed : Named jar)
    {now later : Int} (hle : now ≤ later) (value : Text) (n : Nat) :
    getCookie other ((setCookie now name value n jar).read later) =
      getCookie other (jar.read later) := by
  rw [getCookie_read hothername (named_setCookie hname hnamed now value n),
    getCookie_read hothername hnamed, find_setCookie_other hname hother hle]

/-! ## Removing -/

theorem removeCookie_eq (now : Int) (name : Text) (jar : Jar) :
    removeCookie now name jar = setCookie now name [] 0 jar := by
  have hlast : "=; path=/; max-age=0".toList =
      ['='] ++ "; path=/; max-age=".toList ++ Nat.toDigits 10 0 := by decide
  simp [removeCookie, setCookie, setCookieText, hlast]

theorem find_removeCookie {name : Text} (hname : ProperName name) {now later : Int}
    (hle : now ≤ later) (jar : Jar) : (removeCookie now name jar).find later name = none := by
  rw [removeCookie_eq]
  by_cases hempty : Storable name []
  · have h := find_setCookie hname hempty hle 0 jar
    have hexpired : ¬ later < now + min ((0 : Nat) : Int) ageLimit := by
      simp only [ageLimit]
      omega
    rw [if_neg hexpired] at h
    exact Option.map_eq_none_iff.mp h
  · -- A name that leaves no room for a value is that of no cookie.
    cases hfind : (setCookie now name [] 0 jar).find later name with
    | none => rfl
    | some c =>
      have hfits := (Jar.storable_find hfind).fits
      refine absurd ⟨by simp, rfl, ?_⟩ hempty
      simp only [octets, List.map_nil, List.sum_nil] at hfits ⊢
      omega

end AdminCookies
