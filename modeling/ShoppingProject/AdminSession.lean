import ShoppingProject.AdminCookies
import ShoppingProject.JsonStrings

/-!
# The session and the settings of the admin application

The auth store and the settings of the layout are kept in memory and in cookies, from which a
page load takes them again. The HTTP client keeps the tokens of the session in `localStorage`;
what these are decides which pages may be seen and how requests are authorized.
-/
namespace AdminSession

open Runs Cookies AdminCookies

local instance lawfulBEqText : LawfulBEq Text := inferInstance

/-- What is kept in memory and in a cookie. -/
inductive Key where
  | accessToken
  | refreshToken
  | theme
  | font
  | dir
  | collapsible
  | variant
  | sidebar
  deriving DecidableEq, Repr

def Key.all : List Key :=
  [.accessToken, .refreshToken, .theme, .font, .dir, .collapsible, .variant, .sidebar]

theorem Key.mem_all (k : Key) : k ∈ Key.all := by cases k <;> decide

/-- How a value is written to its cookie and taken from it; `load` gives nothing where
`JSON.parse` throws or gives no string. -/
structure Setting where
  name : Text
  maxAge : Nat
  print : Text → Text
  load : Option Text → Option Text

def week : Nat := 60 * 60 * 24 * 7

def year : Nat := 60 * 60 * 24 * 365

/-- `cookie ? JSON.parse(cookie) : ''` -/
def loadToken : Option Text → Option Text
  | none | some [] => some []
  | some cookie => JsonStrings.parse cookie

/-- `cookie || default` -/
def orDefault (default : Text) : Option Text → Option Text
  | none | some [] => some default
  | some cookie => some cookie

def fonts : List Text := ["inter".toList, "manrope".toList, "system".toList]

def loadFont (cookie : Option Text) : Option Text :=
  match cookie with
  | none => some "inter".toList
  | some font => if font ∈ fonts then some font else some "inter".toList

/-- `getCookie('sidebar_state') !== 'false'` -/
def loadSidebar (cookie : Option Text) : Option Text :=
  if cookie = some "false".toList then some "false".toList else some "true".toList

def setting : Key → Setting
  | .accessToken =>
    ⟨"admin_access_token".toList, DEFAULT_MAX_AGE, JsonStrings.stringify, loadToken⟩
  | .refreshToken =>
    ⟨"admin_refresh_token".toList, DEFAULT_MAX_AGE, JsonStrings.stringify, loadToken⟩
  | .theme => ⟨"vite-ui-theme".toList, year, id, orDefault "system".toList⟩
  | .font => ⟨"font".toList, year, id, loadFont⟩
  | .dir => ⟨"dir".toList, year, id, orDefault "ltr".toList⟩
  | .collapsible => ⟨"layout_collapsible".toList, week, id, orDefault "icon".toList⟩
  | .variant => ⟨"layout_variant".toList, week, id, orDefault "inset".toList⟩
  | .sidebar => ⟨"sidebar_state".toList, week, id, loadSidebar⟩

/-- The value without a cookie. -/
def default : Key → Text
  | .accessToken | .refreshToken => []
  | .theme => "system".toList
  | .font => "inter".toList
  | .dir => "ltr".toList
  | .collapsible => "icon".toList
  | .variant => "inset".toList
  | .sidebar => "true".toList

@[simp] theorem default_accessToken : default .accessToken = [] := rfl

@[simp] theorem default_refreshToken : default .refreshToken = [] := rfl

/-- What a setting is set to by its provider; tokens come with a session. -/
def choices : Key → List Text
  | .accessToken | .refreshToken => []
  | .theme => ["dark".toList, "light".toList, "system".toList]
  | .font => fonts
  | .dir => ["ltr".toList, "rtl".toList]
  | .collapsible => ["offcanvas".toList, "icon".toList, "none".toList]
  | .variant => ["inset".toList, "sidebar".toList, "floating".toList]
  | .sidebar => ["true".toList, "false".toList]

/-! ## The page -/

structure State where
  now : Int
  jar : Jar
  values : Key → Text
  /-- `admin_access_token` and `admin_refresh_token` in `localStorage`. -/
  authToken : Option Text
  refreshToken : Option Text

def set (k : Key) (value : Text) (s : State) : State :=
  { s with
    jar := setCookie s.now (setting k).name ((setting k).print value) (setting k).maxAge s.jar
    values := Function.update s.values k value }

def remove (k : Key) (s : State) : State :=
  { s with
    jar := removeCookie s.now (setting k).name s.jar
    values := Function.update s.values k (default k) }

@[simp] theorem set_authToken (k : Key) (value : Text) (s : State) :
    (set k value s).authToken = s.authToken := rfl

@[simp] theorem set_values (k : Key) (value : Text) (s : State) :
    (set k value s).values = Function.update s.values k value := rfl

@[simp] theorem remove_authToken (k : Key) (s : State) :
    (remove k s).authToken = s.authToken := rfl

@[simp] theorem remove_values (k : Key) (s : State) :
    (remove k s).values = Function.update s.values k (default k) := rfl

/-- `reset` of the auth store. -/
def reset (s : State) : State := remove .refreshToken (remove .accessToken s)

def item (token : Text) : Option Text := if token = [] then none else some token

def setTokens (accessToken refreshToken : Text) (s : State) : State :=
  { s with authToken := item accessToken, refreshToken := item refreshToken }

def clearTokens (s : State) : State := { s with authToken := none, refreshToken := none }

/-- The value that a page load takes from the cookie. -/
def loaded (s : State) (k : Key) : Option Text :=
  (setting k).load (getCookie (setting k).name (s.jar.read s.now))

/-- A page load; there is no page if a value cannot be taken. -/
def load (s : State) : Option State :=
  if ∀ k ∈ Key.all, (loaded s k).isSome then
    some { s with values := fun k => (loaded s k).getD [] }
  else none

inductive Label where
  | login (accessToken refreshToken : Text)
  /-- The response interceptor has refreshed the tokens. -/
  | refreshed (accessToken refreshToken : Text)
  /-- It could not, and leaves the page for the login. -/
  | refreshFailed
  /-- A query has ended with 401. -/
  | unauthorized
  /-- The sign-out dialog. -/
  | signOut
  /-- `useLogout` -/
  | logout
  | choose (k : Key) (value : Text)
  | resetChoice (k : Key)
  | reload
  | wait (seconds : Nat)

def step (s : State) : Label → Option State
  | .login accessToken refreshToken =>
    if accessToken ≠ [] ∧ refreshToken ≠ [] then
      some (set .refreshToken refreshToken (set .accessToken accessToken
        (setTokens accessToken refreshToken s)))
    else some s
  | .refreshed accessToken refreshToken =>
    if s.authToken ≠ none ∧ s.refreshToken ≠ none then some (setTokens accessToken refreshToken s)
    else none
  | .refreshFailed => load (clearTokens s)
  | .unauthorized | .signOut => some (reset s)
  | .logout => some (reset (clearTokens s))
  | .choose k value => if value ∈ choices k then some (set k value s) else none
  | .resetChoice k =>
    match k with
    | .theme | .font | .dir => some (remove k s)
    | .collapsible | .variant => some (set k (default k) s)
    | .accessToken | .refreshToken | .sidebar => none
  | .reload => load s
  | .wait seconds => some { s with now := s.now + seconds }

/-! ## Names and values -/

theorem name_proper (k : Key) : ProperName (setting k).name := by
  cases k <;> exact ⟨by decide, List.forall_iff_forall_mem.mp (by decide), by decide⟩

theorem name_injective {j k : Key} (h : (setting j).name = (setting k).name) : j = k := by
  revert h
  cases j <;> cases k <;> decide

theorem loaded_without_cookie (k : Key) : (setting k).load none = some (default k) := by
  cases k <;> rfl

theorem load_choice {k : Key} {value : Text} (h : value ∈ choices k) :
    (setting k).load (some ((setting k).print value)) = some value := by
  revert value
  cases k <;> decide

theorem storable_choice {k : Key} {value : Text} (h : value ∈ choices k) :
    Storable (setting k).name ((setting k).print value) := by
  have hplain : ∀ v ∈ choices k,
      ((setting k).print v).Forall fun c => c ≠ ';' ∧ isControl c = false := by
    cases k <;> decide
  have htrimmed : ∀ v ∈ choices k,
      Splits.trim isBlank ((setting k).print v) = (setting k).print v := by
    cases k <;> decide
  have hfits : ∀ v ∈ choices k,
      octets (setting k).name + octets ((setting k).print v) ≤ sizeLimit := by
    cases k <;> decide
  exact ⟨List.forall_iff_forall_mem.mp (hplain value h), htrimmed value h, hfits value h⟩

theorem loadToken_stringify (token : Text) :
    loadToken (some (JsonStrings.stringify token)) = some token :=
  JsonStrings.parse_stringify token

theorem trim_stringify (token : Text) :
    Splits.trim isBlank (JsonStrings.stringify token) = JsonStrings.stringify token := by
  have hquote : isBlank '"' = false := by decide
  rw [Splits.trim_eq_self_iff]
  constructor
  · intro c hc
    obtain rfl : '"' = c := by simpa [JsonStrings.stringify] using hc
    exact hquote
  · intro c hc
    rw [JsonStrings.stringify, ← List.cons_append, List.getLast?_append] at hc
    obtain rfl : '"' = c := by simpa using hc
    exact hquote

/-- A token can be kept if it has neither a semicolon nor a delete character and is not too
long. -/
theorem storable_stringify_iff {name token : Text} :
    Storable name (JsonStrings.stringify token) ↔
      ';' ∉ token ∧ '\x7f' ∉ token ∧
        octets name + octets (JsonStrings.stringify token) ≤ sizeLimit := by
  have hsemicolon : ';' ∈ JsonStrings.stringify token ↔ ';' ∈ token :=
    JsonStrings.mem_stringify_iff (by decide) (by decide)
  have hdelete : '\x7f' ∈ JsonStrings.stringify token ↔ '\x7f' ∈ token :=
    JsonStrings.mem_stringify_iff (by decide) (by decide)
  constructor
  · rintro ⟨hplain, -, hfits⟩
    refine ⟨fun h => (hplain ';' (hsemicolon.mpr h)).1 rfl, fun h => ?_, hfits⟩
    exact absurd (hplain '\x7f' (hdelete.mpr h)).2 (by decide)
  · rintro ⟨hfree, hundeleted, hfits⟩
    refine ⟨fun c hc => ⟨?_, ?_⟩, trim_stringify token, hfits⟩
    · rintro rfl
      exact hfree (hsemicolon.mp hc)
    · have hlow : ¬ c.toNat < 0x20 := Nat.not_lt.mpr (JsonStrings.control_escaped hc)
      have hhigh : c.toNat ≠ 0x7f := by
        intro heq
        obtain rfl : c = '\x7f' := by rw [← Char.ofNat_toNat c, heq]
        exact hundeleted (hdelete.mp hc)
      simp [isControl, hlow, hhigh]

/-! ## Cookies over a run -/

/-- What the cookie of a key will be read as. -/
def cookieAt (s : State) (k : Key) (later : Int) : Option Text :=
  getCookie (setting k).name (s.jar.read later)

theorem age_le_limit (k : Key) : min ((setting k).maxAge : Int) ageLimit = (setting k).maxAge := by
  cases k <;> decide

theorem named_set {s : State} (h : Named s.jar) (k : Key) (value : Text) :
    Named (set k value s).jar :=
  named_setCookie (name_proper k) h _ _ _

theorem named_remove {s : State} (h : Named s.jar) (k : Key) : Named (remove k s).jar := by
  rw [remove, removeCookie_eq]
  exact named_setCookie (name_proper k) h _ _ _

/-- A set value is in its cookie until this expires. -/
theorem cookieAt_set {s : State} (h : Named s.jar) {k : Key} {value : Text}
    (hvalue : Storable (setting k).name ((setting k).print value)) {later : Int}
    (hle : s.now ≤ later) :
    cookieAt (set k value s) k later =
      if later < s.now + (setting k).maxAge then some ((setting k).print value) else none := by
  rw [cookieAt, getCookie_read (name_proper k) (named_set h k value)]
  rw [show (set k value s).jar = setCookie s.now (setting k).name ((setting k).print value)
    (setting k).maxAge s.jar from rfl, find_setCookie (name_proper k) hvalue hle, age_le_limit]

theorem cookieAt_set_other {s : State} (h : Named s.jar) {j k : Key} (hother : k ≠ j)
    (value : Text) {later : Int} (hle : s.now ≤ later) :
    cookieAt (set j value s) k later = cookieAt s k later :=
  getCookie_setCookie_other (name_proper j) (name_proper k) (fun heq => hother (name_injective heq))
    h hle _ _

theorem cookieAt_remove {s : State} (h : Named s.jar) (k : Key) {later : Int}
    (hle : s.now ≤ later) : cookieAt (remove k s) k later = none := by
  rw [cookieAt, getCookie_read (name_proper k) (named_remove h k)]
  rw [show (remove k s).jar = removeCookie s.now (setting k).name s.jar from rfl,
    find_removeCookie (name_proper k) hle]
  rfl

theorem cookieAt_remove_other {s : State} (h : Named s.jar) {j k : Key} (hother : k ≠ j)
    {later : Int} (hle : s.now ≤ later) :
    cookieAt (remove j s) k later = cookieAt s k later := by
  rw [cookieAt, remove, removeCookie_eq]
  exact getCookie_setCookie_other (name_proper j) (name_proper k)
    (fun heq => hother (name_injective heq)) h hle _ _

theorem load_eq_some {s t : State} (h : load s = some t) :
    t = { s with values := fun k => (loaded s k).getD [] } := by
  unfold load at h
  split at h
  · exact (Option.some.inj h).symm
  · cases h

/-- The operation may change what is kept under the key. -/
def Label.touches : Label → Key → Bool
  | .login _ _, k | .unauthorized, k | .signOut, k | .logout, k =>
    k = .accessToken || k = .refreshToken
  | .choose j _, k | .resetChoice j, k => j = k
  | .refreshed _ _, _ | .refreshFailed, _ | .reload, _ | .wait _, _ => false

/-- From one state to another the cookie of a key has been let alone. -/
structure Untouched (k : Key) (s t : State) : Prop where
  named : Named t.jar
  later : s.now ≤ t.now
  cookie : ∀ later, t.now ≤ later → cookieAt t k later = cookieAt s k later

theorem Untouched.refl {s : State} (h : Named s.jar) (k : Key) : Untouched k s s :=
  ⟨h, le_rfl, fun _ _ => rfl⟩

theorem Untouched.trans {k : Key} {s t u : State} (h : Untouched k s t) (h' : Untouched k t u) :
    Untouched k s u := by
  refine ⟨h'.named, h.later.trans h'.later, fun later hle => ?_⟩
  rw [h'.cookie later hle, h.cookie later (h'.later.trans hle)]

theorem untouched_set {s : State} (h : Named s.jar) {j k : Key} (hother : k ≠ j) (value : Text) :
    Untouched k s (set j value s) :=
  ⟨named_set h j value, le_rfl, fun _ hle => cookieAt_set_other h hother value hle⟩

theorem untouched_remove {s : State} (h : Named s.jar) {j k : Key} (hother : k ≠ j) :
    Untouched k s (remove j s) :=
  ⟨named_remove h j, le_rfl, fun _ hle => cookieAt_remove_other h hother hle⟩

theorem untouched_reset {s : State} (h : Named s.jar) {k : Key} (haccess : k ≠ .accessToken)
    (hrefresh : k ≠ .refreshToken) : Untouched k s (reset s) :=
  (untouched_remove h haccess).trans (untouched_remove (named_remove h _) hrefresh)

/-- Steps that are not about a key let its cookie alone. -/
theorem step_untouched {s t : State} {l : Label} {k : Key} (h : Named s.jar)
    (hstep : step s l = some t) (hl : l.touches k = false) : Untouched k s t := by
  cases l with
  | login accessToken refreshToken =>
    simp only [Label.touches, Bool.or_eq_false_iff, decide_eq_false_iff_not] at hl
    simp only [step] at hstep
    split at hstep
    · obtain rfl := Option.some.inj hstep
      have hfirst : Untouched k s
          (set .accessToken accessToken (setTokens accessToken refreshToken s)) :=
        ⟨named_set h _ _, le_rfl, fun _ hle => cookieAt_set_other h hl.1 accessToken hle⟩
      exact hfirst.trans (untouched_set hfirst.named hl.2 refreshToken)
    · obtain rfl := Option.some.inj hstep
      exact .refl h k
  | refreshed accessToken refreshToken =>
    obtain ⟨-, rfl⟩ := guarded hstep
    exact ⟨h, le_rfl, fun _ _ => rfl⟩
  | refreshFailed =>
    obtain rfl := load_eq_some hstep
    exact ⟨h, le_rfl, fun _ _ => rfl⟩
  | unauthorized =>
    simp only [Label.touches, Bool.or_eq_false_iff, decide_eq_false_iff_not] at hl
    obtain rfl := Option.some.inj hstep
    exact untouched_reset h hl.1 hl.2
  | signOut =>
    simp only [Label.touches, Bool.or_eq_false_iff, decide_eq_false_iff_not] at hl
    obtain rfl := Option.some.inj hstep
    exact untouched_reset h hl.1 hl.2
  | logout =>
    simp only [Label.touches, Bool.or_eq_false_iff, decide_eq_false_iff_not] at hl
    obtain rfl := Option.some.inj hstep
    have hcleared : Untouched k s (clearTokens s) := ⟨h, le_rfl, fun _ _ => rfl⟩
    exact hcleared.trans (untouched_reset hcleared.named hl.1 hl.2)
  | choose j value =>
    obtain ⟨-, rfl⟩ := guarded hstep
    exact untouched_set h (Ne.symm (of_decide_eq_false hl)) value
  | resetChoice j =>
    have hother : k ≠ j := Ne.symm (of_decide_eq_false hl)
    cases j with
    | theme | font | dir =>
      obtain rfl := Option.some.inj hstep
      exact untouched_remove h hother
    | collapsible | variant =>
      obtain rfl := Option.some.inj hstep
      exact untouched_set h hother _
    | accessToken | refreshToken | sidebar => cases hstep
  | reload =>
    obtain rfl := load_eq_some hstep
    exact ⟨h, le_rfl, fun _ _ => rfl⟩
  | wait seconds =>
    obtain rfl := Option.some.inj hstep
    refine ⟨h, ?_, fun _ _ => rfl⟩
    simp only
    omega

theorem run_untouched {s t : State} {tr : List Label} {k : Key} (h : Named s.jar)
    (hrun : run step s tr = some t) (htr : ∀ l ∈ tr, l.touches k = false) : Untouched k s t := by
  refine run_keeps (Untouched k s) (fun l => l.touches k = false) ?_ (.refl h k) htr hrun
  intro u l v hu hl hstep
  exact hu.trans (step_untouched hu.named hstep hl)

/-- The value that an operation sets a key to. -/
def Label.sets : Label → Key → Option Text
  | .login accessToken refreshToken, k =>
    if accessToken ≠ [] ∧ refreshToken ≠ [] then
      match k with
      | .accessToken => some accessToken
      | .refreshToken => some refreshToken
      | _ => none
    else none
  | .choose j value, k => if j = k then some value else none
  | .resetChoice j, k =>
    if j = k ∧ (k = .collapsible ∨ k = .variant) then some (default k) else none
  | _, _ => none

/-- In a state the value of a key has just been put into its cookie. -/
structure Printed (k : Key) (value : Text) (now : Int) (t : State) : Prop where
  named : Named t.jar
  time : t.now = now
  cookie : ∀ later, now ≤ later → cookieAt t k later =
    if later < now + (setting k).maxAge then some ((setting k).print value) else none

theorem printed_set {s : State} (h : Named s.jar) {k : Key} {value : Text}
    (hvalue : Storable (setting k).name ((setting k).print value)) :
    Printed k value s.now (set k value s) :=
  ⟨named_set h k value, rfl, fun _ hle => cookieAt_set h hvalue hle⟩

theorem step_sets {s t : State} {l : Label} {k : Key} {value : Text} (h : Named s.jar)
    (hvalue : Storable (setting k).name ((setting k).print value)) (hl : l.sets k = some value)
    (hstep : step s l = some t) : Printed k value s.now t := by
  cases l with
  | login accessToken refreshToken =>
    obtain ⟨htokens, hk⟩ := Option.ite_none_right_eq_some.mp hl
    simp only [step, if_pos htokens] at hstep
    obtain rfl := Option.some.inj hstep
    cases k with
    | accessToken =>
      obtain rfl := Option.some.inj hk
      have hfirst : Printed .accessToken accessToken s.now
          (set .accessToken accessToken (setTokens accessToken refreshToken s)) :=
        printed_set (s := setTokens accessToken refreshToken s) h hvalue
      refine ⟨named_set hfirst.named _ _, rfl, fun later hle => ?_⟩
      rw [cookieAt_set_other hfirst.named (by decide) refreshToken hle, hfirst.cookie later hle]
    | refreshToken =>
      obtain rfl := Option.some.inj hk
      exact printed_set (s := set .accessToken accessToken (setTokens accessToken refreshToken s))
        (named_set (s := setTokens accessToken refreshToken s) h _ _) hvalue
    | theme | font | dir | collapsible | variant | sidebar => cases hk
  | choose j chosen =>
    obtain ⟨rfl, hchosen⟩ := Option.ite_none_right_eq_some.mp hl
    obtain rfl := Option.some.inj hchosen
    obtain ⟨-, rfl⟩ := guarded hstep
    exact printed_set h hvalue
  | resetChoice j =>
    obtain ⟨⟨rfl, hlayout⟩, hdefault⟩ := Option.ite_none_right_eq_some.mp hl
    obtain rfl := Option.some.inj hdefault
    rcases hlayout with rfl | rfl
    · obtain rfl := Option.some.inj hstep
      exact printed_set h hvalue
    · obtain rfl := Option.some.inj hstep
      exact printed_set h hvalue
  | refreshed _ _ | refreshFailed | unauthorized | signOut | logout | reload | wait _ => cases hl

theorem load_set {l : Label} {k : Key} {value : Text} {s t : State} (hl : l.sets k = some value)
    (hstep : step s l = some t) :
    (setting k).load (some ((setting k).print value)) = some value := by
  cases l with
  | login accessToken refreshToken =>
    obtain ⟨-, hk⟩ := Option.ite_none_right_eq_some.mp hl
    cases k with
    | accessToken | refreshToken => exact loadToken_stringify value
    | theme | font | dir | collapsible | variant | sidebar => cases hk
  | choose j chosen =>
    obtain ⟨rfl, hchosen⟩ := Option.ite_none_right_eq_some.mp hl
    obtain rfl := Option.some.inj hchosen
    exact load_choice (guarded hstep).1
  | resetChoice j =>
    obtain ⟨⟨rfl, hlayout⟩, hdefault⟩ := Option.ite_none_right_eq_some.mp hl
    obtain rfl := Option.some.inj hdefault
    rcases hlayout with rfl | rfl <;> decide
  | refreshed _ _ | refreshFailed | unauthorized | signOut | logout | reload | wait _ => cases hl

/-- After a value that its cookie takes has been set, and any steps that are not about its key,
page loads among them, the next page load takes the value again until the cookie expires, and
from then on the default. -/
theorem loaded_after_set {s t u : State} {l : Label} {tr : List Label} {k : Key} {value : Text}
    (hnamed : Named s.jar) (hl : l.sets k = some value)
    (hvalue : Storable (setting k).name ((setting k).print value)) (hstep : step s l = some t)
    (hrun : run step t tr = some u) (htr : ∀ l ∈ tr, l.touches k = false) :
    loaded u k = some (if u.now < s.now + (setting k).maxAge then value else default k) := by
  have hprinted := step_sets hnamed hvalue hl hstep
  have huntouched := run_untouched hprinted.named hrun htr
  have hle : s.now ≤ u.now := hprinted.time ▸ huntouched.later
  have hcookie : cookieAt u k u.now =
      if u.now < s.now + (setting k).maxAge then some ((setting k).print value) else none := by
    rw [huntouched.cookie u.now le_rfl, hprinted.cookie u.now hle]
  rw [loaded, show getCookie (setting k).name (u.jar.read u.now) = cookieAt u k u.now from rfl,
    hcookie]
  split
  · exact load_set hl hstep
  · exact loaded_without_cookie k

/-- A theme that has been chosen is taken again a day later, after a sign-out. -/
theorem theme_kept : ∃ t u, step ⟨0, .empty, default, none, none⟩
      (.choose .theme "dark".toList) = some t ∧
    run step t [.signOut, .wait 86400] = some u ∧ loaded u .theme = some "dark".toList :=
  ⟨_, _, rfl, rfl, loaded_after_set (l := .choose .theme "dark".toList)
    (s := ⟨0, .empty, default, none, none⟩) (by simp [Named, Jar.empty]) rfl
    (storable_choice (by decide)) rfl rfl
    (show ∀ l ∈ [Label.signOut, .wait 86400], l.touches .theme = false by decide)⟩

/-! ## Page loads -/

/-- A page load at any later moment will find values that it can take. -/
structure Startable (s : State) : Prop where
  named : Named s.jar
  token : ∀ k, ∀ later, s.now ≤ later → ((setting k).load (cookieAt s k later)).isSome

/-- No token has a semicolon. -/
def Label.Plain : Label → Prop
  | .login accessToken refreshToken => ';' ∉ accessToken ∧ ';' ∉ refreshToken
  | _ => True

theorem startable_now {s : State} (h : Startable s) : (load s).isSome := by
  have hall : ∀ k ∈ Key.all, (loaded s k).isSome := fun k _ => h.token k s.now le_rfl
  rw [load, if_pos hall]
  rfl

theorem startable_of_eq {s t : State} (h : Startable s) (hjar : t.jar = s.jar)
    (hnow : s.now ≤ t.now) : Startable t := by
  refine ⟨hjar ▸ h.named, fun k later hle => ?_⟩
  rw [cookieAt, hjar]
  exact h.token k later (hnow.trans hle)

theorem startable_set {s : State} (h : Startable s) {j : Key} {value : Text}
    (hvalue : (setting j).load (some ((setting j).print value)) = some value)
    (hstored : Storable (setting j).name ((setting j).print value)) :
    Startable (set j value s) := by
  refine ⟨named_set h.named j value, fun k later hle => ?_⟩
  by_cases hk : k = j
  · subst hk
    rw [cookieAt_set h.named hstored hle]
    split
    · rw [hvalue]
      rfl
    · rw [loaded_without_cookie]
      rfl
  · rw [cookieAt_set_other h.named hk value hle]
    exact h.token k later hle

theorem startable_remove {s : State} (h : Startable s) (j : Key) : Startable (remove j s) := by
  refine ⟨named_remove h.named j, fun k later hle => ?_⟩
  by_cases hk : k = j
  · subst hk
    rw [cookieAt_remove h.named k hle, loaded_without_cookie]
    rfl
  · rw [cookieAt_remove_other h.named hk hle]
    exact h.token k later hle

/-- A token without semicolons is stored as it is or not at all. -/
theorem startable_token {s : State} (h : Startable s) {j : Key} (hprint : (setting j).print =
    JsonStrings.stringify) (hload : (setting j).load = loadToken) {token : Text}
    (hplain : ';' ∉ token) : Startable (set j token s) := by
  by_cases hstored : Storable (setting j).name ((setting j).print token)
  · refine startable_set h ?_ hstored
    rw [hprint, hload]
    exact loadToken_stringify token
  · refine startable_of_eq h ?_ le_rfl
    have hsemicolon : ';' ∉ JsonStrings.stringify token := by
      rwa [JsonStrings.mem_stringify_iff (by decide) (by decide)]
    refine setCookie_unstorable (name_proper j) ?_ ?_ hstored _ _ _
    · rw [hprint]
      exact hsemicolon
    · rw [hprint]
      exact trim_stringify token

theorem startable_load {s t : State} (h : Startable s) (hload : load s = some t) :
    Startable t := by
  obtain rfl := load_eq_some hload
  exact startable_of_eq h rfl le_rfl

theorem step_startable {s t : State} {l : Label} (h : Startable s) (hl : l.Plain)
    (hstep : step s l = some t) : Startable t := by
  have hreset : ∀ {u : State}, Startable u → Startable (reset u) :=
    fun hu => startable_remove (startable_remove hu _) _
  cases l with
  | login accessToken refreshToken =>
    simp only [step] at hstep
    split at hstep
    · obtain rfl := Option.some.inj hstep
      have htokens : Startable (setTokens accessToken refreshToken s) :=
        startable_of_eq h rfl le_rfl
      exact startable_token (startable_token htokens rfl rfl hl.1) rfl rfl hl.2
    · obtain rfl := Option.some.inj hstep
      exact h
  | refreshed accessToken refreshToken =>
    obtain ⟨-, rfl⟩ := guarded hstep
    exact startable_of_eq h rfl le_rfl
  | refreshFailed =>
    exact startable_load (s := clearTokens s) (startable_of_eq h rfl le_rfl) hstep
  | unauthorized | signOut =>
    obtain rfl := Option.some.inj hstep
    exact hreset h
  | logout =>
    obtain rfl := Option.some.inj hstep
    exact hreset (startable_of_eq h rfl le_rfl)
  | choose j value =>
    obtain ⟨hchosen, rfl⟩ := guarded hstep
    exact startable_set h (load_choice hchosen) (storable_choice hchosen)
  | resetChoice j =>
    cases j with
    | theme | font | dir =>
      obtain rfl := Option.some.inj hstep
      exact startable_remove h _
    | collapsible | variant =>
      obtain rfl := Option.some.inj hstep
      exact startable_set h (load_choice (by decide)) (storable_choice (by decide))
    | accessToken | refreshToken | sidebar => cases hstep
  | reload => exact startable_load h hstep
  | wait seconds =>
    obtain rfl := Option.some.inj hstep
    refine startable_of_eq h rfl ?_
    simp only
    omega

/-- A browser that the application has not been opened in. -/
def first (now : Int) : State := ⟨now, .empty, default, none, none⟩

theorem startable_first (now : Int) : Startable (first now) := by
  refine ⟨by simp [Named, first, Jar.empty], fun k later _ => ?_⟩
  rw [cookieAt, getCookie_read (name_proper k) (by simp [Named, first, Jar.empty])]
  exact Option.isSome_of_eq_some (loaded_without_cookie k)

/-- The application never fails to start over what it has put into its cookies itself, as long
as no token has a semicolon. -/
theorem page_starts {now : Int} {tr : List Label} {s : State} (htr : ∀ l ∈ tr, l.Plain)
    (hrun : run step (first now) tr = some s) : (load s).isSome :=
  startable_now (run_keeps Startable Label.Plain (fun _ _ _ h hl hstep => step_startable h hl hstep)
    (startable_first now) htr hrun)

/-- After a login. -/
theorem page_starts_logged_in : ∃ s, run step (first 0) [.login ['t'] ['r'], .wait 60] = some s ∧
    (load s).isSome :=
  ⟨_, rfl, page_starts
    (show ∀ l ∈ [Label.login ['t'] ['r'], .wait 60], l.Plain by simp [Label.Plain]) rfl⟩

/-! ## Who is signed in -/

/-- The guard of the authenticated routes, and what authorizes requests. -/
def Admitted (s : State) : Prop := s.authToken ≠ none

/-- What the auth store says. -/
def SignedIn (s : State) : Prop := s.values .accessToken ≠ []

/-- The operation leaves the HTTP client and the auth store with a token or both without. -/
def InStep (s : State) : Label → Prop
  | .refreshed accessToken _ => accessToken ≠ []
  | .refreshFailed => loaded s .accessToken = some []
  | .unauthorized | .signOut => ¬ Admitted s
  | .reload => Admitted s ↔ loaded s .accessToken ≠ some []
  | .login _ _ | .logout | .choose _ _ | .resetChoice _ | .wait _ => True

theorem not_signedIn_reset (s : State) : ¬ SignedIn (reset s) := by
  simp [SignedIn, reset]

theorem signedIn_load {s t : State} (h : load s = some t) :
    SignedIn t ↔ loaded s .accessToken ≠ some [] := by
  have hsome : (loaded s .accessToken).isSome := by
    unfold load at h
    split at h
    · rename_i hall
      exact hall _ (Key.mem_all _)
    · cases h
  obtain ⟨value, hvalue⟩ := Option.isSome_iff_exists.mp hsome
  obtain rfl := load_eq_some h
  simp [SignedIn, hvalue]

/-- Settings have nothing to do with the session. -/
theorem choice_key {k : Key} {value : Text} (h : value ∈ choices k) : Key.accessToken ≠ k := by
  rintro rfl
  exact absurd h List.not_mem_nil

theorem agrees_iff {s t : State} {l : Label} (h : Admitted s ↔ SignedIn s)
    (hstep : step s l = some t) : (Admitted t ↔ SignedIn t) ↔ InStep s l := by
  cases l with
  | login accessToken refreshToken =>
    simp only [step] at hstep
    split at hstep
    · rename_i htokens
      obtain rfl := Option.some.inj hstep
      simp [Admitted, SignedIn, InStep, setTokens, item, htokens.1]
    · obtain rfl := Option.some.inj hstep
      simp [InStep, h]
  | refreshed accessToken refreshToken =>
    obtain ⟨hheld, rfl⟩ := guarded hstep
    have hsigned : SignedIn (setTokens accessToken refreshToken s) := h.mp hheld.1
    rw [iff_true_right hsigned]
    simp [Admitted, InStep, setTokens, item]
  | refreshFailed =>
    have hsigned := signedIn_load hstep
    obtain rfl := load_eq_some hstep
    have hcleared : loaded (clearTokens s) .accessToken = loaded s .accessToken := rfl
    rw [hsigned, hcleared]
    simp [Admitted, InStep, clearTokens]
  | unauthorized | signOut =>
    obtain rfl := Option.some.inj hstep
    simp only [not_signedIn_reset, iff_false, InStep]
    rfl
  | logout =>
    obtain rfl := Option.some.inj hstep
    simp only [not_signedIn_reset, iff_false, InStep, iff_true]
    simp [Admitted, reset, clearTokens]
  | choose j value =>
    obtain ⟨hchosen, rfl⟩ := guarded hstep
    have hsigned : SignedIn (set j value s) ↔ SignedIn s := by
      simp [SignedIn, Function.update_of_ne (choice_key hchosen)]
    rw [hsigned]
    simp only [InStep, iff_true]
    exact h
  | resetChoice j =>
    simp only [InStep, iff_true]
    cases j with
    | theme | font | dir | collapsible | variant =>
      obtain rfl := Option.some.inj hstep
      exact h
    | accessToken | refreshToken | sidebar => cases hstep
  | reload =>
    have hsigned := signedIn_load hstep
    obtain rfl := load_eq_some hstep
    rw [hsigned]
    rfl
  | wait seconds =>
    obtain rfl := Option.some.inj hstep
    simp only [InStep, iff_true]
    exact h

/-- Throughout a run the route guard and the auth store agree on whether there is a session
exactly if every operation leaves both of them with a token or both without. -/
theorem admission_agrees_iff (now : Int) (tr : List Label) :
    (∀ v ∈ visits step (first now) tr, Admitted v.2.2 ↔ SignedIn v.2.2) ↔
      ∀ v ∈ visits step (first now) tr, InStep v.1 v.2.1 := by
  refine visits_iff (fun s => Admitted s ↔ SignedIn s) (fun v => Admitted v.2.2 ↔ SignedIn v.2.2)
    InStep (fun s l t h hstep => agrees_iff h hstep)
    (fun s l t h hin hstep => (agrees_iff h hstep).mpr hin) ?_ tr
  simp [Admitted, SignedIn, first]

/-- The operations that write the tokens of the HTTP client. -/
def Label.writes : Label → Bool
  | .login _ _ | .refreshed _ _ | .refreshFailed | .logout => true
  | _ => false

/-- The auth store has no access token, nor will it take one from its cookie, and the HTTP
client has the token `held`. -/
structure SignedOut (held : Option Text) (s : State) : Prop where
  named : Named s.jar
  authToken : s.authToken = held
  value : s.values .accessToken = []
  cookie : ∀ later, s.now ≤ later → cookieAt s .accessToken later = none

theorem signedOut_reset {s : State} (h : Named s.jar) : SignedOut s.authToken (reset s) := by
  have hnamed := named_remove h .accessToken
  refine ⟨named_remove hnamed .refreshToken, rfl, by simp [reset], ?_⟩
  intro later hle
  rw [reset, cookieAt_remove_other hnamed (by decide) hle, cookieAt_remove h _ hle]

theorem SignedOut.loaded {held : Option Text} {s : State} (h : SignedOut held s) :
    loaded s .accessToken = some [] := by
  rw [AdminSession.loaded, show getCookie (setting .accessToken).name (s.jar.read s.now) =
    cookieAt s .accessToken s.now from rfl, h.cookie s.now le_rfl]
  rfl

theorem step_signedOut {held : Option Text} {s t : State} {l : Label} (h : SignedOut held s)
    (hl : l.writes = false) (hstep : step s l = some t) : SignedOut held t := by
  have hloaded := h.loaded
  cases l with
  | login _ _ | refreshed _ _ | refreshFailed | logout => cases hl
  | unauthorized | signOut =>
    obtain rfl := Option.some.inj hstep
    obtain rfl := h.authToken
    exact signedOut_reset h.named
  | choose j value =>
    obtain ⟨hchosen, rfl⟩ := guarded hstep
    have hother := choice_key hchosen
    refine ⟨named_set h.named j value, h.authToken, ?_, fun later hle => ?_⟩
    · exact (Function.update_of_ne hother _ _).trans h.value
    · rw [cookieAt_set_other h.named hother value hle, h.cookie later hle]
  | resetChoice j =>
    cases j with
    | theme | font | dir =>
      obtain rfl := Option.some.inj hstep
      refine ⟨named_remove h.named _, h.authToken, ?_, fun later hle => ?_⟩
      · exact h.value
      · rw [cookieAt_remove_other h.named (by decide) hle, h.cookie later hle]
    | collapsible | variant =>
      obtain rfl := Option.some.inj hstep
      refine ⟨named_set h.named _ _, h.authToken, ?_, fun later hle => ?_⟩
      · exact h.value
      · rw [cookieAt_set_other h.named (by decide) _ hle, h.cookie later hle]
    | accessToken | refreshToken | sidebar => cases hstep
  | reload =>
    obtain rfl := load_eq_some hstep
    exact ⟨h.named, h.authToken, by simp [hloaded], h.cookie⟩
  | wait seconds =>
    obtain rfl := Option.some.inj hstep
    refine ⟨h.named, h.authToken, h.value, fun later hle => h.cookie later ?_⟩
    simp only at hle
    omega

/-- Signing out in the dialog empties the auth store for good, and leaves the HTTP client with
the token of the session, whatever follows, until a login or the end of a refresh. -/
theorem signOut_keeps_authToken {s t : State} {tr : List Label} (hnamed : Named s.jar)
    (htr : ∀ l ∈ tr, l.writes = false) (hrun : run step s (.signOut :: tr) = some t) :
    ¬ SignedIn t ∧ t.authToken = s.authToken := by
  rw [run_cons] at hrun
  have hend : SignedOut s.authToken t :=
    run_keeps (SignedOut s.authToken) (fun l => l.writes = false)
      (fun _ _ _ h hl hstep => step_signedOut h hl hstep) (signedOut_reset hnamed) htr hrun
  exact ⟨fun h => h hend.value, hend.authToken⟩

/-- The session is still there for the HTTP client a minute after a sign-out. -/
theorem signed_out_admitted : ∃ t, run step ⟨0, .empty, default, some ['t'], some ['r']⟩
      [.signOut, .wait 60] = some t ∧ ¬ SignedIn t ∧ t.authToken = some ['t'] :=
  ⟨_, rfl, signOut_keeps_authToken (s := ⟨0, .empty, default, some ['t'], some ['r']⟩)
    (by simp [Named, Jar.empty])
    (show ∀ l ∈ [Label.wait 60], l.writes = false by simp [Label.writes]) rfl⟩

end AdminSession
