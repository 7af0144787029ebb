import ShoppingProject.Runs
import ShoppingProject.Slots

/-!
# Sessions of the mobile application

The auth slice of the mobile application and the thunks that dispatch its actions. A
thunk in flight takes one turn after each `await`, in any order with the others; a
biometric login dispatches a login of its own and waits for it. The thunk's promise
never rejects, so that the biometric login is fulfilled however the login has ended.
-/
namespace MobileSession

open Runs

structure User where
  id : String
  email : String
  username : String
  firstName : Option String
  lastName : Option String
  gender : Option String
  deriving DecidableEq

/-- The data of an answer; a field that is missing is `undefined`. -/
structure AuthResponse where
  accessToken : Option String
  refreshToken : Option String
  deriving DecidableEq

structure LoginRequest where
  email : String
  password : String
  deriving DecidableEq

/-- `undefined` and `null` are not told apart. -/
structure AuthState where
  user : Option User
  token : Option String
  isAuthenticated : Bool
  loading : Bool
  error : Option String
  deriving DecidableEq

def initialState : AuthState := ⟨none, none, false, false, none⟩

inductive Action where
  | loginPending : Action
  | loginFulfilled (payload : AuthResponse) : Action
  | loginRejected (payload : String) : Action
  | biometricLoginPending : Action
  | biometricLoginFulfilled (email : String) : Action
  | biometricLoginRejected (payload : String) : Action
  | logoutPending : Action
  | logoutFulfilled : Action
  | logoutRejected : Action
  | fetchUserProfilePending : Action
  | fetchUserProfileFulfilled (payload : Option User) : Action
  | fetchUserProfileRejected (payload : String) : Action
  | setToken (payload : String) : Action
  deriving DecidableEq

def reducer (state : AuthState) : Action → AuthState
  | .setToken payload =>
    { state with token := some payload, isAuthenticated := decide (payload ≠ "") }
  | .loginPending | .biometricLoginPending => { state with loading := true, error := none }
  | .loginFulfilled payload =>
    { state with loading := false, token := payload.accessToken, isAuthenticated := true }
  | .loginRejected payload | .biometricLoginRejected payload | .fetchUserProfileRejected payload =>
    { state with loading := false, error := some payload }
  | .biometricLoginFulfilled _ => { state with loading := false, isAuthenticated := true }
  | .logoutFulfilled => { state with user := none, token := none, isAuthenticated := false }
  | .fetchUserProfilePending => { state with loading := true }
  | .fetchUserProfileFulfilled payload => { state with loading := false, user := payload }
  | .logoutPending | .logoutRejected => state

/-- `AsyncStorage` and the secure store, which have no key in common. -/
abbrev Storage := String → Option String

def setItem (key : String) (value : Option String) (storage : Storage) : Storage :=
  fun k => if k = key then value else storage k

/-- A string that is neither absent nor empty. -/
def truthy (text : Option String) : Option String := text.filter (· ≠ "")

/-- An error that was thrown: the message in its answer, if there was one, and its own. -/
structure Failure where
  data : Option (Option String)
  message : Option String

def Failure.text (e : Failure) : String :=
  let own := (truthy e.message).getD "Login failed"
  match e.data with
  | some message => (truthy message).getD own
  | none => own

/-- What `/identity/login` answers; an answer without data has the message of the error
that is thrown when it is taken apart. -/
inductive LoginReply where
  | failed (e : Failure) : LoginReply
  | answered (isSuccess : Bool) (message : Option String) (data : Except String AuthResponse) :
    LoginReply

/-- What a login stores, in this order. -/
def entries (credentials : LoginRequest) (data : AuthResponse) : List (String × Option String) :=
  [("token", data.accessToken), ("refreshToken", data.refreshToken),
    ("user_email", some credentials.email), ("user_password", some credentials.password)]

/-- What a logout removes, in this order. -/
def removedKeys : List String := ["token", "refreshToken", "user_email", "user_password"]

/-- A thunk at one of its awaits; `parent` is the biometric login that waits for it. -/
inductive Thunk where
  | login (credentials : LoginRequest) (parent : Option Nat) : Thunk
  | storing (writes : List (String × Option String)) (data : AuthResponse) (parent : Option Nat) :
    Thunk
  | readingEmail : Thunk
  | readingPassword (email : Option String) : Thunk
  | awaiting (email : String) : Thunk
  | resumed (email : String) : Thunk
  | removing (keys : List String) : Thunk
  | fetching : Thunk

structure State where
  auth : AuthState
  storage : Storage
  thunks : Slots Thunk
  /-- The actions dispatched so far. -/
  actions : List Action

def start (storage : Storage) : State := ⟨initialState, storage, Slots.idle, []⟩

def dispatch (a : Action) (s : State) : State :=
  { s with auth := reducer s.auth a, actions := s.actions ++ [a] }

def wake (parent : Option Nat) (thunks : Slots Thunk) : Slots Thunk :=
  match parent with
  | none => thunks
  | some k => match thunks k with
    | some (.awaiting email) => thunks.put k (some (.resumed email))
    | _ => thunks

/-- A login ends with its last action; the promise that was awaited is resolved. -/
def settleLogin (i : Nat) (parent : Option Nat) (a : Action) (s : State) : State :=
  dispatch a { s with thunks := wake parent (s.thunks.put i none) }

/-- Any other thunk ends with its last action. -/
def settle (i : Nat) (a : Action) (s : State) : State :=
  dispatch a { s with thunks := s.thunks.put i none }

/-- `getItem` of the secure store answers `null` if it fails. -/
def getItem (readable : Bool) (key : String) (storage : Storage) : Option String :=
  if readable then storage key else none

inductive Label where
  | login (i : Nat) (credentials : LoginRequest) : Label
  | answered (i : Nat) (reply : LoginReply) : Label
  /-- The next entry of a login is stored, or storing it fails. -/
  | stored (i : Nat) (failure : Option Failure) : Label
  | biometricLogin (i : Nat) : Label
  | readEmail (i : Nat) (readable : Bool) : Label
  | readPassword (i : Nat) (readable : Bool) (nested : Nat) : Label
  | resume (i : Nat) : Label
  | logout (i : Nat) : Label
  | removed (i : Nat) (succeeded : Bool) : Label
  | fetchUserProfile (i : Nat) : Label
  /-- The message of the answer, or its data. -/
  | profile (i : Nat) (reply : Except (Option String) (Option User)) : Label
  | setToken (payload : String) : Label

/-- A thunk is dispatched; its number is free. -/
def begin (i : Nat) (thunk : Thunk) (a : Action) (s : State) : Option State :=
  match s.thunks i with
  | some _ => none
  | none => some (dispatch a { s with thunks := s.thunks.put i (some thunk) })

def step (s : State) : Label → Option State
  | .login i credentials => begin i (.login credentials none) .loginPending s
  | .answered i reply => match s.thunks i with
    | some (.login credentials parent) => match reply with
      | .failed e => some (settleLogin i parent (.loginRejected e.text) s)
      | .answered false message _ =>
        some (settleLogin i parent (.loginRejected ((truthy message).getD "Login failed")) s)
      | .answered true _ (.error message) =>
        some (settleLogin i parent (.loginRejected (Failure.text ⟨none, some message⟩)) s)
      | .answered true _ (.ok data) => some
        { s with thunks := s.thunks.put i (some (.storing (entries credentials data) data parent)) }
    | _ => none
  | .stored i failure => match s.thunks i with
    | some (.storing ((key, value) :: writes) data parent) => match failure with
      | some e => some (settleLogin i parent (.loginRejected e.text) s)
      | none =>
        let s := { s with storage := setItem key value s.storage }
        if writes.isEmpty then some (settleLogin i parent (.loginFulfilled data) s)
        else some { s with thunks := s.thunks.put i (some (.storing writes data parent)) }
    | _ => none
  | .biometricLogin i => begin i .readingEmail .biometricLoginPending s
  | .readEmail i readable => match s.thunks i with
    | some .readingEmail =>
      let email := getItem readable "user_email" s.storage
      some { s with thunks := s.thunks.put i (some (.readingPassword email)) }
    | _ => none
  | .readPassword i readable nested => match s.thunks i with
    | some (.readingPassword email) =>
      match truthy email, truthy (getItem readable "user_password" s.storage) with
      | some email, some password => begin nested (.login ⟨email, password⟩ (some i)) .loginPending
          { s with thunks := s.thunks.put i (some (.awaiting email)) }
      | _, _ => some
        (settle i (.biometricLoginRejected "No credentials stored for biometric login") s)
    | _ => none
  | .resume i => match s.thunks i with
    | some (.resumed email) => some (settle i (.biometricLoginFulfilled email) s)
    | _ => none
  | .logout i => begin i (.removing removedKeys) .logoutPending s
  | .removed i succeeded => match s.thunks i with
    | some (.removing (key :: keys)) =>
      if succeeded then
        let s := { s with storage := setItem key none s.storage }
        if keys.isEmpty then some (settle i .logoutFulfilled s)
        else some { s with thunks := s.thunks.put i (some (.removing keys)) }
      else some (settle i .logoutRejected s)
    | _ => none
  | .fetchUserProfile i => begin i .fetching .fetchUserProfilePending s
  | .profile i reply => match s.thunks i with
    | some .fetching => match reply with
      | .ok user => some (settle i (.fetchUserProfileFulfilled user) s)
      | .error message => some
        (settle i (.fetchUserProfileRejected ((truthy message).getD "Failed to fetch profile")) s)
    | _ => none
  | .setToken payload => some (dispatch (.setToken payload) s)

/-- What an action says about the session: a token, the end of it, or nothing. -/
def Action.session : Action → Option (Option String)
  | .loginFulfilled payload => some payload.accessToken
  | .setToken payload => some (some payload)
  | .logoutFulfilled => some none
  | _ => none

/-- The token of the most recent fulfilled login or `setToken`, unless a logout has been
fulfilled since. -/
def session (actions : List Action) : Option String :=
  (actions.reverse.findSome? Action.session).getD none

/-- Who counts as authenticated has a session. -/
def Sound (s : State) : Prop :=
  s.auth.isAuthenticated = true →
    ∃ token, s.auth.token = some token ∧ token ≠ "" ∧ session s.actions = some token

/-- The login that stores its last entry was answered with a token, and a biometric
login ends while the slice holds one. -/
def InStep (s : State) : Label → Prop
  | .stored i none => ∀ entry data parent, s.thunks i = some (.storing [entry] data parent) →
    truthy data.accessToken ≠ none
  | .resume _ => truthy s.auth.token ≠ none
  | _ => True

theorem session_snoc (actions : List Action) (a : Action) :
    session (actions ++ [a]) = a.session.getD (session actions) := by
  rw [session, List.reverse_append, List.reverse_singleton, List.singleton_append,
    List.findSome?_cons]
  cases a.session <;> rfl

theorem truthy_ne_none_iff {text : Option String} :
    truthy text ≠ none ↔ ∃ value, text = some value ∧ value ≠ "" := by
  cases text with
  | none => simp [truthy]
  | some value => simp [truthy, Option.filter]

/-- The token of the slice is that of the session, whoever counts as authenticated. -/
structure Tracked (s : State) : Prop where
  token : s.auth.token = session s.actions
  sound : Sound s

/-- The actions after which there is a session for whoever counts as authenticated. -/
def Allowed (auth : AuthState) : Action → Prop
  | .loginFulfilled payload => truthy payload.accessToken ≠ none
  | .biometricLoginFulfilled _ => truthy auth.token ≠ none
  | _ => True

theorem start_tracked (storage : Storage) : Tracked (start storage) :=
  ⟨rfl, fun h => absurd h (by simp [start, initialState])⟩

/-- Every action keeps the token that of the session. -/
theorem reducer_token {auth : AuthState} {actions : List Action} (h : auth.token = session actions)
    (a : Action) : (reducer auth a).token = session (actions ++ [a]) := by
  rw [session_snoc]
  cases a <;> first | exact h | rfl

theorem sound_iff {s : State} (h : s.auth.token = session s.actions) :
    Sound s ↔ (s.auth.isAuthenticated = true → truthy s.auth.token ≠ none) := by
  rw [Sound, ← h, truthy_ne_none_iff]
  refine imp_congr_right fun _ => ⟨?_, ?_⟩
  · rintro ⟨token, htoken, hne, -⟩
    exact ⟨token, htoken, hne⟩
  · rintro ⟨token, htoken, hne⟩
    exact ⟨token, htoken, hne, htoken⟩

/-- Two actions can take the session from whoever counts as authenticated. -/
theorem dispatched_sound_iff {s t : State} (h : Tracked s) {a : Action}
    (hauth : t.auth = reducer s.auth a) (hactions : t.actions = s.actions ++ [a]) :
    Sound t ↔ Allowed s.auth a := by
  have htoken : t.auth.token = session t.actions := by
    rw [hauth, hactions]
    exact reducer_token h.token a
  have hbefore := (sound_iff h.token).mp h.sound
  rw [sound_iff htoken, hauth]
  cases a with
  | loginFulfilled payload => simp [reducer, Allowed]
  | biometricLoginFulfilled email => simp [reducer, Allowed]
  | setToken payload =>
    simp only [reducer, Allowed, decide_eq_true_eq, iff_true]
    intro hne
    exact truthy_ne_none_iff.mpr ⟨payload, rfl, hne⟩
  | logoutFulfilled => simp [reducer, Allowed]
  | loginPending | loginRejected | biometricLoginPending | biometricLoginRejected | logoutPending
  | logoutRejected | fetchUserProfilePending | fetchUserProfileFulfilled
  | fetchUserProfileRejected => exact iff_of_true hbefore trivial

/-- What a step can do to the slice: nothing, or one action. -/
def Effect (s : State) (l : Label) (t : State) : Prop :=
  (t.auth = s.auth ∧ t.actions = s.actions ∧ InStep s l) ∨
    ∃ a, t.auth = reducer s.auth a ∧ t.actions = s.actions ++ [a] ∧
      (InStep s l ↔ Allowed s.auth a)

theorem begin_effect {s t : State} {i : Nat} {thunk : Thunk} {a : Action}
    (h : begin i thunk a s = some t) :
    t.auth = reducer s.auth a ∧ t.actions = s.actions ++ [a] := by
  simp only [begin] at h
  split at h
  · cases h
  · cases h
    exact ⟨rfl, rfl⟩

/-- The login is fulfilled when the last entry has been stored. -/
theorem stored_effect {s t : State} {i : Nat} {failure : Option Failure}
    (h : step s (.stored i failure) = some t) : Effect s (.stored i failure) t := by
  simp only [step] at h
  split at h
  · rename_i key value writes data parent hthunk
    cases failure with
    | some e =>
      cases h
      exact .inr ⟨_, rfl, rfl, Iff.rfl⟩
    | none =>
      cases writes with
      | nil =>
        cases h
        refine .inr ⟨_, rfl, rfl, ?_, ?_⟩
        · intro hin
          exact hin _ data parent hthunk
        · intro hallowed entry data' parent' hthunk'
          rw [hthunk, Option.some.injEq, Thunk.storing.injEq] at hthunk'
          rw [← hthunk'.2.1]
          exact hallowed
      | cons entry writes =>
        cases h
        refine .inl ⟨rfl, rfl, fun entry' data' parent' hthunk' => ?_⟩
        rw [hthunk] at hthunk'
        cases hthunk'
  · cases h

theorem step_effect {s t : State} {l : Label} (h : step s l = some t) : Effect s l t := by
  cases l with
  | login i credentials =>
    obtain ⟨hauth, hactions⟩ := begin_effect h
    exact .inr ⟨_, hauth, hactions, Iff.rfl⟩
  | answered i reply =>
    simp only [step] at h
    split at h
    · split at h
      · cases h
        exact .inr ⟨_, rfl, rfl, Iff.rfl⟩
      · cases h
        exact .inr ⟨_, rfl, rfl, Iff.rfl⟩
      · cases h
        exact .inr ⟨_, rfl, rfl, Iff.rfl⟩
      · cases h
        exact .inl ⟨rfl, rfl, trivial⟩
    · cases h
  | stored i failure => exact stored_effect h
  | biometricLogin i =>
    obtain ⟨hauth, hactions⟩ := begin_effect h
    exact .inr ⟨_, hauth, hactions, Iff.rfl⟩
  | readEmail i readable =>
    simp only [step] at h
    split at h
    · cases h
      exact .inl ⟨rfl, rfl, trivial⟩
    · cases h
  | readPassword i readable nested =>
    simp only [step] at h
    split at h
    · split at h
      · obtain ⟨hauth, hactions⟩ := begin_effect h
        exact .inr ⟨_, hauth, hactions, Iff.rfl⟩
      · cases h
        exact .inr ⟨_, rfl, rfl, Iff.rfl⟩
    · cases h
  | resume i =>
    simp only [step] at h
    split at h
    · cases h
      exact .inr ⟨_, rfl, rfl, Iff.rfl⟩
    · cases h
  | logout i =>
    obtain ⟨hauth, hactions⟩ := begin_effect h
    exact .inr ⟨_, hauth, hactions, Iff.rfl⟩
  | removed i succeeded =>
    simp only [step] at h
    split at h
    · split at h
      · split at h
        · cases h
          exact .inr ⟨_, rfl, rfl, Iff.rfl⟩
        · cases h
          exact .inl ⟨rfl, rfl, trivial⟩
      · cases h
        exact .inr ⟨_, rfl, rfl, Iff.rfl⟩
    · cases h
  | fetchUserProfile i =>
    obtain ⟨hauth, hactions⟩ := begin_effect h
    exact .inr ⟨_, hauth, hactions, Iff.rfl⟩
  | profile i reply =>
    simp only [step] at h
    split at h
    · split at h
      · cases h
        exact .inr ⟨_, rfl, rfl, Iff.rfl⟩
      · cases h
        exact .inr ⟨_, rfl, rfl, Iff.rfl⟩
    · cases h
  | setToken payload =>
    cases h
    exact .inr ⟨_, rfl, rfl, Iff.rfl⟩

theorem step_sound_iff {s t : State} {l : Label} (h : Tracked s) (hstep : step s l = some t) :
    Sound t ↔ InStep s l := by
  rcases step_effect hstep with ⟨hauth, hactions, hin⟩ | ⟨a, hauth, hactions, hin⟩
  · refine iff_of_true ?_ hin
    rw [Sound, hauth, hactions]
    exact h.sound
  · rw [hin]
    exact dispatched_sound_iff h hauth hactions

theorem step_tracked {s t : State} {l : Label} (h : Tracked s) (hin : InStep s l)
    (hstep : step s l = some t) : Tracked t := by
  refine ⟨?_, (step_sound_iff h hstep).mpr hin⟩
  rcases step_effect hstep with ⟨hauth, hactions, -⟩ | ⟨a, hauth, hactions, -⟩
  · rw [hauth, hactions]
    exact h.token
  · rw [hauth, hactions]
    exact reducer_token h.token a

/-- Along a run whoever counts as authenticated has a session exactly if all its steps
meet their conditions. -/
theorem sound_throughout_iff (storage : Storage) (tr : List Label) :
    (∀ v ∈ visits step (start storage) tr, Sound v.2.2) ↔
      ∀ v ∈ visits step (start storage) tr, InStep v.1 v.2.1 :=
  visits_iff Tracked (fun v => Sound v.2.2) InStep (fun _ _ _ h hstep => step_sound_iff h hstep)
    (fun _ _ _ h hin hstep => step_tracked h hin hstep) (start_tracked storage) tr

/-- What an earlier session has left in the storage. -/
def leftBehind : Storage :=
  setItem "user_email" (some "ada@example.org") (setItem "user_password" (some "Secret1!")
    fun _ => none)

/-- A biometric login while the server cannot be reached. -/
def unreachable : List Label :=
  [.biometricLogin 0, .readEmail 0 true, .readPassword 0 true 1,
    .answered 1 (.failed ⟨none, some "Network Error"⟩), .resume 0]

theorem authenticated_without_session : ¬ ∀ (storage : Storage) (tr : List Label) (s : State),
    run step (start storage) tr = some s → Sound s := by
  intro hall
  have hsound := hall leftBehind unreachable _ rfl
  obtain ⟨token, htoken, -⟩ := hsound rfl
  cases htoken

end MobileSession
