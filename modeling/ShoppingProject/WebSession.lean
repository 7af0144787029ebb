import ShoppingProject.Runs

/-!
# Who the web client thinks is logged in

The auth slice of the Redux store keeps its token under `token` and, through
redux-persist, under `persist:root`; the HTTP client keeps the token it sends under
`authToken`. Each operation of a session writes some of these, and only a login
writes all of them alike.
-/
namespace WebSession

open Runs

structure User where
  id : String
  email : String
  roles : List String
  deriving DecidableEq

/-- The slice; `undefined` and `null` are not told apart. -/
structure AuthState where
  user : Option User
  token : Option String
  isAuthenticated : Bool
  deriving DecidableEq

/-- The entries of `localStorage`; `root` is the slice in `persist:root`. -/
structure Storage where
  token : Option String
  authToken : Option String
  refreshToken : Option String
  root : Option AuthState
  deriving DecidableEq

structure State where
  storage : Storage
  auth : AuthState
  isRefreshing : Bool
  deriving DecidableEq

structure AuthResult where
  user : Option User
  accessToken : String
  refreshToken : String

/-- What `token ? setItem(token) : removeItem` leaves. -/
def item (token : String) : Option String := if token = "" then none else some token

def setAuthToken (token : String) (storage : Storage) : Storage :=
  { storage with authToken := item token }

def setRefreshToken (token : String) (storage : Storage) : Storage :=
  { storage with refreshToken := item token }

def setTokens (accessToken refreshToken : String) (s : State) : State :=
  { s with storage := setRefreshToken refreshToken (setAuthToken accessToken s.storage) }

def clearTokens (storage : Storage) : Storage :=
  { storage with authToken := none, refreshToken := none }

/-- The token in the `Authorization` header of the next request. -/
def bearer (s : State) : Option String := s.storage.authToken.filter (· ≠ "")

def initialState (storage : Storage) : AuthState where
  user := none
  token := storage.token
  isAuthenticated := storage.token.any (· ≠ "")

/-- redux-persist writes the slice back when it has changed. -/
def persist (s : State) : State := { s with storage := { s.storage with root := some s.auth } }

/-- A page load: the persisted slice, when there is one, replaces the initial one. -/
def load (storage : Storage) : State :=
  persist ⟨storage, storage.root.getD (initialState storage), false⟩

def setCredentials (user : Option User) (token : String) (s : State) : State :=
  { s with
    auth := ⟨user, some token, true⟩
    storage := { s.storage with token := some token } }

def logout (s : State) : State :=
  { s with auth := ⟨none, none, false⟩, storage := { s.storage with token := none } }

/-- The operations with the answers that they meet; `none` is a request that failed. -/
inductive Label where
  | login (result : Option AuthResult) : Label
  /-- `succeeded` is the field of that name in the answer; the login follows it. -/
  | register (succeeded : Bool) (result : Option AuthResult) : Label
  | refreshToken (result : Option AuthResult) : Label
  /-- A request is answered with 401. -/
  | unauthorized : Label
  /-- The refresh that the response interceptor has begun ends. -/
  | refreshed (result : Option (String × String)) : Label
  /-- The button in the header. -/
  | logout : Label
  /-- `logout` of `useAuth`; the page may be left before redux-persist has written. -/
  | signOut (persisted : Bool) : Label
  | reload : Label

def step (s : State) : Label → Option State
  | .login none | .refreshToken none => some s
  | .login (some r) =>
    some (persist (setCredentials r.user r.accessToken (setTokens r.accessToken r.refreshToken s)))
  | .register true (some r) => some (setTokens r.accessToken r.refreshToken s)
  | .register _ _ => some s
  | .refreshToken (some r) => some (setTokens r.accessToken r.refreshToken s)
  | .unauthorized =>
    if s.isRefreshing then some s
    else if s.storage.refreshToken.any (· ≠ "") && s.storage.authToken.any (· ≠ "") then
      some { s with isRefreshing := true }
    else some (load (clearTokens s.storage))
  | .refreshed (some r) =>
    if s.isRefreshing then some { setTokens r.1 r.2 s with isRefreshing := false } else none
  | .refreshed none => if s.isRefreshing then some (load (clearTokens s.storage)) else none
  | .logout => some (persist (logout s))
  | .signOut persisted =>
    let t := logout { s with storage := clearTokens s.storage }
    some (load (if persisted then (persist t).storage else t.storage))
  | .reload => some (load s.storage)

/-- The page as it is first opened. -/
def start : State := load ⟨none, none, none, none⟩

/-- The slice says what the HTTP client will do, and so do its copies. -/
structure Agrees (s : State) : Prop where
  authenticated : s.auth.isAuthenticated = true ↔ s.storage.authToken.isSome
  token : s.auth.token = bearer s
  stored : s.storage.token = bearer s
  persisted : s.storage.root.bind AuthState.token = bearer s

/-- The operation leaves the HTTP client with the token that the slice will hold. -/
def InStep (s : State) : Label → Prop
  | .login (some r) => r.accessToken ≠ ""
  | .register succeeded (some r) => succeeded = true → item r.accessToken = s.storage.authToken
  | .refreshToken (some r) => item r.accessToken = s.storage.authToken
  | .refreshed (some r) => item r.1 = s.storage.authToken
  | .refreshed none | .logout => s.storage.authToken = none
  | .unauthorized => s.isRefreshing = false → s.storage.refreshToken = none →
    s.storage.authToken = none
  | .signOut persisted => persisted = false → s.storage.authToken = none
  | .login none | .register _ none | .refreshToken none | .reload => True

/-- Between two operations the copy of redux-persist is up to date, and no empty token
is stored. -/
structure Settled (s : State) : Prop where
  agrees : Agrees s
  root : s.storage.root = some s.auth
  nonempty : s.storage.authToken ≠ some "" ∧ s.storage.refreshToken ≠ some ""

theorem item_nonempty (token : String) : item token ≠ some "" := by
  unfold item
  split
  · simp
  · simpa

theorem filter_nonempty {v : Option String} (h : v ≠ some "") : v.filter (· ≠ "") = v := by
  cases v with
  | none => rfl
  | some token => simpa [Option.filter] using h

theorem any_nonempty {v : Option String} (h : v ≠ some "") :
    (v.any (· ≠ "")) = true ↔ v ≠ none := by
  cases v with
  | none => simp
  | some token => simpa using h

theorem start_settled : Settled start := by
  refine ⟨⟨?_, rfl, rfl, rfl⟩, rfl, ?_⟩ <;> simp [start, load, persist, initialState]

theorem Settled.bearer_eq {s : State} (h : Settled s) : bearer s = s.storage.authToken :=
  filter_nonempty h.nonempty.1

/-- Where only the token of the HTTP client may have changed, the two agree exactly if it
has not. -/
theorem agrees_iff_same {s t : State} (h : Settled s) (hauth : t.auth = s.auth)
    (htoken : t.storage.token = s.storage.token) (hroot : t.storage.root = some s.auth)
    (hnonempty : t.storage.authToken ≠ some "") :
    Agrees t ↔ t.storage.authToken = s.storage.authToken := by
  have hbearer : bearer t = t.storage.authToken := filter_nonempty hnonempty
  have htokens := h.agrees.token
  rw [h.bearer_eq] at htokens
  constructor
  · intro ht
    have htoken' := ht.token
    rw [hauth, htokens, hbearer] at htoken'
    exact htoken'.symm
  · intro hsame
    refine ⟨?_, ?_, ?_, ?_⟩
    · rw [hauth, hsame]
      exact h.agrees.authenticated
    · rw [hauth, htokens, hbearer, hsame]
    · rw [htoken, h.agrees.stored, h.bearer_eq, hbearer, hsame]
    · rw [hroot, hbearer, hsame]
      exact htokens

/-- A page load under the same persisted slice shows that slice. -/
theorem load_auth {storage : Storage} {auth : AuthState} (h : storage.root = some auth) :
    (load storage).auth = auth ∧ (load storage).storage = storage := by
  constructor
  · simp [load, persist, h]
  · cases storage
    cases h
    rfl

theorem agrees_cleared {s : State} (h : Settled s) :
    Agrees (load (clearTokens s.storage)) ↔ s.storage.authToken = none := by
  obtain ⟨hauth, hstorage⟩ := @load_auth (clearTokens s.storage) _ h.root
  have hroot : (clearTokens s.storage).root = some s.auth := h.root
  have hnone : (clearTokens s.storage).authToken = none := rfl
  rw [agrees_iff_same h hauth (by rw [hstorage]; rfl) (by rw [hstorage, hroot])
    (by rw [hstorage, hnone]; simp), hstorage, hnone]
  exact eq_comm

theorem agrees_login {s : State} (r : AuthResult) :
    Agrees (persist (setCredentials r.user r.accessToken
      (setTokens r.accessToken r.refreshToken s))) ↔ r.accessToken ≠ "" := by
  constructor
  · rintro ⟨hauthenticated, -, -, -⟩ hempty
    have hheld := hauthenticated.mp rfl
    simp [persist, setCredentials, setTokens, setRefreshToken, setAuthToken, item, hempty] at hheld
  · intro hne
    have hitem : item r.accessToken = some r.accessToken := if_neg hne
    refine ⟨?_, ?_, ?_, ?_⟩ <;>
      simp [persist, setCredentials, setTokens, setRefreshToken, setAuthToken, bearer, hitem,
        Option.filter, hne]

theorem agrees_logout {s : State} (h : Settled s) :
    Agrees (persist (logout s)) ↔ s.storage.authToken = none := by
  have hbearer : bearer (persist (logout s)) = s.storage.authToken := h.bearer_eq
  constructor
  · intro ht
    rw [← hbearer, ← ht.token]
    rfl
  · intro hnone
    refine ⟨?_, ?_, ?_, ?_⟩
    · simp [persist, logout, hnone]
    · rw [hbearer, hnone]
      rfl
    · rw [hbearer, hnone]
      rfl
    · rw [hbearer, hnone]
      rfl

theorem agrees_signOut {s t : State} (h : Settled s) {persisted : Bool}
    (hstep : step s (.signOut persisted) = some t) :
    Agrees t ↔ (persisted = false → s.storage.authToken = none) := by
  cases hstep
  cases persisted with
  | true =>
    refine iff_of_true ⟨?_, ?_, ?_, ?_⟩ (by simp) <;>
      simp [load, persist, logout, clearTokens, bearer]
  | false =>
    let storage : Storage := { clearTokens s.storage with token := none }
    obtain ⟨hauth, hstorage⟩ := @load_auth storage _ h.root
    have htoken := h.agrees.token
    rw [h.bearer_eq] at htoken
    change Agrees (load storage) ↔ _
    constructor
    · intro ht _
      rw [← htoken, ← hauth, ht.token, bearer, hstorage]
      rfl
    · intro hnone
      have hnone := hnone rfl
      have hbearer : bearer (load storage) = none := by
        rw [bearer, hstorage]
        rfl
      refine ⟨?_, ?_, ?_, ?_⟩
      · rw [hauth, hstorage, h.agrees.authenticated, hnone]
        exact Iff.rfl
      · rw [hauth, hbearer, htoken, hnone]
      · rw [hbearer, hstorage]
      · rw [hbearer, hstorage, show storage.root = some s.auth from h.root, Option.bind_some,
          htoken, hnone]

theorem agrees_register {s t : State} (h : Settled s) {succeeded : Bool}
    {result : Option AuthResult}
    (hstep : step s (.register succeeded result) = some t) :
    Agrees t ↔ InStep s (.register succeeded result) := by
  cases result with
  | none => cases succeeded <;> cases hstep <;> exact iff_of_true h.agrees trivial
  | some r =>
    cases succeeded with
    | false =>
      cases hstep
      exact iff_of_true h.agrees (by simp [InStep])
    | true =>
      cases hstep
      have hsame := @agrees_iff_same s (setTokens r.accessToken r.refreshToken s) h rfl rfl h.root
        (item_nonempty _)
      have hinstep : InStep s (.register true (some r)) ↔
          item r.accessToken = s.storage.authToken := by simp [InStep]
      rw [hinstep]
      exact hsame

/-- An answer 401 clears the tokens unless a refresh can be tried. -/
theorem agrees_unauthorized {s t : State} (h : Settled s) (hstep : step s .unauthorized = some t) :
    Agrees t ↔ InStep s .unauthorized := by
  simp only [step] at hstep
  split at hstep
  · rename_i hrefreshing
    cases hstep
    exact iff_of_true h.agrees (by simp [InStep, hrefreshing])
  · rename_i hidle
    split at hstep
    · rename_i hboth
      cases hstep
      rw [Bool.and_eq_true, any_nonempty h.nonempty.2, any_nonempty h.nonempty.1] at hboth
      refine iff_of_true ⟨h.agrees.authenticated, h.agrees.token, h.agrees.stored,
        h.agrees.persisted⟩ ?_
      intro _ hnone
      exact absurd hnone hboth.1
    · rename_i hmissing
      cases hstep
      rw [Bool.and_eq_true, any_nonempty h.nonempty.2, any_nonempty h.nonempty.1] at hmissing
      rw [agrees_cleared h]
      simp only [InStep, Bool.not_eq_true] at hidle ⊢
      constructor
      · intro hnone _ _
        exact hnone
      · intro hnone
        by_contra hauth
        exact hmissing ⟨fun hrefresh => hauth (hnone hidle hrefresh), hauth⟩

/-- Whether the two agree after an operation. -/
theorem agrees_iff {s t : State} {l : Label} (h : Settled s) (hstep : step s l = some t) :
    Agrees t ↔ InStep s l := by
  cases l with
  | login result =>
    cases result with
    | none =>
      cases hstep
      exact iff_of_true h.agrees trivial
    | some r =>
      cases hstep
      exact agrees_login r
  | register succeeded result => exact agrees_register h hstep
  | refreshToken result =>
    cases result with
    | none =>
      cases hstep
      exact iff_of_true h.agrees trivial
    | some r =>
      cases hstep
      exact agrees_iff_same h rfl rfl h.root (item_nonempty _)
  | unauthorized => exact agrees_unauthorized h hstep
  | refreshed result =>
    cases result with
    | none =>
      obtain ⟨-, rfl⟩ := guarded hstep
      exact agrees_cleared h
    | some r =>
      obtain ⟨-, rfl⟩ := guarded hstep
      exact agrees_iff_same h rfl rfl h.root (item_nonempty _)
  | logout =>
    cases hstep
    exact agrees_logout h
  | signOut persisted => exact agrees_signOut h hstep
  | reload =>
    cases hstep
    obtain ⟨hauth, hstorage⟩ := load_auth h.root
    rw [agrees_iff_same h hauth (by rw [hstorage]) (by rw [hstorage, h.root])
      (by rw [hstorage]; exact h.nonempty.1), hstorage]
    exact iff_of_true rfl trivial

/-- redux-persist has always written, and an empty token is never stored. -/
theorem step_root {s t : State} {l : Label} (h : Settled s) (hstep : step s l = some t) :
    t.storage.root = some t.auth ∧ t.storage.authToken ≠ some "" ∧
      t.storage.refreshToken ≠ some "" := by
  have hloaded : ∀ storage : Storage, storage.authToken ≠ some "" →
      storage.refreshToken ≠ some "" → (load storage).storage.root = some (load storage).auth ∧
        (load storage).storage.authToken ≠ some "" ∧
        (load storage).storage.refreshToken ≠ some "" :=
    fun _ hauth hrefresh => ⟨rfl, hauth, hrefresh⟩
  cases l with
  | login result =>
    cases result <;> cases hstep
    · exact ⟨h.root, h.nonempty⟩
    · exact ⟨rfl, item_nonempty _, item_nonempty _⟩
  | register succeeded result =>
    cases succeeded <;> cases result <;> cases hstep
    · exact ⟨h.root, h.nonempty⟩
    · exact ⟨h.root, h.nonempty⟩
    · exact ⟨h.root, h.nonempty⟩
    · exact ⟨h.root, item_nonempty _, item_nonempty _⟩
  | refreshToken result =>
    cases result <;> cases hstep
    · exact ⟨h.root, h.nonempty⟩
    · exact ⟨h.root, item_nonempty _, item_nonempty _⟩
  | unauthorized =>
    simp only [step] at hstep
    split at hstep
    · cases hstep
      exact ⟨h.root, h.nonempty⟩
    · split at hstep <;> cases hstep
      · exact ⟨h.root, h.nonempty⟩
      · exact hloaded _ (by simp [clearTokens]) (by simp [clearTokens])
  | refreshed result =>
    cases result with
    | none =>
      obtain ⟨-, rfl⟩ := guarded hstep
      exact hloaded _ (by simp [clearTokens]) (by simp [clearTokens])
    | some r =>
      obtain ⟨-, rfl⟩ := guarded hstep
      exact ⟨h.root, item_nonempty _, item_nonempty _⟩
  | logout =>
    cases hstep
    exact ⟨rfl, h.nonempty⟩
  | signOut persisted =>
    cases hstep
    have hnone : ∀ u : State, u.storage.authToken = none → u.storage.refreshToken = none →
        u.storage.authToken ≠ some "" ∧ u.storage.refreshToken ≠ some "" := by
      intro u hauth hrefresh
      simp [hauth, hrefresh]
    cases persisted with
    | true => exact ⟨rfl, hnone _ rfl rfl⟩
    | false => exact ⟨rfl, hnone _ rfl rfl⟩
  | reload =>
    cases hstep
    exact hloaded _ h.nonempty.1 h.nonempty.2

/-- In a session the slice and the HTTP client agree after every operation exactly if
every operation leaves the HTTP client with the token that the slice will hold. -/
theorem agrees_throughout_iff (tr : List Label) :
    (∀ v ∈ visits step start tr, Agrees v.2.2) ↔
      ∀ v ∈ visits step start tr, InStep v.1 v.2.1 := by
  refine visits_iff Settled (fun v => Agrees v.2.2) InStep (fun s l t h hstep => agrees_iff h hstep)
    ?_ start_settled tr
  intro s l t h hinstep hstep
  obtain ⟨hroot, hnonempty⟩ := step_root h hstep
  exact ⟨(agrees_iff h hstep).mpr hinstep, hroot, hnonempty⟩

/-- A refresh gives the HTTP client a new token and leaves the slice with the old one. -/
theorem refresh_leaves_slice_behind :
    ¬ ∀ (tr : List Label), ∀ v ∈ visits step start tr, Agrees v.2.2 := by
  intro hall
  have hdiffer : ∃ v ∈ visits step start
      [.login (some ⟨none, "a", "r"⟩), .unauthorized, .refreshed (some ("b", "s"))],
      v.2.2.auth.token ≠ bearer v.2.2 := by decide
  obtain ⟨v, hv, hv'⟩ := hdiffer
  exact hv' (hall _ v hv).token

end WebSession
