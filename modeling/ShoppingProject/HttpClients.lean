import ShoppingProject.Runs
import ShoppingProject.Slots

/-!
# Requests that wait for a new token

The web client and the admin client have the same response interceptor. The first
request that is answered with 401 starts a refresh and is marked; those that are
answered with 401 while it is in flight wait in `failedQueue` for its end. A request
goes through its turns beside any number of others, and between two turns any other
may have one. What was queued, settled, started, sent again and given back is kept
beside the state. Axios copies every field of a configuration that is sent again.
-/
namespace HttpClients

open Runs

/-- What the two files differ in. -/
structure Client where
  tokenKey : String
  refreshTokenKey : String
  loginPath : String

def web : Client := ⟨"authToken", "refreshToken", "/login"⟩

def admin : Client := ⟨"admin_access_token", "admin_refresh_token", "/sign-in"⟩

inductive Error where
  /-- `AxiosError`, with the status of the answer if there was one. -/
  | axios (status : Option Nat) : Error
  | typeError : Error
  | quotaExceeded : Error
  deriving DecidableEq, Repr

/-- `localStorage`. -/
abbrev Storage := String → Option String

def removeItem (key : String) (storage : Storage) : Storage :=
  fun k => if k = key then none else storage k

/-- `setItem` throws if the storage has no room for the entry. -/
def setItem (writable : String → Bool) (key value : String) (storage : Storage) :
    Except Error Storage :=
  if writable key then .ok fun k => if k = key then some value else storage k
  else .error .quotaExceeded

/-- A string that is neither absent nor empty. -/
def truthy (token : Option String) : Option String := token.filter (· ≠ "")

/-- A token as the answer to a refresh may hold it. -/
inductive Token where
  | undefined : Token
  | null : Token
  | text (value : String) : Token
  deriving DecidableEq

/-- The token in a template. -/
def Token.show : Token → String
  | .undefined => "undefined"
  | .null => "null"
  | .text value => value

def Token.truthy : Token → Option String
  | .undefined | .null => none
  | .text value => HttpClients.truthy (some value)

/-- A parameter whose default is `null`. -/
def Token.orNull : Token → Token
  | .undefined => .null
  | token => token

/-- `setAuthToken` and `setRefreshToken`, each with its own key. -/
def setToken (writable : String → Bool) (key : String) (token : Token) (storage : Storage) :
    Except Error Storage :=
  match token.truthy with
  | some value => setItem writable key value storage
  | none => .ok (removeItem key storage)

def clearTokens (c : Client) (storage : Storage) : Storage :=
  removeItem c.refreshTokenKey (removeItem c.tokenKey storage)

/-- The configuration of a request, with the number of the call it belongs to. -/
structure Config where
  request : Nat
  authorization : Option String
  retry : Bool
  deriving DecidableEq

inductive Phase where
  | sent (config : Config) : Phase
  /-- Behind a promise whose callbacks are in `failedQueue`, or were. -/
  | waiting (config : Config) (promise : Nat) : Phase
  | refreshing (config : Config) : Phase
  deriving DecidableEq

def Phase.config : Phase → Config
  | .sent config | .waiting config _ | .refreshing config => config

def Phase.sent? : Phase → Option Config
  | .sent config => some config
  | .waiting _ _ | .refreshing _ => none

structure Refresh where
  number : Nat
  config : Config
  accessToken : String
  refreshToken : String
  deriving DecidableEq

/-- The new access token of a refresh, or what its handling ended with. -/
abbrev Result := Except Error Token

/-- A promise that was queued, for which request, and a refresh that was in flight then. -/
structure Wait where
  promise : Nat
  config : Config
  refresh : Nat
  deriving DecidableEq

structure Settlement where
  promise : Nat
  refresh : Nat
  result : Result

/-- What became of the request behind a promise: how it was sent again, or the error its
caller was given. -/
structure Outcome where
  promise : Nat
  result : Except Error Config

/-- What a 401 can make a client do for a request. -/
inductive Event where
  | started (request : Nat) : Event
  | resent (request : Nat) : Event
  deriving DecidableEq

def Event.request : Event → Nat
  | .started i | .resent i => i

structure State where
  storage : Storage
  /-- Where `window.location` was sent. -/
  location : Option String
  isRefreshing : Bool
  failedQueue : List Nat
  requests : Slots Phase
  refreshes : List Refresh
  calls : List Nat
  nextPromise : Nat
  nextRefresh : Nat
  waits : List Wait
  settled : List Settlement
  outcomes : List Outcome
  ended : List (Nat × Result)
  events : List Event

/-- A page that has just been loaded. -/
def start (storage : Storage) : State where
  storage := storage
  location := none
  isRefreshing := false
  failedQueue := []
  requests := Slots.idle
  refreshes := []
  calls := []
  nextPromise := 0
  nextRefresh := 0
  waits := []
  settled := []
  outcomes := []
  ended := []
  events := []

/-- The request interceptor. -/
def withBearer (c : Client) (storage : Storage) (config : Config) : Config :=
  match truthy (storage c.tokenKey) with
  | some token => { config with authorization := some ("Bearer " ++ token) }
  | none => config

/-- `httpClient(config)`. -/
def httpClient (c : Client) (config : Config) (s : State) : State :=
  { s with
    requests := s.requests.put config.request (some (.sent (withBearer c s.storage config))) }

/-- `httpClient(originalRequest)`, after a 401. -/
def resend (c : Client) (config : Config) (s : State) : State :=
  httpClient c config { s with events := s.events ++ [.resent config.request] }

/-- `originalRequest.headers.Authorization` is set from a template. -/
def withToken (token : Token) (config : Config) : Config :=
  { config with authorization := some ("Bearer " ++ token.show) }

/-- Every promise in the queue is resolved or rejected, and the queue is emptied;
`refresh` is the one whose end this is. -/
def processQueue (refresh : Nat) (result : Result) (s : State) : State :=
  { s with
    settled := s.settled ++ s.failedQueue.map fun p => ⟨p, refresh, result.map Token.orNull⟩
    failedQueue := [] }

/-- The turn after an answer with 401. -/
def onUnauthorized (c : Client) (config : Config) (s : State) : State :=
  if config.retry then { s with requests := s.requests.put config.request none }
  else if s.isRefreshing then
    { s with
      failedQueue := s.failedQueue ++ [s.nextPromise]
      nextPromise := s.nextPromise + 1
      waits := s.waits ++ s.refreshes.map fun r => ⟨s.nextPromise, config, r.number⟩
      requests := s.requests.put config.request (some (.waiting config s.nextPromise)) }
  else
    let marked := { config with retry := true }
    match truthy (s.storage c.refreshTokenKey), truthy (s.storage c.tokenKey) with
    | some refreshToken, some accessToken =>
      { s with
        isRefreshing := true
        refreshes := s.refreshes ++ [⟨s.nextRefresh, marked, accessToken, refreshToken⟩]
        nextRefresh := s.nextRefresh + 1
        events := s.events ++ [.started config.request]
        requests := s.requests.put config.request (some (.refreshing marked)) }
    | _, _ =>
      -- `finally` takes the flag back before the turn ends
      { s with
        storage := clearTokens c s.storage
        location := some c.loginPath
        isRefreshing := false
        requests := s.requests.put config.request none }

/-- The answer to a refresh; `none` is an answer without `data.data`. -/
inductive Answer where
  | rejected (error : Error) : Answer
  | response (data : Option (Token × Token)) : Answer

/-- The try block up to the queue: the new token, and the storage with both tokens. -/
def newTokens (c : Client) (writable : String → Bool) (storage : Storage) :
    Answer → Except Error (Token × Storage)
  | .rejected error => .error error
  | .response none => .error .typeError
  | .response (some (accessToken, refreshToken)) => do
    let storage ← setToken writable c.tokenKey accessToken storage
    let storage ← setToken writable c.refreshTokenKey refreshToken storage
    return (accessToken, storage)

/-- The turn after the answer to a refresh. -/
def onRefreshed (c : Client) (writable : String → Bool) (answer : Answer) (r : Refresh)
    (s : State) :
    State :=
  let s := { s with refreshes := s.refreshes.filter fun r' => r'.number != r.number }
  match newTokens c writable s.storage answer with
  | .ok (token, storage) =>
    let s := processQueue r.number (.ok token) { s with storage := storage }
    let s := resend c (withToken token r.config) s
    { s with ended := s.ended ++ [(r.number, .ok token)], isRefreshing := false }
  | .error error =>
    let s := processQueue r.number (.error error) s
    -- what was stored before the error is cleared here too
    { s with
      storage := clearTokens c s.storage
      location := some c.loginPath
      requests := s.requests.put r.config.request none
      ended := s.ended ++ [(r.number, .error error)]
      isRefreshing := false }

/-- The turn of a request whose promise has been settled. -/
def onSettled (c : Client) (config : Config) (promise : Nat) (result : Result) (s : State) :
    State :=
  match result with
  | .ok token =>
    let s := resend c (withToken token config) s
    let sent := (s.requests config.request).bind Phase.sent?
    { s with outcomes := s.outcomes ++ sent.toList.map fun sent => ⟨promise, .ok sent⟩ }
  | .error error =>
    { s with
      requests := s.requests.put config.request none
      outcomes := s.outcomes ++ [⟨promise, .error error⟩] }

inductive Label where
  | call (i : Nat) : Label
  /-- An answer other than 401. -/
  | answer (i : Nat) : Label
  | unauthorized (i : Nat) : Label
  | refreshed (number : Nat) (answer : Answer) (writable : String → Bool) : Label
  | settled (i : Nat) : Label
  /-- The rest of the application, or another tab, changes the storage. -/
  | store (key : String) (value : Option String) : Label

def step (c : Client) (s : State) : Label → Option State
  | .call i =>
    if i ∈ s.calls then none
    else some (httpClient c ⟨i, none, false⟩ { s with calls := i :: s.calls })
  | .answer i => match s.requests i with
    | some (.sent _) => some { s with requests := s.requests.put i none }
    | _ => none
  | .unauthorized i => match s.requests i with
    | some (.sent config) => some (onUnauthorized c config s)
    | _ => none
  | .refreshed number answer writable =>
    (s.refreshes.find? fun r => r.number == number).map fun r => onRefreshed c writable answer r s
  | .settled i => match s.requests i with
    | some (.waiting config promise) =>
      (s.settled.find? fun x => x.promise == promise).map fun x =>
        onSettled c config promise x.result s
    | _ => none
  | .store key value =>
    some { s with storage := fun k => if k = key then value else s.storage k }

/-- The promise behind which the request waits has been settled. -/
def due (s : State) (i : Nat) : Bool :=
  match s.requests i with
  | some (.waiting _ promise) => s.settled.any fun x => x.promise == promise
  | _ => false

/-- Whether a settled promise has a callback that has not run. -/
def reacting (s : State) : Bool := s.calls.any (due s)

def Label.isCallback : Label → Bool
  | .settled _ => true
  | _ => false

/-- The callbacks of settled promises have their turns before anything else. -/
def turn (c : Client) (s : State) (l : Label) : Option State :=
  if reacting s && !l.isCallback then none else step c s l

end HttpClients
