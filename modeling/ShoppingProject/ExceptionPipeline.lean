import ShoppingProject.Layers
import ShoppingProject.Requests

/-!
# Exceptions on their way to a status

The handler of a request is surrounded by the behaviours of the pipeline, the innermost
of which catches what the handler raises and raises it anew; what leaves the pipeline
becomes an answer in the global handler, by its type. What the services answer or raise
is part of the request's surroundings, as are the serializer and the hash of the cache
keys. The type that the guard clauses raise has the name of the application's
`NotFoundException` and is another type.
-/
namespace ExceptionPipeline

open Layers
open Requests (AuthorizeAttribute Caller Policy Principal Refusal splitRoles)
open Validation (Failure isNullOrWhiteSpace)

inductive Exception where
  | notFound (message : String) : Exception
  | guardNotFound (message : String) : Exception
  | businessRule (message : String) : Exception
  | persistence (message : String) : Exception
  | unhandledRequest (message : String) : Exception
  | badRequest (message : String) : Exception
  | forbiddenAccess (message : String) : Exception
  | notAccess (message : String) : Exception
  | validation (errors : List (String × List String)) : Exception
  | unauthorizedAccess (message : String) : Exception
  | other (type message : String) : Exception
  deriving DecidableEq, Repr

def Exception.message : Exception → String
  | .notFound m | .guardNotFound m | .businessRule m | .persistence m | .unhandledRequest m
  | .badRequest m | .forbiddenAccess m | .notAccess m | .unauthorizedAccess m | .other _ m => m
  | .validation _ => "One or more validation failures have occurred."

/-- `new ValidationException(failures)`: the messages by property, in their order. -/
def validationException (failures : List Failure) : Exception :=
  .validation ((failures.map Failure.propertyName).eraseDups.map fun name =>
    (name, (failures.filter fun f => f.propertyName == name).map Failure.errorMessage))

def unauthorizedAccessException : Exception :=
  .unauthorizedAccess "Attempted to perform an unauthorized operation."

def forbiddenAccessException : Exception :=
  .forbiddenAccess "Forbidden access attempted. You do not have permission to access this resource."

structure CacheableAttribute where
  keyPrefix : String
  durationMinutes : Int

/-- What the services answer while one request is served. -/
structure Services (γ ρ : Type) where
  getUserNameAsync : String → Except Exception (Option String)
  getUserNameAsyncLater : String → Except Exception (Option String)
  authorizeAsync : String → Policy → Except Exception Bool
  serialize : γ → Except Exception String
  hash : String → String
  getAsync : String → Except Exception ρ
  setAsync : String → ρ → Int → Except Exception Unit
  elapsedMilliseconds : Nat

/-- What is registered for one type of request. -/
structure Registration (γ ρ : Type) where
  requestName : String
  validators : List (γ → Except Exception (List Failure))
  attributes : List AuthorizeAttribute
  cacheable : Option CacheableAttribute
  handle : γ → Except Exception ρ

variable {γ ρ : Type}

/-- `_user.Id ?? string.Empty`. -/
def userId (caller : Caller) : String := (caller.bind Principal.id).getD ""

/-- `LoggingBehaviour`, which runs before the other behaviours. -/
def loggingBehaviour (services : Services γ ρ) (caller : Caller) : Except Exception Unit := do
  if userId caller ≠ "" then
    let _ ← services.getUserNameAsync (userId caller)

def requestPreProcessorBehavior (process : Except Exception Unit) : Layer Exception ρ :=
  fun next => do
    process
    next

def performanceBehaviour (services : Services γ ρ) (caller : Caller) : Layer Exception ρ :=
  fun next => do
    let response ← next
    if 500 < services.elapsedMilliseconds then
      if userId caller ≠ "" then
        let _ ← services.getUserNameAsyncLater (userId caller)
    return response

/-- All validators run; the exception of the first that throws is the one raised. -/
def validateAll (validators : List (γ → Except Exception (List Failure))) (request : γ) :
    Except Exception Unit := do
  let results ← validators.mapM fun v => v request
  if results.flatten ≠ [] then throw (validationException results.flatten)

def validationBehaviour (validators : List (γ → Except Exception (List Failure))) (request : γ) :
    Layer Exception ρ := fun next => do
  if validators ≠ [] then validateAll validators request
  next

def checkPolicies (authorizeAsync : String → Policy → Except Exception Bool) (id : String) :
    List Policy → Except Exception Unit
  | [] => return ()
  | policy :: policies => do
    let authorized ← authorizeAsync id policy
    if !authorized then throw forbiddenAccessException
    checkPolicies authorizeAsync id policies

def checkRequest (authorizeAsync : String → Policy → Except Exception Bool)
    (attributes : List AuthorizeAttribute) (caller : Caller) : Except Exception Unit := do
  let id := caller.bind Principal.id
  if isNullOrWhiteSpace id then throw unauthorizedAccessException
  let userRoles := (caller.map Principal.roles).getD []
  let roleAttributes := attributes.filter fun a => !isNullOrWhiteSpace (some a.roles)
  if !roleAttributes.isEmpty &&
      !roleAttributes.any (fun a => (splitRoles a.roles).any userRoles.contains) then
    throw forbiddenAccessException
  checkPolicies authorizeAsync (id.getD "") (attributes.filterMap AuthorizeAttribute.policy)

def authorizationBehaviour (authorizeAsync : String → Policy → Except Exception Bool)
    (attributes : List AuthorizeAttribute) (caller : Caller) : Layer Exception ρ := fun next =>
  if attributes.isEmpty then next
  else do
    checkRequest authorizeAsync attributes caller
    next

def generateCacheKey (services : Services γ ρ) (requestName keyPrefix : String) (request : γ) :
    Except Exception String := do
  let requestJson ← services.serialize request
  return keyPrefix ++ ":" ++ requestName ++ ":" ++ services.hash requestJson

theorem passes_check {check : Except Exception Unit} (h : check = .ok ()) :
    Passes (requestPreProcessorBehavior check : Layer Exception ρ) := by
  subst h
  exact fun _ => rfl

theorem answers_check {check : Except Exception Unit} (h : check ≠ .ok ()) :
    Answers (requestPreProcessorBehavior check : Layer Exception ρ) := by
  cases check with
  | ok u => exact absurd rfl h
  | error e => exact fun _ _ => rfl

theorem passes_performanceBehaviour (services : Services γ ρ) (caller : Caller) :
    Passes (performanceBehaviour services caller) := fun _ => rfl

/-- Validation is such a check, if there is a validator. -/
theorem validationBehaviour_eq (validators : List (γ → Except Exception (List Failure)))
    (request : γ) : (validationBehaviour validators request : Layer Exception ρ) =
      if validators = [] then id
      else requestPreProcessorBehavior (validateAll validators request) := by
  cases validators <;> rfl

theorem authorizationBehaviour_eq (authorizeAsync : String → Policy → Except Exception Bool)
    (attributes : List AuthorizeAttribute) (caller : Caller) :
    (authorizationBehaviour authorizeAsync attributes caller : Layer Exception ρ) =
      if attributes = [] then id
      else requestPreProcessorBehavior (checkRequest authorizeAsync attributes caller) := by
  cases attributes <;> rfl

/-- The exception says the same as the refusal. -/
def Agrees (authorizeAsync : String → Policy → Except Exception Bool) :
    Option Refusal → Except Exception Unit → Prop
  | none, checked => checked = .ok ()
  | some .unauthorized, checked => checked = .error unauthorizedAccessException
  | some .forbidden, checked => checked = .error forbiddenAccessException
  | some .error, checked =>
    ∃ id policy e, authorizeAsync id policy = .error e ∧ checked = .error e

theorem checkPolicies_agrees (authorizeAsync : String → Policy → Except Exception Bool)
    (id : String) (policies : List Policy) :
    Agrees authorizeAsync (policies.findSome? fun policy =>
      match (authorizeAsync id policy).toOption with
      | none => some .error
      | some true => none
      | some false => some .forbidden) (checkPolicies authorizeAsync id policies) := by
  induction policies with
  | nil => rfl
  | cons policy policies ih =>
    rw [List.findSome?_cons, checkPolicies]
    cases hanswer : authorizeAsync id policy with
    | error e => exact ⟨id, policy, e, hanswer, rfl⟩
    | ok authorized =>
      cases authorized with
      | false => rfl
      | true => exact ih

/-- The behaviour refuses the commands that the model of the requests refuses. -/
theorem checkRequest_agrees (authorizeAsync : String → Policy → Except Exception Bool)
    {attributes : List AuthorizeAttribute} (hne : attributes ≠ []) (caller : Caller) :
    Agrees authorizeAsync (Requests.authorizationBehaviour
      (fun id policy => (authorizeAsync id policy).toOption) attributes caller)
      (checkRequest authorizeAsync attributes caller) := by
  have hsome : attributes.isEmpty = false := by simpa using hne
  simp only [Requests.authorizationBehaviour, checkRequest, hsome, Bool.false_eq_true, if_false]
  split
  · rfl
  · split
    · rfl
    · exact checkPolicies_agrees authorizeAsync _ _

/-- The catch clauses of `UnhandledExceptionBehaviour`. -/
def rethrown (requestName : String) : Exception → Exception
  | .notFound _ => .notFound ("Entity not found in " ++ requestName)
  | .businessRule _ => .businessRule ("Business rule violated in " ++ requestName)
  | .persistence _ => .persistence
    ("Database update failed in " ++ requestName ++ ". See inner exception for details.")
  | _ => .unhandledRequest
    ("Unhandled exception in " ++ requestName ++ ". See inner exception for details.")

def unhandledExceptionBehaviour (requestName : String) : Layer Exception ρ := fun next =>
  next.mapError (rethrown requestName)

variable [DecidableEq ρ] [Inhabited ρ]

def cachingBehaviour (services : Services γ ρ) (requestName : String)
    (cacheable : Option CacheableAttribute) (request : γ) : Layer Exception ρ := fun next =>
  match cacheable with
  | none => next
  | some cacheableAttribute => do
    let cacheKey ← generateCacheKey services requestName cacheableAttribute.keyPrefix request
    let cachedResponse ← services.getAsync cacheKey
    if cachedResponse ≠ default then return cachedResponse
    let response ← next
    if response ≠ default then
      services.setAsync cacheKey response cacheableAttribute.durationMinutes
    return response

/-- The behaviours around `UnhandledExceptionBehaviour`, in the order of their registration. -/
def outerBehaviours (registration : Registration γ ρ) (services : Services γ ρ) (caller : Caller)
    (request : γ) : List (Layer Exception ρ) :=
  [requestPreProcessorBehavior (loggingBehaviour services caller),
    performanceBehaviour services caller,
    validationBehaviour registration.validators request,
    authorizationBehaviour services.authorizeAsync registration.attributes caller,
    cachingBehaviour services registration.requestName registration.cacheable request]

def send (registration : Registration γ ρ) (services : Services γ ρ) (caller : Caller)
    (request : γ) : Except Exception ρ :=
  wrap (outerBehaviours registration services caller request ++
    [unhandledExceptionBehaviour registration.requestName]) (registration.handle request)

/-- What the handler or a behaviour raises itself, before any clause catches it. -/
def raised (registration : Registration γ ρ) (services : Services γ ρ) (caller : Caller)
    (request : γ) : Except Exception ρ :=
  wrap (outerBehaviours registration services caller request) (registration.handle request)

/-- The cache is asked in vain, if at all. -/
def Missed (services : Services γ ρ) (requestName : String)
    (cacheable : Option CacheableAttribute) (request : γ) : Prop :=
  ∀ cacheableAttribute ∈ cacheable, ∃ cacheKey,
    generateCacheKey services requestName cacheableAttribute.keyPrefix request = .ok cacheKey ∧
      services.getAsync cacheKey = .ok default

/-- The handler is called, and what it raises goes past the behaviours around it. -/
structure Reaches (registration : Registration γ ρ) (services : Services γ ρ) (caller : Caller)
    (request : γ) : Prop where
  logged : loggingBehaviour services caller = .ok ()
  valid : registration.validators ≠ [] → validateAll registration.validators request = .ok ()
  authorized : registration.attributes ≠ [] →
    checkRequest services.authorizeAsync registration.attributes caller = .ok ()
  missed : Missed services registration.requestName registration.cacheable request

/-- A cacheable request stops at a hit, and where the key or the cache raises. -/
theorem cachingBehaviour_cases (services : Services γ ρ) (requestName : String)
    (cacheable : Option CacheableAttribute) (request : γ) :
    (Missed services requestName cacheable request ∧
      Passes (cachingBehaviour services requestName cacheable request)) ∨
    (¬ Missed services requestName cacheable request ∧
      Answers (cachingBehaviour services requestName cacheable request)) := by
  cases cacheable with
  | none => exact .inl ⟨by simp [Missed], fun _ => rfl⟩
  | some cacheableAttribute =>
    cases hkey : generateCacheKey services requestName cacheableAttribute.keyPrefix request with
    | error e =>
      refine .inr ⟨by simp [Missed, hkey], fun a b => ?_⟩
      simp only [cachingBehaviour, hkey]
      rfl
    | ok cacheKey =>
      cases hget : services.getAsync cacheKey with
      | error e =>
        refine .inr ⟨by simp [Missed, hkey, hget], fun a b => ?_⟩
        simp only [cachingBehaviour, hkey, bind, Except.bind, hget]
      | ok cachedResponse =>
        by_cases hhit : cachedResponse = default
        · subst hhit
          refine .inl ⟨by simp [Missed, hkey, hget], fun e => ?_⟩
          simp only [cachingBehaviour, hkey, bind, Except.bind, hget, ne_eq, not_true, if_false]
        · refine .inr ⟨by simp [Missed, hkey, hget, hhit], fun a b => ?_⟩
          simp only [cachingBehaviour, hkey, bind, Except.bind, hget, ne_eq, hhit,
            not_false_eq_true, if_true]

/-- Where the handler is reached, its exceptions leave through every behaviour. -/
theorem Reaches.passes {registration : Registration γ ρ} {services : Services γ ρ} {caller : Caller}
    {request : γ} (h : Reaches registration services caller request) :
    Passes (wrap (outerBehaviours registration services caller request)) := by
  refine passes_wrap fun layer hlayer => ?_
  simp only [outerBehaviours, List.mem_cons, List.not_mem_nil, or_false] at hlayer
  obtain rfl | rfl | rfl | rfl | rfl := hlayer
  · exact passes_check h.logged
  · exact passes_performanceBehaviour services caller
  · rw [validationBehaviour_eq]
    split
    · exact fun _ => rfl
    · exact passes_check (h.valid ‹_›)
  · rw [authorizationBehaviour_eq]
    split
    · exact fun _ => rfl
    · exact passes_check (h.authorized ‹_›)
  · exact ((cachingBehaviour_cases ..).resolve_right fun hstop => hstop.1 h.missed).2

/-- Where it is not reached, the handler makes no difference. -/
theorem answers_of_not_reaches {registration : Registration γ ρ} {services : Services γ ρ}
    {caller : Caller} {request : γ} (h : ¬ Reaches registration services caller request) :
    Answers (wrap (outerBehaviours registration services caller request)) := by
  by_cases hlogged : loggingBehaviour services caller = .ok ()
  swap
  · exact answers_wrap (.head _) (answers_check hlogged)
  by_cases hvalid : registration.validators ≠ [] →
      validateAll registration.validators request = .ok ()
  swap
  · obtain ⟨hne, hvalid⟩ := Classical.not_imp.mp hvalid
    refine answers_wrap (.tail _ (.tail _ (.head _))) ?_
    rw [validationBehaviour_eq, if_neg hne]
    exact answers_check hvalid
  by_cases hauthorized : registration.attributes ≠ [] →
      checkRequest services.authorizeAsync registration.attributes caller = .ok ()
  swap
  · obtain ⟨hne, hauthorized⟩ := Classical.not_imp.mp hauthorized
    refine answers_wrap (.tail _ (.tail _ (.tail _ (.head _)))) ?_
    rw [authorizationBehaviour_eq, if_neg hne]
    exact answers_check hauthorized
  have hmissed := (cachingBehaviour_cases services registration.requestName registration.cacheable
    request).resolve_left fun hpass => h ⟨hlogged, hvalid, hauthorized, hpass.1⟩
  exact answers_wrap (.tail _ (.tail _ (.tail _ (.tail _ (.head _))))) hmissed.2

/-- What a reached handler raises is caught, and its replacement leaves the pipeline. -/
theorem send_of_handler {registration : Registration γ ρ} {services : Services γ ρ}
    {caller : Caller} {request : γ} {e : Exception}
    (hreaches : Reaches registration services caller request)
    (hhandle : registration.handle request = .error e) :
    send registration services caller request = .error (rethrown registration.requestName e) := by
  rw [send, wrap_append]
  exact hreaches.passes.mapError (rethrown registration.requestName) hhandle

theorem raised_of_handler {registration : Registration γ ρ} {services : Services γ ρ}
    {caller : Caller} {request : γ} {e : Exception}
    (hreaches : Reaches registration services caller request)
    (hhandle : registration.handle request = .error e) :
    raised registration services caller request = .error e := by
  rw [raised, hhandle]
  exact hreaches.passes e

/-- What is raised elsewhere, and every response, leaves the pipeline as it is. -/
theorem send_of_elsewhere {registration : Registration γ ρ} {services : Services γ ρ}
    {caller : Caller} {request : γ}
    (h : ¬ (Reaches registration services caller request ∧
      ∃ e, registration.handle request = .error e)) :
    send registration services caller request = raised registration services caller request := by
  rw [send, wrap_append, raised]
  by_cases hreaches : Reaches registration services caller request
  · cases hhandle : registration.handle request with
    | ok response => rfl
    | error e => exact absurd ⟨hreaches, e, hhandle⟩ h
  · exact answers_of_not_reaches hreaches _ _

end ExceptionPipeline
