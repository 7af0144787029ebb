import ShoppingProject.Validation

/-!
# The request pipeline

A request passes the attributes of its endpoint, the validators of its command
and the attributes of the command, in this order, before its handler runs. The
endpoint trusts the claims of the bearer token; the command asks the user store
again. A request that is stopped changes nothing.
-/
namespace Requests

open Validation

/-- What a valid bearer token says of its holder. -/
structure Principal where
  id : Option String
  roles : List String

/-- `none` is an anonymous caller. -/
abbrev Caller := Option Principal

inductive Policy where
  | canPurge | canManageProducts | requireAdministratorRole | requireClientRole
  | canManageClients | canViewSystemConfig | canManageOwnClients
  deriving DecidableEq, Repr

namespace Roles

def administrator : String := "Administrator"

def client : String := "Client"

end Roles

/-- The role that a registered policy requires; one policy is never registered. -/
def Policy.requiredRole : Policy → Option String
  | .canPurge => some Roles.administrator
  | .canManageProducts => some Roles.administrator
  | .requireAdministratorRole => some Roles.administrator
  | .requireClientRole => some Roles.client
  | .canManageClients => some Roles.administrator
  | .canViewSystemConfig => some Roles.administrator
  | .canManageOwnClients => none

structure AuthorizeAttribute where
  roles : String
  policy : Option Policy
  deriving DecidableEq

/-- `[Authorize]`. -/
def authorize : AuthorizeAttribute := ⟨"", none⟩

/-- `[Authorize(Policy = policy)]`. -/
def authorizePolicy (policy : Policy) : AuthorizeAttribute := ⟨"", some policy⟩

inductive Reply (ρ : Type) where
  | unauthorized : Reply ρ
  | forbidden : Reply ρ
  | invalid : List Failure → Reply ρ
  | notFound : String → Reply ρ
  | error : Reply ρ
  | ok : ρ → Reply ρ
  deriving DecidableEq

inductive ServiceResult (α : Type) where
  | success : α → ServiceResult α
  | fail : String → ServiceResult α
  deriving DecidableEq

/-- `Fail(errors)`. -/
def ServiceResult.failAll {α : Type} (errors : List String) : ServiceResult α :=
  .fail (String.intercalate ", " errors)

/-- How an authorization check stops a request. -/
inductive Refusal where
  | unauthorized | forbidden | error
  deriving DecidableEq

variable {ρ σ γ : Type}

def Refusal.reply : Refusal → Reply ρ
  | .unauthorized => .unauthorized
  | .forbidden => .forbidden
  | .error => .error

/-- Whether a principal with these role claims satisfies a policy; asking for a
policy that is not registered throws. -/
def satisfies (roles : List String) (policy : Policy) : Option Bool :=
  policy.requiredRole.map fun role => roles.contains role

/-- The authorization middleware: the claims in the token decide. -/
def authorizeEndpoint (attributes : List AuthorizeAttribute) (caller : Caller) : Option Refusal :=
  if attributes.isEmpty then none
  else match caller with
    | none => some .unauthorized
    | some principal =>
      (attributes.filterMap AuthorizeAttribute.policy).findSome? fun policy =>
        match satisfies principal.roles policy with
        | none => some .error
        | some true => none
        | some false => some .forbidden

/-- `Split(',', RemoveEmptyEntries)` with each entry trimmed. -/
def splitRoles (roles : String) : List String :=
  ((roles.splitOn ",").filter (· != "")).map fun r => String.ofList
    ((r.toList.dropWhile isWhiteSpace).reverse.dropWhile isWhiteSpace).reverse

/-- `AuthorizationBehaviour`; `authorizeAsync` is the answer of the user store. -/
def authorizationBehaviour (authorizeAsync : String → Policy → Option Bool)
    (attributes : List AuthorizeAttribute) (caller : Caller) : Option Refusal :=
  if attributes.isEmpty then none
  else
    let id := caller.bind Principal.id
    if isNullOrWhiteSpace id then some .unauthorized
    else
      let userRoles := (caller.map Principal.roles).getD []
      let roleAttributes := attributes.filter fun a => !isNullOrWhiteSpace (some a.roles)
      if !roleAttributes.isEmpty &&
          !roleAttributes.any (fun a => (splitRoles a.roles).any userRoles.contains) then
        some .forbidden
      else
        (attributes.filterMap AuthorizeAttribute.policy).findSome? fun policy =>
          match authorizeAsync (id.getD "") policy with
          | none => some .error
          | some true => none
          | some false => some .forbidden

/-- Everything that stands around the handler of one request. -/
structure Pipeline (γ : Type) where
  endpoint : List AuthorizeAttribute
  validators : List (Rule γ)
  command : List AuthorizeAttribute

def send (pipeline : Pipeline γ) (authorizeAsync : String → Policy → Option Bool)
    (caller : Caller) (request : γ) (handle : σ → Reply ρ × σ) (s : σ) : Reply ρ × σ :=
  match authorizeEndpoint pipeline.endpoint caller with
  | some refusal => (refusal.reply, s)
  | none => match validate pipeline.validators request with
    | [] => match authorizationBehaviour authorizeAsync pipeline.command caller with
      | some refusal => (refusal.reply, s)
      | none => handle s
    | failure :: failures => (.invalid (failure :: failures), s)

/-- The checks that a request must pass to reach its handler. -/
structure Admits (pipeline : Pipeline γ) (authorizeAsync : String → Policy → Option Bool)
    (caller : Caller) (request : γ) : Prop where
  endpoint : authorizeEndpoint pipeline.endpoint caller = none
  valid : validate pipeline.validators request = []
  command : authorizationBehaviour authorizeAsync pipeline.command caller = none

/-- An admitted request is what its handler does. -/
theorem send_admitted {pipeline : Pipeline γ} {authorizeAsync : String → Policy → Option Bool}
    {caller : Caller} {request : γ} (h : Admits pipeline authorizeAsync caller request)
    (handle : σ → Reply ρ × σ) (s : σ) :
    send pipeline authorizeAsync caller request handle s = handle s := by
  simp only [send, h.endpoint, h.valid, h.command]

/-- A request that is not admitted is not answered with a result and changes nothing. -/
theorem send_refused {pipeline : Pipeline γ} {authorizeAsync : String → Policy → Option Bool}
    {caller : Caller} {request : γ} (h : ¬ Admits pipeline authorizeAsync caller request)
    (handle : σ → Reply ρ × σ) (s : σ) :
    (send pipeline authorizeAsync caller request handle s).2 = s ∧
      ∀ r, (send pipeline authorizeAsync caller request handle s).1 ≠ .ok r := by
  have hrefusal : ∀ (refusal : Refusal) (r : ρ), refusal.reply ≠ .ok r := by
    intro refusal r
    cases refusal <;> simp [Refusal.reply]
  cases he : authorizeEndpoint pipeline.endpoint caller with
  | some refusal => simp [send, he, hrefusal]
  | none => cases hv : validate pipeline.validators request with
    | cons failure failures => simp [send, he, hv]
    | nil => cases hc : authorizationBehaviour authorizeAsync pipeline.command caller with
      | some refusal => simp [send, he, hv, hc, hrefusal]
      | none => exact absurd ⟨he, hv, hc⟩ h

/-- Only a handler answers with a result. -/
theorem send_ok {pipeline : Pipeline γ} {authorizeAsync : String → Policy → Option Bool}
    {caller : Caller} {request : γ} {handle : σ → Reply ρ × σ} {s : σ} {r : ρ}
    (h : (send pipeline authorizeAsync caller request handle s).1 = .ok r) :
    Admits pipeline authorizeAsync caller request ∧ (handle s).1 = .ok r := by
  by_cases hadmits : Admits pipeline authorizeAsync caller request
  · rw [send_admitted hadmits] at h
    exact ⟨hadmits, h⟩
  · exact absurd h ((send_refused hadmits handle s).2 r)

/-- What holds of the state is kept by a request whose handler keeps it. -/
theorem send_keeps {pipeline : Pipeline γ} {authorizeAsync : String → Policy → Option Bool}
    {caller : Caller} {request : γ} {handle : σ → Reply ρ × σ} {s : σ} (P : σ → Prop) (hs : P s)
    (hhandle : Admits pipeline authorizeAsync caller request → P (handle s).2) :
    P (send pipeline authorizeAsync caller request handle s).2 := by
  by_cases h : Admits pipeline authorizeAsync caller request
  · rw [send_admitted h]
    exact hhandle h
  · rw [(send_refused h handle s).1]
    exact hs

/-- An endpoint with an attribute is closed to anonymous callers. -/
theorem authorizeEndpoint_authenticated {attributes : List AuthorizeAttribute} {caller : Caller}
    (hne : attributes ≠ []) (h : authorizeEndpoint attributes caller = none) :
    ∃ principal, caller = some principal := by
  cases caller with
  | some principal => exact ⟨principal, rfl⟩
  | none =>
    cases attributes with
    | nil => exact absurd rfl hne
    | cons a as => simp [authorizeEndpoint] at h

/-- A command with an attribute runs only for a caller with an id. -/
theorem authorizationBehaviour_identified {authorizeAsync : String → Policy → Option Bool}
    {attributes : List AuthorizeAttribute} {caller : Caller} (hne : attributes ≠ [])
    (h : authorizationBehaviour authorizeAsync attributes caller = none) :
    ∃ principal id, caller = some principal ∧ principal.id = some id ∧
      isNullOrWhiteSpace (some id) = false := by
  cases attributes with
  | nil => exact absurd rfl hne
  | cons b bs =>
    simp only [authorizationBehaviour, List.isEmpty_cons, Bool.false_eq_true, if_false] at h
    cases hid : caller.bind Principal.id with
    | none => simp [hid, isNullOrWhiteSpace] at h
    | some id =>
      obtain ⟨principal, hcaller, hprincipal⟩ := Option.bind_eq_some_iff.mp hid
      refine ⟨principal, id, hcaller, hprincipal, ?_⟩
      cases hwhite : isNullOrWhiteSpace (some id) with
      | true => simp [hid, hwhite] at h
      | false => rfl

/-- A command with a policy runs only for a user whom the store finds to satisfy it. -/
theorem authorizationBehaviour_policy {authorizeAsync : String → Policy → Option Bool}
    {attributes : List AuthorizeAttribute} {caller : Caller} {a : AuthorizeAttribute}
    {policy : Policy} (hmem : a ∈ attributes) (hpolicy : a.policy = some policy)
    (h : authorizationBehaviour authorizeAsync attributes caller = none) :
    ∃ principal id, caller = some principal ∧ principal.id = some id ∧
      authorizeAsync id policy = some true := by
  obtain ⟨principal, id, rfl, hid, hwhite⟩ :=
    authorizationBehaviour_identified (List.ne_nil_of_mem hmem) h
  refine ⟨principal, id, rfl, hid, ?_⟩
  have hempty : attributes.isEmpty = false := by
    simpa using List.ne_nil_of_mem hmem
  simp only [authorizationBehaviour, hempty, Option.bind_some, hid, hwhite, Bool.false_eq_true,
    if_false, Option.getD_some] at h
  split at h
  · simp at h
  · have hasked := List.findSome?_eq_none_iff.mp h policy
      (List.mem_filterMap.mpr ⟨a, hmem, hpolicy⟩)
    cases hanswer : authorizeAsync id policy with
    | none => simp [hanswer] at hasked
    | some granted => cases granted <;> simp [hanswer] at hasked ⊢

end Requests
