import ShoppingProject.Identity
import ShoppingProject.Json
import ShoppingProject.WebSearch
import ShoppingProject.WebSession

/-!
# The answer to a registration

The server answers a registration with a `ServiceResult`, whose flag is `isSuccess` and
whose failure is told in `message`. The web client looks for `succeeded` and `errors`, finds
neither in any answer, and takes every registration for a failure.
-/
namespace RegistrationEnvelope

open WebSearch (truthy)
open WebSession (AuthResult)

structure ServiceResult where
  isSuccess : Bool
  data : Option String
  message : String
  statusCode : Int
  location : String
  deriving DecidableEq

namespace ServiceResult

def success (data : String) : ServiceResult := ⟨true, some data, "Operation successful", 200, ""⟩

def fail (message : String) : ServiceResult := ⟨false, none, message, 400, ""⟩

/-- The answer as it is sent, its properties in camel case. -/
def toJson (r : ServiceResult) : Json :=
  .obj [("isSuccess", .bool r.isSuccess), ("data", r.data.elim .null .str),
    ("message", .str r.message), ("statusCode", .num r.statusCode), ("location", .str r.location)]

end ServiceResult

/-- What a request is answered with, if it is answered with 200. -/
def sent : Requests.Reply (Requests.ServiceResult Identity.Answer) → Option ServiceResult
  | .ok (.success (.text data)) => some (.success data)
  | .ok (.fail message) => some (.fail message)
  | _ => none

/-! ## The client -/

def succeeded (body : Json) : Bool := (body.field "succeeded").any truthy

/-- `errors`, if it is there and an array of strings, as its type says. -/
def errors (body : Json) : Option (List String) :=
  match body.field "errors" with
  | some (.arr items) => items.mapM Json.asStr
  | _ => none

/-- `errors?.join(', ') || 'Registration failed'`. -/
def errorMessage (body : Json) : String :=
  let joined := (errors body).elim "" (String.intercalate ", ")
  if joined = "" then "Registration failed" else joined

/-- `login`, from the data of its answer. -/
def login (data : Option AuthResult) : Except String AuthResult :=
  match data with
  | none => .error "Login failed"
  | some authResult => .ok authResult

/-- `register`, from the body of its answer and the data of the login that follows. -/
def register (body : Json) (data : Option AuthResult) : Except String AuthResult :=
  if succeeded body then login data else .error (errorMessage body)

/-- The call resolves if the server reports success, and else its error tells why. -/
structure Faithful (r : ServiceResult) (outcome : Except String AuthResult) : Prop where
  resolves : outcome.isOk = true ↔ r.isSuccess = true
  message : r.isSuccess = false → ∀ text, outcome = .error text →
    r.message.toList <:+: text.toList

theorem field_missing (r : ServiceResult) :
    r.toJson.field "succeeded" = none ∧ r.toJson.field "errors" = none := by
  simp [ServiceResult.toJson, Json.field]

/-- Whatever the server answers, the call rejects. -/
theorem register_rejects (r : ServiceResult) (data : Option AuthResult) :
    register r.toJson data = .error "Registration failed" := by
  have hsucceeded : succeeded r.toJson = false := by simp [succeeded, field_missing r]
  have herrors : errors r.toJson = none := by simp [errors, field_missing r]
  simp [register, hsucceeded, errorMessage, herrors]

/-- A user who has been registered is told that the registration failed. -/
theorem registered_rejected {fw : Identity.Framework} {env : Identity.Env}
    {c : Identity.RegisterCommand} {s : Identity.Store} {text : String}
    (h : (Identity.registerAsync fw env c s).1 = .ok (.success (.text text)))
    (data : Option AuthResult) :
    ∃ r, sent (Identity.registerAsync fw env c s).1 = some r ∧ r.isSuccess = true ∧
      register r.toJson data = .error "Registration failed" := by
  rw [h]
  exact ⟨.success text, rfl, rfl, register_rejects _ data⟩

/-- No answer to a registration logs anybody in. -/
theorem register_keeps_session (r : ServiceResult) (data : Option AuthResult)
    (s : WebSession.State) :
    WebSession.step s (.register (succeeded r.toJson) data) = some s := by
  have hsucceeded : succeeded r.toJson = false := by simp [succeeded, field_missing r]
  rw [hsucceeded]
  rfl

/-- The client follows the server exactly where it reports a failure with a message that is a
part of the one text that the client has. -/
theorem faithful_iff (r : ServiceResult) (authResult : AuthResult) :
    Faithful r (register r.toJson (some authResult)) ↔
      r.isSuccess = false ∧ r.message.toList <:+: "Registration failed".toList := by
  rw [register_rejects]
  constructor
  · intro h
    have hfails : r.isSuccess = false := by
      rw [← Bool.not_eq_true, ← h.resolves]
      exact Bool.false_ne_true
    exact ⟨hfails, h.message hfails _ rfl⟩
  · rintro ⟨hfails, hmessage⟩
    refine ⟨?_, fun _ text htext => ?_⟩
    · rw [hfails]
      exact iff_of_false Bool.false_ne_true Bool.false_ne_true
    · rw [← Except.error.inj htext]
      exact hmessage

theorem success_rejected : ¬ ∀ (r : ServiceResult) (authResult : AuthResult),
    Faithful r (register r.toJson (some authResult)) := by
  intro hall
  have hfaithful := hall (.success "User registered successfully.") ⟨none, "a", "r"⟩
  have hresolves := hfaithful.resolves.mpr rfl
  rw [register_rejects] at hresolves
  cases hresolves

end RegistrationEnvelope
