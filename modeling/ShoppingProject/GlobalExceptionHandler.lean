import ShoppingProject.ExceptionPipeline
import ShoppingProject.ProductCache

/-!
# The global exception handler

An exception that leaves the pipeline becomes a problem document, whose status, title
and code depend on the type of the exception. The kind of an exception says which status
the caller should see; the results compare it with the status after the pipeline has
caught and rethrown what the handler raised.
-/
namespace GlobalExceptionHandler

open DomainEvents (Product)
open ExceptionPipeline
open ProductCache (UpdateProductCommand findAsync updateDetails)
open Requests (Caller Policy authorizePolicy)
open Validation (Rule greaterThan isNullOrWhiteSpace rule utf16Length validate)

inductive ErrorType where
  | none | validation | notFound | conflict | unauthorized | forbidden | internal
  deriving DecidableEq, Repr

def ErrorType.toString : ErrorType → String
  | .none => "None"
  | .validation => "Validation"
  | .notFound => "NotFound"
  | .conflict => "Conflict"
  | .unauthorized => "Unauthorized"
  | .forbidden => "Forbidden"
  | .internal => "Internal"

namespace RfcTypes

def internalServerError : String := "https://tools.ietf.org/html/rfc7231#section-6.6.1"

def notFound : String := "https://tools.ietf.org/html/rfc7231#section-6.5.4"

def forbidden : String := "https://tools.ietf.org/html/rfc7231#section-6.5.3"

def badRequest : String := "https://tools.ietf.org/html/rfc7231#section-6.5.1"

def validation : String := "https://tools.ietf.org/html/rfc4918#section-11.2"

def unauthorized : String := "https://tools.ietf.org/html/rfc7235#section-3.1"

end RfcTypes

structure HttpContext where
  path : String
  traceIdentifier : String
  /-- The item under the key of the correlation id, which may hold nothing. -/
  correlationId : Option (Option String)

structure HostEnvironment where
  environmentName : String

/-- The names of environments are compared without regard to case. -/
def HostEnvironment.isProduction (environment : HostEnvironment) : Bool :=
  environment.environmentName.toLower == "production"

inductive Extension where
  | text (value : String) : Extension
  | errors (value : List (String × List String)) : Extension
  | stackTrace : Extension
  deriving DecidableEq

structure ProblemDetails where
  path : String
  status : Nat
  title : String
  detail : String
  type : String
  extensions : List (String × Extension)
  deriving DecidableEq

def correlationExtension (context : HttpContext) : List (String × Extension) :=
  match context.correlationId with
  | some id => [("correlationId", .text (id.getD ""))]
  | none => []

def createProblem (environment : HostEnvironment) (context : HttpContext) (status : Nat)
    (title detail type : String) (errorType : ErrorType) (errorCode : String)
    (extension : Option (String × Extension)) : ProblemDetails where
  path := context.path
  status := status
  title := title
  detail := detail
  type := type
  extensions :=
    [("errorType", .text errorType.toString), ("errorCode", .text errorCode),
      ("traceId", .text context.traceIdentifier)] ++ correlationExtension context ++
      extension.toList ++
      if environment.isProduction then []
      else [("environment", .text environment.environmentName)]

def createDefaultProblem (environment : HostEnvironment) (context : HttpContext)
    (e : Exception) : ProblemDetails where
  path := context.path
  status := 500
  title := "Internal Server Error"
  detail :=
    if environment.isProduction then
      "An internal server error occurred. Please try again later."
    else e.message
  type := RfcTypes.internalServerError
  extensions :=
    [("errorType", .text ErrorType.internal.toString),
      ("errorCode", .text "INTERNAL_SERVER_ERROR")] ++ correlationExtension context ++
      if environment.isProduction then [] else [("stackTrace", .stackTrace)]

def mapExceptionToProblemDetails (environment : HostEnvironment) (context : HttpContext)
    (e : Exception) : ProblemDetails :=
  match e with
  | .notFound m => createProblem environment context 404 "Resource Not Found" m
    RfcTypes.notFound .notFound "NOT_FOUND" none
  | .forbiddenAccess m | .notAccess m => createProblem environment context 403
    "Access Forbidden" m RfcTypes.forbidden .forbidden "FORBIDDEN" none
  | .badRequest m => createProblem environment context 400 "Bad Request" m
    RfcTypes.badRequest .conflict "BAD_REQUEST" none
  | .validation errors => createProblem environment context 422 "Validation Failed" e.message
    RfcTypes.validation .validation "VALIDATION_ERROR" (some ("errors", .errors errors))
  | .unauthorizedAccess m => createProblem environment context 401 "Unauthorized" m
    RfcTypes.unauthorized .unauthorized "UNAUTHORIZED" none
  | _ => createDefaultProblem environment context e

structure Response where
  statusCode : Nat
  body : ProblemDetails
  deriving DecidableEq

def tryHandleAsync (environment : HostEnvironment) (context : HttpContext) (e : Exception) :
    Response :=
  let problemDetails := mapExceptionToProblemDetails environment context e
  ⟨problemDetails.status, problemDetails⟩

/-- The status that belongs to a kind of error, however the pipeline treats its type. -/
def kindStatus : Exception → Nat
  | .notFound _ | .guardNotFound _ => 404
  | .forbiddenAccess _ | .notAccess _ => 403
  | .badRequest _ => 400
  | .validation _ => 422
  | .unauthorizedAccess _ => 401
  | _ => 500

/-- A failed guard is not told apart from an internal error. -/
theorem tryHandleAsync_statusCode (environment : HostEnvironment) (context : HttpContext)
    (e : Exception) : (tryHandleAsync environment context e).statusCode =
      match e with
      | .guardNotFound _ => 500
      | e => kindStatus e := by
  cases e <;> rfl

/-- In production an internal error is answered without a word about the exception. -/
theorem tryHandleAsync_production {environment : HostEnvironment}
    (hproduction : environment.isProduction = true) (context : HttpContext) {e e' : Exception}
    (h : (tryHandleAsync environment context e).statusCode = 500)
    (h' : (tryHandleAsync environment context e').statusCode = 500) :
    tryHandleAsync environment context e = tryHandleAsync environment context e' := by
  have hdefault : ∀ e, (tryHandleAsync environment context e).statusCode = 500 →
      mapExceptionToProblemDetails environment context e =
        mapExceptionToProblemDetails environment context (.other "" "") := by
    intro e h
    cases e <;> simp [tryHandleAsync_statusCode, kindStatus] at h <;>
      simp [mapExceptionToProblemDetails, createDefaultProblem, hproduction]
  simp only [tryHandleAsync, hdefault e h, hdefault e' h']

/-- The handler may raise the exception: its kind survives the catch clauses. -/
def Survives : Exception → Prop
  | .notFound _ | .businessRule _ | .persistence _ | .unhandledRequest _ | .other _ _ => True
  | .guardNotFound _ | .badRequest _ | .forbiddenAccess _ | .notAccess _ | .validation _
  | .unauthorizedAccess _ => False

/-- A guard's exception is the one kind that is lost wherever it is raised. -/
def IsGuard : Exception → Prop
  | .guardNotFound _ => True
  | _ => False

theorem statusCode_eq_kindStatus_iff (environment : HostEnvironment) (context : HttpContext)
    (e : Exception) :
    (tryHandleAsync environment context e).statusCode = kindStatus e ↔ ¬ IsGuard e := by
  cases e <;> simp [tryHandleAsync_statusCode, kindStatus, IsGuard]

theorem statusCode_rethrown_iff (environment : HostEnvironment) (context : HttpContext)
    (requestName : String) (e : Exception) :
    (tryHandleAsync environment context (rethrown requestName e)).statusCode = kindStatus e ↔
      Survives e := by
  cases e <;> simp [tryHandleAsync_statusCode, rethrown, kindStatus, Survives]

section Statuses

variable {γ ρ : Type} [DecidableEq ρ] [Inhabited ρ]

/-- The status of the answer to a request that ends in an exception. -/
def errorStatus (environment : HostEnvironment) (context : HttpContext) :
    Except Exception ρ → Option Nat
  | .ok _ => none
  | .error e => some (tryHandleAsync environment context e).statusCode

/-- An exception is answered with the status of its kind exactly if it is not a failed guard
and, where the handler raises it, of a kind that the catch clauses do not turn into another. -/
theorem status_exact_iff (environment : HostEnvironment) (context : HttpContext)
    (registration : Registration γ ρ) (services : Services γ ρ) (caller : Caller) (request : γ)
    {e : Exception} (h : raised registration services caller request = .error e) :
    errorStatus environment context (send registration services caller request) =
        some (kindStatus e) ↔
      ¬ IsGuard e ∧ (Reaches registration services caller request →
        registration.handle request = .error e → Survives e) := by
  have hguard : Survives e → ¬ IsGuard e := by
    cases e <;> simp [Survives, IsGuard]
  by_cases hhandler : Reaches registration services caller request ∧
      ∃ e', registration.handle request = .error e'
  · obtain ⟨hreaches, e', hhandle⟩ := hhandler
    have hraised := raised_of_handler hreaches hhandle
    obtain rfl : e' = e := by simpa [h] using hraised.symm
    rw [send_of_handler hreaches hhandle, errorStatus, Option.some_inj, statusCode_rethrown_iff]
    exact ⟨fun hsurvives => ⟨hguard hsurvives, fun _ _ => hsurvives⟩,
      fun hcond => hcond.2 hreaches hhandle⟩
  · rw [send_of_elsewhere hhandler, h, errorStatus, Option.some_inj, statusCode_eq_kindStatus_iff]
    exact ⟨fun hnot => ⟨hnot, fun hreaches hhandle => absurd ⟨hreaches, e, hhandle⟩ hhandler⟩,
      fun hcond => hcond.1⟩

end Statuses

section Products

variable (rows : List Product) (saveChangesAsync : Product → Except Exception Unit)

/-- `Guard.Against.NotFound(key, entity)`. -/
def guardAgainstNotFound {α : Type} (key : Int) : Option α → Except Exception α
  | some entity => .ok entity
  | none => .error (.guardNotFound
    ("Queried object entity was not found, Key: " ++ toString key))

def changeProduct (id : Int) (change : Product → Product) : Except Exception Unit := do
  let entity ← guardAgainstNotFound id (findAsync id rows)
  saveChangesAsync (change entity)

/-- `UpdateProductCommandHandler.Handle`; the one for details does the same. -/
def updateProduct (c : UpdateProductCommand) : Except Exception Unit :=
  changeProduct rows saveChangesAsync c.id (updateDetails c)

/-- `DeleteProductCommandHandler.Handle`. -/
def deleteProduct (id : Int) : Except Exception Unit :=
  changeProduct rows saveChangesAsync id fun p => { p with status := .deleted }

/-- A change of a product that does not exist is answered as an internal error, though the
product is what was not found. -/
theorem changeProduct_missing {γ : Type} (environment : HostEnvironment) (context : HttpContext)
    (registration : Registration γ Unit) (services : Services γ Unit) (caller : Caller)
    (request : γ) {id : Int} {change : Product → Product}
    (hreaches : Reaches registration services caller request)
    (hhandle : registration.handle request = changeProduct rows saveChangesAsync id change)
    (hmissing : findAsync id rows = none) :
    ∃ e, raised registration services caller request = .error e ∧ kindStatus e = 404 ∧
      errorStatus environment context (send registration services caller request) = some 500 := by
  have hraises : registration.handle request = .error (.guardNotFound
      ("Queried object entity was not found, Key: " ++ toString id)) := by
    rw [hhandle, changeProduct, hmissing]
    rfl
  refine ⟨_, raised_of_handler hreaches hraises, rfl, ?_⟩
  rw [send_of_handler hreaches hraises]
  rfl

/-- `UpdateProductCommandValidator`. -/
def updateProductValidator (isAbsoluteUri : Option String → Bool) :
    List (Rule UpdateProductCommand) :=
  [rule "Title" "Product title is required." fun c => !isNullOrWhiteSpace c.title,
    rule "Title" "Product title must not exceed 200 characters." fun c =>
      c.title.all fun title => utf16Length title ≤ 200,
    greaterThan 0 "Price" "Price must be greater than zero." UpdateProductCommand.price,
    rule "Description" "Description is required." fun c => !isNullOrWhiteSpace c.description,
    rule "Description" "Description must not exceed 1000 characters." fun c =>
      c.description.all fun description => utf16Length description ≤ 1000,
    rule "Image" "Image URL is required." fun c => !isNullOrWhiteSpace c.image,
    rule "Image" "Image must be a valid URL." fun c => isAbsoluteUri c.image,
    rule "Category" "Category is required." fun c => !isNullOrWhiteSpace c.category]

def updateProductCommand (isAbsoluteUri : Option String → Bool) :
    Registration UpdateProductCommand Unit where
  requestName := "UpdateProductCommand"
  validators := [fun c => .ok (validate (updateProductValidator isAbsoluteUri) c)]
  attributes := [authorizePolicy .canManageProducts]
  cacheable := none
  handle := updateProduct rows saveChangesAsync

end Products

/-- An administrator's request with services that answer. -/
def calmServices {γ : Type} : Services γ Unit where
  getUserNameAsync _ := .ok (some "ada")
  getUserNameAsyncLater _ := .ok (some "ada")
  authorizeAsync _ _ := .ok true
  serialize _ := .ok "{}"
  hash := id
  getAsync _ := .ok ()
  setAsync _ _ _ := .ok ()
  elapsedMilliseconds := 20

def ada : Caller := some ⟨some "u1", [Requests.Roles.administrator]⟩

def renamePhone : UpdateProductCommand :=
  ⟨7, some "Phone", 10, some "A phone", some "https://example.org/phone.png", some "phones"⟩

/-- An anonymous request is answered 401, which is what the behaviour that stops it raises. -/
theorem status_exact_anonymous :
    errorStatus ⟨"Production"⟩ ⟨"/api/v1/products/7", "t1", none⟩
      (send (updateProductCommand [] (fun _ => .ok ()) fun _ => true) calmServices none
        renamePhone) = some 401 :=
  (status_exact_iff ⟨"Production"⟩ ⟨"/api/v1/products/7", "t1", none⟩
    (updateProductCommand [] (fun _ => .ok ()) fun _ => true) calmServices none renamePhone
    (e := unauthorizedAccessException) (by decide +kernel)).mpr
      ⟨fun h => h, fun hreaches => absurd (hreaches.authorized (by decide)) (by decide)⟩

/-- A product that is not found is answered as an internal error. -/
theorem missing_product_answered_500 :
    raised (updateProductCommand [] (fun _ => .ok ()) fun _ => true) calmServices ada renamePhone =
        .error (.guardNotFound "Queried object entity was not found, Key: 7") ∧
      kindStatus (.guardNotFound "Queried object entity was not found, Key: 7") = 404 ∧
      errorStatus ⟨"Production"⟩ ⟨"/api/v1/products/7", "t1", none⟩
        (send (updateProductCommand [] (fun _ => .ok ()) fun _ => true) calmServices ada
          renamePhone) = some 500 := by
  decide +kernel

end GlobalExceptionHandler
