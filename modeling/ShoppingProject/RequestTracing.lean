import ShoppingProject.AuditIdentity
import ShoppingProject.AuditReadback
import ShoppingProject.GlobalExceptionHandler

/-!
# The correlation id of a request

The first middleware takes the id of a request from a header, or makes one up, and names it in
the answer. The audit events of the request carry what is read from the header a second time, and
are consumed into the audit logs. An error is answered with the id that is found under another
key. The columns of the logs decide which ids can be stored.
-/
namespace RequestTracing

open AuditChain (AuditEvent AuditLog isRetained)
open AuditInterceptor AuditReadback Runs
open DomainEvents (DateTime DomainEvent)
open GlobalExceptionHandler (HostEnvironment tryHandleAsync)
open SaveChanges (Database)

abbrev StringValues := List String

/-- A header that has been sent has at least one value. -/
structure HttpRequest where
  path : String
  traceIdentifier : String
  correlationIds : StringValues
  userAgents : StringValues
  remoteIp : Option String

structure HttpContext where
  request : HttpRequest
  items : List (String × StringValues)
  responseHeaders : List (String × StringValues)

/-- The header, and the key under which the middleware leaves the id. -/
def correlationIdHeader : String := "X-Correlation-ID"

/-- The key under which the exception handler looks for it. -/
def itemsKey : String := "CorrelationId"

/-- `CorrelationIdMiddleware`, with the id that it makes up. -/
def invokeAsync (newGuid : String) (request : HttpRequest) : HttpContext :=
  let correlationId := match request.correlationIds with
    | [] => [newGuid]
    | id :: ids => id :: ids
  ⟨request, [(correlationIdHeader, correlationId)], [(correlationIdHeader, correlationId)]⟩

namespace HttpContext

/-- `RequestContext.CorrelationId` -/
def correlationId (context : HttpContext) : String :=
  context.request.correlationIds.head?.getD context.request.traceIdentifier

/-- What the audit interceptor reads, with the claims of the user. -/
def toRequest (userId userEmail : Option String) (context : HttpContext) : Request where
  userId := userId
  userEmail := userEmail
  correlationId := some context.correlationId
  remoteIp := context.request.remoteIp
  userAgent := context.request.userAgents.head?

/-- What the exception handler reads. -/
def toHandler (context : HttpContext) : GlobalExceptionHandler.HttpContext where
  path := context.request.path
  traceIdentifier := context.request.traceIdentifier
  correlationId := (context.items.lookup itemsKey).map fun values => some (",".intercalate values)

/-- The ids that the client is answered with. -/
def answered (context : HttpContext) : StringValues :=
  (context.responseHeaders.lookup correlationIdHeader).getD []

end HttpContext

/-! ## Errors -/

/-- The problem document of a failed request never names the id of the request. -/
theorem problem_names_no_id (environment : HostEnvironment) (newGuid : String)
    (request : HttpRequest) (e : ExceptionPipeline.Exception)
    (extension : GlobalExceptionHandler.Extension) : ("correlationId", extension) ∉
      (tryHandleAsync environment (invokeAsync newGuid request).toHandler e).body.extensions := by
  have hnone : (invokeAsync newGuid request).toHandler.correlationId = none := rfl
  cases hproduction : environment.isProduction <;> cases e <;>
    simp [tryHandleAsync, GlobalExceptionHandler.mapExceptionToProblemDetails,
      GlobalExceptionHandler.createProblem, GlobalExceptionHandler.createDefaultProblem,
      GlobalExceptionHandler.correlationExtension, hnone, hproduction]

/-! ## Audit events -/

/-- Every event that has been published carries the id. -/
def Carry (id : Option String) (s : Session) : Prop := ∀ a ∈ s.published, a.correlationId = id

section

variable {c : Circumstances} {s : Session}

theorem Carry.intercept (h : Carry c.request.correlationId s) (i upTo : ℕ) :
    Carry c.request.correlationId (intercept c i upTo s) := by
  intro a ha
  rcases List.mem_append.mp ha with ha | ha
  · exact h a ha
  · obtain ⟨e, -, -, rfl⟩ := AuditIdentity.mem_auditEntries ha
    rfl

theorem Carry.storeSave (h : Carry c.request.correlationId s) (i : ℕ) :
    Carry c.request.correlationId (storeSave c i s) := by
  unfold AuditInterceptor.storeSave
  split
  · exact h.intercept (i + 1) s.tracked.length
  · exact h

theorem Carry.storeSaveFails (h : Carry c.request.correlationId s) (i : ℕ) :
    Carry c.request.correlationId (storeSaveFails c i s) := by
  unfold AuditInterceptor.storeSaveFails
  split
  · exact h.intercept (i + 1) _
  · exact h

theorem Carry.dispatchEvents (h : Carry c.request.correlationId s) (i : ℕ)
    (es : List DomainEvent) :
    Carry c.request.correlationId (dispatchEvents c i es s).session := by
  induction es generalizing i s with
  | nil => exact h
  | cons e es ih =>
    have hrow : Carry c.request.correlationId (trackRow e s) := h
    simp only [AuditInterceptor.dispatchEvents]
    cases c.faults.dispatch i with
    | encodeFails => exact h
    | writeFails => exact hrow.storeSaveFails i
    | handlerFails => exact hrow.storeSave i
    | succeeds => exact ih (hrow.storeSave i) (i + 1)

theorem Carry.dispatchDomainEvents (h : Carry c.request.correlationId s) :
    Carry c.request.correlationId (dispatchDomainEvents c s).session := by
  unfold AuditInterceptor.dispatchDomainEvents
  split
  · exact h
  · exact Carry.dispatchEvents (s := { s with tracked := clearDomainEvents s.tracked }) h 0 _

theorem Carry.finalWrite (h : Carry c.request.correlationId s) :
    Carry c.request.correlationId (finalWrite c s).session := by
  unfold AuditInterceptor.finalWrite
  split
  · exact h
  · split <;> exact h

end

/-- Every audit event of a save carries the id that the save's request is known by. -/
theorem saveChangesAsync_carry (c : Circumstances) (db : Database Change) (tracked : List Entry) :
    Carry c.request.correlationId (saveChangesAsync c db tracked).session := by
  have hstart : Carry c.request.correlationId ⟨db, tracked, [], []⟩ := fun a ha => by cases ha
  unfold saveChangesAsync
  simp only
  split
  · exact hstart.intercept 0 _
  · have hdispatched := (hstart.intercept 0 tracked.length).dispatchDomainEvents
    split
    · exact hdispatched.finalWrite
    · exact hdispatched

/-- A request with these ids that adds a cart. -/
def requestWith (ids : StringValues) : HttpRequest := ⟨"/api/v1/carts", "0HN1", ids, [], none⟩

def adding (ids : StringValues) : Circumstances where
  faults := ⟨false, false, fun _ => .succeeds, false⟩
  request := (invokeAsync "6f9619ff" (requestWith ids)).toRequest (some "u1") none
  serialize := fun _ => "\x7b\x7d"
  utcNow := fun _ => 0
  published := fun _ => 0
  generatedKey := fun _ id => id

def newCart : Entry := ⟨.cart, 1, .added, false, [], [], []⟩

/-- The audit event of the cart that is added. -/
def addedEvent (ids : StringValues) : AuditEvent :=
  auditEvent (adding ids).serialize (adding ids).request 0 (stamp (adding ids).request 0 newCart)

theorem adding_published (ids : StringValues) :
    (saveChangesAsync (adding ids) ⟨[], []⟩ [newCart]).session.published = [addedEvent ids] := rfl

/-- The table of the logs, with the key that comes next. -/
structure Logs where
  rows : List AuditLog
  next : ℤ

inductive Label where
  /-- A consumer takes an event, after it has read the newest log at some time before. -/
  | consume (r : Received) (previousLog : Option AuditLog)
  | cleanup (utcNow : DateTime)

/-- A log that the database refuses is an exception, after which the event is delivered again or
given up. -/
def step (columns : Columns) (sha : Sha256) (s : Logs) : Label → Option Logs
  | .consume r previousLog =>
    match store columns r.timestamp (consume sha r previousLog s.next) with
    | some row => some ⟨s.rows ++ [row], s.next + 1⟩
    | none => some s
  | .cleanup utcNow => some { s with rows := s.rows.filter (isRetained utcNow) }

/-- The column of the ids refuses this one. -/
def Refused (columns : Columns) (id : String) : Prop := keep columns.correlationId (some id) = none

/-- An id is too long when what does not fit are not only blanks. -/
theorem refused_of_long {columns : Columns} {n : ℕ} {id : String}
    (hcolumn : columns.correlationId = some n) (hlong : ∃ x ∈ id.toList.drop n, x ≠ ' ') :
    Refused columns id := by
  obtain ⟨x, hx, hblank⟩ := hlong
  have hall : (id.toList.drop n).all (· == ' ') = false := by
    rw [List.all_eq_false]
    exact ⟨x, hx, by simpa using hblank⟩
  simp [Refused, keep, keepText, hcolumn, hall]

theorem store_refused {columns : Columns} {zone : Timestamps.DateTimeOffset} {log : AuditLog}
    {id : String} (hlog : log.correlationId = some id) (h : Refused columns id) :
    store columns zone log = none := by
  cases hstore : store columns zone log with
  | none => rfl
  | some row =>
    have hkept := (store_stored hstore).correlationId
    rw [hlog, h] at hkept
    cases hkept

/-- What a save does to the database does not depend on whose request it is. -/
theorem saveChangesAsync_request (c : Circumstances) (request : Request) (db : Database Change)
    (tracked : List Entry) :
    (saveChangesAsync { c with request } db tracked).session.database =
        (saveChangesAsync c db tracked).session.database ∧
      (saveChangesAsync { c with request } db tracked).returned =
        (saveChangesAsync c db tracked).returned := by
  have herase : (saveChangesAsync { c with request } db tracked).erase =
      (saveChangesAsync c db tracked).erase := by
    rw [saveChangesAsync_erase, saveChangesAsync_erase]
  exact ⟨congrArg (fun o => o.session.database) herase, congrArg (fun o => o.returned) herase⟩

/-- One character more than the column has. -/
def longId : String := String.ofList (List.replicate 101 'a')

def unlogged : Received where
  event := addedEvent [longId]
  timestamp := { utc with utcTicks := 0 }
  ticks := rfl

end RequestTracing
