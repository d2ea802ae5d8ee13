import Courier.Health.Check
import Courier.Pipeline.Process
import Courier.Router.Extract
import Courier.Router.Route

/-!
# Answering calls

Every call gets a status code and a body. What the pipeline answers is wrapped in an envelope that
tells success from failure; a request that cannot be taken apart is answered with a line of text.

`respond` is the service's handlers in one: `health_check`, `create_notification`,
`list_notifications`, `get_notification` and `update_status`.
-/

set_option autoImplicit false

namespace Courier.Router

/-- A call as it comes in. -/
structure Call where
  method : String
  path : String
  query : String := ""
  contentType : Option String := none
  body : String := ""
  deriving DecidableEq, Repr

inductive Payload where
  | empty
  | text (s : String)
  | json (v : Json)
  deriving DecidableEq

/-- What a caller gets. -/
structure Answer where
  status : Nat
  payload : Payload
  contentType : Option String := none
  /-- The methods a path is there for, when the call's is none of them. -/
  allow : Option String := none
  deriving DecidableEq

/-- The router of a pipeline. -/
structure Service where
  pipeline : Pipeline
  /-- How long a health check waits for a dependency, in milliseconds. -/
  healthTimeout : Nat

def Answer.json (status : Nat) (v : Json) : Answer :=
  ⟨status, .json v, some "application/json", none⟩

def Answer.text (status : Nat) (s : String) : Answer :=
  ⟨status, .text s, some "text/plain; charset=utf-8", none⟩

def Answer.bare (status : Nat) (allow : Option String) : Answer := ⟨status, .empty, none, allow⟩

def Answer.bad (e : BadRequest) : Answer := .text e.status e.message

/-- The envelope of a success. -/
def successBody (data : Json) (message : String) : Json :=
  .object [("success", .bool true), ("data", data), ("message", .string message)]

/-- The envelope of a failure. -/
def failureBody (e : Failure) (message : String) : Json :=
  .object [
    ("success", .bool false),
    ("error", .object [("kind", .string e.kind.name), ("detail", .string e.message)]),
    ("message", .string message)]

/-- The status code of a failure (`status_of`): what may pass by itself, what is not there, what
took too long, and all the rest. The kind of the failure decides, whatever step it is from. -/
def failureStatus (e : Failure) : Nat :=
  match e.kind with
  | .circuitOpen | .tooManyRequests => 503
  | .notFound => 404
  | .deadlineExceeded => 504
  | _ => 500

/-- The answer for a failure (`error_response`). -/
def failed (e : Failure) (message : String) : Answer :=
  .json (failureStatus e) (failureBody e message)

/-- The answer for a reply: a notification that is on its way has been created. One that is kept for
repetition is answered like the first time. -/
def replied (reply : Reply) : Answer :=
  let status := if reply.status = .pending then 201 else 200
  .json status (successBody (Reply.codec.encode reply) (reply.message.getD reply.status.name))

def recordAnswer (result : Except Failure Notification) (done failure : String) : Answer :=
  match result with
  | .ok record => .json 200 (successBody (Notification.codec.encode record) done)
  | .error e => failed e failure

def listAnswer (result : Except Failure (List Notification)) : Answer :=
  match result with
  | .ok records =>
    .json 200 (successBody (.array (records.map Notification.codec.encode))
      "Notifications retrieved")
  | .error e => failed e "Failed to list notifications"

/-- The whole report in any case; the code tells whether the service takes requests. -/
def healthAnswer (report : HealthReport) : Answer :=
  .json (if report.status.isServing then 200 else 503) (HealthReport.codec.encode report)

/-- Answers a call, with a body even for `HEAD`. The two calls about one record and the list have a
context of their own, like a submission; the health check has none. -/
def respond (s : Service) (call : Call) : Flow Backend Answer := do
  match route call.method call.path with
  | .health => return healthAnswer (← Health.check s.healthTimeout)
  | .create =>
    match readBody Request.codec.decode call.contentType call.body with
    | .error e => return .bad e
    | .ok request =>
      match ← s.pipeline.submit request with
      | .ok reply => return replied reply
      | .error e => return failed e "Failed to process notification"
  | .list =>
    match readListQuery call.query with
    | .error e => return .bad e
    | .ok q =>
      let ctx ← s.pipeline.requestContext
      return listAnswer (← Pipeline.list ctx q.userId q.page q.start)
  | .find id =>
    match readId id with
    | .error e => return .bad e
    | .ok id =>
      let ctx ← s.pipeline.requestContext
      return recordAnswer (← Pipeline.find ctx id) "Notification retrieved"
        "Failed to retrieve notification"
  | .report id =>
    match readId id with
    | .error e => return .bad e
    | .ok id =>
      match readBody StatusReport.codec.decode call.contentType call.body with
      | .error e => return .bad e
      | .ok word =>
        let ctx ← s.pipeline.requestContext
        return recordAnswer (← Pipeline.report ctx id word) "Status updated"
          "Failed to update notification status"
  | .notFound => return .bare 404 none
  | .notAllowed allow => return .bare 405 (some allow)

/-- Answers a call; `HEAD` gets everything but the body. -/
def handle (s : Service) (call : Call) : Flow Backend Answer := do
  let answer ← respond s call
  return if call.method = "HEAD" then { answer with payload := .empty } else answer

end Courier.Router
