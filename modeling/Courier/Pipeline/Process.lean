import Courier.Pipeline.Replies

/-!
# The pipeline

From a request to a reply. The user's preferences decide whether a notification may go out and to
whom; the template is rendered in the user's language; a record is created; and only then the
message goes to the broker. A user who does not want the notification and a channel without a
recipient are outcomes, not failures: they leave a record, and a reply that says why.

When the broker does not take the message, the record is marked as failed and the message becomes a
dead letter. Both happen in a context of their own, since that of the request may be interrupted,
and neither changes what the caller is told.

In the service, `process` runs `process_with_context` under a new context: these are `submit` and
`process` here. Its `execute` is `execute` with the last steps apart, in `dispatch`; `settle` and
`dispatch` both begin with its `persist`.
-/

set_option autoImplicit false

namespace Courier

/-- Times are in milliseconds. -/
structure Settings where
  /-- How long a request may take. -/
  requestTimeout : Nat := 30000
  /-- How long the steps after a failed publication may take. -/
  compensationTimeout : Nat := 5000
  defaultLanguage : String := "en"
  /-- Is the user service told of every notification that is queued? -/
  trackLast : Bool := true
  trackingTimeout : Nat := 5000
  /-- What dead letters tell as the number of attempts. -/
  publishAttempts : UInt32 := 3
  deriving DecidableEq, Repr, Inhabited

/-- A configured pipeline. -/
structure Pipeline where
  settings : Settings := {}
  /-- How long replies are kept. -/
  replyTtl : Nat
  deriving Repr

namespace Pipeline

/-- What a reply says when the message is with the broker. -/
def queuedMessage : String := "Notification queued for delivery"

/-- What dead letters of the pipeline are there for. -/
def publishErrorType : String := "publish_failure"

/-- Creates a record whose outcome is settled (`persist`), and replies with it. The stage is told
when the record cannot be created. -/
def settle (ctx : Context) (request : Request) (status : Status) (error : Option String)
    (stage : Stage) (message : String) : Flow Backend (Except Failure Reply) := do
  let record := Notification.ofRequest (← Backend.stamp) request status error
  match ← Backend.create ctx record with
  | .error e => return .error (.ofCreate stage record.id e)
  | .ok () => return .ok (.about record message)

/-- Marks a record as failed and keeps its message as a dead letter (`handle_publish_failure`). What
becomes of that is not told to anyone, so that the first step never keeps the second from being
taken. -/
def compensate (p : Pipeline) (record : Notification) (delivery : Delivery)
    (failure : PublishFailure) : Flow Backend Unit := do
  let ctx := Context.lasting (← Backend.now) p.settings.compensationTimeout
  let _ ← Backend.update ctx record.id .failed (some failure.message)
  let letter := DeadLetter.ofDelivery delivery failure.message publishErrorType
    (← Backend.wallClock) p.settings.publishAttempts
  let _ ← Backend.deadLetter ctx letter

/-- Creates a record and hands its message to the broker. The record is pending from then on, in the
store and in the reply; who delivers it reports what became of it. The last notification of the user
is reported on its own (`spawn_last_notification_update`), and nobody waits for that. -/
def dispatch (p : Pipeline) (ctx : Context) (request : Request) (recipient : String)
    (rendering : Rendering) : Flow Backend (Except Failure Reply) := do
  let record := Notification.ofRequest (← Backend.stamp) request .pending
  match ← Backend.create ctx record with
  | .error e => return .error (.ofCreate .create record.id e)
  | .ok () =>
    let delivery := Delivery.ofRecord record recipient rendering
    match ← Backend.publish ctx record.channel record.id delivery with
    | .error e =>
      p.compensate record delivery e
      return .error (.ofPublish record.id e)
    | .ok () =>
      if p.settings.trackLast then
        Backend.track record.userId p.settings.trackingTimeout
      return .ok (.about record queuedMessage)

/-- Goes through all steps for a request. Every step that can fail ends the run, and nothing is
created before all the rest is known. -/
def execute (p : Pipeline) (ctx : Context) (request : Request) :
    Flow Backend (Except Failure Reply) := do
  match ← Backend.preferences ctx request.userId with
  | .error e => return .error (.ofClient .preferences e)
  | .ok prefs =>
    match prefs.refusal? request.channel with
    | some refusal =>
      settle ctx request .skipped none .createSkipped refusal.message
    | none =>
      match prefs.recipient request.channel with
      | .error obstacle =>
        settle ctx request .failed (some obstacle.message) .createFailed obstacle.message
      | .ok recipient =>
        let language := prefs.languageOr p.settings.defaultLanguage
        match ← Backend.render ctx request.templateCode language request.values with
        | .error e => return .error (.ofClient .rendering e)
        | .ok rendering => p.dispatch ctx request recipient rendering

/-- Answers a request under a context (`process_with_context`): from the replies kept, or by going
through all steps. A reply is kept only when there is one: a run that failed is made again on
repetition. -/
def process (p : Pipeline) (ctx : Context) (request : Request) :
    Flow Backend (Except Failure Reply) := do
  match ctx.check (← Backend.now) with
  | .error i => return .error (.interrupted i)
  | .ok () =>
    match request.key? with
    | none => p.execute ctx request
    | some key =>
      match ← Replies.lookup ctx key with
      | some reply => return .ok reply
      | none =>
        match ← p.execute ctx request with
        | .error e => return .error e
        | .ok reply =>
          Replies.keep ctx key reply p.replyTtl
          return .ok reply

/-- A context that lasts as long as a request may take. -/
def requestContext (p : Pipeline) : Flow Backend Context := do
  return Context.lasting (← Backend.now) p.settings.requestTimeout

/-- Answers a request within the time a request may take (`process`). -/
def submit (p : Pipeline) (request : Request) : Flow Backend (Except Failure Reply) := do
  p.process (← p.requestContext) request

/-! ## Records -/

/-- The record of an identifier (`get_notification`). -/
def find (ctx : Context) (id : Uuid) : Flow Backend (Except Failure Notification) := do
  match ← Backend.find ctx id with
  | .error e => return .error (.ofStore .get (some id) e)
  | .ok record => return .ok record

/-- Takes a worker's word for what became of a notification (`update_notification_status`), and
gives the record as it is then. That takes two questions, between which others may ask too. -/
def report (ctx : Context) (id : Uuid) (word : StatusReport) :
    Flow Backend (Except Failure Notification) := do
  match ← Backend.update ctx id word.status word.error with
  | .error e => return .error (.ofStore .updateStatus (some id) e)
  | .ok () => find ctx id

/-- The notifications of a user, newest first (`list_user_notifications`). -/
def list (ctx : Context) (userId : String) (limit offset : Int) :
    Flow Backend (Except Failure (List Notification)) := do
  match ← Backend.list ctx userId limit offset with
  | .error e => return .error (.ofStore .list none e)
  | .ok records => return .ok records

end Pipeline

end Courier
