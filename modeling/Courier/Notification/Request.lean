import Courier.Json.Shape
import Courier.Notification.Labels

/-!
# Requests and status reports

What callers send: the wish to notify a user, and, later, word from a worker about what became of a
notification.
-/

set_option autoImplicit false

namespace Courier

/-- The wish to notify a user through a channel, with a template and values for its placeholders. -/
structure Request where
  requestId : String := ""
  channel : Channel := .email
  userId : String := ""
  templateCode : String := ""
  values : Dict Json := Dict.empty
  level : Int32 := 0
  metadata : Option (Dict Json) := none
  idempotencyKey : Option String := none
  scheduledFor : Option DateTime := none
  deriving DecidableEq, Inhabited

namespace Request

def shape : Shape Request where
  title := "NotificationRequest"
  blank := {}
  slots := [
    .plain "request_id" .required .string (·.requestId) fun x r => { r with requestId := x },
    .plain "notification_type" .required .label (·.channel) fun x r => { r with channel := x },
    .plain "user_id" .required .string (·.userId) fun x r => { r with userId := x },
    .plain "template_code" .required .string (·.templateCode)
      fun x r => { r with templateCode := x },
    .plain "variables" .defaulted (.dict .free) (·.values) fun x r => { r with values := x },
    .plain "priority" .defaulted .int32 (·.level) fun x r => { r with level := x },
    .present "metadata" .defaulted (.dict .free) (·.metadata) fun x r => { r with metadata := x },
    .present "idempotency_key" .defaulted .string (·.idempotencyKey)
      fun x r => { r with idempotencyKey := x },
    .present "scheduled_for" .defaulted .time (·.scheduledFor)
      fun x r => { r with scheduledFor := x }]

def codec : Codec Request := shape.codec

/-- The key under which a reply is kept: the one of the request, unless it is empty. -/
def key? (r : Request) : Option String := r.idempotencyKey.filter fun k => k ≠ ""

end Request

/-- Word from a worker about what became of a notification. -/
structure StatusReport where
  status : Status := .pending
  error : Option String := none
  deriving DecidableEq, Repr, Inhabited

namespace StatusReport

def shape : Shape StatusReport where
  title := "StatusUpdate"
  blank := {}
  slots := [
    .plain "status" .required .label (·.status) fun x r => { r with status := x },
    .plain "error" .defaulted (.option .string) (·.error) fun x r => { r with error := x }]

def codec : Codec StatusReport := shape.codec

end StatusReport

end Courier
