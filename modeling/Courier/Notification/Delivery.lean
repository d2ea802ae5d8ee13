import Courier.Notification.Record
import Courier.Notification.Template
import Courier.Text.Blank

/-!
# Deliveries and dead letters

A `Delivery` is the message a channel's worker gets: the record, the recipient and the rendered
text. A delivery that cannot be handed over is kept as a `DeadLetter`, with the reason.
-/

set_option autoImplicit false

namespace Courier

/-- The message for a worker, complete: a worker asks nobody. -/
structure Delivery where
  notificationId : Uuid := default
  channel : Channel := .email
  userId : String := ""
  templateCode : String := ""
  recipient : String := ""
  subject : Option String := none
  body : String := ""
  textBody : Option String := none
  /-- A priority's label; a worker may be sent others. -/
  priority : String := ""
  metadata : Option (Dict Json) := none
  createdAt : DateTime := default
  deriving DecidableEq, Inhabited

namespace Delivery

/-- Marked-up text is the body when there is any, with the plain text beside it; otherwise the plain
text is the body. -/
def bodies (b : Body) : String × Option String :=
  match b.html with
  | some html => if Text.allBlank html then (b.text, none) else (html, some b.text)
  | none => (b.text, none)

/-- The message for a record (`build_delivery_payload`). -/
def ofRecord (record : Notification) (recipient : String) (rendering : Rendering) : Delivery :=
  let found := bodies rendering.content.body
  { notificationId := record.id
    channel := record.channel
    userId := record.userId
    templateCode := record.templateCode
    recipient := recipient
    subject := rendering.content.subject
    body := found.1
    textBody := found.2
    priority := record.priority.name
    metadata := record.metadata
    createdAt := record.createdAt }

def shape : Shape Delivery where
  title := "DeliveryPayload"
  blank := {}
  slots := [
    .plain "notification_id" .required .uuid (·.notificationId)
      fun x r => { r with notificationId := x },
    .plain "notification_type" .required .label (·.channel) fun x r => { r with channel := x },
    .plain "user_id" .required .string (·.userId) fun x r => { r with userId := x },
    .plain "template_code" .required .string (·.templateCode)
      fun x r => { r with templateCode := x },
    .plain "recipient" .required .string (·.recipient) fun x r => { r with recipient := x },
    .present "subject" .optional .string (·.subject) fun x r => { r with subject := x },
    .plain "body" .required .string (·.body) fun x r => { r with body := x },
    .present "text_body" .optional .string (·.textBody) fun x r => { r with textBody := x },
    .plain "priority" .required .string (·.priority) fun x r => { r with priority := x },
    .present "metadata" .optional (.dict .free) (·.metadata) fun x r => { r with metadata := x },
    .plain "created_at" .required .time (·.createdAt) fun x r => { r with createdAt := x }]

def codec : Codec Delivery := shape.codec

end Delivery

/-- A message that could not be handed over, and why. -/
structure DeadLetter where
  message : Json := .null
  error : String := ""
  errorType : String := ""
  failedAt : DateTime := default
  retryCount : UInt32 := 0
  sourceTopic : String := ""
  deriving DecidableEq, Inhabited

namespace DeadLetter

/-- The dead letter of a delivery. The delivery is kept as a value, its fields in order of names. -/
def ofDelivery (delivery : Delivery) (error errorType : String) (failedAt : DateTime)
    (retryCount : UInt32) : DeadLetter where
  message := (Delivery.codec.encode delivery).sorted
  error := error
  errorType := errorType
  failedAt := failedAt
  retryCount := retryCount
  sourceTopic := delivery.channel.routingKey

def shape : Shape DeadLetter where
  title := "DlqMessage"
  blank := {}
  slots := [
    .plain "original_message" .required .free (·.message) fun x r => { r with message := x },
    .plain "error" .required .string (·.error) fun x r => { r with error := x },
    .plain "error_type" .required .string (·.errorType) fun x r => { r with errorType := x },
    .plain "failed_at" .required .time (·.failedAt) fun x r => { r with failedAt := x },
    .plain "retry_count" .required .nat32 (·.retryCount) fun x r => { r with retryCount := x },
    .plain "source_topic" .required .string (·.sourceTopic) fun x r => { r with sourceTopic := x }]

def codec : Codec DeadLetter := shape.codec

end DeadLetter

end Courier
