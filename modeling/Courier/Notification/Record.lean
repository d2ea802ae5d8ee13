import Courier.Notification.Request

/-!
# Notifications and replies

A `Notification` is the record that is kept of a request; a `Reply` is what the caller is told of
it.
-/

set_option autoImplicit false

namespace Courier

/-- The record of a notification. -/
structure Notification where
  id : Uuid := default
  userId : String := ""
  templateCode : String := ""
  channel : Channel := .email
  status : Status := .pending
  priority : Priority := .normal
  values : Dict Json := Dict.empty
  metadata : Option (Dict Json) := none
  error : Option String := none
  createdAt : DateTime := default
  updatedAt : DateTime := default
  scheduledFor : Option DateTime := none
  deriving DecidableEq, Inhabited

/-- What identifies a new record: an id of its own and the time. -/
structure Stamp where
  id : Uuid
  time : DateTime
  deriving DecidableEq, Repr, Inhabited

namespace Notification

/-- The record of a request with a given outcome: the only way in which the pipeline makes one. -/
def ofRequest (stamp : Stamp) (request : Request) (status : Status)
    (error : Option String := none) : Notification where
  id := stamp.id
  userId := request.userId
  templateCode := request.templateCode
  channel := request.channel
  status := status
  priority := .ofLevel request.level
  values := request.values
  metadata := request.metadata
  error := error
  createdAt := stamp.time
  updatedAt := stamp.time
  scheduledFor := request.scheduledFor

def shape : Shape Notification where
  title := "NotificationRecord"
  blank := {}
  slots := [
    .plain "id" .required .uuid (·.id) fun x r => { r with id := x },
    .plain "user_id" .required .string (·.userId) fun x r => { r with userId := x },
    .plain "template_code" .required .string (·.templateCode)
      fun x r => { r with templateCode := x },
    .plain "notification_type" .required .label (·.channel) fun x r => { r with channel := x },
    .plain "status" .required .label (·.status) fun x r => { r with status := x },
    .plain "priority" .required .label (·.priority) fun x r => { r with priority := x },
    .plain "variables" .required (.dict .free) (·.values) fun x r => { r with values := x },
    .plain "metadata" .optional (.option (.dict .free)) (·.metadata)
      fun x r => { r with metadata := x },
    .plain "error_message" .optional (.option .string) (·.error) fun x r => { r with error := x },
    .plain "created_at" .required .time (·.createdAt) fun x r => { r with createdAt := x },
    .plain "updated_at" .required .time (·.updatedAt) fun x r => { r with updatedAt := x },
    .plain "scheduled_for" .optional (.option .time) (·.scheduledFor)
      fun x r => { r with scheduledFor := x }]

def codec : Codec Notification := shape.codec

end Notification

/-- What the caller is told. -/
structure Reply where
  notificationId : Uuid := default
  status : Status := .pending
  message : Option String := none
  error : Option String := none
  createdAt : DateTime := default
  deriving DecidableEq, Repr, Inhabited

namespace Reply

/-- The reply about a record (`from_record`). -/
def about (record : Notification) (message : String) : Reply where
  notificationId := record.id
  status := record.status
  message := some message
  error := record.error
  createdAt := record.createdAt

def shape : Shape Reply where
  title := "NotificationResponse"
  blank := {}
  slots := [
    .plain "notification_id" .required .uuid (·.notificationId)
      fun x r => { r with notificationId := x },
    .plain "status" .required .label (·.status) fun x r => { r with status := x },
    .present "message" .defaulted .string (·.message) fun x r => { r with message := x },
    .present "error" .defaulted .string (·.error) fun x r => { r with error := x },
    .plain "created_at" .required .time (·.createdAt) fun x r => { r with createdAt := x }]

def codec : Codec Reply := shape.codec

end Reply

end Courier
