import Courier.Failure
import Courier.Notification.Record

/-!
# Rows

A row of the table of notifications. The table does not know what a column means: every column may
be null, labels are texts and the two maps are any JSON value. A record makes a row
(`Row.ofRecord`); a row is taken for a record only when its columns are what a record needs
(`Row.record`), and no label is taken for another.

The table keeps times to the microsecond (`Row.kept`).
-/

set_option autoImplicit false

namespace Courier

/-- The columns, in the order of the table. -/
structure Row where
  id : Option Uuid := none
  userId : Option String := none
  templateCode : Option String := none
  channel : Option String := none
  status : Option String := none
  priority : Option String := none
  values : Option Json := none
  metadata : Option Json := none
  error : Option String := none
  createdAt : Option DateTime := none
  updatedAt : Option DateTime := none
  scheduledFor : Option DateTime := none
  deriving DecidableEq

namespace Row

/-- The columns of a record. -/
def ofRecord (r : Notification) : Row where
  id := some r.id
  userId := some r.userId
  templateCode := some r.templateCode
  channel := some r.channel.name
  status := some r.status.name
  priority := some r.priority.name
  values := some (.ofDict r.values)
  metadata := r.metadata.map Json.ofDict
  error := r.error
  createdAt := some r.createdAt
  updatedAt := some r.updatedAt
  scheduledFor := r.scheduledFor

/-- A row as the table keeps it. -/
def kept (r : Row) : Row :=
  { r with
    createdAt := r.createdAt.map DateTime.cutToMicros
    updatedAt := r.updatedAt.map DateTime.cutToMicros
    scheduledFor := r.scheduledFor.map DateTime.cutToMicros }

/-- A column that must not be null. -/
def column {α : Type} (name : String) : Option α → Except StoreFailure α
  | some x => .ok x
  | none => .error (.database ("column \x60" ++ name ++ "\x60 is null"))

/-- A column that holds a label. -/
def labelled {α : Type} (read : String → Except UnknownLabel α) (text : String) :
    Except StoreFailure α :=
  (read text).mapError fun u => .invalidRow u.message

/-- A column that holds a map. -/
def map (v : Json) : Except StoreFailure (Dict Json) :=
  match Decoder.ofJson (Decoder.dict Decoder.free) v with
  | .ok d => .ok d
  | .error (.data _ cause) => .error (.serialization cause)
  | .error .malformed => .error (.serialization (.wrongType .mapping "a map"))

/-- A column that may hold a map. -/
def mapOrNull : Option Json → Except StoreFailure (Option (Dict Json))
  | none => .ok none
  | some v => (map v).map some

/-- The record of a row (`record_from_row`). Columns are looked at in a fixed order, and the first
one that will not do is the one that is told. -/
def record (r : Row) : Except StoreFailure Notification := do
  let channelText ← column "notification_type" r.channel
  let statusText ← column "status" r.status
  let priorityText ← column "priority" r.priority
  let valuesJson ← column "variables" r.values
  let id ← column "id" r.id
  let userId ← column "user_id" r.userId
  let templateCode ← column "template_code" r.templateCode
  let channel ← labelled Channel.read channelText
  let status ← labelled Status.read statusText
  let priority ← labelled Priority.read priorityText
  let values ← map valuesJson
  let metadata ← mapOrNull r.metadata
  let createdAt ← column "created_at" r.createdAt
  let updatedAt ← column "updated_at" r.updatedAt
  return {
    id := id
    userId := userId
    templateCode := templateCode
    channel := channel
    status := status
    priority := priority
    values := values
    metadata := metadata
    error := r.error
    createdAt := createdAt
    updatedAt := updatedAt
    scheduledFor := r.scheduledFor }

end Row

end Courier
