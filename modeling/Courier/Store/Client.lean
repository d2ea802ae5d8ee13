import Courier.Flow.Timed
import Courier.Store.Row

/-!
# The client of the database

Records are kept in one table. A connection is dialled once and the table is made if it is not
there; after that every call is one statement, which gives up when its context is interrupted. An
update touches the status, the error and the time of the update, and nothing else.

The statements are those of the service, each told by what it asks and not by its text: `create`
inserts, `get_by_id` selects one row, `update_status` updates three columns, `get_by_user_id`
selects a page. `connect` makes the table.
-/

set_option autoImplicit false

namespace Courier.Store

/-- What the database is asked to run. -/
inductive Statement where
  | schema
  | ping
  | insert (row : Row)
  | select (id : Uuid)
  | update (id : Uuid) (status : String) (error : Option String) (time : DateTime)
  /-- The rows of a user, newest first, from a place on and up to a number. -/
  | page (userId : String) (limit offset : Int)
  deriving DecidableEq

namespace Statement

def name : Statement → String
  | .schema => "schema"
  | .ping => "ping"
  | .insert _ => "insert"
  | .select _ => "get"
  | .update _ _ _ _ => "update"
  | .page _ _ _ => "list"

/-- What a statement gives; of an update, how many rows were changed. -/
def Result : Statement → Type
  | .schema | .ping | .insert _ => Unit
  | .select _ => Option Row
  | .update _ _ _ _ => Nat
  | .page _ _ _ => List Row

end Statement

/-- What goes over the wire. -/
inductive Query where
  | dial (url : String)
  | run (s : Statement)
  | isClosed
  deriving DecidableEq

/-- A wire gives a result, or the reason why there is none. -/
def Wire : Signature where
  Op := Query
  Answer
    | .dial _ => Except String Unit
    | .run s => Except String s.Result
    | .isClosed => Bool

/-- What became of a statement under a context. -/
def received {α : Type} : Except Interruption (Except String α) → Except StoreFailure α
  | .error i => .error (.interrupted i)
  | .ok (.error reason) => .error (.database reason)
  | .ok (.ok x) => .ok x

/-- Dials the database and makes the table. -/
def connect (url : String) : Flow (Timed Wire) (Except StoreFailure Unit) := do
  match ← Timed.plain (R := Wire) (.dial url) with
  | .error reason => return .error (.database reason)
  | .ok () => return received (.ok (← Timed.plain (R := Wire) (.run .schema)))

/-- Keeps a new record (`create`). One statement, under the context. -/
def create (ctx : Context) (record : Notification) :
    Flow (Timed Wire) (Except StoreFailure Unit) := do
  return received (← Timed.guarded (R := Wire) ctx (.run (.insert (.ofRecord record))))

/-- The record of an identifier (`get_by_id`). A row that is there but is no record is a failure of
the store. -/
def find (ctx : Context) (id : Uuid) : Flow (Timed Wire) (Except StoreFailure Notification) := do
  match received (← Timed.guarded (R := Wire) ctx (.run (.select id))) with
  | .error e => return .error e
  | .ok none => return .error (.notFound id)
  | .ok (some row) => return row.record

/-- Sets what is known of a record's fate at a time (`update_status`). Whatever the status was
before is written over; that no row was there to be changed is told as an unknown identifier. -/
def update (ctx : Context) (id : Uuid) (status : Status) (error : Option String) (time : DateTime) :
    Flow (Timed Wire) (Except StoreFailure Unit) := do
  let sent ← Timed.guarded (R := Wire) ctx (.run (.update id status.name error time))
  match received (α := Nat) sent with
  | .error e => return .error e
  | .ok n => return if n = 0 then .error (.notFound id) else .ok ()

/-- A page of a user's records (`get_by_user_id`). One row that is no record spoils the page. -/
def list (ctx : Context) (userId : String) (limit offset : Int) :
    Flow (Timed Wire) (Except StoreFailure (List Notification)) := do
  let sent ← Timed.guarded (R := Wire) ctx (.run (.page userId limit offset))
  match received (α := List Row) sent with
  | .error e => return .error e
  | .ok rows => return rows.mapM Row.record

/-- Is the database there? -/
def health : Flow (Timed Wire) (Except StoreFailure Unit) := do
  let closed : Bool ← Timed.plain (R := Wire) .isClosed
  if closed then return .error (.unavailable "connection closed")
  else return received (.ok (← Timed.plain (R := Wire) (.run .ping)))

end Courier.Store
