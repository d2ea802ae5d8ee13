import Courier.Failure
import Courier.Flow.Basic
import Courier.Health.Probe
import Courier.Notification.Delivery
import Courier.Notification.Preferences

/-!
# What the service works with

The dependencies of the service as one signature: the user and the template service, the store of
records, the broker, the cache, and what only the surroundings know: clocks and fresh identifiers.
A dependency that is asked under a context gives up when that is interrupted and says so. The cache
does not know contexts; its calls are bounded from outside, so that an interruption stands beside
its own answer.

This is the only thing that the programs of the service know of the world. Whatever is proved of a
program for all answers to these questions holds of it with the live clients as well as with the
ones in memory.
-/

set_option autoImplicit false

namespace Courier

namespace Backend

/-- What the pipeline asks. -/
inductive Op where
  /-- The clock that deadlines are measured by, in milliseconds. -/
  | now
  /-- The time of day. -/
  | wallClock
  /-- An identifier for a new record, and the time of day. -/
  | stamp
  | preferences (ctx : Context) (userId : String)
  | render (ctx : Context) (code language : String) (values : Dict Json)
  | create (ctx : Context) (record : Notification)
  | find (ctx : Context) (id : Uuid)
  | update (ctx : Context) (id : Uuid) (status : Status) (error : Option String)
  | list (ctx : Context) (userId : String) (limit offset : Int)
  | publish (ctx : Context) (channel : Channel) (id : Uuid) (delivery : Delivery)
  | deadLetter (ctx : Context) (letter : DeadLetter)
  | cacheGet (ctx : Context) (key : String)
  | cacheSet (ctx : Context) (key value : String) (ttl : Nat)
  /-- Reports the last notification of a user, on its own and within a time of its own. -/
  | track (userId : String) (timeout : Nat)
  /-- Asks store, cache and broker for a sign of life, side by side, and does not wait for it. -/
  | probe
  /-- Waits for the sign of life that a dependency was asked for at an instant, until some time. -/
  | sign (dependency : Health.Dependency) (since limit : Nat)
  /-- Looks at the breakers. -/
  | breakers

/-- The answers they get. -/
def Answer : Op → Type
  | .now => Nat
  | .wallClock => DateTime
  | .stamp => Stamp
  | .preferences _ _ => Except ClientFailure Preferences
  | .render _ _ _ _ => Except ClientFailure Rendering
  | .create _ _ => Except StoreFailure Unit
  | .find _ _ => Except StoreFailure Notification
  | .update _ _ _ _ => Except StoreFailure Unit
  | .list _ _ _ _ => Except StoreFailure (List Notification)
  | .publish _ _ _ _ => Except PublishFailure Unit
  | .deadLetter _ _ => Except PublishFailure Unit
  | .cacheGet _ _ => Except Interruption (Except CacheFailure (Option String))
  | .cacheSet _ _ _ _ => Except Interruption (Except CacheFailure Unit)
  | .track _ _ => Unit
  | .probe => Unit
  | .sign _ _ _ => Option Health.Sign
  | .breakers => List BreakerView

end Backend

def Backend : Signature := ⟨Backend.Op, Backend.Answer⟩

namespace Backend

def now : Flow Backend Nat := Flow.call (S := Backend) Op.now

def wallClock : Flow Backend DateTime := Flow.call (S := Backend) Op.wallClock

def stamp : Flow Backend Stamp := Flow.call (S := Backend) Op.stamp

def preferences (ctx : Context) (userId : String) :
    Flow Backend (Except ClientFailure Preferences) :=
  Flow.call (S := Backend) (Op.preferences ctx userId)

def render (ctx : Context) (code language : String) (values : Dict Json) :
    Flow Backend (Except ClientFailure Rendering) :=
  Flow.call (S := Backend) (Op.render ctx code language values)

def create (ctx : Context) (record : Notification) : Flow Backend (Except StoreFailure Unit) :=
  Flow.call (S := Backend) (Op.create ctx record)

def find (ctx : Context) (id : Uuid) : Flow Backend (Except StoreFailure Notification) :=
  Flow.call (S := Backend) (Op.find ctx id)

def update (ctx : Context) (id : Uuid) (status : Status) (error : Option String) :
    Flow Backend (Except StoreFailure Unit) :=
  Flow.call (S := Backend) (Op.update ctx id status error)

def list (ctx : Context) (userId : String) (limit offset : Int) :
    Flow Backend (Except StoreFailure (List Notification)) :=
  Flow.call (S := Backend) (Op.list ctx userId limit offset)

def publish (ctx : Context) (channel : Channel) (id : Uuid) (delivery : Delivery) :
    Flow Backend (Except PublishFailure Unit) :=
  Flow.call (S := Backend) (Op.publish ctx channel id delivery)

def deadLetter (ctx : Context) (letter : DeadLetter) : Flow Backend (Except PublishFailure Unit) :=
  Flow.call (S := Backend) (Op.deadLetter ctx letter)

def cacheGet (ctx : Context) (key : String) :
    Flow Backend (Except Interruption (Except CacheFailure (Option String))) :=
  Flow.call (S := Backend) (Op.cacheGet ctx key)

def cacheSet (ctx : Context) (key value : String) (ttl : Nat) :
    Flow Backend (Except Interruption (Except CacheFailure Unit)) :=
  Flow.call (S := Backend) (Op.cacheSet ctx key value ttl)

def track (userId : String) (timeout : Nat) : Flow Backend Unit :=
  Flow.call (S := Backend) (Op.track userId timeout)

def probe : Flow Backend Unit := Flow.call (S := Backend) Op.probe

def sign (dependency : Health.Dependency) (since limit : Nat) :
    Flow Backend (Option Health.Sign) :=
  Flow.call (S := Backend) (Op.sign dependency since limit)

def breakers : Flow Backend (List BreakerView) := Flow.call (S := Backend) Op.breakers

end Backend

end Courier
