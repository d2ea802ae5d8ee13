import Courier.Config.Clients
import Courier.Live.Wires

/-!
# The live service

What the service asks of its dependencies, done by the clients of the live ones. The user and the
template service are the ones in memory where a configuration wants that.

`play` gives every question of `Backend` its program; a program of the service is run by replacing
each of its questions with that (`Flow.interpret`). So the pipeline that is proved things about and
the one that runs against live clients are the same term.
-/

set_option autoImplicit false

namespace Courier

/-- The live clients; the services in memory stand in for those that are missing. -/
structure LiveService where
  users : Option Http.Client
  templates : Option Http.Client
  publisher : Broker.Publisher

namespace LiveService

open Live

/-- The clients of a configuration. -/
def ofConfig (c : Config) : LiveService :=
  ⟨c.userClient?, c.templateClient?, .ofConfig c⟩

/-- The preferences of a user, from whoever plays the user service. -/
def preferences (s : LiveService) (ctx : Context) (userId : String) :
    Act (Except ClientFailure Preferences) :=
  match s.users with
  | some client => overUsers (client.getPreferences ctx userId)
  | none => InMemory.getPreferences ctx userId

/-- A rendering, from whoever plays the template service. -/
def render (s : LiveService) (ctx : Context) (code language : String) (values : Dict Json) :
    Act (Except ClientFailure Rendering) :=
  match s.templates with
  | some client => overTemplates (client.renderTemplate ctx code language values)
  | none => InMemory.renderTemplate (ask .wallClock) ctx code language values

/-- Reports the last notification of a user, in a context of its own. -/
def reportSent (s : LiveService) (userId : String) (timeout : Nat) :
    Act (Except ClientFailure Unit) := do
  let ctx := Context.lasting (← Timed.now) timeout
  let sentAt : DateTime ← ask .wallClock
  match s.users with
  | some client => overUsers (client.recordSent ctx userId sentAt)
  | none => InMemory.recordSent ctx userId sentAt

/-- What is done for each question of the service. -/
def play (s : LiveService) : (op : Backend.Op) → Act (Backend.Answer op)
  | .now => Timed.now
  | .wallClock => ask .wallClock
  | .stamp => do
    let id : Uuid ← ask .freshId
    let time : DateTime ← ask .wallClock
    return ⟨id, time⟩
  | .preferences ctx userId => s.preferences ctx userId
  | .render ctx code language values => s.render ctx code language values
  | .create ctx record => overStore (Store.create ctx record)
  | .find ctx id => overStore (Store.find ctx id)
  | .update ctx id status error => do
    let time : DateTime ← ask .wallClock
    overStore (Store.update ctx id status error time)
  | .list ctx userId limit offset => overStore (Store.list ctx userId limit offset)
  | .publish ctx channel id delivery => overBroker (s.publisher.publish ctx channel id delivery)
  | .deadLetter ctx letter => do
    let id : Uuid ← ask .freshId
    overBroker (s.publisher.deadLetter ctx id letter)
  | .cacheGet ctx key => overCache (Cache.get ctx key)
  | .cacheSet ctx key value ttl => overCache (Cache.set ctx key value ttl)
  | .track userId timeout => ask (.track userId timeout)
  | .probe => ask .probe
  | .sign dependency since limit => ask (.sign dependency since limit)
  | .breakers => ask .breakers

variable {α σ : Type}

/-- Runs a program of the service in surroundings of any kind; nothing if it never ends. -/
def run (s : LiveService) (server : Timed.Server Wires σ) (p : Flow Backend α)
    (w : Timed.World σ) : Option (α × Timed.World σ) :=
  Timed.run server (p.interpret (T := Timed Wires) s.play) w

end LiveService

end Courier
