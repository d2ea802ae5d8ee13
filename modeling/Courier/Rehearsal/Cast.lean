import Courier.Pipeline.Backend
import Courier.Rehearsal.Bench

/-!
# The cast of a rehearsal

Who plays the dependencies of the service: the two services in memory, by a list of answers, or by
their live clients with a played service at the other end; everything else by the bench. All but the
cache and the health checks go through their trouble under the context of the call, so that an
interruption shows after the call has been noted; a call of the cache is not even begun when its
context is interrupted.
-/

set_option autoImplicit false

namespace Courier.Rehearsal

/-- Who plays the user service. -/
inductive UserRole where
  | inMemory
  | listed (answers : Dict (Except ClientFailure Preferences))
  | client (c : Http.Client)

/-- Who plays the template service. -/
inductive TemplateRole where
  | inMemory
  | listed (answers : Dict (Except ClientFailure Rendering))
  | client (c : Http.Client)

structure Cast where
  users : UserRole := .inMemory
  templates : TemplateRole := .inMemory

/-- A program on the bench. -/
abbrev Act (α : Type) := Flow (Timed Props) α

def ask (q : Query) : Act q.Answer := Timed.plain (R := Props) q

variable {α ε : Type}

/-- A call is noted and goes through its trouble under a context; then it does its work. -/
def troubled (ctx : Context) (e : Event) (m : Method) (interrupted : Interruption → m.Failure)
    (act : Act (Except m.Failure α)) : Act (Except m.Failure α) := do
  let _ ← ask (.note e)
  match ← Timed.guarded (R := Props) ctx (.trouble m) with
  | .error i => return .error (interrupted i)
  | .ok (.error e) => return .error e
  | .ok (.ok ()) => act

/-- A program of the user client with its service on the bench. -/
def withUsers (p : Flow (Timed Http.Link) α) : Act α :=
  Timed.lift (R := Http.Link) (Q := Props) (fun q => ask (.users q))
    (fun ctx q => Timed.race (R := Props) ctx (.users q)) p

/-- A program of the template client with its service on the bench. -/
def withTemplates (p : Flow (Timed Http.Link) α) : Act α :=
  Timed.lift (R := Http.Link) (Q := Props) (fun q => ask (.templates q))
    (fun ctx q => Timed.race (R := Props) ctx (.templates q)) p

namespace Cast

/-- The preferences of a user, from whoever has the role. -/
def preferences (c : Cast) (ctx : Context) (userId : String) :
    Act (Except ClientFailure Preferences) :=
  match c.users with
  | .inMemory => InMemory.getPreferences ctx userId
  | .listed answers =>
    return (answers.get? userId).getD (.error (.status userService 404 "no such user"))
  | .client client => withUsers (client.getPreferences ctx userId)

/-- A rendering, from whoever has the role. -/
def render (c : Cast) (ctx : Context) (code language : String) (values : Dict Json) :
    Act (Except ClientFailure Rendering) :=
  match c.templates with
  | .inMemory => InMemory.renderTemplate (ask .wallClock) ctx code language values
  | .listed answers =>
    return (answers.get? code).getD (.error (.status templateService 404 "no such template"))
  | .client client => withTemplates (client.renderTemplate ctx code language values)

/-- Breakers are looked at only where there are any. -/
def breakers (c : Cast) : Act (List BreakerView) :=
  match c.users with
  | .client _ => ask .breakers
  | _ => return []

/-- What the cast does for each question of the service. -/
def play (c : Cast) : (op : Backend.Op) → Act (Backend.Answer op)
  | .now => Timed.now
  | .wallClock => ask .wallClock
  | .stamp => ask .stamp
  | .preferences ctx userId =>
    troubled ctx (.getPreferences userId) .usersGet .interrupted (c.preferences ctx userId)
  | .render ctx code language values =>
    troubled ctx (.render code language values) .templatesRender .interrupted
      (c.render ctx code language values)
  | .create ctx record =>
    troubled ctx (.create record) .storeCreate .interrupted do
      let _ ← ask (.insert record)
      return .ok ()
  | .find ctx id =>
    troubled ctx (.find id) .storeGet .interrupted do
      match ← ask (.fetch id) with
      | some record => return .ok record
      | none => return .error (.notFound id)
  | .update ctx id status error =>
    troubled ctx (.update id status error) .storeUpdate .interrupted do
      let known : Bool ← ask (.amend id status error)
      return if known then .ok () else .error (.notFound id)
  | .list ctx userId limit offset =>
    troubled ctx (.list userId limit offset) .storeList .interrupted do
      return .ok (← ask (.page userId limit offset))
  | .publish ctx channel id delivery =>
    troubled ctx (.publish channel id delivery) .publish .interrupted (return .ok ())
  | .deadLetter ctx letter =>
    troubled ctx (.deadLetter letter) .deadLetter .interrupted (return .ok ())
  | .cacheGet ctx key => Timed.guarded (R := Props) ctx (.cacheGet key)
  | .cacheSet ctx key value ttl => Timed.guarded (R := Props) ctx (.cacheSet key value ttl)
  | .track userId timeout => ask (.track userId timeout)
  | .probe => ask .probe
  | .sign dependency since limit => ask (.sign dependency since limit)
  | .breakers => c.breakers

/-- Performs a program of the service; nothing if it never ends. What it leaves to be reported is
reported afterwards, at no time of its own. -/
def perform (c : Cast) (p : Flow Backend α) (w : Timed.World Bench) :
    Option (α × Timed.World Bench) :=
  (Timed.run Bench.server (p.interpret (T := Timed Props) c.play) w).map fun r =>
    (r.1, { r.2 with state := r.2.state.settle })

end Cast

end Courier.Rehearsal
