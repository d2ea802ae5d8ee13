import Courier.Http.Peer
import Courier.Notification.Delivery
import Courier.Health.Probe
import Courier.Rehearsal.Troubles

/-!
# The bench of a rehearsal

The dependencies of the service in memory, with everything they are asked written down. A call is
noted first; then its trouble is gone through, which may take time and may fail; then it does its
work, which takes no time. The store keeps records in the order of their creation, and the cache
forgets nothing.
-/

set_option autoImplicit false

namespace Courier.Rehearsal

/-- A call of a dependency. -/
inductive Event where
  | getPreferences (userId : String)
  | recordSent (userId : String) (sentAt : DateTime)
  | render (code language : String) (values : Dict Json)
  | create (record : Notification)
  | find (id : Uuid)
  | update (id : Uuid) (status : Status) (error : Option String)
  | list (userId : String) (limit offset : Int)
  | publish (channel : Channel) (id : Uuid) (delivery : Delivery)
  | deadLetter (letter : DeadLetter)
  | cacheGet (key : String)
  | cacheSet (key value : String) (ttl : Nat)
  deriving DecidableEq

/-- Everything that is on the bench. -/
structure Bench where
  troubles : Troubles := Troubles.none
  /-- Records in the order of their creation. -/
  records : List Notification := []
  cache : Dict String := Dict.empty
  /-- The calls, the latest first. -/
  events : List Event := []
  /-- How many identifiers have been given out. -/
  stamps : Nat := 0
  /-- The identifier that is given out under a number. -/
  identifier : Nat → Uuid
  today : DateTime
  /-- The users whose last notification is still to be reported, each with the time for it. -/
  tracked : List (String × Nat) := []
  users : Http.Peer
  templates : Http.Peer
  /-- What the dependencies do that have been asked for a sign of life. -/
  probing : Health.Probes := ⟨⟨none, none⟩, ⟨none, none⟩, ⟨none, none⟩⟩

/-- What is asked of the bench. -/
inductive Query where
  | note (e : Event)
  | trouble (m : Method)
  | wallClock
  | stamp
  | insert (record : Notification)
  | fetch (id : Uuid)
  | amend (id : Uuid) (status : Status) (error : Option String)
  | page (userId : String) (limit offset : Int)
  | cacheGet (key : String)
  | cacheSet (key value : String) (ttl : Nat)
  | track (userId : String) (timeout : Nat)
  | probe
  | sign (dependency : Health.Dependency) (since limit : Nat)
  | breakers
  | users (q : Http.Query)
  | templates (q : Http.Query)

def Query.Answer : Query → Type
  | .note _ => Unit
  | .trouble m => Except m.Failure Unit
  | .wallClock => DateTime
  | .stamp => Stamp
  | .insert _ => Unit
  | .fetch _ => Option Notification
  | .amend _ _ _ => Bool
  | .page _ _ _ => List Notification
  | .cacheGet _ => Except CacheFailure (Option String)
  | .cacheSet _ _ _ => Except CacheFailure Unit
  | .track _ _ => Unit
  | .probe => Unit
  | .sign _ _ _ => Option Health.Sign
  | .breakers => List BreakerView
  | .users q => Http.Link.Answer q
  | .templates q => Http.Link.Answer q

/-- The signature of the bench. -/
def Props : Signature := ⟨Query, Query.Answer⟩

namespace Bench

/-- Writes a call down. -/
def note (b : Bench) (e : Event) : Bench := { b with events := e :: b.events }

/-- Changes the record of an identifier, if there is one. -/
def amendRecord (id : Uuid) (status : Status) (error : Option String) :
    List Notification → Bool × List Notification
  | [] => (false, [])
  | r :: rest =>
    if r.id = id then (true, { r with status := status, error := error } :: rest)
    else
      let more := amendRecord id status error rest
      (more.1, r :: more.2)

/-- The notifications of a user, newest first, from a place on and up to a number. -/
def page (b : Bench) (userId : String) (limit offset : Int) : List Notification :=
  ((b.records.reverse.filter fun r => r.userId == userId).drop offset.toNat).take limit.toNat

/-- A dependency gives a sign of life, or goes through its trouble. -/
def probe {ε : Type} (message : ε → String) (begun : Nat × Except ε Unit × Troubles) :
    Health.Probe :=
  ⟨some begun.1, match begun.2.1 with
    | .ok () => none
    | .error e => some (message e)⟩

/-- All three dependencies are asked for a sign of life. -/
def probes (b : Bench) : Health.Probes × Bench :=
  let store := b.troubles.begin .storeHealth
  let cache := store.2.2.begin .cachePing
  let broker := cache.2.2.begin .publisherHealth
  (⟨probe StoreFailure.message store, probe CacheFailure.message cache,
    probe PublishFailure.message broker⟩, { b with troubles := broker.2.2 })

/-- What is done for a question, and how long it takes: only trouble takes any time. -/
def work (now : Nat) : (q : Query) → Bench → Timed.Work Bench q.Answer
  | .note e, b => .immediate () (b.note e)
  | .trouble m, b =>
    let begun := b.troubles.begin m
    let b := { b with troubles := begun.2.2 }
    ⟨b, some begun.1, (begun.2.1, b)⟩
  | .wallClock, b => .immediate b.today b
  | .stamp, b =>
    .immediate ⟨b.identifier (b.stamps + 1), b.today⟩ { b with stamps := b.stamps + 1 }
  | .insert record, b => .immediate () { b with records := b.records ++ [record] }
  | .fetch id, b => .immediate (b.records.find? fun r => r.id = id) b
  | .amend id status error, b =>
    let found := amendRecord id status error b.records
    .immediate found.1 { b with records := found.2 }
  | .page userId limit offset, b => .immediate (b.page userId limit offset) b
  | .cacheGet key, b =>
    let begun := b.troubles.begin .cacheGet
    let b := { b.note (.cacheGet key) with troubles := begun.2.2 }
    ⟨b, some begun.1, (begun.2.1.map fun () => b.cache.get? key, b)⟩
  | .cacheSet key value ttl, b =>
    let begun := b.troubles.begin .cacheSet
    let b := { b.note (.cacheSet key value ttl) with troubles := begun.2.2 }
    match begun.2.1 with
    | .error e => ⟨b, some begun.1, (.error e, b)⟩
    | .ok () => ⟨b, some begun.1, (.ok (), { b with cache := b.cache.insert key value })⟩
  | .track userId timeout, b => .immediate () { b with tracked := b.tracked ++ [(userId, timeout)] }
  | .probe, b =>
    let found := b.probes
    .immediate () { found.2 with probing := found.1 }
  | .sign dependency since limit, b =>
    let probe := b.probing.of dependency
    ⟨b, some (probe.overAt since limit - now), (probe.sign? since limit, b)⟩
  | .breakers, b =>
    let b := { b with users := b.users.look now, templates := b.templates.look now }
    .immediate [b.users.view userService now, b.templates.view templateService now] b
  | .users q, b =>
    let found := b.users.answer now q
    .immediate found.1 { b with users := found.2 }
  | .templates q, b =>
    let found := b.templates.answer now q
    .immediate found.1 { b with templates := found.2 }

def server : Timed.Server Props Bench := { work }

/-- Reports the last notification of a user: it is noted, and its trouble begins unless there is no
time for it. -/
def report (b : Bench) (userId : String) (timeout : Nat) : Bench :=
  let b := b.note (.recordSent userId b.today)
  if timeout = 0 then b else { b with troubles := (b.troubles.begin .usersRecordSent).2.2 }

/-- Reports that are still to be made are made. -/
def settle (b : Bench) : Bench :=
  b.tracked.foldl (fun b t => b.report t.1 t.2) { b with tracked := [] }

end Bench

end Courier.Rehearsal
