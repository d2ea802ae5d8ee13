import Courier.Broker.Publisher
import Courier.Cache.Client
import Courier.Http.Clients
import Courier.Pipeline.Backend
import Courier.Store.Client

/-!
# The wires of the live service

Everything the live service is connected to, as one signature: five wires, and what only the
surroundings know. A program over one wire is a program over all of them.

The two HTTP services have a wire each, and a breaker at the end of it; nothing that one of them
does is seen on the wire of the other.
-/

set_option autoImplicit false

namespace Courier.Live

/-- What goes out, by the wire it takes. -/
inductive Query where
  /-- The time of day. -/
  | wallClock
  | freshId
  | users (q : Http.Query)
  | templates (q : Http.Query)
  | store (q : Store.Query)
  | broker (q : Broker.Query)
  | cache (q : Cache.Query)
  /-- The last notification of a user is to be reported, on its own and within a time of its own. -/
  | track (userId : String) (timeout : Nat)
  /-- Store, cache and broker are asked for a sign of life, side by side. -/
  | probe
  /-- The sign of life of a dependency that was asked at an instant is waited for. -/
  | sign (dependency : Health.Dependency) (since limit : Nat)
  /-- The breakers are looked at. -/
  | breakers

def Wires : Signature where
  Op := Query
  Answer
    | .wallClock => DateTime
    | .freshId => Uuid
    | .users q => Http.Link.Answer q
    | .templates q => Http.Link.Answer q
    | .store q => Store.Wire.Answer q
    | .broker q => Broker.Wire.Answer q
    | .cache q => Cache.Wire.Answer q
    | .track _ _ => Unit
    | .probe => Unit
    | .sign _ _ _ => Option Health.Sign
    | .breakers => List BreakerView

/-- A program over the wires. -/
abbrev Act (α : Type) := Flow (Timed Wires) α

/-- One question, without a context. -/
def ask (q : Query) : Act (Wires.Answer q) := Timed.plain (R := Wires) q

variable {α : Type}

/-- A program of a client, over the wire to the user service. -/
def overUsers (p : Flow (Timed Http.Link) α) : Act α :=
  Timed.lift (R := Http.Link) (Q := Wires) (fun q => ask (.users q))
    (fun ctx q => Timed.race (R := Wires) ctx (.users q)) p

/-- A program of a client, over the wire to the template service. -/
def overTemplates (p : Flow (Timed Http.Link) α) : Act α :=
  Timed.lift (R := Http.Link) (Q := Wires) (fun q => ask (.templates q))
    (fun ctx q => Timed.race (R := Wires) ctx (.templates q)) p

/-- A program of the database's client. -/
def overStore (p : Flow (Timed Store.Wire) α) : Act α :=
  Timed.lift (R := Store.Wire) (Q := Wires) (fun q => ask (.store q))
    (fun ctx q => Timed.race (R := Wires) ctx (.store q)) p

/-- A program of the publisher. -/
def overBroker (p : Flow (Timed Broker.Wire) α) : Act α :=
  Timed.lift (R := Broker.Wire) (Q := Wires) (fun q => ask (.broker q))
    (fun ctx q => Timed.race (R := Wires) ctx (.broker q)) p

/-- A program of the cache's client. -/
def overCache (p : Flow (Timed Cache.Wire) α) : Act α :=
  Timed.lift (R := Cache.Wire) (Q := Wires) (fun q => ask (.cache q))
    (fun ctx q => Timed.race (R := Wires) ctx (.cache q)) p

end Courier.Live
