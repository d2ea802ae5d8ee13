import Courier.Health.Report

/-!
# Probes

A dependency is asked for a sign of life and answers after some time, or never (`Probe`). Whoever
waits for it waits until some time and no longer, and an answer that comes just then still counts:
`Probe.sign?` is what comes of such a wait and `Probe.overAt` when it is over. That the dependency
has been asked before the wait begins is what lets several be asked side by side and waited for one
after the other.

A probe also serves as the account of what has been seen of a dependency (`Probe.seen`): one that
has not answered in time may never answer for all that is known of it.
-/

set_option autoImplicit false

namespace Courier

namespace Health

/-- What a dependency does when it is asked: after some time, or never, it is well or fails with a
message. -/
structure Probe where
  takes : Option Nat
  failure : Option String
  deriving DecidableEq, Repr

/-- The three dependencies. -/
structure Probes where
  database : Probe
  cache : Probe
  broker : Probe
  deriving DecidableEq, Repr

/-- Which of the three. -/
inductive Dependency where
  | database
  | cache
  | broker
  deriving DecidableEq, Repr

def Probes.of (p : Probes) : Dependency → Probe
  | .database => p.database
  | .cache => p.cache
  | .broker => p.broker

/-- A sign of life: when it came, and what is wrong with the dependency, if anything is. -/
structure Sign where
  time : Nat
  failure : Option String
  deriving DecidableEq, Repr

namespace Probe

/-- The sign of a dependency that is asked at an instant, if it comes by some time. -/
def sign? (since limit : Nat) (p : Probe) : Option Sign :=
  match p.takes with
  | some t => if since + t ≤ limit then some ⟨since + t, p.failure⟩ else none
  | none => none

/-- When a wait for the sign is over. -/
def overAt (since limit : Nat) (p : Probe) : Nat :=
  match p.takes with
  | some t => min (since + t) limit
  | none => limit

/-- What has been seen of a dependency by the end of a wait. -/
def seen (since : Nat) : Option Sign → Probe
  | some sign => ⟨some (sign.time - since), sign.failure⟩
  | none => ⟨none, none⟩

/-- How long a probe is waited for. -/
def duration (timeout : Nat) (p : Probe) : Nat :=
  match p.takes with
  | some t => min t timeout
  | none => timeout

/-- What is wrong with a dependency, if it is. -/
def trouble? (timeout : Nat) (p : Probe) : Option String :=
  match p.takes with
  | some t =>
    if t ≤ timeout then p.failure
    else some ("no response within " ++ toString timeout ++ "ms")
  | none => some ("no response within " ++ toString timeout ++ "ms")

/-- The check of a dependency by name. One that has not answered in time has failed, with a message
that tells the timeout. -/
def check (timeout : Nat) (name : String) (p : Probe) : HealthCheck :=
  match p.trouble? timeout with
  | none => .reachable (1000 * p.duration timeout)
  | some error => if critical.contains name then .unreachable error else .impaired error

end Probe

/-- What is said of a breaker that is not closed. -/
def breakerDetail (view : BreakerView) : Option String :=
  match view.state with
  | .closed => none
  | .halfOpen => some "Circuit breaker in recovery mode"
  | .open => some ("Circuit breaker open for " ++ toString view.age ++ "ms")

/-- How long all probes together take. -/
def duration (timeout : Nat) (p : Probes) : Nat :=
  max (p.database.duration timeout) (max (p.cache.duration timeout) (p.broker.duration timeout))

/-- The report on all dependencies and breakers. A breaker replaces a check of its name. -/
def report (timeout : Nat) (p : Probes) (breakers : List BreakerView) (timestamp : DateTime) :
    HealthReport :=
  let dependencies : Dict HealthCheck := .ofList [
    (database, p.database.check timeout database),
    (cache, p.cache.check timeout cache),
    (broker, p.broker.check timeout broker)]
  let checks := breakers.foldl (fun d b =>
    d.insert b.service (.ofCircuit b.state (breakerDetail b))) dependencies
  ⟨overall checks.entries, timestamp, checks⟩

end Health

end Courier
