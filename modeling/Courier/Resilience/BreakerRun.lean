import Courier.Resilience.Breaker

/-!
# A breaker and its calls

A breaker together with the clock and the calls that have been let through and not yet ended. Calls
overlap as they like: what happens next is an event, and a run is a list of events. A call that was
rejected is not in flight, so ending it is ending an unknown call.

`BreakerRun.call` is what a client does in one piece (`call`); `step` takes it apart, since between
a ticket and its outcome anything may happen to the breaker.
-/

set_option autoImplicit false

namespace Courier

/-- Something that happens to a breaker. -/
inductive BreakerEvent where
  /-- A call wants through. -/
  | start (call : String)
  /-- A call ends. -/
  | finish (call : String) (outcome : Outcome)
  /-- Someone looks at the breaker. -/
  | look
  | reset
  /-- Time goes by, in milliseconds. -/
  | advance (duration : Nat)
  deriving DecidableEq, Repr

/-- What comes of it. -/
inductive Reaction where
  | passed
  | rejected (why : Rejection)
  | finished (outcome : Outcome)
  /-- No such call is in flight. -/
  | unknown
  | quiet
  deriving DecidableEq, Repr

/-- A breaker, the time, and the calls in flight, the latest first. -/
structure BreakerRun where
  config : BreakerConfig
  breaker : Breaker := {}
  now : Nat := 0
  calls : List (String × Ticket) := []
  deriving DecidableEq, Repr

namespace BreakerRun

/-- Takes the call of a name out of flight. -/
def remove (name : String) : List (String × Ticket) → List (String × Ticket)
  | [] => []
  | c :: rest => if c.1 = name then rest else c :: remove name rest

/-- One event. The only events that let time go by are those that say so, so that what happens in a
phase can be told apart from how long it takes. -/
def step (r : BreakerRun) : BreakerEvent → Reaction × BreakerRun
  | .start name =>
    match r.breaker.ticket r.config r.now with
    | (.ok ticket, b) => (.passed, { r with breaker := b, calls := (name, ticket) :: r.calls })
    | (.error why, b) => (.rejected why, { r with breaker := b })
  | .finish name outcome =>
    match r.calls.lookup name with
    | some ticket => (.finished outcome, { r with
        breaker := r.breaker.settle r.config r.now ticket outcome
        calls := remove name r.calls })
    | none => (.unknown, r)
  | .look => (.quiet, { r with breaker := r.breaker.refresh r.config r.now })
  | .reset => (.quiet, { r with breaker := r.breaker.reset r.now })
  | .advance duration => (.quiet, { r with now := r.now + duration })

/-- What comes of a list of events, and the state after it. Everything that is said of a breaker
over time is said of such runs. -/
def run (r : BreakerRun) : List BreakerEvent → List Reaction × BreakerRun
  | [] => ([], r)
  | e :: rest =>
    let first := r.step e
    let more := first.2.run rest
    (first.1 :: more.1, more.2)

/-- A call that nothing overlaps with: it is let through, takes its time and ends; or it is
rejected. -/
def call (r : BreakerRun) (takes : Nat) (outcome : Outcome) : Reaction × BreakerRun :=
  match r.breaker.ticket r.config r.now with
  | (.ok ticket, b) =>
    let r := { r with breaker := b, now := r.now + takes }
    (.finished outcome, { r with breaker := b.settle r.config r.now ticket outcome })
  | (.error why, b) => (.rejected why, { r with breaker := b })

/-- What is seen of the breaker of a service, once it has been looked at. -/
def view (r : BreakerRun) (service : String) : BreakerView := r.breaker.view service r.now

end BreakerRun

end Courier
