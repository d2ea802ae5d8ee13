import Courier.Label

/-!
# Circuit breakers

A breaker stands in front of a dependency. Closed, it lets calls through and counts the failures in
a row; at the limit it opens and rejects calls. After a while the next look at it finds it
half-open: it lets a few probes through, closes when as many have succeeded and opens again when
one fails.

A call that is let through gets a ticket, which names the phase it belongs to. The outcome of a
call counts only in its own phase: every transition, a reset too, begins a new one. A probe that is
given up returns its place.

Every operation is told the time, in milliseconds.

The operations of the service's `CircuitBreaker` are these: `admit` is `ticket`, `record_success`
and `record_failure` are `succeed` and `fail`, `release_probe` is `abandon`, `refresh` and
`transition_to` are `refresh` and `enter`, `snapshot` is `view` after a refresh. The counters of the
service have 32 bits; here they are natural numbers, and that they never leave the 32 bits is proved
where it matters.
-/

set_option autoImplicit false

namespace Courier

/-- The three states. Only the half-open one rations calls. -/
inductive CircuitState where
  | closed
  | open
  | halfOpen
  deriving DecidableEq, Repr, Inhabited

namespace CircuitState

def name : CircuitState → String
  | .closed => "closed"
  | .open => "open"
  | .halfOpen => "half_open"

instance : Label CircuitState where
  all := [.closed, .open, .halfOpen]
  label := name
  label_inj {a b} h := by revert h; cases a <;> cases b <;> simp [name]
  mem_all a := by cases a <;> simp

end CircuitState

structure BreakerConfig where
  /-- Failures in a row that open the breaker; none counts as one. -/
  maxFailures : UInt32 := 5
  /-- How long it stays open, in milliseconds. -/
  timeout : Nat := 60000
  /-- How many probes may run and have to succeed; none counts as one. -/
  halfOpenMax : UInt32 := 3
  deriving DecidableEq, Repr, Inhabited

/-- How many probes a half-open phase has. -/
def BreakerConfig.quota (c : BreakerConfig) : Nat := max c.halfOpenMax.toNat 1

/-- The state of a breaker. -/
structure Breaker where
  state : CircuitState := .closed
  /-- Failures in a row. -/
  failures : Nat := 0
  /-- When the phase began. -/
  since : Nat := 0
  /-- Places taken by probes of this phase that run or have succeeded. -/
  probes : Nat := 0
  /-- Probes of this phase that have succeeded. -/
  successes : Nat := 0
  /-- The number of the phase. The service counts in 64 bits; a natural number stands for that as
  long as a breaker makes fewer than `2^64` transitions, which is assumed of every breaker. -/
  phase : Nat := 0
  deriving DecidableEq, Repr, Inhabited

/-- The permission of a call. -/
structure Ticket where
  phase : Nat
  probe : Bool
  deriving DecidableEq, Repr

/-- Why a call is not let through. -/
inductive Rejection where
  | open
  | tooManyRequests
  deriving DecidableEq, Repr

def Rejection.message : Rejection → String
  | .open => "circuit breaker is open"
  | .tooManyRequests => "too many requests while circuit breaker is half-open"

/-- How a call that was let through ends. -/
inductive Outcome where
  | success
  | failure
  /-- It is given up and says nothing about the dependency. -/
  | abandoned
  deriving DecidableEq, Repr

/-- What others may see of a breaker: its `snapshot`. -/
structure BreakerView where
  service : String
  state : CircuitState
  failures : Nat
  probes : Nat
  /-- The age of the phase in milliseconds. -/
  age : Nat
  deriving DecidableEq, Repr

namespace Breaker

/-- Begins a new phase, as `transition_to` does: the counters of a phase start at none, and its
number is one that no ticket has yet. Only the closed one starts without failures. -/
def enter (b : Breaker) (now : Nat) (state : CircuitState) : Breaker where
  state := state
  failures := if state = .closed then 0 else b.failures
  since := now
  probes := 0
  successes := 0
  phase := b.phase + 1

/-- An open breaker is half-open from the end of its timeout on. Nobody turns it over by a clock: it
is the next one who asks that finds the time gone by. -/
def refresh (config : BreakerConfig) (b : Breaker) (now : Nat) : Breaker :=
  if b.state = .open ∧ config.timeout ≤ now - b.since then b.enter now .halfOpen else b

/-- Lets a call through or rejects it (`admit`). A probe takes a place, and takes it before it is
made, so that no more than the quota are ever under way. -/
def ticket (config : BreakerConfig) (b : Breaker) (now : Nat) : Except Rejection Ticket × Breaker :=
  let b := b.refresh config now
  match b.state with
  | .closed => (.ok ⟨b.phase, false⟩, b)
  | .open => (.error .open, b)
  | .halfOpen =>
    if b.probes < config.quota then (.ok ⟨b.phase, true⟩, { b with probes := b.probes + 1 })
    else (.error .tooManyRequests, b)

/-- Counts a success (`record_success`). An open phase gives out no tickets, so that none can come
back to it. -/
def succeed (config : BreakerConfig) (b : Breaker) (now : Nat) : Breaker :=
  match b.state with
  | .closed => { b with failures := 0 }
  | .open => b
  | .halfOpen =>
    let b := { b with successes := b.successes + 1 }
    if config.quota ≤ b.successes then b.enter now .closed else b

/-- Counts a failure (`record_failure`). One is enough for a half-open breaker, as many in a row as
the configuration says for a closed one. -/
def fail (config : BreakerConfig) (b : Breaker) (now : Nat) : Breaker :=
  match b.state with
  | .closed =>
    let b := { b with failures := b.failures + 1 }
    if config.maxFailures.toNat ≤ b.failures then b.enter now .open else b
  | .open => b
  | .halfOpen => b.enter now .open

/-- Gives a probe's place back (`release_probe`): a call that was dropped says nothing about the
dependency, but must not keep others from asking it. -/
def abandon (b : Breaker) (ticket : Ticket) : Breaker :=
  if ticket.probe ∧ b.state = .halfOpen then { b with probes := b.probes - 1 } else b

/-- A call that was let through ends. It counts only in the phase of its ticket. -/
def settle (config : BreakerConfig) (b : Breaker) (now : Nat) (ticket : Ticket)
    (outcome : Outcome) : Breaker :=
  if b.phase = ticket.phase then
    match outcome with
    | .success => b.succeed config now
    | .failure => b.fail config now
    | .abandoned => b.abandon ticket
  else b

/-- Closes the breaker, whatever its state. This too begins a new phase, which makes the tickets of
all calls under way stale. -/
def reset (b : Breaker) (now : Nat) : Breaker := b.enter now .closed

/-- What others see; `b` is a refreshed breaker. -/
def view (b : Breaker) (service : String) (now : Nat) : BreakerView :=
  ⟨service, b.state, b.failures, b.probes, now - b.since⟩

end Breaker

end Courier
