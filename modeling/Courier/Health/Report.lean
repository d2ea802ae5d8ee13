import Courier.Json.Shape
import Courier.Resilience.Breaker

/-!
# Health reports

The state of every dependency by name, and of the whole. The whole is unhealthy only when a
critical dependency is: the database or the broker, without which nothing can be accepted. Anything
else that is not healthy degrades it. The checks are gone through one after the other
(`Health.verdict`), and no further once the verdict is out.
-/

set_option autoImplicit false

namespace Courier

/-- From best to worst. -/
inductive HealthStatus where
  | healthy
  | degraded
  | unhealthy
  deriving DecidableEq, Repr, Inhabited

namespace HealthStatus

def name : HealthStatus → String
  | .healthy => "healthy"
  | .degraded => "degraded"
  | .unhealthy => "unhealthy"

instance : Label HealthStatus where
  all := [.healthy, .degraded, .unhealthy]
  label := name
  label_inj {a b} h := by revert h; cases a <;> cases b <;> simp [name]
  mem_all a := by cases a <;> simp

/-- Are notifications still accepted? -/
def isServing (s : HealthStatus) : Bool := decide (s ≠ .unhealthy)

end HealthStatus

/-- The state of one dependency or breaker. -/
structure HealthCheck where
  status : HealthStatus := .healthy
  /-- How long the dependency took to answer, in milliseconds. -/
  responseTime : Option UInt64 := none
  circuit : Option CircuitState := none
  error : Option String := none
  deriving DecidableEq, Repr, Inhabited

namespace HealthCheck

def shape : Shape HealthCheck where
  title := "ServiceHealth"
  blank := {}
  slots := [
    .plain "status" .required .label (·.status) fun x r => { r with status := x },
    .present "response_time_ms" .optional .nat64 (·.responseTime)
      fun x r => { r with responseTime := x },
    .present "circuit_breaker" .optional .label (·.circuit) fun x r => { r with circuit := x },
    .present "error" .optional .string (·.error) fun x r => { r with error := x }]

def codec : Codec HealthCheck := shape.codec

/-- A dependency that answered after some time, which is told in whole milliseconds. -/
def reachable (micros : Nat) : HealthCheck :=
  { responseTime := some (UInt64.ofNat (micros / 1000)) }

/-- A dependency that no request can do without, and that failed. -/
def unreachable (error : String) : HealthCheck := { status := .unhealthy, error := some error }

/-- A dependency that failed and can be done without. -/
def impaired (error : String) : HealthCheck := { status := .degraded, error := some error }

/-- A breaker in some state. Any state but closed degrades: calls are being rejected or rationed. -/
def ofCircuit (state : CircuitState) (detail : Option String) : HealthCheck where
  status := if state = .closed then .healthy else .degraded
  circuit := some state
  error := detail

end HealthCheck

namespace Health

def database : String := "database"

def cache : String := "cache_service"

def broker : String := "message_broker"

/-- The dependencies that no request can do without. -/
def critical : List String := [database, broker]

/-- The verdict once some checks have been gone through and the others are still to come
(`determine_overall_status`). A critical dependency that is unhealthy settles it; one that is not
critical is no worse than degraded. -/
def verdict (found : HealthStatus) : List (String × HealthCheck) → HealthStatus
  | [] => found
  | (name, check) :: rest =>
    match check.status with
    | .healthy => verdict found rest
    | .unhealthy => if critical.contains name then .unhealthy else verdict .degraded rest
    | .degraded => verdict .degraded rest

/-- The verdict on the whole. -/
def overall (checks : List (String × HealthCheck)) : HealthStatus := verdict .healthy checks

end Health

/-- The whole and its parts. -/
structure HealthReport where
  status : HealthStatus := .healthy
  timestamp : DateTime := default
  checks : Dict HealthCheck := Dict.empty
  deriving DecidableEq, Repr, Inhabited

namespace HealthReport

def shape : Shape HealthReport where
  title := "HealthCheckResponse"
  blank := {}
  slots := [
    .plain "status" .required .label (·.status) fun x r => { r with status := x },
    .plain "timestamp" .required .time (·.timestamp) fun x r => { r with timestamp := x },
    .plain "checks" .required (.dict HealthCheck.codec) (·.checks)
      fun x r => { r with checks := x }]

def codec : Codec HealthReport := shape.codec

end HealthReport

end Courier
