import Courier.Json.Fault
import Courier.Resilience.Breaker
import Courier.Resilience.Context
import Courier.Uuid

/-!
# Failures

What can go wrong with each dependency, and with a request as a whole. Each failure has a message
for people and a kind for programs; the kind of a request's failure is that of its cause where a
client or an interruption is to blame. A rule of the business that is violated is no failure.

Each dependency has failures of its own. They meet in `Failure` (`ofClient`, `ofCreate`, `ofStore`,
`ofPublish`), and this is the only place where one is taken for another: an interruption is always
the request's own, whoever reports it, and a record that is not there is told as such to a call
about it, but not where the record is being created.
-/

set_option autoImplicit false

namespace Courier

/-- What callers and operators tell failures apart by. -/
inductive FailureKind where
  | dependencyUnavailable
  | dependencyRejected
  | circuitOpen
  | tooManyRequests
  | persistence
  | publish
  | notFound
  | cancelled
  | deadlineExceeded
  deriving DecidableEq, Repr

namespace FailureKind

def name : FailureKind → String
  | .dependencyUnavailable => "dependency_unavailable"
  | .dependencyRejected => "dependency_rejected"
  | .circuitOpen => "circuit_open"
  | .tooManyRequests => "too_many_requests"
  | .persistence => "persistence"
  | .publish => "publish"
  | .notFound => "not_found"
  | .cancelled => "cancelled"
  | .deadlineExceeded => "deadline_exceeded"

instance : Label FailureKind where
  all := [.dependencyUnavailable, .dependencyRejected, .circuitOpen, .tooManyRequests, .persistence,
    .publish, .notFound, .cancelled, .deadlineExceeded]
  label := name
  label_inj {a b} h := by revert h; cases a <;> cases b <;> simp [name]
  mem_all a := by cases a <;> simp

end FailureKind

/-- An interruption is told as what it is, and never as a failure of the dependency that was being
asked. -/
def Interruption.kind : Interruption → FailureKind
  | .cancelled => .cancelled
  | .deadlineExceeded => .deadlineExceeded

/-- A status code that another attempt may change (`is_retryable_status`): server errors and too
many requests. Codes beyond 599 count as server errors. -/
def isRetryableStatus (status : Nat) : Bool := decide (500 ≤ status) || status == 429

/-- A call to another service over HTTP failed. -/
inductive ClientFailure where
  | circuitOpen (service : String)
  | tooManyRequests (service : String)
  | transport (service message : String)
  | status (service : String) (code : Nat) (body : String)
  | unreadable (service message : String)
  | interrupted (why : Interruption)
  deriving DecidableEq, Repr

namespace ClientFailure

/-- For the log, the caller and the dead letter. What a service said with a bad status is given as
it was received. -/
def message : ClientFailure → String
  | .circuitOpen service => service ++ " is temporarily unavailable: circuit breaker is open"
  | .tooManyRequests service =>
    service ++ " is recovering, please retry: too many requests while half-open"
  | .transport service message => service ++ " request failed: " ++ message
  | .status service code body =>
    service ++ " returned status " ++ toString code ++ ": " ++ body
  | .unreadable service message => service ++ " returned an unreadable response: " ++ message
  | .interrupted why => why.message

/-- Is another attempt worth while? Not after a rejection by the breaker: that fails fast. -/
def isRetryable : ClientFailure → Bool
  | .transport _ _ => true
  | .status _ code _ => isRetryableStatus code
  | .circuitOpen _ | .tooManyRequests _ | .unreadable _ _ | .interrupted _ => false

/-- What programs are told of the cause. A status that may change means that the service is not
available, any other bad one that it has said no. -/
def kind : ClientFailure → FailureKind
  | .circuitOpen _ => .circuitOpen
  | .tooManyRequests _ => .tooManyRequests
  | .transport _ _ => .dependencyUnavailable
  | .status _ code _ =>
    if isRetryableStatus code then .dependencyUnavailable else .dependencyRejected
  | .unreadable _ _ => .dependencyRejected
  | .interrupted why => why.kind

/-- The failure of a call that the breaker of a service rejects. -/
def ofRejection (service : String) : Rejection → ClientFailure
  | .open => .circuitOpen service
  | .tooManyRequests => .tooManyRequests service

end ClientFailure

/-- The store failed. -/
inductive StoreFailure where
  | database (detail : String)
  | notFound (id : Uuid)
  | invalidRow (detail : String)
  | serialization (cause : Cause)
  | unavailable (detail : String)
  | interrupted (why : Interruption)
  deriving DecidableEq, Repr

/-- Only a record that is not there is told by its identifier; all else is the detail that the
database gave. -/
def StoreFailure.message : StoreFailure → String
  | .database detail => "database error: " ++ detail
  | .notFound id => "notification not found: " ++ id.toString
  | .invalidRow detail => "invalid notification row: " ++ detail
  | .serialization cause => "serialization error: " ++ cause.message
  | .unavailable detail => "store unavailable: " ++ detail
  | .interrupted why => why.message

/-- A message was not handed over. -/
inductive PublishFailure where
  | broker (detail : String)
  | nacked (routingKey : String)
  | encode (detail : String)
  | unavailable (detail : String)
  | interrupted (why : Interruption)
  deriving DecidableEq, Repr

namespace PublishFailure

def message : PublishFailure → String
  | .broker detail => "broker error: " ++ detail
  | .nacked routingKey => "broker did not confirm message on '" ++ routingKey ++ "'"
  | .encode detail => "failed to encode payload: " ++ detail
  | .unavailable detail => "broker unavailable: " ++ detail
  | .interrupted why => why.message

/-- A message that could not be written will not be written the next time either, and an
interruption is final. Everything else may pass. -/
def isRetryable : PublishFailure → Bool
  | .broker _ | .nacked _ | .unavailable _ => true
  | .encode _ | .interrupted _ => false

end PublishFailure

/-- The cache failed. -/
inductive CacheFailure where
  | redis (detail : String)
  | unavailable (detail : String)
  deriving DecidableEq, Repr

def CacheFailure.message : CacheFailure → String
  | .redis detail => "redis error: " ++ detail
  | .unavailable detail => "cache unavailable: " ++ detail

/-- What the store was asked for when it failed. -/
inductive Stage where
  | createSkipped
  | createFailed
  | create
  | updateStatus
  | get
  | list
  deriving DecidableEq, Repr

namespace Stage

def name : Stage → String
  | .createSkipped => "create_skipped"
  | .createFailed => "create_failed"
  | .create => "create"
  | .updateStatus => "update_status"
  | .get => "get"
  | .list => "list"

end Stage

/-- The outcome of a request could not be determined. -/
inductive Failure where
  | preferences (cause : ClientFailure)
  | rendering (cause : ClientFailure)
  | persistence (stage : String) (id : Option Uuid) (cause : StoreFailure)
  | publish (id : Uuid) (cause : PublishFailure)
  | notFound (id : Uuid)
  | interrupted (why : Interruption)
  deriving DecidableEq, Repr

namespace Failure

/-- For people: the step that failed, and the message of its cause. -/
def message : Failure → String
  | .preferences cause => "failed to get user preferences: " ++ cause.message
  | .rendering cause => "failed to render template: " ++ cause.message
  | .persistence stage _ cause =>
    "failed to persist notification during " ++ stage ++ ": " ++ cause.message
  | .publish id cause => "failed to queue notification " ++ id.toString ++ ": " ++ cause.message
  | .notFound id => "notification not found: " ++ id.toString
  | .interrupted why => why.message

/-- For programs. What a client has to say is passed on; the store and the broker have one kind
each. -/
def kind : Failure → FailureKind
  | .preferences cause | .rendering cause => cause.kind
  | .persistence _ _ _ => .persistence
  | .publish _ _ => .publish
  | .notFound _ => .notFound
  | .interrupted why => why.kind

/-- The message of the failure underneath. -/
def cause? : Failure → Option String
  | .preferences cause | .rendering cause => some cause.message
  | .persistence _ _ cause => some cause.message
  | .publish _ cause => some cause.message
  | .notFound _ | .interrupted _ => none

/-- A client failed (`client_failure`); an interruption is the request's own. -/
def ofClient (wrap : ClientFailure → Failure) : ClientFailure → Failure
  | .interrupted why => .interrupted why
  | cause => wrap cause

/-- A record could not be created (`persist`). The store does not know of any record yet, so that
one is not there means that the store has failed. -/
def ofCreate (stage : Stage) (id : Uuid) : StoreFailure → Failure
  | .interrupted why => .interrupted why
  | cause => .persistence stage.name (some id) cause

/-- The store failed for a known record or for a list (`store_failure`). -/
def ofStore (stage : Stage) (id : Option Uuid) : StoreFailure → Failure
  | .notFound id => .notFound id
  | .interrupted why => .interrupted why
  | cause => .persistence stage.name id cause

/-- A message for a record was not handed over (`handle_publish_failure`). -/
def ofPublish (id : Uuid) : PublishFailure → Failure
  | .interrupted why => .interrupted why
  | cause => .publish id cause

end Failure

end Courier
