import Courier.Failure
import Courier.Flow.Timed
import Courier.Http.Url
import Courier.Json.Decoder

/-!
# HTTP exchanges behind a breaker

One request to a service and what is made of its answer. The requests of a client go through a
breaker, one ticket each: an answer of any kind settles the ticket, an interruption abandons it. A
URL that cannot be requested fails like a request, without one being sent.

In the service this is `send_json` with `check_status` and `breaker_error`, under `call` of the
breaker. The ticket is asked for without a context and settled in any case, so that a place that was
taken is given back however the exchange ends.
-/

set_option autoImplicit false

namespace Courier.Http

inductive Method where
  | get
  | post
  | put
  deriving DecidableEq, Repr

def Method.name : Method → String
  | .get => "GET"
  | .post => "POST"
  | .put => "PUT"

/-- What is sent: no headers, since nothing depends on them. -/
structure Request where
  method : Method
  url : Url
  body : Option Json := none
  deriving DecidableEq

/-- What comes back. A body is read only from a success; of a failure it becomes part of the
message. -/
structure Response where
  status : Nat
  body : String
  deriving DecidableEq, Repr

/-- The codes from 200 to 299. -/
def Response.isSuccess (r : Response) : Bool := decide (200 ≤ r.status) && decide (r.status < 300)

/-- What a client asks: its service for an answer, its breaker for a ticket. -/
inductive Query where
  | send (request : Request)
  | ticket
  | settle (ticket : Ticket) (outcome : Outcome)

/-- A service that is asked gives a response or the reason why there is none. -/
def Link : Signature where
  Op := Query
  Answer
    | .send _ => Except String Response
    | .ticket => Except Rejection Ticket
    | .settle _ _ => Unit

/-- The result of an attempt under a context. -/
abbrev Attempt (α : Type) := Except Interruption (Except ClientFailure α)

variable {α : Type}

/-- The message of a request that cannot be built. -/
def unsendable : String := "builder error"

/-- The message of a response whose body is not what it should be. -/
def undecodable : String := "error decoding response body"

/-- Takes the body of a successful response for a value. -/
def readBody (service : String) (decode : Decoder α) (response : Response) :
    Except ClientFailure α :=
  match Decoder.ofText decode response.body with
  | .ok x => .ok x
  | .error _ => .error (.unreadable service undecodable)

/-- Sends a request and takes its answer, both under the context. A code that is no success is a
failure of its own, with the code in it: some of them are worth another attempt. -/
def exchange (service : String) (ctx : Context) (request : Option Request)
    (read : Response → Except ClientFailure α) : Flow (Timed Link) (Attempt α) := do
  match request with
  | none => return .ok (.error (.transport service unsendable))
  | some request =>
    if request.url.isRequestable then
      match ← Timed.race (R := Link) ctx (.send request) with
      | .error i => return .error i
      | .ok (.error reason) => return .ok (.error (.transport service reason))
      | .ok (.ok response) =>
        if response.isSuccess then return .ok (read response)
        else return .ok (.error (.status service response.status response.body))
    else
      let reason := unsendable ++ " for url (" ++ request.url.text ++ ")"
      return .ok (.error (.transport service reason))

/-- How an attempt ends for the breaker. A failure of any kind counts against the service, a body
that does not decode too; an interruption says nothing about it. -/
def outcomeOf : Attempt α → Outcome
  | .error _ => .abandoned
  | .ok (.ok _) => .success
  | .ok (.error _) => .failure

/-- An attempt that the breaker lets through or rejects (`call`). Between the ticket and its outcome
the breaker is free for others. -/
def behindBreaker (service : String) (attempt : Flow (Timed Link) (Attempt α)) :
    Flow (Timed Link) (Attempt α) := do
  match ← Timed.plain (R := Link) .ticket with
  | .error rejection => return .ok (.error (.ofRejection service rejection))
  | .ok ticket =>
    let result ← attempt
    let _ ← Timed.plain (R := Link) (.settle ticket (outcomeOf result))
    return result

/-- The result of a call: an interruption is a failure of it too. -/
def flatten : Attempt α → Except ClientFailure α
  | .error i => .error (.interrupted i)
  | .ok result => result

end Courier.Http
