import Courier.Http.Clients

/-!
# Services that are played

The other end of a client: a service that answers from a script or cannot be reached, and the
breaker in front of it. An exchange takes no time. The last answer of a script repeats; a service
that hangs up and one that cannot be reached look the same to a client.
-/

set_option autoImplicit false

namespace Courier.Http

/-- What a played service does with a request. -/
inductive PeerAnswer where
  | responds (response : Response)
  | hangsUp
  deriving DecidableEq, Repr

/-- How a played service behaves. -/
inductive PeerScript where
  | unreachable
  /-- The answers that are still to come: the next one, and those after it. -/
  | answers (next : PeerAnswer) (later : List PeerAnswer)
  deriving DecidableEq, Repr

/-- A played service and the breaker in front of it. -/
structure Peer where
  config : BreakerConfig
  breaker : Breaker := {}
  script : PeerScript
  /-- The requests that have come in, the latest first. -/
  received : List Request := []

namespace Peer

/-- The reason of a client that gets no answer. -/
def noAnswer (request : Request) : String :=
  "error sending request for url (" ++ request.url.text ++ ")"

/-- A request comes to the service, or does not get there. -/
def serve (p : Peer) (request : Request) : Except String Response × Peer :=
  match p.script with
  | .unreachable => (.error (noAnswer request), p)
  | .answers next later =>
    let result := match next with
      | .responds response => .ok response
      | .hangsUp => .error (noAnswer request)
    let script := match later with
      | [] => p.script
      | a :: rest => .answers a rest
    (result, { p with script := script, received := request :: p.received })

/-- What the client asks of its service and of its breaker, at a time. -/
def answer (now : Nat) (p : Peer) : (q : Query) → Link.Answer q × Peer
  | .send request => p.serve request
  | .ticket =>
    let found := p.breaker.ticket p.config now
    (found.1, { p with breaker := found.2 })
  | .settle ticket outcome =>
    ((), { p with breaker := p.breaker.settle p.config now ticket outcome })

/-- No question takes time. -/
def server : Timed.Server Link Peer where
  work now q p :=
    let found := p.answer now q
    Timed.Work.immediate found.1 found.2

/-- Looks at the breaker. -/
def look (p : Peer) (now : Nat) : Peer := { p with breaker := p.breaker.refresh p.config now }

/-- What is seen of the breaker. -/
def view (p : Peer) (service : String) (now : Nat) : BreakerView :=
  (p.look now).breaker.view service now

end Peer

end Courier.Http
