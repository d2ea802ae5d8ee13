import Courier.Broker.Publisher

/-!
# A broker that is played

The other end of the publisher's wire: what was declared and published there, and what it does with
the messages that are still to come. Nothing takes time. When it hangs up on a message instead of
confirming it, no later message arrives.
-/

set_option autoImplicit false

namespace Courier.Broker

/-- What a played broker does with a message. -/
inductive PeerAnswer where
  | confirms (word : Confirmation)
  | hangsUp
  deriving DecidableEq, Repr

/-- A played broker. -/
structure Peer where
  /-- Is anyone there to be dialled? -/
  listening : Bool := true
  /-- Is the wire whole? -/
  connected : Bool := true
  /-- The declarations that are refused. -/
  refuses : Declaration → Bool := fun _ => false
  /-- What becomes of the next messages; all others are taken. -/
  answers : List PeerAnswer := []
  /-- What was declared, the latest first. -/
  declared : List Declaration := []
  /-- The messages that arrived, the latest first. -/
  published : List Message := []

namespace Peer

/-- A declaration that is refused costs the wire. -/
def declare (p : Peer) (d : Declaration) : Except String Unit × Peer :=
  if p.connected then
    let p := { p with declared := d :: p.declared }
    if p.refuses d then (.error "declaration refused", { p with connected := false })
    else (.ok (), p)
  else (.error "connection closed", p)

/-- A message that arrives is there, whatever the broker says of it. -/
def publish (p : Peer) (m : Message) : Except String Confirmation × Peer :=
  if p.connected then
    let arrived := { p with published := m :: p.published, answers := p.answers.drop 1 }
    match p.answers.head? with
    | some .hangsUp => (.error "connection closed", { arrived with connected := false })
    | some (.confirms word) => (.ok word, arrived)
    | none => (.ok .taken, arrived)
  else (.error "connection closed", p)

/-- What comes over the wire. -/
def answer (p : Peer) : (q : Query) → Wire.Answer q × Peer
  | .dial _ => (if p.listening then .ok () else .error "connection refused", p)
  | .declare d => p.declare d
  | .publish m => p.publish m
  | .isOpen => (p.connected, p)

def server : Timed.Server Wire Peer where
  work _ q p :=
    let found := p.answer q
    Timed.Work.immediate found.1 found.2

end Peer

end Courier.Broker
