import Courier.Broker.Topology
import Courier.Resilience.Retry

/-!
# The publisher

Hands messages to the broker and waits until each is confirmed. A message that is not is sent again,
as often as the policy allows; every copy is the same, its identifier too.

`publish` and `forward_to_dead_letter` of the service differ in the message alone; what they share
is `send`.
-/

set_option autoImplicit false

namespace Courier.Broker

/-- What is left of a configuration once the broker is connected. -/
structure Publisher where
  exchange : String
  /-- The queue for dead letters. -/
  deadLetterQueue : String
  policy : RetryPolicy
  deriving Repr

/-- Makes declarations one after the other. -/
def declareAll : List Declaration → Flow (Timed Wire) (Except PublishFailure Unit)
  | [] => return .ok ()
  | d :: rest => do
    match ← Timed.plain (R := Wire) (.declare d) with
    | .error reason => return .error (.broker reason)
    | .ok () => declareAll rest

/-- What became of one copy of a message. -/
def confirmed (routingKey : String) : Except String Confirmation → Except PublishFailure Unit
  | .error reason => .error (.broker reason)
  | .ok .refused => .error (.nacked routingKey)
  | .ok .taken => .ok ()

/-- Sends one copy under a context and waits for the broker's word (`publish_confirmed`). -/
def attempt (ctx : Context) (m : Message) :
    Flow (Timed Wire) (Except Interruption (Except PublishFailure Unit)) := do
  match ← Timed.guarded (R := Wire) ctx (.publish m) with
  | .error i => return .error i
  | .ok word => return .ok (confirmed m.routingKey word)

namespace Publisher

/-- The publisher of a configuration. -/
def ofConfig (c : Config) : Publisher := ⟨c.exchangeName, c.dlqName, c.publishPolicy⟩

/-- Dials the broker and declares everything that the configuration wants. The first declaration
that is refused ends it. -/
def connect (c : Config) : Flow (Timed Wire) (Except PublishFailure Publisher) := do
  match ← Timed.plain (R := Wire) (.dial c.rabbitmqUrl) with
  | .error reason => return .error (.broker reason)
  | .ok () =>
    match ← declareAll c.topology with
    | .error e => return .error e
    | .ok () => return .ok (ofConfig c)

/-- Sends copies of a message until one is confirmed or the policy is exhausted. A copy whose
confirmation is no longer awaited may have been taken all the same. -/
def send (p : Publisher) (ctx : Context) (m : Message) :
    Flow (Timed Wire) (Except PublishFailure Unit) := do
  match ← retry p.policy ctx PublishFailure.isRetryable (attempt ctx m) with
  | .error i => return .error (.interrupted i)
  | .ok result => return result

/-- The message for a delivery. -/
def message (p : Publisher) (channel : Channel) (id : Uuid) (delivery : Delivery) : Message where
  exchange := p.exchange
  routingKey := channel.routingKey
  body := Delivery.codec.text delivery
  messageId := id.toString

/-- The message for a dead letter: the exchange without a name leads to the queue of the key. -/
def letterMessage (p : Publisher) (id : Uuid) (letter : DeadLetter) : Message where
  exchange := ""
  routingKey := p.deadLetterQueue
  body := DeadLetter.codec.text letter
  messageId := id.toString

/-- Hands a delivery to the exchange, by the key of its channel. -/
def publish (p : Publisher) (ctx : Context) (channel : Channel) (id : Uuid) (delivery : Delivery) :
    Flow (Timed Wire) (Except PublishFailure Unit) :=
  p.send ctx (p.message channel id delivery)

/-- Keeps a dead letter, under an identifier of its own. -/
def deadLetter (p : Publisher) (ctx : Context) (id : Uuid) (letter : DeadLetter) :
    Flow (Timed Wire) (Except PublishFailure Unit) :=
  p.send ctx (p.letterMessage id letter)

/-- Is the broker there? -/
def health : Flow (Timed Wire) (Except PublishFailure Unit) := do
  let up : Bool ← Timed.plain (R := Wire) .isOpen
  return if up then .ok () else .error (.unavailable "RabbitMQ connection is not open")

end Publisher

end Courier.Broker
