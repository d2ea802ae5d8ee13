import Courier.Failure
import Courier.Flow.Timed
import Courier.Notification.Delivery

/-!
# What the broker is asked

Declarations, by which exchanges and queues are made where there are none, and messages. A message
is confirmed one by one: the broker takes it or it does not.
-/

set_option autoImplicit false

namespace Courier.Broker

/-- What has to be there before a message can be sent. Exchanges route by the whole key, and all
that is declared survives a restart of the broker. -/
inductive Declaration where
  /-- Messages are to be confirmed. -/
  | confirmations
  | exchange (name : String)
  /-- A queue that drops messages after a time in milliseconds, told as a signed number. -/
  | queue (name : String) (timeToLive : Int64)
  | binding (queue exchange routingKey : String)
  deriving DecidableEq, Repr

/-- A message. What carries it back to its record is its identifier. -/
structure Message where
  exchange : String
  routingKey : String
  body : String
  messageId : String
  contentType : String := "application/json"
  /-- Does it survive a restart of the broker? -/
  persistent : Bool := true
  deriving DecidableEq, Repr

/-- The broker's word on a message. -/
inductive Confirmation where
  | taken
  | refused
  deriving DecidableEq, Repr

/-- What goes over the wire. -/
inductive Query where
  | dial (url : String)
  | declare (d : Declaration)
  | publish (m : Message)
  | isOpen
  deriving DecidableEq, Repr

/-- A wire gives an answer, or the reason why there is none. -/
def Wire : Signature where
  Op := Query
  Answer
    | .dial _ => Except String Unit
    | .declare _ => Except String Unit
    | .publish _ => Except String Confirmation
    | .isOpen => Bool

end Courier.Broker
