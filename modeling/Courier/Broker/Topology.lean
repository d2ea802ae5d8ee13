import Courier.Broker.Message
import Courier.Config.Basic

/-!
# The topology

What a configuration wants to find at the broker: one exchange, a queue for each channel bound to it
by the channel's routing key, and a queue for dead letters, which is reached by its own name.

Times to live go over the wire with a sign (`ttl_arguments`), although the settings have none.
-/

set_option autoImplicit false

namespace Courier.Config

/-- The queue of a channel. -/
def queueName (c : Config) : Channel → String
  | .email => c.emailQueueName
  | .push => c.pushQueueName

/-- A time as the broker takes it: 64 bits with a sign. -/
def timeToLive (ms : UInt64) : Int64 := ms.toInt64

/-- The queue of a channel and how messages get there. -/
def channelQueue (c : Config) (channel : Channel) : List Broker.Declaration := [
  .queue (c.queueName channel) (timeToLive c.queueMessageTtlMs),
  .binding (c.queueName channel) c.exchangeName channel.routingKey]

/-- All declarations, in the order in which they are made. -/
def topology (c : Config) : List Broker.Declaration :=
  [.confirmations, .exchange c.exchangeName] ++ c.channelQueue .email ++ c.channelQueue .push ++
    [.queue c.dlqName (timeToLive c.dlqMessageTtlMs)]

end Courier.Config
