import Courier.Number.Reading
import Courier.Pipeline.Process
import Courier.Resilience.Retry

/-!
# Configurations

All settings of the service, and what is derived from them for each part of it.
-/

set_option autoImplicit false

namespace Courier

/-- The settings. Only the addresses of the three stores have no default. -/
structure Config where
  serverPort : UInt16 := 8080
  redisUrl : String := ""
  idempotencyTtlSeconds : UInt64 := 86400
  databaseUrl : String := ""
  rabbitmqUrl : String := ""
  exchangeName : String := "notifications.direct"
  emailQueueName : String := "email.queue"
  pushQueueName : String := "push.queue"
  dlqName : String := "failed.queue"
  queueMessageTtlMs : UInt64 := 86400000
  dlqMessageTtlMs : UInt64 := 604800000
  publishMaxAttempts : UInt32 := 3
  userServiceUrl : String := ""
  templateServiceUrl : String := ""
  httpTimeoutMs : UInt64 := 10000
  useMockServices : Bool := false
  circuitBreakerMaxFailures : UInt32 := 5
  circuitBreakerTimeoutSeconds : UInt64 := 60
  circuitBreakerHalfOpenMax : UInt32 := 3
  maxRetryAttempts : UInt32 := 3
  initialRetryDelayMs : UInt64 := 100
  maxRetryDelayMs : UInt64 := 5000
  retryBackoffMultiplier : Binary64 := Binary64.ofNat 2
  retryJitter : Bool := true
  requestTimeoutMs : UInt64 := 30000
  compensationTimeoutMs : UInt64 := 5000
  defaultLanguage : String := "en"
  trackLastNotification : Bool := true
  healthCheckTimeoutMs : UInt64 := 3000
  deriving DecidableEq, Repr, Inhabited

namespace Config

/-- How calls to services are retried (`retry_config`). -/
def retryPolicy (c : Config) : RetryPolicy where
  maxAttempts := c.maxRetryAttempts
  initialDelay := c.initialRetryDelayMs
  maxDelay := c.maxRetryDelayMs
  multiplier := c.retryBackoffMultiplier
  jitter := c.retryJitter

/-- How publications are retried (`publish_retry_config`): with the same waits, but as often as a
setting of its own says. -/
def publishPolicy (c : Config) : RetryPolicy :=
  { c.retryPolicy with maxAttempts := c.publishMaxAttempts }

/-- What each breaker is given (`circuit_breaker_config`). Settings tell the timeout in seconds. -/
def breakerConfig (c : Config) : BreakerConfig where
  maxFailures := c.circuitBreakerMaxFailures
  timeout := 1000 * c.circuitBreakerTimeoutSeconds.toNat
  halfOpenMax := c.circuitBreakerHalfOpenMax

/-- What the pipeline is given (`pipeline_settings`). Tracking may take as long as the steps after a
failed publication. The number of attempts is handed on as it stands, also when it is none. -/
def pipelineSettings (c : Config) : Settings where
  requestTimeout := c.requestTimeoutMs.toNat
  compensationTimeout := c.compensationTimeoutMs.toNat
  defaultLanguage := c.defaultLanguage
  trackLast := c.trackLastNotification
  trackingTimeout := c.compensationTimeoutMs.toNat
  publishAttempts := c.publishMaxAttempts

def pipeline (c : Config) : Pipeline where
  settings := c.pipelineSettings
  replyTtl := 1000 * c.idempotencyTtlSeconds.toNat

end Config

end Courier
