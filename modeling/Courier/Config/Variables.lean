import Courier.Config.Basic

/-!
# Configurations from variables

A configuration is read from a list of variables, names with values. A name is matched in lower
case; a name that is no setting's is passed over. Variables are taken in their order, and the first
one with a fault decides: a value that does not read, or a setting that comes a second time.
Settings that are missing are found out after that, and last whether the settings fit together.

That the order of the variables and the case of their names do not matter is not plain from this: a
fold over a list has an order. It holds as far as no two of them set the same thing.
-/

set_option autoImplicit false

namespace Courier

/-- Why variables are no configuration. -/
inductive ConfigFault where
  /-- A value does not read as what the setting of that name needs. -/
  | unreadable (reason value name : String)
  | duplicate (setting : String)
  | missing (setting : String)
  /-- Neither services in memory nor two addresses of live ones. -/
  | noServices
  | shrinkingBackoff
  deriving DecidableEq, Repr

/-- The message of a fault; `opening` stands before faults of reading. -/
def ConfigFault.message (opening : String) : ConfigFault → String
  | .unreadable reason value name =>
    opening ++ reason ++ " while parsing value '" ++ value ++ "' provided by " ++ name
  | .duplicate setting => opening ++ Cause.message (.duplicateField setting)
  | .missing setting => opening ++ "missing value for field " ++ setting
  | .noServices =>
    "USER_SERVICE_URL and TEMPLATE_SERVICE_URL are required unless USE_MOCK_SERVICES is set"
  | .shrinkingBackoff => "RETRY_BACKOFF_MULTIPLIER must be at least 1.0"

/-- A setting: its name in lower case, whether it must be given, and how it is set by a text. -/
structure Setting where
  name : String
  required : Bool
  set : String → Config → Except String Config

namespace Setting

/-- A setting with a default, read in some way. -/
def ofReader {α : Type} (name : String) (read : String → Except String α)
    (put : α → Config → Config) : Setting :=
  ⟨name, false, fun s c => (read s).map (put · c)⟩

def text (name : String) (put : String → Config → Config) : Setting := ofReader name .ok put

/-- A setting without a default. -/
def requiredText (name : String) (put : String → Config → Config) : Setting :=
  { text name put with required := true }

/-- A natural number up to a bound. -/
def readNumber (bound : Nat) (s : String) : Except String Nat :=
  (Text.readNat bound s).mapError Text.NumeralFault.message

def nat16 (name : String) (put : UInt16 → Config → Config) : Setting :=
  ofReader name (readNumber (UInt16.size - 1)) fun n => put (UInt16.ofNat n)

def nat32 (name : String) (put : UInt32 → Config → Config) : Setting :=
  ofReader name (readNumber (UInt32.size - 1)) fun n => put (UInt32.ofNat n)

def nat64 (name : String) (put : UInt64 → Config → Config) : Setting :=
  ofReader name (readNumber (UInt64.size - 1)) fun n => put (UInt64.ofNat n)

def double (name : String) (put : Binary64 → Config → Config) : Setting :=
  ofReader name (fun s => (Binary64.read s).mapError Binary64.ReadFault.message) put

/-- A truth value: one of two words. -/
def readFlag (s : String) : Except String Bool :=
  if s = "true" then .ok true
  else if s = "false" then .ok false
  else .error "provided string was not \x60true\x60 or \x60false\x60"

def flag (name : String) (put : Bool → Config → Config) : Setting := ofReader name readFlag put

/-- All settings, in the order in which missing ones are told. -/
def all : List Setting := [
  nat16 "server_port" fun x c => { c with serverPort := x },
  requiredText "redis_url" fun x c => { c with redisUrl := x },
  nat64 "idempotency_ttl_seconds" fun x c => { c with idempotencyTtlSeconds := x },
  requiredText "database_url" fun x c => { c with databaseUrl := x },
  requiredText "rabbitmq_url" fun x c => { c with rabbitmqUrl := x },
  text "exchange_name" fun x c => { c with exchangeName := x },
  text "email_queue_name" fun x c => { c with emailQueueName := x },
  text "push_queue_name" fun x c => { c with pushQueueName := x },
  text "dlq_name" fun x c => { c with dlqName := x },
  nat64 "queue_message_ttl_ms" fun x c => { c with queueMessageTtlMs := x },
  nat64 "dlq_message_ttl_ms" fun x c => { c with dlqMessageTtlMs := x },
  nat32 "publish_max_attempts" fun x c => { c with publishMaxAttempts := x },
  text "user_service_url" fun x c => { c with userServiceUrl := x },
  text "template_service_url" fun x c => { c with templateServiceUrl := x },
  nat64 "http_timeout_ms" fun x c => { c with httpTimeoutMs := x },
  flag "use_mock_services" fun x c => { c with useMockServices := x },
  nat32 "circuit_breaker_max_failures" fun x c => { c with circuitBreakerMaxFailures := x },
  nat64 "circuit_breaker_timeout_seconds" fun x c => { c with circuitBreakerTimeoutSeconds := x },
  nat32 "circuit_breaker_half_open_max" fun x c => { c with circuitBreakerHalfOpenMax := x },
  nat32 "max_retry_attempts" fun x c => { c with maxRetryAttempts := x },
  nat64 "initial_retry_delay_ms" fun x c => { c with initialRetryDelayMs := x },
  nat64 "max_retry_delay_ms" fun x c => { c with maxRetryDelayMs := x },
  double "retry_backoff_multiplier" fun x c => { c with retryBackoffMultiplier := x },
  flag "retry_jitter" fun x c => { c with retryJitter := x },
  nat64 "request_timeout_ms" fun x c => { c with requestTimeoutMs := x },
  nat64 "compensation_timeout_ms" fun x c => { c with compensationTimeoutMs := x },
  text "default_language" fun x c => { c with defaultLanguage := x },
  flag "track_last_notification" fun x c => { c with trackLastNotification := x },
  nat64 "health_check_timeout_ms" fun x c => { c with healthCheckTimeoutMs := x }]

end Setting

/-- A variable: a name and a value. -/
abbrev Variable := String × String

namespace Config

/-- A character of a name in lower case, as far as that can be a letter of a setting: beside the
capital letters only the Kelvin sign is one. -/
def lowerChar (c : Char) : Char := if c = '\u212A' then 'k' else c.toLower

/-- A name as it is matched. -/
def lowerName (s : String) : String := String.ofList (s.toList.map lowerChar)

/-- Takes variables in their order; gives the settings that were there, the last first. -/
def readVariables : List String → Config → List Variable → Except ConfigFault (List String × Config)
  | seen, c, [] => .ok (seen, c)
  | seen, c, (name, value) :: rest =>
    match Setting.all.find? fun s => s.name == lowerName name with
    | none => readVariables seen c rest
    | some setting =>
      if seen.contains setting.name then .error (.duplicate setting.name)
      else
        match setting.set value c with
        | .error reason => .error (.unreadable reason value name)
        | .ok c => readVariables (setting.name :: seen) c rest

/-- Do the settings fit together (`validate`)? Nothing is said of settings that are numbers, except
that waits do not shrink from one attempt to the next. -/
def validate (c : Config) : Except ConfigFault Unit :=
  if !c.useMockServices && (c.userServiceUrl == "" || c.templateServiceUrl == "") then
    .error .noServices
  else if Binary64.lt c.retryBackoffMultiplier Binary64.one then .error .shrinkingBackoff
  else .ok ()

/-- The configuration of a list of variables (`from_iter`). -/
def ofVariables (vars : List Variable) : Except ConfigFault Config := do
  let (seen, c) ← readVariables [] {} vars
  match Setting.all.find? fun s => s.required && !seen.contains s.name with
  | some s => throw (.missing s.name)
  | none =>
    c.validate
    return c

/-- Sets a variable of an environment: in its place if its name is there. -/
def setVariable (v : Variable) : List Variable → List Variable
  | [] => [v]
  | w :: rest => if w.1 = v.1 then v :: rest else w :: setVariable v rest

/-- The variables of an environment in which they were set one after the other. -/
def environment (vars : List Variable) : List Variable :=
  vars.foldl (fun env v => setVariable v env) []

/-- The configuration of an environment (`load`). -/
def load (env : List Variable) : Except ConfigFault Config := ofVariables (environment env)

/-- What stands before faults of given variables. -/
def givenOpening : String := "Invalid configuration: "

/-- What stands before faults of an environment. -/
def environmentOpening : String := "Invalid or missing environment variable: "

end Config

end Courier
