import Courier.Http.Exchange
import Courier.InMemory.Templates
import Courier.InMemory.Users
import Courier.Resilience.Retry

/-!
# Clients of the user and the template service

Each call asks for one resource of a service, retries as the policy says and goes through the
service's breaker on every attempt. Word of a notification that was sent goes past the breaker: its
failures must never keep anyone from looking up preferences.

Identifiers stand in URLs as they are; what a URL makes of them is said in `Courier.Http.Url`.

`ask` is what `get_preferences`, `render_template` and `get_template` have in common: the retries
are outermost, and every attempt asks the breaker anew, so that a breaker that opens on the way ends
the call.
-/

set_option autoImplicit false

namespace Courier.Http

/-- A client of a service. -/
structure Client where
  /-- The name of the service in messages. -/
  service : String
  /-- The address of the service, without slashes at its end. -/
  base : String
  policy : RetryPolicy
  deriving Repr

namespace Client

/-- The client of the user service at an address. -/
def users (address : String) (policy : RetryPolicy) : Client :=
  ⟨userService, baseOf address, policy⟩

/-- The client of the template service at an address. -/
def templates (address : String) (policy : RetryPolicy) : Client :=
  ⟨templateService, baseOf address, policy⟩

/-- A request for a path of the service, if that makes a URL. The address and the path are put
together as texts and then read, as a whole. -/
def request? (c : Client) (method : Method) (path : String) (body : Option Json := none) :
    Option Request :=
  (Url.parse? (c.base ++ path)).map fun url => ⟨method, url, body⟩

variable {α : Type}

/-- Asks, behind the breaker, until the policy is exhausted. -/
def ask (c : Client) (ctx : Context) (request : Option Request) (decode : Decoder α) :
    Flow (Timed Link) (Except ClientFailure α) := do
  return flatten (← retry c.policy ctx ClientFailure.isRetryable <| Timed.ifOpen ctx <|
    behindBreaker c.service (exchange c.service ctx request (readBody c.service decode)))

def preferencesPath (userId : String) : String := "/api/v1/users/" ++ userId ++ "/preferences"

def lastNotificationPath (userId : String) : String :=
  "/api/v1/users/" ++ userId ++ "/last-notification"

def templatePath (code : String) : String := "/api/v1/templates/" ++ code

def renderPath (code : String) : String := "/api/v1/templates/" ++ code ++ "/render"

/-- The preferences of a user (`get_preferences`). The identifier is spelled into the path as it
is. -/
def getPreferences (c : Client) (ctx : Context) (userId : String) :
    Flow (Timed Link) (Except ClientFailure Preferences) :=
  c.ask ctx (c.request? .get (preferencesPath userId)) Preferences.codec.decode

/-- Reports when a user was last notified (`record_notification_sent`), retried but past the
breaker. What the service answers with is not looked at. -/
def recordSent (c : Client) (ctx : Context) (userId : String) (sentAt : DateTime) :
    Flow (Timed Link) (Except ClientFailure Unit) := do
  let body := Json.object [("sent_at", .string sentAt.toString)]
  let request := c.request? .put (lastNotificationPath userId) (some body)
  return flatten (← retry c.policy ctx ClientFailure.isRetryable <| Timed.ifOpen ctx <|
    exchange c.service ctx request fun _ => .ok ())

/-- What the template service is asked to render. -/
def renderBody (language : String) (values : Dict Json) : Json := .object [
  ("language", .string language),
  ("version", .string "latest"),
  ("variables", .ofDict values),
  ("preview_mode", .bool false)]

/-- A template with values in place (`render_template`). -/
def renderTemplate (c : Client) (ctx : Context) (code language : String) (values : Dict Json) :
    Flow (Timed Link) (Except ClientFailure Rendering) :=
  c.ask ctx (c.request? .post (renderPath code) (some (renderBody language values)))
    Rendering.codec.decode

/-- A template (`get_template`). The language is a pair of the query and so is encoded, unlike the
code. -/
def getTemplate (c : Client) (ctx : Context) (code language : String) :
    Flow (Timed Link) (Except ClientFailure Template) :=
  c.ask ctx ((c.request? .get (templatePath code)).map fun r =>
    { r with url := r.url.withPair "language" language }) Template.codec.decode

end Client

end Courier.Http
