import Courier.Json.Shape
import Courier.Notification.Labels

/-!
# Preferences

What a user has agreed to. A notification may go out when notifications are on, the user has not
opted out of all or of the channel, and the channel has a recipient: a verified address that is not
empty, or a device that is.

The service asks in this order: `is_opted_out` and the general switch first, since they leave a
record that says the user did not want it; then `validate_channel`, whose findings are failures of
the channel.
-/

set_option autoImplicit false

namespace Courier

/-- A user's preferences. What is not told is permitted, except that there are no devices. -/
structure Preferences where
  userId : String := ""
  enabled : Bool := true
  optedOut : Bool := false
  /-- Opt-outs by the name of a channel. -/
  optedOutChannels : Dict Bool := Dict.empty
  emailEnabled : Bool := false
  pushEnabled : Bool := false
  emailVerified : Bool := true
  email : Option String := none
  deviceTokens : List String := []
  language : Option String := none
  deriving DecidableEq, Repr, Inhabited

/-- Why a channel has no recipient. -/
inductive Obstacle where
  | emailDisabled
  | emailUnverified
  | noEmail
  | pushDisabled
  | noDevice
  deriving DecidableEq, Repr

def Obstacle.message : Obstacle → String
  | .emailDisabled => "email notifications disabled"
  | .emailUnverified => "email address not verified"
  | .noEmail => "no email address registered"
  | .pushDisabled => "push notifications disabled"
  | .noDevice => "no active devices registered"

/-- Why a user gets no notification at all. -/
inductive Refusal where
  | disabled
  | optedOut
  deriving DecidableEq, Repr

def Refusal.message : Refusal → String
  | .disabled => "User has disabled notifications"
  | .optedOut => "User has opted out"

namespace Preferences

def shape : Shape Preferences where
  title := "UserPreferences"
  blank := {}
  slots := [
    .plain "user_id" .defaulted .string (·.userId) fun x r => { r with userId := x },
    .plain "notification_enabled" .defaulted .bool (·.enabled) fun x r => { r with enabled := x },
    .plain "opted_out" .defaulted .bool (·.optedOut) fun x r => { r with optedOut := x },
    .plain "opted_out_channels" .defaulted (.dict .bool) (·.optedOutChannels)
      fun x r => { r with optedOutChannels := x },
    .plain "email_enabled" .required .bool (·.emailEnabled) fun x r => { r with emailEnabled := x },
    .plain "push_enabled" .required .bool (·.pushEnabled) fun x r => { r with pushEnabled := x },
    .plain "email_verified" .defaulted .bool (·.emailVerified)
      fun x r => { r with emailVerified := x },
    .plain "email" .defaulted (.option .string) (·.email) fun x r => { r with email := x },
    .plain "device_tokens" .defaulted (.list .string) (·.deviceTokens)
      fun x r => { r with deviceTokens := x },
    .plain "language" .defaulted (.option .string) (·.language) fun x r => { r with language := x }]

def codec : Codec Preferences := shape.codec

/-- Has the user opted out of everything or of this channel (`is_opted_out`)? -/
def isOptedOut (p : Preferences) (channel : Channel) : Bool :=
  p.optedOut || (p.optedOutChannels.get? channel.name).getD false

/-- Does the user refuse notifications through this channel, and why? -/
def refusal? (p : Preferences) (channel : Channel) : Option Refusal :=
  if !p.enabled then some .disabled
  else if p.isOptedOut channel then some .optedOut
  else none

/-- The recipient of a channel, or the first rule that is violated (`validate_channel`). The order
of the rules is the order in which they are told. -/
def recipient (p : Preferences) : Channel → Except Obstacle String
  | .email =>
    if !p.emailEnabled then .error .emailDisabled
    else if !p.emailVerified then .error .emailUnverified
    else
      match p.email with
      | some address => if address = "" then .error .noEmail else .ok address
      | none => .error .noEmail
  | .push =>
    if !p.pushEnabled then .error .pushDisabled
    else
      match p.deviceTokens.find? fun t => t ≠ "" with
      | some token => .ok token
      | none => .error .noDevice

/-- The language to address the user in. -/
def languageOr (p : Preferences) (fallback : String) : String :=
  (p.language.filter fun l => l ≠ "").getD fallback

end Preferences

end Courier
