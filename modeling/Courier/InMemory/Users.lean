import Courier.InMemory.Conduct
import Courier.Notification.Preferences

/-!
# The user service in memory

Every user has an address, a device and consents to everything, except for what the identifier says.
-/

set_option autoImplicit false

namespace Courier

/-- The name of the user service in messages. -/
def userService : String := "user-service"

namespace InMemory

/-- Do the characters of one text occur in another? -/
def occursIn (part : List Char) : List Char → Bool
  | [] => part.isEmpty
  | c :: rest => part.isPrefixOf (c :: rest) || occursIn part rest

/-- Does a text occur in another? -/
def occurs (part text : String) : Bool := occursIn part.toList text.toList

/-- The opt-outs of a user by channel. -/
def optOuts (userId : String) : Dict Bool :=
  [Channel.email, Channel.push].foldl (fun d c =>
    if occurs (c.name ++ "_opt_out") userId then d.insert c.name true else d) Dict.empty

/-- The preferences of a user (`preferences_for`), read off the identifier. -/
def preferencesOf (userId : String) : Preferences where
  userId := userId
  enabled := !occurs "no_notifications" userId
  optedOut := occurs "opted_out" userId
  optedOutChannels := optOuts userId
  emailEnabled := !(occurs "no_email" userId || occurs "push_only" userId)
  pushEnabled := !(occurs "no_push" userId || occurs "email_only" userId)
  emailVerified := !occurs "unverified" userId
  email := some (userId ++ "@example.com")
  deviceTokens := if occurs "no_devices" userId then [] else ["device_" ++ userId]
  language := none

/-- Looks a user up. -/
def getPreferences {R : Signature} (ctx : Context) (userId : String) :
    Flow (Timed R) (Except ClientFailure Preferences) := do
  match ← reach ctx userService userId with
  | .error e => return .error e
  | .ok () => return .ok (preferencesOf userId)

/-- Takes note of the last notification of a user: always, even when the context is interrupted. -/
def recordSent {R : Signature} (_ctx : Context) (_userId : String) (_sentAt : DateTime) :
    Flow (Timed R) (Except ClientFailure Unit) :=
  return .ok ()

end InMemory

end Courier
