import Courier.Failure
import Courier.Flow.Timed

/-!
# Services in memory

Stand-ins for the user and the template service, for use without the live ones. How a call goes is
read off the identifier it asks for, so that a caller can bring about every kind of failure: the
start of the identifier makes the service unavailable, the thing unknown, or the call hang for five
seconds and then fail.
-/

set_option autoImplicit false

namespace Courier

namespace InMemory

/-- How a call goes. -/
inductive Conduct where
  | answers
  | unavailable
  | unknown
  | hangs
  deriving DecidableEq, Repr

/-- The conduct that an identifier asks for. -/
def Conduct.of (key : String) : Conduct :=
  if key.startsWith "error_" || key.startsWith "unavailable_" then .unavailable
  else if key.startsWith "notfound_" then .unknown
  else if key.startsWith "timeout_" then .hangs
  else .answers

/-- How long a call that hangs takes to fail, in milliseconds. -/
def hangTime : Nat := 5000

def Conduct.takes : Conduct → Nat
  | .hangs => hangTime
  | _ => 0

/-- What a call of this conduct fails with. -/
def Conduct.failure? (service key : String) : Conduct → Option ClientFailure
  | .answers => none
  | .unavailable => some (.status service 503 ("service temporarily down: " ++ key))
  | .unknown => some (.status service 404 ("not found: " ++ key))
  | .hangs => some (.transport service "request timed out")

/-- Reaches the service for an identifier under a context (`simulate`). A hanging call can be given
up before it fails. -/
def reach {R : Signature} (ctx : Context) (service key : String) :
    Flow (Timed R) (Except ClientFailure Unit) := do
  let conduct := Conduct.of key
  match ← Timed.pause ctx conduct.takes false with
  | .error i => return .error (.interrupted i)
  | .ok () =>
    match conduct.failure? service key with
    | some e => return .error e
    | none => return .ok ()

end InMemory

end Courier
