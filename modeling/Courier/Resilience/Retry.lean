import Courier.Flow.Timed
import Courier.Number.Binary64

/-!
# Retrying

A retry policy says how often work is attempted and how long to wait in between: the wait grows by
a factor from one retry to the next, up to a ceiling. Delays are computed in doubles; the number of
a retry is taken as a signed 32-bit number, as which a very large one is negative and shrinks the
wait.

Every attempt and every wait is bound to a context, whose interruption is the result, whatever the
attempts before have come to. `retry` binds the waits; the attempt that it is given has to be bound
by itself, as `Timed.guarded` and `Timed.ifOpen` are: it is called for once even when the context
is interrupted from the start, and must not begin then.
-/

set_option autoImplicit false

namespace Courier

/-- How often, and how long in between. The widths are those of the service, where each of these
numbers is a setting. -/
structure RetryPolicy where
  /-- Attempts in all; none counts as one. -/
  maxAttempts : UInt32 := 3
  /-- The first wait, in milliseconds. -/
  initialDelay : UInt64 := 100
  /-- The longest wait. -/
  maxDelay : UInt64 := 5000
  multiplier : Binary64 := Binary64.ofNat 2
  /-- Is up to a tenth added to each wait? -/
  jitter : Bool := true
  deriving DecidableEq, Repr, Inhabited

namespace RetryPolicy

/-- The wait before the retry after failed attempt number `attempt`, counted from 0
(`delay_for_attempt`). The number is taken with a sign before it becomes an exponent, and the
ceiling is applied to whatever the doubles have come to, an infinity and not-a-number included. -/
def delay (p : RetryPolicy) (attempt : UInt32) : Nat :=
  let grown := (Binary64.ofNat p.initialDelay.toNat).mul (p.multiplier.pow attempt.toInt32.toInt)
  (grown.min (Binary64.ofNat p.maxDelay.toNat)).toNat

/-- How many attempts are made at most. One that is always made is the first. -/
def attempts (p : RetryPolicy) : Nat := max p.maxAttempts.toNat 1

end RetryPolicy

section

variable {R : Signature} {ε α : Type}

/-- Attempt number `index`, counted from 0, with as many retries left. -/
def retryFrom (policy : RetryPolicy) (ctx : Context) (retryable : ε → Bool)
    (attempt : Flow (Timed R) (Except Interruption (Except ε α))) :
    Nat → Nat → Flow (Timed R) (Except Interruption (Except ε α))
  | 0, _ => attempt
  | left + 1, index => do
    match ← attempt with
    | .error i => return .error i
    | .ok (.ok a) => return .ok (.ok a)
    | .ok (.error e) =>
      if retryable e then
        match ← Timed.pause ctx (policy.delay (UInt32.ofNat index)) policy.jitter with
        | .error i => return .error i
        | .ok () => retryFrom policy ctx retryable attempt left (index + 1)
      else return .ok (.error e)

/-- Attempts some work until it succeeds, fails for good, or has been attempted often enough
(`retry_with_backoff`). The attempt is bound to the same context. -/
def retry (policy : RetryPolicy) (ctx : Context) (retryable : ε → Bool)
    (attempt : Flow (Timed R) (Except Interruption (Except ε α))) :
    Flow (Timed R) (Except Interruption (Except ε α)) :=
  retryFrom policy ctx retryable attempt (policy.attempts - 1) 0

end

end Courier
