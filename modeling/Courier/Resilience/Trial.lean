import Courier.Resilience.Retry

/-!
# Trials of a retry policy

Attempts whose durations and results are written down beforehand. The last of them repeats, so that
the script never runs out. A trial keeps the times at which attempts were called for, and those at
which they began: one that is called for under an interrupted context does not begin.
-/

set_option autoImplicit false

namespace Courier

/-- An attempt that takes some time and comes to a result. -/
structure ScriptedAttempt (ε α : Type) where
  takes : Nat := 0
  result : Except ε α

/-- The attempts that are still to come: the next one, and those after it. -/
structure Script (ε α : Type) where
  next : ScriptedAttempt ε α
  later : List (ScriptedAttempt ε α) := []

namespace Trial

variable {ε α : Type}

/-- What happens in a trial: an attempt is called for, and it is made. -/
inductive Query where
  | call
  | make
  deriving DecidableEq, Repr

def Attempts (ε α : Type) : Signature where
  Op := Query
  Answer
    | .call => Unit
    | .make => Except ε α

/-- The script, and what has happened so far. -/
structure State (ε α : Type) where
  script : Script ε α
  /-- When attempts were called for, the latest first. -/
  calls : List Nat := []
  /-- When attempts began, the latest first. -/
  starts : List Nat := []

/-- The script after an attempt. -/
def Script.advance (s : Script ε α) : Script ε α :=
  match s.later with
  | [] => s
  | a :: rest => ⟨a, rest⟩

/-- Plays the script. An attempt that is called for is noted at once, and one that is made takes the
time that the script gives it. -/
def server : Timed.Server (Attempts ε α) (State ε α) where
  work now
    | .call, s => .immediate () { s with calls := now :: s.calls }
    | .make, s =>
      let after := { s with script := Script.advance s.script, starts := now :: s.starts }
      ⟨after, some s.script.next.takes, (s.script.next.result, after)⟩

/-- One attempt of a trial. -/
def attempt (ctx : Context) : Flow (Timed (Attempts ε α)) (Except Interruption (Except ε α)) := do
  let _ ← Timed.plain (R := Attempts ε α) .call
  Timed.guarded (R := Attempts ε α) ctx .make

/-- Retries the attempts of a script from time 0 on. Nothing if it never ends. -/
def run (policy : RetryPolicy) (ctx : Context) (retryable : ε → Bool) (script : Script ε α) :
    Option (Except Interruption (Except ε α) × Timed.World (State ε α)) :=
  Timed.run server (retry policy ctx retryable (attempt ctx)) ⟨0, { script }⟩

end Trial

end Courier
