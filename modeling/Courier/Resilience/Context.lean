import Courier.Label

/-!
# Contexts

A context bounds the time of some work: by a deadline and by a cancellation. Times are milliseconds
of one clock. Waiting under a context is a race between the cancellation, the deadline and the work;
where two of them fall on the same instant, the earlier in this list wins.

In the service a context is a deadline and a token that anyone may cancel. Here the cancellation is
known beforehand, with its time (`cancelAt`): whatever a race can find out about it while it waits
is decided by that time. `Courier.Resilience.ContextRun` has the token back, in several hands.
-/

set_option autoImplicit false

namespace Courier

/-- Why work was given up. -/
inductive Interruption where
  | cancelled
  | deadlineExceeded
  deriving DecidableEq, Repr

def Interruption.message : Interruption → String
  | .cancelled => "request cancelled"
  | .deadlineExceeded => "request deadline exceeded"

/-- The bounds of some work. A cancellation has the time at which it comes. -/
structure Context where
  deadline : Option Nat := none
  cancelAt : Option Nat := none
  deriving DecidableEq, Repr, Inhabited

/-- How waiting ends. -/
inductive Ending where
  | finished (time : Nat)
  | interrupted (why : Interruption) (time : Nat)
  deriving DecidableEq, Repr

namespace Ending

/-- When it is over. -/
def time : Ending → Nat
  | .finished t | .interrupted _ t => t

/-- The earliest of several, the first of those that are as early. -/
def earliest : List Ending → Option Ending
  | [] => none
  | e :: rest =>
    match earliest rest with
    | some f => if f.time < e.time then some f else some e
    | none => some e

end Ending

namespace Context

/-- Unbounded. -/
def background : Context := {}

/-- Bounded by a timeout from now on; nobody can cancel it. -/
def lasting (now timeout : Nat) : Context := { deadline := some (now + timeout) }

/-- Cancels now, unless that has already been done. -/
def cancel (ctx : Context) (now : Nat) : Context :=
  { ctx with cancelAt := some (match ctx.cancelAt with
      | some t => min t now
      | none => now) }

/-- Has a limit been reached? -/
def reached (limit : Option Nat) (now : Nat) : Bool :=
  match limit with
  | some t => decide (t ≤ now)
  | none => false

/-- May work go on? A cancellation is told before a deadline that has also gone by. -/
def check (ctx : Context) (now : Nat) : Except Interruption Unit :=
  if reached ctx.cancelAt now then .error .cancelled
  else if reached ctx.deadline now then .error .deadlineExceeded
  else .ok ()

/-- How work that begins now and takes some time ends; without a time it never does by itself. This
is what `guard` comes to once the context has been found open. Nothing if it never ends at all. -/
def race (ctx : Context) (now : Nat) (takes : Option Nat) : Option Ending :=
  Ending.earliest (
    (ctx.cancelAt.map fun t => Ending.interrupted .cancelled (max now t)).toList ++
    (ctx.deadline.map fun t => Ending.interrupted .deadlineExceeded (max now t)).toList ++
    (takes.map fun d => Ending.finished (now + d)).toList)

end Context

end Courier
