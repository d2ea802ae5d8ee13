import Courier.Flow.Timed

/-!
# A context over time

A context in the hands of several holders, event by event. Each holder has a clone, which is a
deadline and a reference to a token. Clones have the token in common and nothing else: a
cancellation is one of the token, and so reaches everyone who refers to it. Holders look at the
context, cancel it and work under it; work is begun and ends as `Timed.guarded` has it.
-/

set_option autoImplicit false

namespace Courier

/-- A clone of a context: the token it refers to, and the deadline. -/
structure Handle where
  token : Nat
  deadline : Option Nat
  deriving DecidableEq, Repr

/-- What a holder does with the context. -/
inductive ContextStep (α : Type) where
  | check
  | cancel
  /-- Works under the context, for a time and for a value. -/
  | guarded (takes : Nat) (value : α)

inductive ContextEvent (α : Type) where
  | act (holder : Nat) (step : ContextStep α)
  /-- A holder is given a clone of the context that another one has. -/
  | clone (source holder : Nat)
  | advance (duration : Nat)

/-- What an event shows. -/
inductive ContextSight (α : Type) where
  | quiet
  | checked (result : Except Interruption Unit)
  /-- What became of work, and whether it was begun. -/
  | worked (result : Except Interruption α) (begun : Bool)

/-- The tokens by their numbers, each with the time at which it is cancelled; the clones by their
holders; and the time. -/
structure ContextRun where
  tokens : Nat → Option Nat
  handles : Nat → Handle
  now : Nat := 0

variable {α : Type}

/-- Pieces of work, each with the time that it takes and the value that it comes to. -/
def Chore (α : Type) : Signature := ⟨Nat × α, fun _ => α⟩

/-- Work is done on time. The state tells whether any has been begun. -/
def Chore.server : Timed.Server (Chore α) Bool where
  work _ chore _ := ⟨true, some chore.1, (chore.2, true)⟩

namespace ContextRun

/-- A context whose token is the first, and everyone has a clone of it. -/
def start (ctx : Context) (now : Nat) : ContextRun where
  tokens token := if token = 0 then ctx.cancelAt else none
  handles _ := ⟨0, ctx.deadline⟩
  now := now

/-- What a holder's clone amounts to. -/
def context (r : ContextRun) (holder : Nat) : Context where
  deadline := (r.handles holder).deadline
  cancelAt := r.tokens (r.handles holder).token

/-- Cancels the token of a holder's clone. All that refer to it are reached, and a second
cancellation changes nothing. -/
def cancel (r : ContextRun) (holder : Nat) : ContextRun :=
  { r with tokens := fun token =>
      if token = (r.handles holder).token then ((r.context holder).cancel r.now).cancelAt
      else r.tokens token }

/-- What one holder does now. Work that is begun has all of it to itself: time goes by until it
ends, and no other event falls in between. -/
def act (r : ContextRun) (holder : Nat) : ContextStep α → ContextSight α × ContextRun
  | .check => (.checked ((r.context holder).check r.now), r)
  | .cancel => (.quiet, r.cancel holder)
  | .guarded takes value =>
    let work := Timed.guarded (R := Chore α) (r.context holder) (takes, value)
    match Timed.run Chore.server work ⟨r.now, false⟩ with
    | some (result, w) => (.worked result w.state, { r with now := w.time })
    | none => (.quiet, r)

/-- One event. A clone that is handed over refers to the token of its source, so that from then on
the two are cancelled together. -/
def step (r : ContextRun) : ContextEvent α → ContextSight α × ContextRun
  | .act holder step => r.act holder step
  | .clone source holder =>
    (.quiet, { r with handles := fun h => if h = holder then r.handles source else r.handles h })
  | .advance duration => (.quiet, { r with now := r.now + duration })

/-- What the events of a list show, and the state after them. -/
def run (r : ContextRun) : List (ContextEvent α) → List (ContextSight α) × ContextRun
  | [] => ([], r)
  | e :: rest =>
    let first := r.step e
    let more := first.2.run rest
    (first.1 :: more.1, more.2)

end ContextRun

end Courier
