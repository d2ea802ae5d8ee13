import Courier.Flow.Basic
import Courier.Resilience.Context

/-!
# Programs in time

A timed program lives by a clock. It can look at it, wait under a context, and begin a request,
alone or under a context. A request under a context is raced against it from the moment it begins;
whether it should begin at all is asked before, by `Timed.check`. `Timed.guarded` does both.

`Timed.step` is what the operations mean for a clock in milliseconds and a server that says of each
request how long it takes, what its answer is and what it changes. An interrupted request has been
begun, and nothing more.

The service races work against a context in one way only (`guard`): the context is looked at before
anything begins, and from then on the work goes on until it ends or until the context does,
whichever comes first. `guarded` is this, and every call of a client, every wait between attempts
and every statement goes through it. Time passes in no other operation, so that what holds between
two of them holds at one instant.
-/

set_option autoImplicit false

namespace Courier

namespace Timed

/-- What a program over the requests of `R` can do. -/
inductive Op (R : Signature) where
  /-- Look at the clock. -/
  | now
  /-- Begin a request and wait for its answer however long it takes. -/
  | plain (r : R.Op)
  /-- Begin a request and wait for its answer under a context. -/
  | race (ctx : Context) (r : R.Op)
  /-- Wait under a context: for a time in milliseconds, or, jittered, for up to a tenth more. -/
  | pause (ctx : Context) (delay : Nat) (jitter : Bool)

end Timed

/-- Requests of `R` in time. -/
def Timed (R : Signature) : Signature where
  Op := Timed.Op R
  Answer
    | .now => Nat
    | .plain r => R.Answer r
    | .race _ r => Except Interruption (R.Answer r)
    | .pause _ _ _ => Except Interruption Unit

namespace Timed

variable {R Q : Signature} {α σ : Type}

/-- Looks at the clock that deadlines are measured by. -/
def now : Flow (Timed R) Nat := Flow.call (S := Timed R) Op.now

/-- Asks and waits, come what may. A breaker and the health of a dependency are asked this way. -/
def plain (r : R.Op) : Flow (Timed R) (R.Answer r) := Flow.call (S := Timed R) (Op.plain r)

/-- Begins a request, whether or not the context is open, and waits no longer than the context
lasts. -/
def race (ctx : Context) (r : R.Op) : Flow (Timed R) (Except Interruption (R.Answer r)) :=
  Flow.call (S := Timed R) (Op.race ctx r)

/-- May work under a context begin now (`check`)? -/
def check (ctx : Context) : Flow (Timed R) (Except Interruption Unit) := do
  return ctx.check (← now)

/-- Begins some work unless its context is already interrupted. -/
def ifOpen (ctx : Context) (work : Flow (Timed R) (Except Interruption α)) :
    Flow (Timed R) (Except Interruption α) := do
  match ← check ctx with
  | .error i => return .error i
  | .ok () => work

/-- A request under a context, not begun if the context is already interrupted (`guard`). -/
def guarded (ctx : Context) (r : R.Op) : Flow (Timed R) (Except Interruption (R.Answer r)) :=
  ifOpen ctx (race ctx r)

/-- A wait under a context: between attempts, or where a service in memory takes its time. -/
def pause (ctx : Context) (delay : Nat) (jitter : Bool) :
    Flow (Timed R) (Except Interruption Unit) :=
  ifOpen ctx (Flow.call (S := Timed R) (Op.pause ctx delay jitter))

/-- What to do for each operation, given what to do for a request alone and for one that is raced
against a context. -/
def handler (alone : (r : R.Op) → Flow (Timed Q) (R.Answer r))
    (raced : Context → (r : R.Op) → Flow (Timed Q) (Except Interruption (R.Answer r))) :
    (op : (Timed R).Op) → Flow (Timed Q) ((Timed R).Answer op)
  | .now => now
  | .plain r => alone r
  | .race ctx r => raced ctx r
  | .pause ctx delay jitter => Flow.call (S := Timed Q) (Op.pause ctx delay jitter)

/-- A program over one kind of requests as a program over another. Clock and waits are the same for
both. -/
def lift (alone : (r : R.Op) → Flow (Timed Q) (R.Answer r))
    (raced : Context → (r : R.Op) → Flow (Timed Q) (Except Interruption (R.Answer r)))
    (p : Flow (Timed R) α) : Flow (Timed Q) α :=
  p.interpret (handler alone raced)

/-! ## Meaning -/

/-- What becomes of a request. -/
structure Work (σ α : Type) where
  /-- The state once it has begun. -/
  begun : σ
  /-- How long it takes; nothing if it is never answered. -/
  takes : Option Nat
  /-- The answer, and the state once it is given. -/
  answer : α × σ

/-- Work that is done at once. -/
def Work.immediate (answer : α) (state : σ) : Work σ α := ⟨state, some 0, (answer, state)⟩

/-- What is made of requests. -/
structure Server (R : Signature) (σ : Type) where
  /-- What becomes of a request that begins at a time and in a state. -/
  work : Nat → (r : R.Op) → σ → Work σ (R.Answer r)
  /-- How long a jittered wait takes. -/
  stretch : Nat → Nat := id

/-- A state at a time. -/
structure World (σ : Type) where
  time : Nat := 0
  state : σ

/-- What an operation comes to; nothing if it never ends. An interrupted request has changed what
its beginning changes: the server may have seen it, and whether it will do what it was asked is for
`Work.begun` to say. -/
def step (server : Server R σ) :
    (op : (Timed R).Op) → World σ → Option ((Timed R).Answer op × World σ)
  | .now, w => some (w.time, w)
  | .plain r, w =>
    let work := server.work w.time r w.state
    work.takes.map fun d => (work.answer.1, ⟨w.time + d, work.answer.2⟩)
  -- the race begins together with the request, and the context may have ended before
  | .race ctx r, w =>
    let work := server.work w.time r w.state
    (ctx.race w.time work.takes).map fun
      | .finished t => (.ok work.answer.1, ⟨t, work.answer.2⟩)
      | .interrupted i t => (.error i, ⟨t, work.begun⟩)
  | .pause ctx delay jitter, w =>
    (ctx.race w.time (some (if jitter then server.stretch delay else delay))).map fun
      | .finished t => (.ok (), ⟨t, w.state⟩)
      | .interrupted i t => (.error i, ⟨t, w.state⟩)

/-- Runs a timed program. Nothing comes of one that waits for an answer which never comes. -/
def run (server : Server R σ) (p : Flow (Timed R) α) (w : World σ) : Option (α × World σ) :=
  Flow.run (step server) p w

end Timed

end Courier
