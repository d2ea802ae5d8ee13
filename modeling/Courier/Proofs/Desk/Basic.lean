import Courier.Pipeline.Process
import Courier.Proofs.Flow.Logs
import Courier.Proofs.Time.Order
import Courier.Store.Table

/-!
# Many calls at once

The service deals with many calls at once, each at its own pace, and what they have in common is the
table, the cache and the time. A `Desk` is all of this at a moment, and what happens at it is a list
of events: a call comes in, time passes, or a call has its turn. At its turn a call asks one
question and is answered; which call that is, how long the store takes, whether a statement that is
given up has been run all the same, and whatever everyone else answers is open (`Luck`).

Statements are run as they stand, one after the other as they are sent, and the clock is looked at
when they are. The table is empty at the beginning, and so is the cache: later it finds only texts
that it was asked to keep. Nothing is assumed of the identifiers that are given out, not even that
they are new.

A call is kept as the program that is left of it, so that a turn is one question: between any two
questions of a call, any number of other calls may have had their turns.
-/

set_option autoImplicit false

namespace Courier

/-! ## Calls -/

/-- What the service is called for. -/
inductive Call where
  | submit (request : Request)
  | process (ctx : Context) (request : Request)
  | report (ctx : Context) (id : Uuid) (word : StatusReport)
  | find (ctx : Context) (id : Uuid)
  | list (ctx : Context) (userId : String) (limit offset : Int)

/-- What a caller is told. -/
inductive Response where
  | reply (result : Except Failure Reply)
  | record (result : Except Failure Notification)
  | records (result : Except Failure (List Notification))

/-- The notifications that a caller is told of. -/
def Response.ids : Response → List Uuid
  | .reply (.ok r) => [r.notificationId]
  | .record (.ok r) => [r.id]
  | .records (.ok rs) => rs.map (·.id)
  | .reply (.error _) | .record (.error _) | .records (.error _) => []

/-- What is done for a call. -/
def Call.program (p : Pipeline) : Call → Flow Backend Response
  | .submit request => do return .reply (← p.submit request)
  | .process ctx request => do return .reply (← p.process ctx request)
  | .report ctx id word => do return .record (← Pipeline.report ctx id word)
  | .find ctx id => do return .record (← Pipeline.find ctx id)
  | .list ctx userId limit offset => do
    return .records (← Pipeline.list ctx userId limit offset)

/-- A call that is being dealt with: what has been asked for it, and what is left to be done. -/
structure Job where
  call : Call
  log : List (Exchange Backend) := []
  left : Flow Backend Response

/-! ## The desk -/

/-- What is not decided by the service. -/
structure Luck where
  /-- How long the store takes for a statement. -/
  takes : Nat := 0
  /-- Is a statement run that is no longer waited for? -/
  runs : Bool := false
  /-- What is answered by everyone else. -/
  others : (op : Signature.Op Backend) → Signature.Answer Backend op

/-- A server that runs statements as they stand. -/
def Store.Table.server (takes : Nat) (runs : Bool) : Timed.Server Store.Wire Store.Table where
  work _ q t := match q with
    | .dial _ => .immediate (.ok ()) t
    | .isClosed => .immediate false t
    | .run s => ⟨if runs then (t.run s).2 else t, some takes, t.run s⟩

/-- The calls that are dealt with, and what they have in common. -/
structure Desk where
  table : Store.Table := {}
  /-- The texts that the cache was asked to keep. -/
  kept : List String := []
  /-- The time by which deadlines are measured. -/
  time : Nat := 0
  clock : Reading := default
  jobs : List Job := []

/-- What happens at the desk. -/
inductive DeskEvent where
  | call (c : Call)
  /-- Time passes, and the clock shows something else. It does not run backwards. -/
  | passes (duration : Nat) (clock : Reading)
  /-- The call of a number has its turn. -/
  | turn (i : Nat) (luck : Luck)

namespace Desk

/-- The store is asked to run a statement. -/
def consult {α : Type} (luck : Luck) (d : Desk) (statement : Flow (Timed Store.Wire) α) :
    Option (α × Desk) :=
  (Timed.run (Store.Table.server luck.takes luck.runs) statement ⟨d.time, d.table⟩).map fun r =>
    (r.1, { d with table := r.2.state })

/-- The cache finds nothing that it was not asked to keep. -/
def recollects (d : Desk) :
    Except Interruption (Except CacheFailure (Option String)) →
      Except Interruption (Except CacheFailure (Option String))
  | .ok (.ok (some text)) => .ok (.ok (if text ∈ d.kept then some text else none))
  | other => other

/-- What a question comes to. -/
def ask (luck : Luck) : Flow.Step Backend Desk
  | .now, d => some (d.time, d)
  | .wallClock, d => some (d.clock.time, d)
  | .stamp, d => some (⟨(luck.others Backend.Op.stamp : Stamp).id, d.clock.time⟩, d)
  | .create ctx record, d => d.consult luck (Store.create ctx record)
  | .find ctx id, d => d.consult luck (Store.find ctx id)
  | .update ctx id status error, d =>
    d.consult luck (Store.update ctx id status error d.clock.time)
  | .list ctx userId limit offset, d => d.consult luck (Store.list ctx userId limit offset)
  | .cacheGet ctx name, d => some (d.recollects (luck.others (.cacheGet ctx name)), d)
  -- a text may be kept whatever is said of it
  | .cacheSet ctx name text ttl, d =>
    some (luck.others (.cacheSet ctx name text ttl), { d with kept := text :: d.kept })
  | op, d => some (luck.others op, d)

def step (p : Pipeline) (d : Desk) : DeskEvent → Desk
  | .call c => { d with jobs := d.jobs ++ [⟨c, [], c.program p⟩] }
  | .passes duration clock => { d with
      time := d.time + duration
      -- a clock that would run backwards stays where it is
      clock := if DateTime.le d.clock.time clock.time then clock else d.clock }
  | .turn i luck =>
    match d.jobs[i]? with
    | some ⟨call, log, .ask op next⟩ =>
      match ask luck op d with
      | some (x, d') => { d' with jobs := d.jobs.set i ⟨call, log ++ [⟨op, x⟩], next x⟩ }
      | none => d
    | some ⟨_, _, .done _⟩ | none => d

/-- The desk after some more events. -/
def after (p : Pipeline) (d : Desk) (events : List DeskEvent) : Desk := events.foldl (step p) d

theorem after_induction {p : Pipeline} {P : Desk → Prop} {d : Desk} (h : P d)
    (preserved : ∀ d e, P d → P (d.step p e)) (events : List DeskEvent) : P (d.after p events) := by
  induction events generalizing d with
  | nil => exact h
  | cons e events ih => exact ih (preserved d e h)

/-- It is the turn of a call to ask something. -/
def Asks (d : Desk) (i : Nat) (op : Signature.Op Backend) : Prop :=
  ∃ job next, d.jobs[i]? = some job ∧ job.left = .ask op next

end Desk

end Courier
