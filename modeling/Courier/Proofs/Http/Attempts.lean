import Courier.Http.Clients
import Courier.Proofs.Breaker.Move
import Courier.Proofs.Flow.Rules

/-!
# Attempts on a service that goes by a script

A service that answers to every request as its script says, after a time of its own, and a breaker
in front of it that others come to as well: they want through or look at it, but no call of theirs
ends meanwhile. While the breaker is closed, or has not been open for long, they leave it as it is
(`met_of_calm`).

One attempt of a client then goes as one would think (`attempt_closed`, `attempt_open`), or its
context is interrupted and it says so.
-/

set_option autoImplicit false

namespace Courier

namespace Breaker

/-- Nothing happens at this breaker as long as no call ends. -/
def Calm (config : BreakerConfig) (b : Breaker) (now : Nat) : Prop :=
  b.state = .closed ∨ b.state = .open ∧ now - b.since < config.timeout

variable {config : BreakerConfig} {b : Breaker} {now : Nat}

theorem Calm.before (h : b.Calm config now) (ago : Nat) : b.Calm config (now - ago) :=
  h.imp_right fun ⟨ho, he⟩ => ⟨ho, by omega⟩

theorem Calm.refresh (h : b.Calm config now) : b.refresh config now = b := by
  refine refresh_of_early fun ho => ?_
  rcases h with hc | ⟨-, he⟩
  · rw [hc] at ho
    cases ho
  · exact he

theorem Calm.ticket (h : b.Calm config now) : (b.ticket config now).2 = b := by
  rcases h with hc | ⟨ho, he⟩
  · rw [ticket_closed hc]
  · rw [ticket_early ho he]

end Breaker

namespace Http

/-- Someone else at the breaker, some time ago. -/
structure Visit where
  ago : Nat
  /-- Is it a call that wants through? Otherwise it is but a look. -/
  call : Bool
  deriving DecidableEq, Repr

def Visit.leave (config : BreakerConfig) (now : Nat) (b : Breaker) (v : Visit) : Breaker :=
  if v.call then (b.ticket config (now - v.ago)).2 else b.refresh config (now - v.ago)

/-- A service that goes by a script. Requests and uses of the breaker are counted from 0. -/
structure Scripted where
  config : BreakerConfig
  answer : Nat → Except String Response
  /-- How long it takes for an answer. -/
  takes : Nat → Nat
  /-- Who has been at the breaker before it is used. -/
  visits : Nat → List Visit

namespace Scripted

structure State where
  breaker : Breaker
  /-- The requests that have come in, the latest first. -/
  requests : List Request := []
  /-- How often the breaker has been used. -/
  uses : Nat := 0
  deriving DecidableEq

/-- The breaker as it is found at a time. -/
def met (s : Scripted) (now : Nat) (x : State) : Breaker :=
  (s.visits x.uses).foldl (Visit.leave s.config now) x.breaker

def server (s : Scripted) : Timed.Server Link State where
  work now
    | .send request, x =>
      let sent := { x with requests := request :: x.requests }
      ⟨sent, some (s.takes x.requests.length), (s.answer x.requests.length, sent)⟩
    | .ticket, x =>
      let found := (s.met now x).ticket s.config now
      .immediate found.1 { x with breaker := found.2, uses := x.uses + 1 }
    | .settle ticket outcome, x =>
      .immediate () { x with
        breaker := (s.met now x).settle s.config now ticket outcome
        uses := x.uses + 1 }

variable {s : Scripted} {x : State} {now : Nat}

/-- A breaker that is calm is met as it was left, whoever has come to it meanwhile. -/
theorem met_of_calm (h : x.breaker.Calm s.config now) : s.met now x = x.breaker := by
  unfold met
  -- by induction on the visits of others, each of which finds the breaker calm and leaves it so
  induction s.visits x.uses with
  | nil => rfl
  | cons v rest ih =>
    have hv : Visit.leave s.config now x.breaker v = x.breaker := by
      unfold Visit.leave
      split
      · exact (h.before v.ago).ticket
      · exact (h.before v.ago).refresh
    rw [List.foldl_cons, hv, ih]

end Scripted

/-! ## Requests and answers

What one attempt sends, and what it is told, by the number of requests sent before. A request that
cannot be sent asks nothing and fails alike each time.
-/

variable {α : Type}

/-- Why a request cannot be sent. -/
def unsent? : Option Request → Option String
  | none => some unsendable
  | some r =>
    if r.url.isRequestable then none else some (unsendable ++ " for url (" ++ r.url.text ++ ")")

/-- What comes in of a request that is made so many times. -/
def sent (request : Option Request) (n : Nat) : List Request :=
  match request with
  | none => []
  | some r => if r.url.isRequestable then List.replicate n r else []

/-- What a client makes of an answer. -/
def reading (service : String) (read : Response → Except ClientFailure α) :
    Except String Response → Except ClientFailure α
  | .error reason => .error (.transport service reason)
  | .ok response =>
    if response.isSuccess then read response
    else .error (.status service response.status response.body)

/-- What the attempts of a client come to, counted from 0, if the breaker lets them through. -/
def Scripted.outcome (s : Scripted) (service : String) (request : Option Request)
    (read : Response → Except ClientFailure α) (i : Nat) : Except ClientFailure α :=
  match unsent? request with
  | none => reading service read (s.answer i)
  | some reason => .error (.transport service reason)

/-- The work was given up since its context is interrupted. -/
def Interrupted {σ : Type} (ctx : Context) (result : Except Interruption α)
    (w : Timed.World σ) : Prop :=
  ∃ why, result = .error why ∧ ctx.check w.time = .error why

section

variable {service : String} {ctx : Context} {read : Response → Except ClientFailure α}
  {r : Request} {s : Scripted}

theorem sent_zero (request : Option Request) : sent request 0 = [] := by
  cases request with
  | none => rfl
  | some r => cases h : r.url.isRequestable <;> simp [sent, h]

theorem sent_of_requestable (h : r.url.isRequestable = true) (n : Nat) :
    sent (some r) n = List.replicate n r := if_pos h

theorem outcome_of_requestable (h : r.url.isRequestable = true) (i : Nat) :
    s.outcome service (some r) read i = reading service read (s.answer i) := by
  rw [Scripted.outcome, unsent?, if_pos h]

/-- An exchange with such a request is one question, and a reading of the answer. -/
theorem exchange_of_requestable (h : r.url.isRequestable = true) :
    exchange service ctx (some r) read = do
      match ← Timed.race (R := Link) ctx (.send r) with
      | .error why => return .error why
      | .ok answer => return .ok (reading service read answer) := by
  rw [exchange, if_pos h]
  congr 1
  funext answer
  rcases answer with why | (reason | response)
  · rfl
  · rfl
  · cases hs : response.isSuccess <;> simp [reading, hs]

end

/-! ## What the service and its breaker do -/

section

open Timed (Ends World)

variable {s : Scripted} {ctx : Context} {w : World Scripted.State}

/-- A request comes to an end: it is answered by the script, or interrupted. Either way the breaker
has not been told of it yet. -/
theorem send_ends {r : Request}
    {post : Except Interruption (Except String Response) → World Scripted.State → Prop}
    (interrupted : ∀ why t x, ctx.check t = .error why → x.breaker = w.state.breaker →
      post (.error why) ⟨t, x⟩)
    (answered : ∀ t x, ctx.check t = .ok () → x.breaker = w.state.breaker →
      x.requests = r :: w.state.requests → post (.ok (s.answer w.state.requests.length)) ⟨t, x⟩) :
    Ends s.server (Timed.race (R := Link) ctx (.send r)) w post :=
  Timed.ends_race rfl (fun why t _ hc _ => interrupted why t _ hc rfl)
    fun hc => answered _ _ hc rfl rfl

/-- A ticket is given or refused at once. -/
theorem ticket_ends (calm : w.state.breaker.Calm s.config w.time)
    {post : Except Rejection Ticket → World Scripted.State → Prop}
    (given : ∀ x, x.breaker = w.state.breaker → x.requests = w.state.requests →
      post (w.state.breaker.ticket s.config w.time).1 ⟨w.time, x⟩) :
    Ends s.server (Timed.plain (R := Link) .ticket) w post := by
  refine Timed.ends_plain rfl ?_
  have h := Scripted.met_of_calm calm
  simp only [Scripted.server, Timed.Work.immediate, h]
  exact given _ calm.ticket rfl

/-- The outcome of a ticket is told at once, whoever else has come to the breaker meanwhile. -/
theorem settle_ends {t : Ticket} {outcome : Outcome}
    (calm : w.state.breaker.Calm s.config w.time) {post : Unit → World Scripted.State → Prop}
    (settled : ∀ x, x.breaker = w.state.breaker.settle s.config w.time t outcome →
      x.requests = w.state.requests → post () ⟨w.time, x⟩) :
    Ends s.server (Timed.plain (R := Link) (.settle t outcome)) w post := by
  refine Timed.ends_plain rfl ?_
  have h := Scripted.met_of_calm calm
  simp only [Scripted.server, Timed.Work.immediate, h]
  exact settled _ rfl rfl

end

/-! ## An attempt

The same behind a breaker. A closed breaker lets the attempt through and hears of its outcome, an
open one rejects it.
-/

/-- The breaker after an outcome of a call that it let through, closed, at a time. -/
def heard (config : BreakerConfig) (b : Breaker) (now : Nat) (result : Except ClientFailure α) :
    Breaker :=
  match result with
  | .ok _ => b.succeed config now
  | .error _ => b.fail config now

section

open Timed (Ends World)

variable {s : Scripted} {service : String} {ctx : Context} {request : Option Request}
  {read : Response → Except ClientFailure α} {w : World Scripted.State} {i : Nat}

theorem settle_heard {b : Breaker} {now : Nat} (result : Except ClientFailure α) :
    b.settle s.config now ⟨b.phase, false⟩ (outcomeOf (.ok result)) =
      heard s.config b now result := by
  rw [Breaker.settle_present rfl]
  cases result <;> rfl

/-- What an exchange comes to, after as many requests as there have been attempts. -/
theorem exchange_ends (running : ctx.check w.time = .ok ())
    (requests : w.state.requests = sent request i) :
    Ends s.server (exchange service ctx request read) w fun result w' =>
      w'.state.breaker = w.state.breaker ∧ (Interrupted ctx result w' ∨
        ctx.check w'.time = .ok () ∧ result = .ok (s.outcome service request read i) ∧
          w'.state.requests = sent request (i + 1)) := by
  cases request with
  | none => exact ⟨rfl, .inr ⟨running, rfl, requests⟩⟩
  | some r =>
    cases hr : r.url.isRequestable with
    | false =>
      simp only [exchange, hr, Scripted.outcome, unsent?, sent] at requests ⊢
      exact ⟨rfl, .inr ⟨running, rfl, requests⟩⟩
    | true =>
      simp only [sent_of_requestable hr, outcome_of_requestable hr] at requests ⊢
      -- the peer answers by the number of requests it has seen
      have counted : w.state.requests.length = i := by rw [requests, List.length_replicate]
      rw [exchange_of_requestable hr, Ends, Flow.holds_bind_iff]
      refine send_ends (fun why t x hc hb => ⟨hb, .inl ⟨why, rfl, hc⟩⟩) fun t x hc hb hx => ?_
      refine ⟨hb, .inr ⟨hc, by rw [counted], ?_⟩⟩
      rw [hx, requests, List.replicate_succ]

/-- An attempt while the breaker is closed. -/
theorem attempt_closed (closed : w.state.breaker.state = .closed)
    (requests : w.state.requests = sent request i) :
    Ends s.server (Timed.ifOpen ctx (behindBreaker service (exchange service ctx request read))) w
      fun result w' =>
        Interrupted ctx result w' ∨
          ctx.check w'.time = .ok () ∧ result = .ok (s.outcome service request read i) ∧
            w'.state.requests = sent request (i + 1) ∧
            w'.state.breaker = heard s.config w.state.breaker w'.time
              (s.outcome service request read i) := by
  refine Timed.ends_ifOpen (fun why hc => .inl ⟨why, rfl, hc⟩) fun running => ?_
  rw [Ends, behindBreaker, Flow.holds_bind_iff]
  refine ticket_ends (.inl closed) fun x hb hx => ?_
  rw [Breaker.ticket_closed closed]
  refine Flow.holds_bind_iff.2 ?_
  have exchanged : Ends s.server (exchange service ctx request read) ⟨w.time, x⟩ _ :=
    exchange_ends running (hx.trans requests)
  refine exchanged.mono Timed.ending_mono ?_
  rintro result ⟨t, y⟩ ⟨hy, h⟩
  -- between the ticket and the outcome nobody else touches the breaker
  have still : y.breaker = w.state.breaker := hy.trans hb
  refine Flow.holds_bind_iff.2 (settle_ends (.inl (still ▸ closed)) fun z hz hn => ?_)
  rcases h with interrupted | ⟨hc, rfl, hr⟩
  · exact .inl interrupted
  · refine .inr ⟨hc, rfl, hn.trans hr, ?_⟩
    rw [hz, still, settle_heard]

/-- An attempt while the breaker is open and will be so for some time. -/
theorem attempt_open (opened : w.state.breaker.state = .open)
    (early : w.time - w.state.breaker.since < s.config.timeout)
    (attempt : Flow (Timed Link) (Attempt α)) :
    Ends s.server (Timed.ifOpen ctx (behindBreaker service attempt)) w fun result w' =>
      Interrupted ctx result w' ∨
        ctx.check w'.time = .ok () ∧ result = .ok (.error (.circuitOpen service)) ∧
          w'.state.requests = w.state.requests ∧ w'.state.breaker = w.state.breaker := by
  refine Timed.ends_ifOpen (fun why hc => .inl ⟨why, rfl, hc⟩) fun running => ?_
  rw [Ends, behindBreaker, Flow.holds_bind_iff]
  refine ticket_ends (.inr ⟨opened, early⟩) fun x hb hx => ?_
  rw [Breaker.ticket_early opened early]
  exact .inr ⟨running, rfl, hx, hb⟩

end

end Http

end Courier
