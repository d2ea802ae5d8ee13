import Mathlib.Data.Nat.Find
import Courier.Proofs.Breaker.Chronicle
import Courier.Proofs.Http.Attempts

/-!
# Retries behind a breaker

A call has two budgets: the attempts that its policy allows, and the failures that the breaker in
front of it still bears. Both are spent by the same failures. `Finish` says how a call may end that
has not been interrupted, one case for each budget and one for an answer that needs no other
attempt; `retryFrom_ends` shows that there is nothing else. `RetryLaw` says what follows for the
number of requests, the result and the breaker.

The breaker is only ever told what the attempts of this call come to. That others ask it in between
changes nothing while it is closed; once it is open, the last wait of the policy is too short for it
to wake up, which is the one assumption on the policy.
-/

set_option autoImplicit false

namespace Courier.Http

open Timed (Ends World)

variable {α : Type}

/-- No other attempt is made after this outcome. -/
def Decisive : Except ClientFailure α → Prop
  | .ok _ => True
  | .error e => e.isRetryable = false

/-- The first decisive outcome is the `j`-th; without a `j` there is none. -/
def FirstAt (outcome : Nat → Except ClientFailure α) : Option Nat → Prop
  | some j => ∃ i, j = i + 1 ∧ Decisive (outcome i) ∧ ∀ k < i, ¬ Decisive (outcome k)
  | none => ∀ k, ¬ Decisive (outcome k)

theorem exists_firstAt (outcome : Nat → Except ClientFailure α) : ∃ j, FirstAt outcome j := by
  classical
  by_cases h : ∃ i, Decisive (outcome i)
  · exact ⟨some (Nat.find h + 1), Nat.find h, rfl, Nat.find_spec h, fun k hk => Nat.find_min h hk⟩
  · exact ⟨none, fun k hk => h ⟨k, hk⟩⟩

theorem undecided_succ {outcome : Nat → Except ClientFailure α} {n : Nat} {e : ClientFailure}
    (undecided : ∀ k < n, ¬ Decisive (outcome k)) (came : outcome n = .error e)
    (again : e.isRetryable = true) : ∀ k < n + 1, ¬ Decisive (outcome k) := by
  intro k hk
  rcases Nat.lt_succ_iff_lt_or_eq.1 hk with hl | rfl
  · exact undecided k hl
  · rw [came, Decisive, again]
    exact Bool.noConfusion

/-- So many failures are counted, and the breaker is open if they are too many. -/
structure Borne (config : BreakerConfig) (count : Nat) (b : Breaker) : Prop where
  failures : b.failures = count
  state : b.state = if count < config.limit then .closed else .open

section

variable {config : BreakerConfig} {count now : Nat} {b : Breaker}

theorem Borne.closed (h : Borne config count b) (room : count < config.limit) :
    b.state = .closed := by
  rw [h.state, if_pos room]

theorem Borne.opened (h : Borne config count b) (full : config.limit ≤ count) :
    b.state = .open := by
  rw [h.state, if_neg (by omega)]

/-- One failure more; the last one that is borne opens the breaker there and then. -/
theorem heard_error (now : Nat) (h : Borne config count b) (room : count < config.limit)
    (e : ClientFailure) :
    Borne config (count + 1) (heard config b now (.error e : Except ClientFailure α)) ∧
      (config.limit ≤ count + 1 →
        (heard config b now (.error e : Except ClientFailure α)).since = now) := by
  have hf : b.fail config now = _ := Breaker.fail_closed (h.closed room)
  rw [h.failures] at hf
  simp only [heard]
  by_cases full : config.limit ≤ count + 1
  · rw [hf, if_pos full]
    exact ⟨⟨rfl, by rw [if_neg (by omega)]; rfl⟩, fun _ => rfl⟩
  · rw [hf, if_neg full]
    exact ⟨⟨rfl, by rw [if_pos (by omega)]; exact h.closed room⟩, fun he => absurd he full⟩

end

/-- How a call ends that makes attempt number `n`, counted from 0, and no other one behind it. -/
inductive Finish (config : BreakerConfig) (service : String) (attempts failures : Nat)
    (outcome : Nat → Except ClientFailure α) (n : Nat) : Except ClientFailure α → Breaker → Prop
  | succeeded (a : α) (b : Breaker) (came : outcome n = .ok a) (closed : b.state = .closed)
      (forgotten : b.failures = 0) : Finish config service attempts failures outcome n (.ok a) b
  | failed (e : ClientFailure) (b : Breaker) (came : outcome n = .error e)
      (last : e.isRetryable = false ∨ n + 1 = attempts)
      (borne : Borne config (failures + (n + 1)) b) :
      Finish config service attempts failures outcome n (.error e) b
  | tripped (e : ClientFailure) (b : Breaker) (came : outcome n = .error e)
      (again : e.isRetryable = true) (more : n + 1 < attempts)
      (full : failures + (n + 1) = config.limit) (borne : Borne config (failures + (n + 1)) b) :
      Finish config service attempts failures outcome n (.error (.circuitOpen service)) b

/-- An attempt that is decisive or the last one of the policy ends the call. -/
theorem finish_of_last {config : BreakerConfig} {service : String} {attempts failures n now : Nat}
    {outcome : Nat → Except ClientFailure α} {b : Breaker}
    (borne : Borne config (failures + n) b) (room : failures + n < config.limit)
    (last : Decisive (outcome n) ∨ n + 1 = attempts) :
    Finish config service attempts failures outcome n (outcome n)
      (heard config b now (outcome n)) := by
  cases ho : outcome n with
  | ok a =>
    rw [heard, Breaker.succeed_closed (borne.closed room)]
    exact .succeeded a _ ho (borne.closed room) rfl
  | error e =>
    rw [ho] at last
    exact .failed e _ ho last (heard_error _ borne room e).1

section

variable {s : Scripted} {policy : RetryPolicy} {service : String} {ctx : Context}
  {request : Option Request} {read : Response → Except ClientFailure α} {failures index : Nat}

/-- How a call stands that has ended: it was interrupted, or it has come to a finish. -/
def Ended (s : Scripted) (policy : RetryPolicy) (service : String) (ctx : Context)
    (request : Option Request) (read : Response → Except ClientFailure α) (failures : Nat)
    (result : Attempt α) (w : World Scripted.State) : Prop :=
  Interrupted ctx result w ∨ ∃ n r, result = .ok r ∧
    n < policy.attempts ∧ failures + n < s.config.limit ∧
    (∀ k < n, ¬ Decisive (s.outcome service request read k)) ∧
    w.state.requests = sent request (n + 1) ∧
    Finish s.config service policy.attempts failures (s.outcome service request read) n r
      w.state.breaker

/-- Once the breaker is open no other attempt gets through. -/
theorem retryFrom_open {w : World Scripted.State} (opened : w.state.breaker.state = .open)
    (early : w.time - w.state.breaker.since < s.config.timeout)
    (attempt : Flow (Timed Link) (Attempt α)) (left : Nat) :
    Ends s.server (retryFrom policy ctx ClientFailure.isRetryable
        (Timed.ifOpen ctx (behindBreaker service attempt)) left index) w
      fun result w' =>
        Interrupted ctx result w' ∨
          ctx.check w'.time = .ok () ∧ result = .ok (.error (.circuitOpen service)) ∧
          w'.state.requests = w.state.requests ∧ w'.state.breaker = w.state.breaker := by
  have rejected : Ends s.server (Timed.ifOpen ctx (behindBreaker service attempt)) w _ :=
    attempt_open opened early attempt
  cases left with
  | zero => exact rejected
  | succ left =>
    refine Flow.holds_bind_iff.2 (rejected.mono Timed.ending_mono ?_)
    rintro result w' (⟨why, rfl, hc⟩ | ⟨hc, rfl, hr, hb⟩)
    · exact .inl ⟨why, rfl, hc⟩
    · exact .inr ⟨hc, rfl, hr, hb⟩

/-- An attempt that has tripped the breaker and is followed by another one. -/
theorem retryFrom_tripped {w : World Scripted.State} {e : ClientFailure}
    (room : failures + index < s.config.limit) (full : s.config.limit ≤ failures + (index + 1))
    (borne : Borne s.config (failures + (index + 1)) w.state.breaker)
    (early : w.time - w.state.breaker.since < s.config.timeout)
    (requests : w.state.requests = sent request (index + 1))
    (undecided : ∀ k < index, ¬ Decisive (s.outcome service request read k))
    (came : s.outcome service request read index = .error e) (again : e.isRetryable = true)
    (left : Nat) (more : index + 1 < policy.attempts) :
    Ends s.server (retryFrom policy ctx ClientFailure.isRetryable
        (Timed.ifOpen ctx (behindBreaker service (exchange service ctx request read))) left
        (index + 1))
      w (Ended s policy service ctx request read failures) := by
  refine (retryFrom_open (borne.opened full) early _ left).mono Timed.ending_mono ?_
  rintro result w' (interrupted | ⟨-, rfl, hr, hb⟩)
  · exact .inl interrupted
  · refine .inr ⟨index, _, rfl, by omega, room, undecided, hr.trans requests, ?_⟩
    exact .tripped e _ came again more (by omega) (hb ▸ borne)

/-- **How the attempts of a call go on** from one of them on, counted from 0. -/
theorem retryFrom_ends (steady : policy.jitter = false)
    (short : ∀ k, k + 1 < policy.attempts → policy.delay (UInt32.ofNat k) < s.config.timeout)
    (left : Nat) {w : World Scripted.State} (counted : index + left + 1 = policy.attempts)
    (room : failures + index < s.config.limit)
    (borne : Borne s.config (failures + index) w.state.breaker)
    (requests : w.state.requests = sent request index)
    (undecided : ∀ k < index, ¬ Decisive (s.outcome service request read k)) :
    Ends s.server (retryFrom policy ctx ClientFailure.isRetryable
        (Timed.ifOpen ctx (behindBreaker service (exchange service ctx request read))) left index) w
      (Ended s policy service ctx request read failures) := by
  -- by induction on the attempts that are left; the invariant is that as many failures have been
  -- borne as attempts were made before this one, and that none of them was decisive
  induction left generalizing index w with
  | zero =>
    refine (attempt_closed (borne.closed room) requests).mono Timed.ending_mono ?_
    rintro result w' (interrupted | ⟨-, rfl, hr, hb⟩)
    · exact .inl interrupted
    · refine .inr ⟨index, _, rfl, by omega, room, undecided, hr, ?_⟩
      rw [hb]
      exact finish_of_last borne room (.inr counted)
  | succ left ih =>
    have attempted : Ends s.server
        (Timed.ifOpen ctx (behindBreaker service (exchange service ctx request read))) w _ :=
      attempt_closed (borne.closed room) requests
    refine Flow.holds_bind_iff.2 (attempted.mono Timed.ending_mono ?_)
    rintro result w' (⟨why, rfl, hc⟩ | ⟨-, rfl, hr, hb⟩)
    · exact .inl ⟨why, rfl, hc⟩
    have finished (decisive : Decisive (s.outcome service request read index)) :
        Ended s policy service ctx request read failures
          (.ok (s.outcome service request read index)) w' := by
      refine .inr ⟨index, _, rfl, by omega, room, undecided, hr, ?_⟩
      rw [hb]
      exact finish_of_last borne room (.inl decisive)
    cases ho : s.outcome service request read index with
    | ok a =>
      rw [ho] at finished
      exact finished trivial
    | error e =>
      rw [ho] at finished hb
      -- a failure ends the call, or is followed by a wait and whatever the breaker has made of it
      cases he : e.isRetryable with
      | false =>
        simp only [he]
        exact finished he
      | true =>
        obtain ⟨borne', since⟩ := heard_error w'.time borne room e
        rw [← hb] at borne' since
        simp only [he, if_true, steady]
        refine Flow.holds_bind_iff.2
          (Timed.ends_pause rfl (fun why t _ hc => .inl ⟨why, rfl, hc⟩) fun _ => ?_)
        by_cases room' : failures + (index + 1) < s.config.limit
        · exact ih (by omega) room' borne' hr (undecided_succ undecided ho he)
        · -- the wait is too short for the breaker to wake up
          have full := Nat.not_lt.1 room'
          let woken : World Scripted.State :=
            ⟨w'.time + policy.delay (UInt32.ofNat index), w'.state⟩
          have early : woken.time - woken.state.breaker.since < s.config.timeout := by
            rw [since full, Nat.add_sub_cancel_left]
            exact short index (by omega)
          have more : index + 1 < policy.attempts := by omega
          exact retryFrom_tripped (w := woken) room full borne' early hr undecided ho he left more

end

/-! ## The law -/

/-- Is there a `j`-th attempt among so many? -/
def Within (j : Option Nat) (n : Nat) : Prop := ∃ i, j = some i ∧ i ≤ n

/-- The smaller number; the first one may be missing. -/
def smaller (j : Option Nat) (n : Nat) : Nat := (j.map (min n)).getD n

/-- The first decisive outcome is the one that has none before it. -/
theorem FirstAt.eq_some {outcome : Nat → Except ClientFailure α} {j : Option Nat} {n : Nat}
    (h : FirstAt outcome j) (decisive : Decisive (outcome n))
    (undecided : ∀ k < n, ¬ Decisive (outcome k)) : j = some (n + 1) := by
  cases j with
  | none => exact absurd decisive (h n)
  | some j =>
    obtain ⟨i, rfl, hi, hb⟩ := h
    rcases Nat.lt_trichotomy i n with hl | rfl | hl
    · exact absurd hi (undecided i hl)
    · rfl
    · exact absurd decisive (hb n hl)

theorem FirstAt.not_within {outcome : Nat → Except ClientFailure α} {j : Option Nat} {n : Nat}
    (h : FirstAt outcome j) (undecided : ∀ k < n, ¬ Decisive (outcome k)) : ¬ Within j n := by
  rintro ⟨_, rfl, hl⟩
  obtain ⟨i, rfl, hi, -⟩ := h
  exact undecided i hl hi

theorem smaller_of_within {i n : Nat} (h : i ≤ n) : smaller (some i) n = i := Nat.min_eq_right h

theorem smaller_of_not_within {j : Option Nat} {n : Nat} (h : ¬ Within j n) : smaller j n = n := by
  cases j with
  | none => rfl
  | some i => exact Nat.min_eq_left (Nat.le_of_lt (Nat.not_le.1 fun hl => h ⟨i, rfl, hl⟩))

/-- What a call comes to that is allowed so many attempts, at a closed breaker that has counted so
many failures, when the `j`-th outcome is the first decisive one. -/
structure RetryLaw (config : BreakerConfig) (service : String) (request : Option Request)
    (attempts failures : Nat) (outcome : Nat → Except ClientFailure α) (j : Option Nat)
    (result : Except ClientFailure α) (x : Scripted.State) : Prop where
  /-- Every attempt sends the request, if it can be sent. -/
  requests : x.requests = sent request (smaller j (min attempts (config.limit - failures)))
  decided : ∀ i, j = some (i + 1) → i + 1 ≤ min attempts (config.limit - failures) →
    result = outcome i
  /-- Without a decision the last failure is the result. -/
  exhausted : ¬ Within j (min attempts (config.limit - failures)) →
    attempts ≤ config.limit - failures →
      ∃ e, outcome (attempts - 1) = .error e ∧ result = .error e
  /-- If the breaker has tripped before, its rejection is. -/
  tripped : ¬ Within j (min attempts (config.limit - failures)) →
    config.limit - failures < attempts → result = .error (.circuitOpen service)
  forgotten : ∀ i a, j = some (i + 1) → i + 1 ≤ min attempts (config.limit - failures) →
    outcome i = .ok a → x.breaker.state = .closed ∧ x.breaker.failures = 0
  /-- Without a success every attempt counts as a failure. -/
  counted : (∀ i a, j = some (i + 1) → i + 1 ≤ min attempts (config.limit - failures) →
      outcome i ≠ .ok a) →
    Borne config (failures + smaller j (min attempts (config.limit - failures))) x.breaker

section

variable {config : BreakerConfig} {service : String} {request : Option Request}
  {attempts failures n : Nat} {outcome : Nat → Except ClientFailure α} {j : Option Nat}
  {r : Except ClientFailure α} {x : Scripted.State}

/-- A call that is decided by an attempt of its own. -/
theorem RetryLaw.of_decided (hj : j = some (n + 1))
    (within : n + 1 ≤ min attempts (config.limit - failures))
    (requests : x.requests = sent request (n + 1)) (came : r = outcome n)
    (forgotten : ∀ a, outcome n = .ok a → x.breaker.state = .closed ∧ x.breaker.failures = 0)
    (counted : ∀ e, outcome n = .error e → Borne config (failures + (n + 1)) x.breaker) :
    RetryLaw config service request attempts failures outcome j r x := by
  subst hj
  constructor
  case requests => rw [smaller_of_within within, requests]
  case decided =>
    rintro _ ⟨⟩ -
    exact came
  case exhausted => exact fun h => absurd ⟨_, rfl, within⟩ h
  case tripped => exact fun h => absurd ⟨_, rfl, within⟩ h
  case forgotten =>
    rintro _ a ⟨⟩ - ha
    exact forgotten a ha
  case counted =>
    intro h
    rw [smaller_of_within within]
    cases ho : outcome n with
    | ok a => exact absurd ho (h n a rfl within)
    | error e => exact counted e ho

/-- A call that is not decided by any. -/
theorem RetryLaw.of_undecided (still : ¬ Within j (min attempts (config.limit - failures)))
    (spent : min attempts (config.limit - failures) = n + 1)
    (requests : x.requests = sent request (n + 1))
    (exhausted : attempts ≤ config.limit - failures →
      ∃ e, outcome (attempts - 1) = .error e ∧ r = .error e)
    (tripped : config.limit - failures < attempts → r = .error (.circuitOpen service))
    (counted : Borne config (failures + (n + 1)) x.breaker) :
    RetryLaw config service request attempts failures outcome j r x := by
  constructor
  case requests => rw [smaller_of_not_within still, spent, requests]
  case decided => exact fun i hj hi => absurd ⟨_, hj, hi⟩ still
  case exhausted => exact fun _ => exhausted
  case tripped => exact fun _ => tripped
  case forgotten => exact fun i a hj hi => absurd ⟨_, hj, hi⟩ still
  case counted =>
    intro _
    rwa [smaller_of_not_within still, spent]

/-- Every finish keeps the law. -/
theorem Finish.law (h : Finish config service attempts failures outcome n r x.breaker)
    (first : FirstAt outcome j) (began : n < attempts) (room : failures + n < config.limit)
    (undecided : ∀ k < n, ¬ Decisive (outcome k)) (requests : x.requests = sent request (n + 1)) :
    RetryLaw config service request attempts failures outcome j r x := by
  have within : n + 1 ≤ min attempts (config.limit - failures) := by omega
  -- three ways to end: a success, a failure that the policy ends with, and the breaker
  cases h with
  | succeeded a _ came closed forgotten =>
    refine .of_decided (first.eq_some ?_ undecided) within requests came.symm ?_ ?_
    · rw [came]
      exact trivial
    · exact fun _ _ => ⟨closed, forgotten⟩
    · intro e he
      cases came.symm.trans he
  | failed e _ came last borne =>
    cases again : e.isRetryable with
    | false =>
      refine .of_decided (first.eq_some ?_ undecided) within requests came.symm ?_ fun _ _ => borne
      · rw [came]
        exact again
      · intro a ha
        cases came.symm.trans ha
    | true =>
      have all : n + 1 = attempts := last.resolve_left (by rw [again]; exact Bool.noConfusion)
      have spent : min attempts (config.limit - failures) = n + 1 := by omega
      refine .of_undecided ?_ spent requests ?_ (fun _ => by omega) borne
      · rw [spent]
        exact first.not_within (undecided_succ undecided came again)
      · rw [← all]
        exact fun _ => ⟨e, came, rfl⟩
  | tripped e _ came again more full borne =>
    have spent : min attempts (config.limit - failures) = n + 1 := by omega
    refine .of_undecided ?_ spent requests (fun _ => by omega) (fun _ => rfl) borne
    rw [spent]
    exact first.not_within (undecided_succ undecided came again)

end

/-! ## The clients

The three calls differ in the request and in how an answer is read. All are covered by `ask_lawful`.
-/

/-- A call comes to an end, and if its context is not interrupted by then it keeps the law. -/
def Lawful (s : Scripted) (c : Client) (ctx : Context) (request : Option Request)
    (decode : Decoder α) (start : World Scripted.State)
    (call : Flow (Timed Link) (Except ClientFailure α)) : Prop :=
  let outcome := s.outcome c.service request (readBody c.service decode)
  ∃ result w', Timed.run s.server call start = some (result, w') ∧
    (ctx.check w'.time = .ok () → ∃ j, FirstAt outcome j ∧
      RetryLaw s.config c.service request c.policy.attempts start.state.breaker.failures outcome j
        result w'.state)

section

variable {s : Scripted} {c : Client} {ctx : Context}

/-- What every call of the clients does in the same way. -/
theorem ask_lawful (steady : c.policy.jitter = false)
    (short : ∀ k, k + 1 < c.policy.attempts → c.policy.delay (UInt32.ofNat k) < s.config.timeout)
    {start : World Scripted.State} (closed : start.state.breaker.state = .closed)
    (room : start.state.breaker.failures < s.config.limit) (fresh : start.state.requests = [])
    (request : Option Request) (decode : Decoder α) :
    Lawful s c ctx request decode start (c.ask ctx request decode) := by
  have positive : 1 ≤ c.policy.attempts := Nat.le_max_right _ _
  have borne : Borne s.config (start.state.breaker.failures + 0) start.state.breaker :=
    ⟨rfl, by rw [Nat.add_zero, if_pos room]; exact closed⟩
  have requests : start.state.requests = sent request 0 := fresh.trans (sent_zero request).symm
  have ended : Ends s.server (retryFrom c.policy ctx ClientFailure.isRetryable
      (Timed.ifOpen ctx (behindBreaker c.service
        (exchange c.service ctx request (readBody c.service decode)))) (c.policy.attempts - 1) 0)
      start _ :=
    retryFrom_ends steady short (c.policy.attempts - 1) (by omega) room borne requests
      fun k hk => absurd hk (Nat.not_lt_zero k)
  refine Timed.ends_iff.1 (Flow.holds_bind_iff.2 (ended.mono Timed.ending_mono ?_))
  rintro _ w' (⟨why, rfl, hc⟩ | ⟨n, r, rfl, began, space, undecided, hr, finish⟩) running
  · rw [hc] at running
    cases running
  -- whether any outcome would have been decisive is a question about the script, not about the run
  · obtain ⟨j, first⟩ := exists_firstAt (s.outcome c.service request (readBody c.service decode))
    exact ⟨j, first, finish.law first began space undecided hr⟩

/-- **Retries and the breaker together**, for every call of the clients at a breaker that has come
to be closed in whatever way. -/
theorem clients_lawful (s : Scripted) (c : Client) (ctx : Context) (made start : Nat)
    (events : List BreakerEvent)
    (closed : (BreakerRun.after s.config made events).breaker.state = .closed)
    (steady : c.policy.jitter = false)
    (short : ∀ k, k + 1 < c.policy.attempts →
      c.policy.delay (UInt32.ofNat k) < s.config.timeout) :
    let w : World Scripted.State :=
      ⟨start, { breaker := (BreakerRun.after s.config made events).breaker }⟩
    (∀ userId,
      Lawful s c ctx (c.request? .get (Client.preferencesPath userId)) Preferences.codec.decode w
        (c.getPreferences ctx userId)) ∧
    (∀ code language values,
      Lawful s c ctx (c.request? .post (Client.renderPath code)
          (some (Client.renderBody language values))) Rendering.codec.decode w
        (c.renderTemplate ctx code language values)) ∧
    ∀ code language,
      Lawful s c ctx ((c.request? .get (Client.templatePath code)).map fun r =>
          { r with url := r.url.withPair "language" language }) Template.codec.decode w
        (c.getTemplate ctx code language) := by
  have counted := (BreakerRun.accounted s.config made events).closed closed
  have room : (BreakerRun.after s.config made events).breaker.failures < s.config.limit := by
    have h := counted.2.2.2
    rwa [BreakerRun.after, BreakerRun.run_config] at h
  refine ⟨fun userId => ?_, fun code language values => ?_, fun code language => ?_⟩
  all_goals exact ask_lawful steady short closed room rfl _ _

end

/-- A service that is down, behind a breaker that bears three failures and has borne one. -/
def down : Scripted where
  config := { maxFailures := 3, timeout := 1000 }
  answer _ := .error "connection refused"
  takes _ := 5
  visits _ := [⟨3, true⟩, ⟨0, false⟩]

theorem clients_lawful_down :
    let c : Client := .users "http://users" { maxAttempts := 5, jitter := false }
    let events : List BreakerEvent := [.start "a", .advance 4, .finish "a" .failure]
    let breaker := (BreakerRun.after down.config 0 events).breaker
    breaker.state = .closed ∧ breaker.failures = 1 ∧
      Lawful down c .background (c.request? .get (Client.preferencesPath "u1"))
        Preferences.codec.decode ⟨4, { breaker }⟩ (c.getPreferences .background "u1") := by
  intro c events breaker
  have closed : (BreakerRun.after down.config 0 events).breaker.state = .closed := by decide
  have delays : ∀ k < 4, c.policy.delay (UInt32.ofNat k) < 1000 := by decide +kernel
  have short (k : Nat) (hk : k + 1 < c.policy.attempts) :
      c.policy.delay (UInt32.ofNat k) < down.config.timeout := delays k (Nat.lt_of_succ_lt_succ hk)
  exact ⟨closed, by decide, (clients_lawful down c .background 0 4 events closed rfl short).1 "u1"⟩

end Courier.Http
