import Mathlib.Data.Nat.Find
import Mathlib.Logic.Function.Iterate
import Courier.Proofs.Resilience.Truncation

/-!
# When attempts are made

Retried work is a sequence of attempts, of which as many are made as it takes: up to the first one
that is the last (`Trial.Last`). Each begins when the wait after the one before is over
(`RetryPolicy.begins`), and with the last one all is over.

The number of an attempt has 32 bits. Counted in these, retrying is a loop (`retryOnce`) whose count
never gets to where it would wrap, since no more attempts are made than such a number can say.

`Timed.run_retry` knows of the attempts only what each of them comes to (`Timed.Goes`).
`Trial.retry_scheduled` puts outcomes without end in that place, so that no attempt lacks one.
-/

set_option autoImplicit false

namespace Courier

/-! ## Counting in 32 bits

The same loop with the attempts counted up in 32 bits instead of the number that is left.
`retryAfter_eq` unrolls it as long as the count is below the budget, which is a 32-bit number
itself, so that counting up never overflows.
-/

section

variable {R : Signature} {ε α : Type} {policy : RetryPolicy} {ctx : Context} {retryable : ε → Bool}
  {attempt : Flow (Timed R) (Except Interruption (Except ε α))} {count : UInt32}

/-- What is still to be done after so many attempts. -/
def retryAfter (policy : RetryPolicy) (ctx : Context) (retryable : ε → Bool)
    (attempt : Flow (Timed R) (Except Interruption (Except ε α))) (count : UInt32) :
    Flow (Timed R) (Except Interruption (Except ε α)) :=
  retryFrom policy ctx retryable attempt (policy.attempts - (count.toNat + 1)) count.toNat

/-- One more attempt, which is counted first; what may follow is left to `next`. -/
def retryOnce (policy : RetryPolicy) (ctx : Context) (retryable : ε → Bool)
    (attempt : Flow (Timed R) (Except Interruption (Except ε α)))
    (next : UInt32 → Flow (Timed R) (Except Interruption (Except ε α))) (count : UInt32) :
    Flow (Timed R) (Except Interruption (Except ε α)) := do
  let count := count + 1
  match ← attempt with
  | .error i => return .error i
  | .ok (.ok a) => return .ok (.ok a)
  | .ok (.error e) =>
    if retryable e then
      if max policy.maxAttempts 1 ≤ count then return .ok (.error e)
      else
        match ← Timed.pause ctx (policy.delay (count - 1)) policy.jitter with
        | .error i => return .error i
        | .ok () => next count
    else return .ok (.error e)

theorem RetryPolicy.one_le_attempts : 1 ≤ policy.attempts := Nat.le_max_right _ _

theorem RetryPolicy.attempts_lt : policy.attempts < UInt32.size :=
  Nat.max_lt.2 ⟨policy.maxAttempts.toNat_lt_size, by decide⟩

theorem RetryPolicy.toNat_max : (max policy.maxAttempts 1).toNat = policy.attempts := by
  rw [RetryPolicy.attempts]
  show (if policy.maxAttempts ≤ 1 then 1 else policy.maxAttempts).toNat = _
  split <;> rename_i h <;> simp only [UInt32.le_iff_toNat_le, UInt32.toNat_one] at h ⊢ <;> omega

theorem toNat_succ (room : count.toNat < policy.attempts) :
    (count + 1).toNat = count.toNat + 1 := by
  have fits : count.toNat + 1 < UInt32.size := Nat.lt_of_le_of_lt room policy.attempts_lt
  rw [UInt32.toNat_add, UInt32.toNat_one]
  exact Nat.mod_eq_of_lt fits

/-- Retrying is a loop. -/
theorem retryAfter_eq (room : count.toNat < policy.attempts) :
    retryAfter policy ctx retryable attempt count =
      retryOnce policy ctx retryable attempt (retryAfter policy ctx retryable attempt) count := by
  have counted := toNat_succ room
  have full : max policy.maxAttempts 1 ≤ count + 1 ↔ policy.attempts ≤ count.toNat + 1 := by
    rw [UInt32.le_iff_toNat_le, policy.toNat_max, counted]
  have number : count + 1 - 1 = UInt32.ofNat count.toNat := by simp
  unfold retryOnce
  simp only [full, number]
  rw [retryAfter]
  -- the loop stops by its count, `retryFrom` by what is left: the two are compared once with
  -- nothing left and once with something
  cases rest : policy.attempts - (count.toNat + 1) with
  | zero =>
    have spent : policy.attempts ≤ count.toNat + 1 := by omega
    rw [retryFrom, Flow.bind_def]
    refine (Flow.bind_done attempt).symm.trans (congrArg _ (funext fun result => ?_))
    rcases result with why | (e | a)
    · rfl
    · cases h : retryable e <;> simp [Flow.pure_def, h, spent]
    · rfl
  | succ left =>
    have more : ¬ policy.attempts ≤ count.toNat + 1 := by omega
    have same : policy.attempts - (count.toNat + 1 + 1) = left := by omega
    simp only [more, if_false, retryAfter, counted, same]
    rfl

end

/-! ## The schedule

When each attempt begins and ends if none is cut short, and which one is the last: the first that
succeeds, fails for good or uses the budget up. There is one, since the budget is finite.
-/

namespace RetryPolicy

variable {ε α : Type} {policy : RetryPolicy} {retryable : ε → Bool}
  {outcomes : Nat → ScriptedAttempt ε α} {began i j n : Nat}

/-- When attempt number `i`, counted from 0, begins. -/
def begins (policy : RetryPolicy) (outcomes : Nat → ScriptedAttempt ε α) (began : Nat) :
    Nat → Nat
  | 0 => began
  | i + 1 => policy.begins outcomes began i + (outcomes i).takes + policy.delay (UInt32.ofNat i)

/-- When it ends. -/
def ends (policy : RetryPolicy) (outcomes : Nat → ScriptedAttempt ε α) (began i : Nat) : Nat :=
  policy.begins outcomes began i + (outcomes i).takes

theorem ends_mono (h : i ≤ j) : policy.ends outcomes began i ≤ policy.ends outcomes began j := by
  induction h with
  | refl => exact Nat.le_refl _
  | step _ ih =>
    refine Nat.le_trans ih ?_
    rw [ends, ends, begins]
    omega

theorem begins_succ_le_ends (h : i < j) :
    policy.begins outcomes began (i + 1) ≤ policy.ends outcomes began j :=
  Nat.le_trans (Nat.le_add_right _ _) (ends_mono h)

/-- No attempt is made after this one. -/
def Last (policy : RetryPolicy) (retryable : ε → Bool) (outcomes : Nat → ScriptedAttempt ε α)
    (i : Nat) : Prop :=
  (∃ a, (outcomes i).result = .ok a) ∨
    (∃ e, (outcomes i).result = .error e ∧ retryable e = false) ∨ i + 1 = policy.attempts

/-- An attempt that is not the last has failed in a way that allows another. -/
theorem Last.failed (more : ¬ policy.Last retryable outcomes i) :
    ∃ e, (outcomes i).result = .error e ∧ retryable e = true := by
  cases h : (outcomes i).result with
  | ok a => exact absurd (.inl ⟨a, h⟩) more
  | error e =>
    refine ⟨e, rfl, ?_⟩
    rw [← Bool.not_eq_false]
    exact fun final => more (.inr (.inl ⟨e, h, final⟩))

/-- Some attempt is the first that is the last. -/
theorem exists_last (policy : RetryPolicy) (retryable : ε → Bool)
    (outcomes : Nat → ScriptedAttempt ε α) :
    ∃ n, policy.Last retryable outcomes n ∧ ∀ i < n, ¬ policy.Last retryable outcomes i := by
  classical
  have some : ∃ n, policy.Last retryable outcomes n :=
    ⟨policy.attempts - 1, .inr (.inr (Nat.sub_add_cancel policy.one_le_attempts))⟩
  exact ⟨Nat.find some, Nat.find_spec some, fun _ => Nat.find_min some⟩

theorem Last.lt_attempts (first : ∀ i < n, ¬ policy.Last retryable outcomes i) :
    n < policy.attempts := by
  apply Nat.lt_of_not_le
  intro beyond
  have positive := policy.one_le_attempts
  exact first (policy.attempts - 1) (by omega) (.inr (.inr (by omega)))

end RetryPolicy

/-! ## Work in time

Work and pauses that are over before the context ends take their full time. The run of the loop
follows by induction on the attempts that are left.
-/

namespace Timed

variable {R : Signature} {σ : Type} {server : Server R σ} {w : World σ} {ctx : Context}

/-- A guarded request that is answered before anything interrupts it. -/
theorem run_guarded {r : R.Op} {d : Nat} (takes : (server.work w.time r w.state).takes = some d)
    (running : ctx.check (w.time + d) = .ok ()) :
    run server (guarded ctx r) w = some (.ok (server.work w.time r w.state).answer.1,
      ⟨w.time + d, (server.work w.time r w.state).answer.2⟩) := by
  have opened := Context.check_mono running (Nat.le_add_right _ _)
  have finished := Context.race_finished_iff.2 ⟨⟨d, takes, rfl⟩, running⟩
  refine (run_ifOpen opened).trans ((run_call _).trans ?_)
  simp only [step, finished, Option.map_some]
  rfl

/-- A wait that nothing interrupts. -/
theorem run_pause {delay : Nat} (running : ctx.check (w.time + delay) = .ok ()) :
    run server (pause ctx delay false) w = some (.ok (), ⟨w.time + delay, w.state⟩) := by
  have opened := Context.check_mono running (Nat.le_add_right _ _)
  have finished := Context.race_finished_iff.2 ⟨⟨delay, rfl, rfl⟩, running⟩
  refine (run_ifOpen opened).trans ((run_call _).trans ?_)
  simp only [step, Bool.false_eq_true, if_false, finished, Option.map_some]
  rfl

variable {ε α : Type} {policy : RetryPolicy} {retryable : ε → Bool}
  {outcomes : Nat → ScriptedAttempt ε α} {began n : Nat} {states : Nat → σ}
  {attempt : Flow (Timed R) (Except Interruption (Except ε α))}

/-- Attempt number `i` comes to what is written down, and the state goes on to the next. -/
def Goes (server : Server R σ) (attempt : Flow (Timed R) (Except Interruption (Except ε α)))
    (policy : RetryPolicy) (outcomes : Nat → ScriptedAttempt ε α) (began : Nat) (states : Nat → σ)
    (i : Nat) : Prop :=
  run server attempt ⟨policy.begins outcomes began i, states i⟩ =
    some (.ok (outcomes i).result, ⟨policy.ends outcomes began i, states (i + 1)⟩)

/-- From attempt number `index` on, if it is made. -/
theorem run_retryFrom (steady : policy.jitter = false)
    (last : policy.Last retryable outcomes n)
    (first : ∀ i < n, ¬ policy.Last retryable outcomes i)
    (running : ctx.check (policy.ends outcomes began n) = .ok ())
    (goes : ∀ i ≤ n, Goes server attempt policy outcomes began states i) (left index : Nat)
    (budget : left + (index + 1) = policy.attempts) (made : index ≤ n) :
    run server (retryFrom policy ctx retryable attempt left index)
        ⟨policy.begins outcomes began index, states index⟩ =
      some (.ok (outcomes n).result, ⟨policy.ends outcomes began n, states (n + 1)⟩) := by
  -- by induction on what is left of the budget; attempt number `n` is made in any case, since none
  -- before it is the last
  induction left generalizing index with
  | zero =>
    have same : index = n := by
      apply Nat.le_antisymm made
      apply Nat.le_of_not_lt
      exact fun more => first index more (.inr (.inr (by omega)))
    subst same
    exact goes index made
  | succ left ih =>
    rw [retryFrom, run_bind_of_run (goes index made)]
    rcases Nat.lt_or_eq_of_le made with more | rfl
    · -- this one is not the last
      obtain ⟨e, h, again⟩ := RetryPolicy.Last.failed (first index more)
      rw [h]
      simp only [again, if_true, steady]
      have inTime := Context.check_mono running (RetryPolicy.begins_succ_le_ends more)
      refine (run_bind_of_run (run_pause inTime)).trans ?_
      exact ih (index + 1) (by omega) more
    · rcases last with ⟨a, h⟩ | ⟨e, h, final⟩ | spent
      · rw [h]
        rfl
      · rw [h]
        simp only [final]
        rfl
      · omega

/-- Retried work ends with the first attempt that is the last, when that attempt ends. -/
theorem run_retry (steady : policy.jitter = false)
    (last : policy.Last retryable outcomes n)
    (first : ∀ i < n, ¬ policy.Last retryable outcomes i)
    (running : ctx.check (policy.ends outcomes began n) = .ok ())
    (goes : ∀ i ≤ n, Goes server attempt policy outcomes began states i) :
    run server (retry policy ctx retryable attempt) ⟨began, states 0⟩ =
      some (.ok (outcomes n).result, ⟨policy.ends outcomes began n, states (n + 1)⟩) :=
  have positive := policy.one_le_attempts
  run_retryFrom steady last first running goes (policy.attempts - 1) 0 (by omega) (Nat.zero_le n)

end Timed

/-! ## Attempts without end

A peer with an outcome for every attempt there could be, which remembers when it was asked. It never
runs out of script, so the budget alone decides how often it is asked.
-/

namespace Trial

open Timed (run_bind_of_run Goes)

variable {ε α : Type} {policy : RetryPolicy} {ctx : Context} {retryable : ε → Bool}
  {outcomes : Nat → ScriptedAttempt ε α} {began n : Nat}

/-- One attempt after the other, as they are written down. The state is when they began. -/
def endless (outcomes : Nat → ScriptedAttempt ε α) : Timed.Server (Attempts ε α) (List Nat) where
  work now
    | .call, starts => .immediate () starts
    | .make, starts =>
      let attempt := outcomes starts.length
      ⟨starts ++ [now], some attempt.takes, (attempt.result, starts ++ [now])⟩

/-- Outcomes without end go as they are written down. -/
theorem endless_goes {i : Nat} (running : ctx.check (policy.ends outcomes began i) = .ok ()) :
    Goes (endless outcomes) (attempt ctx) policy outcomes began
      (fun i => (List.range i).map (policy.begins outcomes began)) i := by
  let starts := (List.range i).map (policy.begins outcomes began)
  have number : starts.length = i := by simp [starts]
  have called : Timed.run (endless outcomes) (Timed.plain (R := Attempts ε α) .call)
      ⟨policy.begins outcomes began i, starts⟩ =
        some ((), ⟨policy.begins outcomes began i, starts⟩) := rfl
  have takes : ((endless outcomes).work (policy.begins outcomes began i) .make starts).takes =
      some (outcomes i).takes := by
    simp only [endless, number]
  refine (run_bind_of_run called).trans ((Timed.run_guarded takes running).trans ?_)
  simp only [endless, number, List.range_succ, List.map_append]
  rfl

/-- How retrying goes with attempt number `n`, counted from 0, as the last. -/
structure Scheduled (policy : RetryPolicy) (ctx : Context) (retryable : ε → Bool)
    (outcomes : Nat → ScriptedAttempt ε α) (began n : Nat) : Prop where
  last : policy.Last retryable outcomes n
  first : ∀ i < n, ¬ policy.Last retryable outcomes i
  /-- Unless something interrupts it, it ends with that attempt. -/
  run : ctx.check (policy.ends outcomes began n) = .ok () →
    Timed.run (endless outcomes) (retry policy ctx retryable (attempt ctx)) ⟨began, []⟩ =
      some (.ok (outcomes n).result, ⟨policy.ends outcomes began n,
        (List.range (n + 1)).map (policy.begins outcomes began)⟩)
  counted : ∀ count : UInt32, count.toNat ≤ n → (count + 1).toNat = count.toNat + 1
  looped : retry policy ctx retryable (attempt (α := α) ctx) =
      retryAfter policy ctx retryable (attempt ctx) 0 ∧
    ∀ count : UInt32, count.toNat ≤ n →
      retryAfter policy ctx retryable (attempt (α := α) ctx) count =
        retryOnce policy ctx retryable (attempt ctx)
          (retryAfter policy ctx retryable (attempt ctx)) count

/-- **The schedule of retries.** Whatever the attempts come to, they are made up to the first that
is the last, one wait after the other, and a count of 32 bits is enough for them. -/
theorem retry_scheduled (policy : RetryPolicy) (steady : policy.jitter = false) (ctx : Context)
    (retryable : ε → Bool) (outcomes : Nat → ScriptedAttempt ε α) (began : Nat) :
    ∃ n, Scheduled policy ctx retryable outcomes began n := by
  obtain ⟨n, last, first⟩ := policy.exists_last retryable outcomes
  have below : ∀ count : UInt32, count.toNat ≤ n → count.toNat < policy.attempts :=
    fun count made => Nat.lt_of_le_of_lt made (RetryPolicy.Last.lt_attempts first)
  refine ⟨n, last, first, fun running => ?_, ?_, rfl, ?_⟩
  · have goes (i : Nat) (made : i ≤ n) : Goes (endless outcomes) (attempt ctx) policy outcomes began
        (fun i => (List.range i).map (policy.begins outcomes began)) i :=
      endless_goes (Context.check_mono running (RetryPolicy.ends_mono made))
    exact Timed.run_retry steady last first running goes
  · exact fun count made => toNat_succ (below count made)
  · exact fun count made => retryAfter_eq (below count made)

/-- The third attempt succeeds. -/
theorem retry_scheduled_third :
    let policy : RetryPolicy := { maxAttempts := 5, initialDelay := 50, jitter := false }
    let outcomes : Nat → ScriptedAttempt String Nat :=
      fun i => ⟨10, if i < 2 then .error "down" else .ok 7⟩
    policy.jitter = false ∧ Scheduled policy .background (fun _ => true) outcomes 0 2 ∧
      (List.range 3).map (policy.begins outcomes 0) = [0, 60, 170] := by
  intro policy outcomes
  obtain ⟨n, law⟩ := retry_scheduled policy rfl .background (fun _ => true) outcomes 0
  have early : ∀ i < 2, ¬ policy.Last (fun _ => true) outcomes i := by
    rintro i hi (⟨a, ha⟩ | ⟨e, -, final⟩ | spent)
    · simp [outcomes, hi] at ha
    · cases final
    · have attempts : policy.attempts = 5 := rfl
      omega
  obtain rfl : n = 2 := by
    rcases Nat.lt_trichotomy n 2 with before | same | after
    · exact absurd law.last (early n before)
    · exact same
    · exact absurd (.inl ⟨7, rfl⟩) (law.first 2 after)
  exact ⟨rfl, law, by decide +kernel⟩

end Trial

end Courier
