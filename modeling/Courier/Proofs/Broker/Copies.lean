import Courier.Proofs.Broker.Sending
import Courier.Proofs.Flow.Layers

/-!
# How many copies the broker gets

A publisher may be told anything on each copy, and be interrupted anywhere. The copies that it has
handed to the broker are all of one message, and no more than its policy allows; they are as many as
that where it gives up by itself.

Runs are taken apart here, and not played: what is said holds of every broker and every
interruption, since nothing is known of the answers but that they were given.
-/

set_option autoImplicit false

namespace Courier

open Courier.Flow (Runs runs_bind_iff runs_call_iff runs_pure_iff)

/-- Work that may not begin ends with the look at the clock. -/
theorem Timed.ifOpen_runs {R : Signature} {α : Type} {ctx : Context}
    {work : Flow (Timed R) (Except Interruption α)} {log : List (Exchange (Timed R))}
    {result : Except Interruption α} (h : Runs (Timed.ifOpen ctx work) log result) :
    ∃ t own, log = ⟨.now, t⟩ :: own ∧
      ((own = [] ∧ ∃ why, result = .error why) ∨ Runs work own result) := by
  obtain ⟨checked, _, own, rfl, looked, goesOn⟩ := runs_bind_iff.1 h
  obtain ⟨t, _, rfl, told⟩ := Runs.of_call looked
  obtain ⟨rfl, rfl⟩ := runs_pure_iff.1 told
  refine ⟨t, own, rfl, ?_⟩
  cases checked : ctx.check t with
  | error why =>
    rw [checked] at goesOn
    obtain ⟨rfl, rfl⟩ := runs_pure_iff.1 goesOn
    exact .inl ⟨rfl, why, rfl⟩
  | ok =>
    rw [checked] at goesOn
    exact .inr goesOn

namespace Broker

variable {ctx : Context} {m : Message} {log : List (Exchange (Timed Wire))}

/-- The copy of a message that an operation hands to the broker. -/
def copy? : (Timed Wire).Op → Option Message
  | .plain (.publish m) | .race _ (.publish m) => some m
  | _ => none

/-- The copies that were handed to the broker, in their order. -/
def copies (log : List (Exchange (Timed Wire))) : List Message := log.filterMap fun x => copy? x.op

theorem copies_append (early late : List (Exchange (Timed Wire))) :
    copies (early ++ late) = copies early ++ copies late := List.filterMap_append

theorem copies_pause {delay : Nat} {jitter : Bool} {result : Except Interruption Unit}
    (h : Runs (Timed.pause (R := Wire) ctx delay jitter) log result) : copies log = [] := by
  obtain ⟨t, own, rfl, ⟨rfl, -⟩ | waited⟩ := Timed.ifOpen_runs h
  · rfl
  · obtain rfl := runs_call_iff.1 waited
    rfl

/-- **One attempt hands over one copy**, unless it is interrupted before. -/
theorem attempt_copies {result : Except Interruption (Except PublishFailure Unit)}
    (h : Runs (attempt ctx m) log result) :
    (∃ k ≤ 1, copies log = List.replicate k m ∧ ∃ why, result = .error why) ∨
      (copies log = [m] ∧ ∃ word, result = .ok (confirmed m.routingKey word)) := by
  obtain ⟨word, early, late, rfl, guarded, told⟩ := runs_bind_iff.1 h
  rw [copies_append]
  obtain ⟨t, own, rfl, ⟨rfl, why, rfl⟩ | raced⟩ := Timed.ifOpen_runs guarded
  · obtain ⟨rfl, rfl⟩ := runs_pure_iff.1 told
    exact .inl ⟨0, Nat.zero_le 1, rfl, why, rfl⟩
  · obtain rfl := runs_call_iff.1 raced
    cases word with
    | error why =>
      obtain ⟨rfl, rfl⟩ := runs_pure_iff.1 told
      exact .inl ⟨1, Nat.le_refl 1, rfl, why, rfl⟩
    | ok word =>
      obtain ⟨rfl, rfl⟩ := runs_pure_iff.1 told
      exact .inr ⟨rfl, word, rfl⟩

/-- So many copies were handed over at most, and exactly so many where the last one failed. -/
def Handed (m : Message) (attempts : Nat) (log : List (Exchange (Timed Wire)))
    (result : Except Interruption (Except PublishFailure Unit)) : Prop :=
  ∃ k ≤ attempts, copies log = List.replicate k m ∧ ∀ e, result = .ok (.error e) → k = attempts

/-- **Every retry adds one copy.** -/
theorem retryFrom_handed {policy : RetryPolicy} {left index : Nat}
    {result : Except Interruption (Except PublishFailure Unit)}
    (h : Runs (retryFrom policy ctx PublishFailure.isRetryable (attempt ctx m) left index) log
      result) :
    Handed m (left + 1) log result := by
  -- by induction on the retries that are left, each of which hands over one copy more
  induction left generalizing index log result with
  | zero =>
    obtain ⟨k, le, same, why, rfl⟩ | ⟨same, word, rfl⟩ := attempt_copies h
    · exact ⟨k, le, same, nofun⟩
    · exact ⟨1, Nat.le_refl 1, same, fun _ _ => rfl⟩
  | succ left ih =>
    obtain ⟨first, early, late, rfl, tried, goesOn⟩ := runs_bind_iff.1 h
    rw [Handed, copies_append]
    obtain ⟨k, le, same, why, rfl⟩ | ⟨same, word, rfl⟩ := attempt_copies tried
    · obtain ⟨rfl, rfl⟩ := runs_pure_iff.1 goesOn
      exact ⟨k, by omega, by rw [same]; exact List.append_nil _, nofun⟩
    · by_cases taken : word = .ok .taken
      · subst taken
        obtain ⟨rfl, rfl⟩ := runs_pure_iff.1 goesOn
        exact ⟨1, by omega, by rw [same]; rfl, nofun⟩
      · -- another copy, after a wait
        obtain ⟨e, failed, again, -⟩ := confirmed_of_not_taken m.routingKey taken
        rw [failed] at goesOn
        simp only [again, if_true] at goesOn
        obtain ⟨waited, wait, more, rfl, pausing, goesOn⟩ := runs_bind_iff.1 goesOn
        rw [copies_append, same, copies_pause pausing]
        cases waited with
        | error why =>
          obtain ⟨rfl, rfl⟩ := runs_pure_iff.1 goesOn
          exact ⟨1, by omega, rfl, nofun⟩
        | ok =>
          obtain ⟨k, le, rest, all⟩ := ih goesOn
          refine ⟨k + 1, by omega, ?_, fun e failed => congrArg (· + 1) (all e failed)⟩
          rw [rest, List.replicate_succ]
          rfl

/-- **A publisher that gives up by itself has handed over as many copies as it may.** -/
theorem Publisher.send_copies {p : Publisher} {result : Except PublishFailure Unit}
    (h : Runs (p.send ctx m) log result) :
    ∃ k ≤ p.policy.attempts, copies log = List.replicate k m ∧
      ∀ e, result = .error e → (∀ why, e ≠ .interrupted why) → k = p.policy.attempts := by
  obtain ⟨outcome, sending, _, rfl, retried, told⟩ := runs_bind_iff.1 h
  obtain ⟨k, le, same, all⟩ := retryFrom_handed retried
  have allowed : p.policy.attempts - 1 + 1 = p.policy.attempts := by
    have pos : 1 ≤ p.policy.attempts := Nat.le_max_right _ _
    omega
  rw [allowed] at le all
  cases outcome with
  | error why =>
    obtain ⟨rfl, rfl⟩ := runs_pure_iff.1 told
    rw [List.append_nil]
    refine ⟨k, le, same, ?_⟩
    rintro _ ⟨⟩ genuine
    exact absurd rfl (genuine why)
  | ok outcome =>
    obtain ⟨rfl, rfl⟩ := runs_pure_iff.1 told
    rw [List.append_nil]
    exact ⟨k, le, same, fun e failed _ => all e (congrArg Except.ok failed)⟩

end Broker

end Courier
