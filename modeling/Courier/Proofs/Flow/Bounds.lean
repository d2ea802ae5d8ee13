import Courier.Proofs.Flow.Rules
import Courier.Resilience.Retry

/-!
# Work within bounds

A program keeps within a context if everything it begins outside is begun under that context, and
only while it is not interrupted. `Timed.Bounded` says so along the text of a program and knows
nothing but the time; some questions may stay inside and are answered at once, as those to a
breaker are. It is kept by a guarded request, by a wait, and by whatever is retried that keeps it.

The rule is about the program alone: no server is fixed. That whatever it bounds also ends, on any
server, is shown in `Courier.Proofs.Flow.Served`.
-/

set_option autoImplicit false

namespace Courier.Timed

variable {R : Signature} {α ε : Type} {ctx : Context} {inner outer : R.Op → Prop} {t : Nat}

/-- What may come of a wait under a context. -/
structure Awaits (ctx : Context) (k : Except Interruption α → Nat → Prop) : Prop where
  answered : ∀ x t, ctx.check t = .ok () → k (.ok x) t
  interrupted : ∀ why t, ctx.check t = .error why → k (.error why) t

/-- The rule of work within a context: what stays inside, and what may be begun outside. -/
def bounded (ctx : Context) (inner outer : R.Op → Prop) : Flow.Rule (Timed R) Nat := fun op t k =>
  match op with
  | .now => k t t
  | .plain r => inner r ∧ ∀ x, k x t
  | .race c r => c = ctx ∧ outer r ∧ ctx.check t = .ok () ∧ Awaits ctx k
  | .pause c _ _ => c = ctx ∧ Awaits ctx k

/-- The program keeps within a context, from a time on, and its end is as wanted. -/
abbrev Bounded (ctx : Context) (inner outer : R.Op → Prop) (p : Flow (Timed R) α) (t : Nat)
    (post : α → Nat → Prop) : Prop := p.Holds (bounded ctx inner outer) t post

theorem Awaits.mono {k k' : Except Interruption α → Nat → Prop} (h : Awaits ctx k)
    (le : ∀ x t, k x t → k' x t) : Awaits ctx k' :=
  ⟨fun x t hc => le _ _ (h.answered x t hc), fun why t hc => le _ _ (h.interrupted why t hc)⟩

theorem bounded_mono : (bounded (R := R) ctx inner outer).Mono := by
  intro op t k k' hk h
  cases op with
  | now => exact hk _ _ h
  | plain r => exact ⟨h.1, fun x => hk _ _ (h.2 x)⟩
  | race c r => exact ⟨h.1, h.2.1, h.2.2.1, h.2.2.2.mono hk⟩
  | pause c delay jitter => exact ⟨h.1, h.2.mono hk⟩

/-- A rule may be kept more strictly than it asks. -/
theorem bounded_widen {inner' outer' : R.Op → Prop} (hi : ∀ r, inner r → inner' r)
    (ho : ∀ r, outer r → outer' r) {p : Flow (Timed R) α} {post : α → Nat → Prop}
    (h : Bounded ctx inner outer p t post) : Bounded ctx inner' outer' p t post := by
  refine h.transfer bounded_mono id fun op t k hk => ?_
  cases op with
  | now => exact hk
  | plain r => exact ⟨hi r hk.1, hk.2⟩
  | race c r => exact ⟨hk.1, ho r hk.2.1, hk.2.2⟩
  | pause c delay jitter => exact hk

theorem bounded_now_iff {post : Nat → Nat → Prop} :
    Bounded ctx inner outer (now (R := R)) t post ↔ post t t := .rfl

/-- Work that is begun only in an open context keeps within it if it does so from an open instant
on. -/
theorem bounded_ifOpen {work : Flow (Timed R) (Except Interruption α)}
    {post : Except Interruption α → Nat → Prop}
    (interrupted : ∀ why t, ctx.check t = .error why → post (.error why) t)
    (opened : ctx.check t = .ok () → Bounded ctx inner outer work t post) :
    Bounded ctx inner outer (ifOpen ctx work) t post := by
  rw [Bounded, ifOpen, check, Flow.holds_bind_iff, Flow.holds_bind_iff]
  refine bounded_now_iff.2 ?_
  cases hc : ctx.check t with
  | error why => exact interrupted why t hc
  | ok => exact opened hc

theorem bounded_guarded {r : R.Op} (hr : outer r)
    {post : Except Interruption (R.Answer r) → Nat → Prop} (awaits : Awaits ctx post) :
    Bounded ctx inner outer (guarded ctx r) t post :=
  bounded_ifOpen awaits.interrupted fun running => ⟨rfl, hr, running, awaits⟩

theorem bounded_pause {delay : Nat} {jitter : Bool} {post : Except Interruption Unit → Nat → Prop}
    (awaits : Awaits ctx post) : Bounded ctx inner outer (pause ctx delay jitter) t post :=
  bounded_ifOpen awaits.interrupted fun _ => ⟨rfl, awaits⟩

/-- Whatever keeps within a context does so when it is retried. -/
theorem bounded_retryFrom {policy : RetryPolicy} {retryable : ε → Bool}
    {attempt : Flow (Timed R) (Except Interruption (Except ε α))}
    {post : Except Interruption (Except ε α) → Nat → Prop}
    (interrupted : ∀ why t, ctx.check t = .error why → post (.error why) t)
    (attempted : ∀ t, Bounded ctx inner outer attempt t post) (left index : Nat) :
    Bounded ctx inner outer (retryFrom policy ctx retryable attempt left index) t post := by
  -- by induction on the attempts that are left; the time is that at which the next one is called
  -- for
  induction left generalizing index t with
  | zero => exact attempted t
  | succ left ih =>
    refine Flow.holds_bind_iff.2 ((attempted t).mono bounded_mono fun result t hp => ?_)
    rcases result with why | (e | a)
    · exact hp
    · dsimp only
      split
      · -- another attempt, after a wait
        exact Flow.holds_bind_iff.2 (bounded_pause ⟨fun _ _ _ => ih _, interrupted⟩)
      · exact hp
    · exact hp

theorem bounded_retry {policy : RetryPolicy} {retryable : ε → Bool}
    {attempt : Flow (Timed R) (Except Interruption (Except ε α))}
    {post : Except Interruption (Except ε α) → Nat → Prop}
    (interrupted : ∀ why t, ctx.check t = .error why → post (.error why) t)
    (attempted : ∀ t, Bounded ctx inner outer attempt t post) :
    Bounded ctx inner outer (retry policy ctx retryable attempt) t post :=
  bounded_retryFrom interrupted attempted _ _

end Courier.Timed
