import Courier.Proofs.Flow.Rules
import Courier.Resilience.Trial

/-!
# An interruption only truncates

Two runs of one retried request are compared: one under a context that is interrupted at some
instant, and one that nothing interrupts. Up to that instant they are the same run; what the second
one does from then on the first does not do, and is interrupted there.

`Truncates` says so of any two programs. It holds of a wait and of a request where they begin in
time, and it is kept by doing one thing after the other, since a run that is cut in its first part
never comes to the second. The attempts of `retry` follow by induction on those that are left.
-/

set_option autoImplicit false

namespace Courier

namespace Timed

variable {R : Signature} {α β ε σ : Type} {server : Server R σ} {ctx : Context} {t : Nat}
  {w : World σ}

/-! ## What is begun under a context

A log keeps more than the statement needs. What counts here is when which request was begun.
-/

/-- The request that an operation races against its context. -/
def raced? : Nat × (Timed R).Op → Option (Nat × R.Op)
  | (t, .race _ r) => some (t, r)
  | (_, .now) | (_, .plain _) | (_, .pause _ _ _) => none

/-- The requests that a run begins under a context, and when. -/
def raced (server : Server R σ) (p : Flow (Timed R) α) (w : World σ) : List (Nat × R.Op) :=
  (begun server p w).filterMap raced?

theorem raced_bind_of_run {p : Flow (Timed R) α} {f : α → Flow (Timed R) β} {a : α} {w' : World σ}
    (h : run server p w = some (a, w')) :
    raced server (p >>= f) w = raced server p w ++ raced server (f a) w' := by
  rw [raced, begun_bind, h, List.filterMap_append]
  rfl

theorem raced_bind_of_none {p : Flow (Timed R) α} {f : α → Flow (Timed R) β}
    (h : run server p w = none) : raced server (p >>= f) w = raced server p w := by
  rw [raced, begun_bind, h, List.append_nil]
  rfl

theorem raced_later {p : Flow (Timed R) α} {x : Nat × R.Op} (h : x ∈ raced server p w) :
    w.time ≤ x.1 := by
  obtain ⟨⟨s, op⟩, hb, hx⟩ := List.mem_filterMap.1 h
  have later : w.time ≤ s := (keeps_iff.1 (keeps_later p (Nat.le_refl _))).1 _ hb
  cases op <;> cases hx
  exact later

/-- From the interruption on, nothing of what is begun has to be kept. -/
theorem filter_raced_late {p : Flow (Timed R) α} (late : t ≤ w.time) :
    (raced server p w).filter (·.1 < t) = [] := by
  apply List.filter_eq_nil_iff.2
  intro x hx
  have later := raced_later hx
  simp only [decide_eq_true_eq]
  omega

/-! ## Truncation

`Truncates` relates a program under a context with the same program under none. It is kept by
sequencing (`bind`), so it is enough to show it of the parts.
-/

/-- From one world on, `cut` is what remains of `whole` when everything is interrupted at `t`. -/
structure Truncates (server : Server R σ) (ctx : Context) (t : Nat)
    (cut whole : Flow (Timed R) (Except Interruption α)) (w : World σ) : Prop where
  raced : raced server cut w = (raced server whole w).filter (·.1 < t)
  early : ∀ result w', run server whole w = some (result, w') → w'.time < t →
    run server cut w = some (result, w')
  late : (∀ result w', run server whole w = some (result, w') → t ≤ w'.time) →
    ∃ why w', run server cut w = some (.error why, w') ∧ w'.time = max t w.time ∧
      ctx.check w'.time = .error why

section

variable {cut whole : Flow (Timed R) (Except Interruption α)}

/-- A result that is there before the interruption stays. -/
theorem truncates_return (result : Except Interruption α) (before : w.time < t) :
    Truncates server ctx t (return result) (return result) w := by
  constructor
  case raced => rfl
  case early => exact fun _ _ h _ => h
  case late =>
    intro h
    have late := h result w rfl
    omega

/-- A program that gives up at once is all that remains from the interruption on. -/
theorem truncates_closed {why : Interruption} (late : t ≤ w.time)
    (closed : ctx.check w.time = .error why) (silent : raced server cut w = [])
    (gone : run server cut w = some (.error why, w)) : Truncates server ctx t cut whole w := by
  constructor
  case raced => rw [silent, filter_raced_late late]
  case early =>
    intro result w' h before
    have later := run_time h
    omega
  case late =>
    intro _
    exact ⟨why, w, gone, (Nat.max_eq_right late).symm, closed⟩

end

section

variable {cut whole : Flow (Timed R) (Except Interruption α)}
  {f g : Except Interruption α → Flow (Timed R) (Except Interruption β)}

/-- What is cut in its first part does nothing in the second. -/
theorem bind_of_interrupted {why : Interruption} {w' : World σ}
    (gone : ∀ why, f (.error why) = return .error why)
    (h : run server cut w = some (.error why, w')) :
    raced server (cut >>= f) w = raced server cut w ∧
      run server (cut >>= f) w = some (.error why, w') := by
  constructor
  · rw [raced_bind_of_run h, gone]
    exact List.append_nil _
  · rw [run_bind_of_run h, gone]
    rfl

/-- One thing after the other is truncated as both are, if an interruption of the first is passed
on. -/
theorem Truncates.bind (first : Truncates server ctx t cut whole w)
    (gone : ∀ why, f (.error why) = return .error why)
    (next : ∀ result w', run server whole w = some (result, w') → w'.time < t →
      Truncates server ctx t (f result) (g result) w') :
    Truncates server ctx t (cut >>= f) (whole >>= g) w := by
  cases hw : run server whole w with
  | none =>
    -- the first part never ends by itself
    obtain ⟨why, w', hr, ht, hc⟩ := first.late fun _ _ h => by cases hw.symm.trans h
    obtain ⟨silent, hg⟩ := bind_of_interrupted gone hr
    constructor
    case raced => rw [silent, raced_bind_of_none hw, first.raced]
    case early =>
      intro result w'' h
      cases (run_bind_of_none hw).symm.trans h
    case late => exact fun _ => ⟨why, w', hg, ht, hc⟩
  | some found =>
    obtain ⟨result, v⟩ := found
    have hb : run server (whole >>= g) w = run server (g result) v := run_bind_of_run hw
    -- the second part begins before the interruption, or it is never begun
    by_cases before : v.time < t
    · have hr := first.early result v hw before
      have rest := next result v hw before
      have hc : run server (cut >>= f) w = run server (f result) v := run_bind_of_run hr
      constructor
      case raced =>
        rw [raced_bind_of_run hr, raced_bind_of_run hw, List.filter_append, first.raced, rest.raced]
      case early =>
        rw [hb, hc]
        exact rest.early
      case late =>
        rw [hb, hc]
        intro h
        obtain ⟨why, w', hi, ht, hk⟩ := rest.late h
        have later := run_time hw
        exact ⟨why, w', hi, by omega, hk⟩
    · have late : t ≤ v.time := Nat.le_of_not_lt before
      obtain ⟨why, w', hr, ht, hc⟩ := first.late fun _ _ h => by
        cases hw.symm.trans h
        exact late
      obtain ⟨silent, hg⟩ := bind_of_interrupted gone hr
      constructor
      case raced =>
        rw [silent, raced_bind_of_run hw, List.filter_append, first.raced, filter_raced_late late,
          List.append_nil]
      case early =>
        rw [hb]
        intro result w'' h inTime
        have later := run_time h
        omega
      case late => exact fun _ => ⟨why, w', hg, ht, hc⟩

end

/-! ## Waits and requests

The two parts a retry is made of. Both begin with a look at the context, which settles the case that
the time is over already.
-/

section

variable {work truncated : Flow (Timed R) (Except Interruption α)} {r : R.Op}

theorem run_check : run server (check ctx) w = some (ctx.check w.time, w) := rfl

theorem run_ifOpen (h : ctx.check w.time = .ok ()) :
    run server (ifOpen ctx work) w = run server work w := by
  rw [ifOpen, run_bind_of_run run_check, h]

theorem raced_ifOpen (h : ctx.check w.time = .ok ()) :
    raced server (ifOpen ctx work) w = raced server work w := by
  rw [ifOpen, raced_bind_of_run run_check, h]
  rfl

/-- Work that is not begun under an interrupted context has to be truncated only if it begins. -/
theorem truncates_ifOpen (ends : ctx.Ends t)
    (inTime : w.time < t → Truncates server ctx t truncated work w) :
    Truncates server ctx t (ifOpen ctx truncated) (ifOpen .background work) w := by
  cases hc : ctx.check w.time with
  | ok =>
    have h := inTime (ends.check_ok_iff.1 hc)
    have open' : Context.background.check w.time = .ok () := rfl
    constructor
    case raced => rw [raced_ifOpen hc, raced_ifOpen open', h.raced]
    case early =>
      rw [run_ifOpen hc, run_ifOpen open']
      exact h.early
    case late =>
      rw [run_ifOpen hc, run_ifOpen open']
      exact h.late
  | error why =>
    have late : t ≤ w.time := by
      apply Nat.le_of_not_lt
      intro before
      rw [ends.check_ok_iff.2 before] at hc
      cases hc
    apply truncates_closed late hc
    · rw [ifOpen, raced_bind_of_run run_check, hc]
      rfl
    · rw [ifOpen, run_bind_of_run run_check, hc]
      rfl

/-- Work that begins in time and is raced against its context, whatever its endings come to. -/
theorem truncates_raced {takes : Option Nat} {outcome : Ending → Except Interruption α × World σ}
    (ends : ctx.Ends t) (before : w.time < t)
    (finished : ∀ s, (outcome (.finished s)).2.time = s)
    (interrupted : ∀ why s, ∃ x, outcome (.interrupted why s) = (.error why, ⟨s, x⟩))
    (silent : raced server truncated w = (raced server work w).filter (·.1 < t))
    (cut : run server truncated w = (ctx.race w.time takes).map outcome)
    (whole : run server work w = (Context.background.race w.time takes).map outcome) :
    Truncates server ctx t truncated work w := by
  rw [Context.race_background] at whole
  -- either the work wins in both races, or it loses the one that has a limit
  rcases ends.race before takes with ⟨d, rfl, inTime, hr⟩ | ⟨late, why, hr, hc⟩
  · have same : run server truncated w = run server work w := by
      rw [cut, whole, hr]
      rfl
    refine ⟨silent, fun _ _ h _ => same.trans h, fun h => ?_⟩
    have later := h _ _ whole
    rw [finished] at later
    omega
  · obtain ⟨x, hx⟩ := interrupted why t
    refine ⟨silent, ?_, ?_⟩
    · intro result w' h before'
      rw [whole] at h
      obtain ⟨_, hd, ho⟩ := Option.map_eq_some_iff.1 h
      obtain ⟨d, rfl, rfl⟩ := Option.map_eq_some_iff.1 hd
      have ht : w'.time = w.time + d := by
        rw [← finished (w.time + d), ho]
      have hl := late d rfl
      omega
    · intro _
      refine ⟨why, ⟨t, x⟩, ?_, (Nat.max_eq_left (Nat.le_of_lt before)).symm, hc⟩
      rw [cut, hr, Option.map_some, hx]

theorem raced_call (op : (Timed R).Op) :
    raced server (Flow.call (S := Timed R) op) w = (raced? (w.time, op)).toList := by
  have asked : begun server (Flow.call (S := Timed R) op) w = [(w.time, op)] := by
    simp only [Flow.call, begun]
    cases step server op w <;> rfl
  rw [raced, asked, List.filterMap_cons]
  cases raced? (w.time, op) <;> rfl

theorem raced_race : raced server (race ctx r) w = [(w.time, r)] := raced_call _

theorem raced_wait {delay : Nat} {jitter : Bool} :
    raced server (Flow.call (S := Timed R) (Op.pause ctx delay jitter)) w = [] := raced_call _

theorem run_call (op : (Timed R).Op) :
    run server (Flow.call (S := Timed R) op) w = step server op w := by
  simp only [Flow.call, run, Flow.run]
  cases step server op w <;> rfl

/-- A guarded request is truncated: it is not begun, cut off at the end of the context, or answered
as it was. -/
theorem truncates_guarded (ends : ctx.Ends t) (w : World σ) :
    Truncates server ctx t (guarded ctx r) (guarded .background r) w := by
  apply truncates_ifOpen ends
  intro before
  apply truncates_raced ends before _ _ _ (run_call _) (run_call _)
  · intro s
    rfl
  · intro why s
    exact ⟨_, rfl⟩
  · rw [raced_race, raced_race]
    exact (List.filter_eq_self.2 (by simpa using before)).symm

theorem truncates_pause (ends : ctx.Ends t) (delay : Nat) (jitter : Bool) (w : World σ) :
    Truncates server ctx t (pause ctx delay jitter) (pause .background delay jitter) w := by
  apply truncates_ifOpen ends
  intro before
  apply truncates_raced ends before _ _ _ (run_call _) (run_call _)
  · intro s
    rfl
  · intro why s
    exact ⟨_, rfl⟩
  · exact raced_wait.trans (congrArg (List.filter _) raced_wait).symm

end

/-! ## Retries

By induction on the attempts that are left. The truncation of one round is put together by
`Truncates.bind`, once for the attempt and once for the wait behind it.
-/

section

variable {policy : RetryPolicy} {retryable : ε → Bool}
  {attempt whole : Flow (Timed R) (Except Interruption (Except ε α))}

/-- What is truncated is so when it is retried. -/
theorem truncates_retryFrom (ends : ctx.Ends t)
    (attempted : ∀ w, Truncates server ctx t attempt whole w) (left index : Nat) (w : World σ) :
    Truncates server ctx t (retryFrom policy ctx retryable attempt left index)
      (retryFrom policy .background retryable whole left index) w := by
  -- by induction on the attempts that are left, in any world: each attempt that is made in time is
  -- followed by a wait that is truncated, and that by the rest
  induction left generalizing index w with
  | zero => exact attempted w
  | succ left ih =>
    apply (attempted w).bind
    · intro why
      rfl
    · intro result w' _ before
      rcases result with why | (e | a)
      · exact truncates_return _ before
      · dsimp only
        split
        · -- another attempt, after a wait
          apply (truncates_pause ends _ _ w').bind
          · intro why
            rfl
          · intro waited v _ before'
            rcases waited with why | _
            · exact truncates_return _ before'
            · exact ih (index + 1) v
        · exact truncates_return _ before
      · exact truncates_return _ before

end

/-- A request under a context, and what is read from its answer. -/
def tried (ctx : Context) (r : R.Op) (read : R.Answer r → Except ε α) :
    Flow (Timed R) (Except Interruption (Except ε α)) := do
  match ← guarded ctx r with
  | .error i => return .error i
  | .ok x => return .ok (read x)

/-- Reading an answer changes nothing about that. -/
theorem truncates_tried (ends : ctx.Ends t) (r : R.Op) (read : R.Answer r → Except ε α)
    (w : World σ) : Truncates server ctx t (tried ctx r read) (tried .background r read) w := by
  apply (truncates_guarded ends w).bind
  · intro why
    rfl
  · intro answer w' _ before
    cases answer with
    | error why => exact truncates_return _ before
    | ok x => exact truncates_return _ before

/-- What an interruption at `t` makes of a run that begins in a world. -/
structure Truncation (server : Server R σ) (ctx : Context) (t : Nat)
    (cut whole : Flow (Timed R) (Except Interruption α)) (w : World σ) : Prop where
  /-- What is begun is what would have been begun before `t`, and it is begun when it would have
  been. -/
  begun : raced server cut w = (raced server whole w).filter (·.1 < t)
  none_late : ∀ x ∈ raced server cut w, x.1 < t
  /-- A run that would have ended before `t` does so. -/
  undisturbed : ∀ result w', run server whole w = some (result, w') → w'.time < t →
    run server cut w = some (result, w')
  /-- Any other run, one without an end among them, is interrupted at `t`, or at once if that has
  passed; the interruption is what the context says then, which is the limit that came first unless
  both had passed before. -/
  interrupted : (∀ result w', run server whole w = some (result, w') → t ≤ w'.time) →
    ∃ why w', run server cut w = some (.error why, w') ∧ w'.time = max t w.time ∧
      ctx.check w'.time = .error why ∧ (w.time ≤ t → (why = .cancelled ↔ ctx.cancelAt = some t))
  ends : ∃ result w', run server cut w = some (result, w') ∧ w'.time ≤ max t w.time

/-- What is truncated is as the law says. -/
theorem Truncates.truncation {cut whole : Flow (Timed R) (Except Interruption α)}
    (ends : ctx.Ends t) (h : Truncates server ctx t cut whole w) :
    Truncation server ctx t cut whole w := by
  constructor
  case begun => exact h.raced
  case none_late =>
    intro x hx
    rw [h.raced] at hx
    exact of_decide_eq_true (List.mem_filter.1 hx).2
  case undisturbed => exact h.early
  case interrupted =>
    intro late
    obtain ⟨why, w', hr, ht, hc⟩ := h.late late
    refine ⟨why, w', hr, ht, hc, fun before => ?_⟩
    rw [ht, Nat.max_eq_left before] at hc
    exact ends.cancelled_iff hc
  case ends =>
    by_cases inTime : ∃ result w', run server whole w = some (result, w') ∧ w'.time < t
    -- it ended before `t` by itself, or the truncation ended it
    · obtain ⟨result, w', hr, ht⟩ := inTime
      exact ⟨result, w', h.early result w' hr ht, by omega⟩
    · obtain ⟨why, w', hr, ht, -⟩ := h.late fun result w' hr =>
        Nat.le_of_not_lt fun ht => inTime ⟨result, w', hr, ht⟩
      exact ⟨.error why, w', hr, Nat.le_of_eq ht⟩

/-- **An interruption only truncates a retried request.** -/
theorem retry_truncated {R : Signature} {ε α σ : Type} {ctx : Context} {t : Nat}
    (ends : ctx.Ends t) (server : Server R σ) (policy : RetryPolicy) (retryable : ε → Bool)
    (r : R.Op) (read : R.Answer r → Except ε α) (w : World σ) :
    Truncation server ctx t (retry policy ctx retryable (tried ctx r read))
      (retry policy .background retryable (tried .background r read)) w :=
  (truncates_retryFrom ends (truncates_tried ends r read) _ 0 w).truncation ends

/-- A deadline in the second attempt. -/
theorem retry_truncated_second_attempt :
    let ctx : Context := { deadline := some 25 }
    let policy : RetryPolicy := { initialDelay := 10, jitter := false }
    let script : Script String Nat := ⟨⟨10, .error "down"⟩, [⟨10, .ok 7⟩]⟩
    let call (ctx : Context) := retry policy ctx (fun _ => true)
      (tried (R := Trial.Attempts String Nat) ctx .make id)
    let world : World (Trial.State String Nat) := ⟨0, { script }⟩
    ctx.Ends 25 ∧ Truncation Trial.server ctx 25 (call ctx) (call .background) world ∧
      (raced Trial.server (call .background) world).map (·.1) = [0, 20] ∧
      (run Trial.server (call .background) world).map (·.2.time) = some 30 := by
  intro ctx policy script call world
  have ends : ctx.Ends 25 := by
    refine ⟨.inr rfl, ?_⟩
    rintro s (hs | hs) <;> cases hs
    exact Nat.le_refl _
  refine ⟨ends, retry_truncated ends _ policy _ _ _ world, ?_, ?_⟩
  · decide +kernel
  · decide +kernel

end Timed

end Courier
