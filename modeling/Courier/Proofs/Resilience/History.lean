import Courier.Proofs.Resilience.Truncation
import Courier.Resilience.ContextRun
import Mathlib.Data.ENat.Lattice

/-!
# The history of a context

What happens to a context is written down turn by turn (`ContextRun.history`). What a turn must show
hangs on two times: the earliest cancellation so far, by whichever holder and through whichever
clone (`cancelledBy`), and the deadline. Both may be infinite. `Checked` and `Guarded` say what they
make of a look at the context and of work under it, and `Timed.guarded_law` that all work under a
context is of that kind, whatever it is.

Two times bind a run (`ContextRun.Bound`) if they are what every clone amounts to. An event keeps
them bound, but for a cancellation, which brings the first one forward (`Bound.step`); so every turn
of a history is lawful, and what is once interrupted remains so (`ContextRun.history_law`).
-/

set_option autoImplicit false

namespace Courier

/-- A limit as a time; one that is not there never comes. -/
def due : Option Nat → ℕ∞
  | none => ⊤
  | some t => t

/-! ## One look, one piece of work

What a single check says and how a single piece of guarded work ends, in terms of the earliest
cancellation and the deadline, both of them infinite where there is none.
-/

/-- The result is what a look at the context at a time tells, with a cancellation and a deadline at
these times. -/
structure Checked (cancelled deadline : ℕ∞) (t : Nat) (result : Except Interruption Unit) :
    Prop where
  cancelled_iff : result = .error .cancelled ↔ cancelled ≤ t
  late_iff : result = .error .deadlineExceeded ↔ t < cancelled ∧ deadline ≤ t
  ok_iff : result = .ok () ↔ t < cancelled ∧ t < deadline

/-- This becomes of work that begins at a time and takes so long: it is not begun where a look at
the context tells of an interruption, and ends with what comes first. -/
structure Guarded {α : Type} (cancelled deadline : ℕ∞) (t takes : Nat) (value : α)
    (result : Except Interruption α) (begun : Bool) (till : Nat) : Prop where
  refused : ∀ why, Checked cancelled deadline t (.error why) →
    result = .error why ∧ begun = false ∧ till = t
  begins : Checked cancelled deadline t (.ok ()) →
    begun = true ∧ (till : ℕ∞) = min cancelled (min deadline (t + takes))
  finished_iff : ∀ v, result = .ok v ↔
    v = value ∧ (t + takes : ℕ∞) < cancelled ∧ (t + takes : ℕ∞) < deadline
  interrupted : begun = true → ∀ why, result = .error why →
    (why = .cancelled ↔ cancelled ≤ deadline)

namespace Context

variable {ctx : Context} {now t : Nat}

theorem due_le_iff {limit : Option Nat} : due limit ≤ t ↔ reached limit t = true := by
  cases limit with
  | none => simp [due, reached]
  | some l => simp [due, reached]

theorem check_law (ctx : Context) (t : Nat) :
    Checked (due ctx.cancelAt) (due ctx.deadline) t (ctx.check t) := by
  constructor
  all_goals
    simp only [← not_le, due_le_iff, check]
    cases reached ctx.cancelAt t <;> cases reached ctx.deadline t <;> simp

end Context

namespace Context

variable {ctx : Context} {e t : Nat}

/-- The first limit, if there is one, is the instant at which the context is interrupted. -/
theorem ends_of_min (h : min (due ctx.cancelAt) (due ctx.deadline) = e) :
    ctx.Ends e ∧ (ctx.cancelAt = some e ↔ due ctx.cancelAt ≤ due ctx.deadline) := by
  obtain ⟨deadline, cancelAt⟩ := ctx
  -- with none, one or both of the limits: the first of them is the one that counts
  cases cancelAt with
  | none =>
    cases deadline with
    | none => simp [due] at h
    | some d =>
      obtain rfl : d = e := by simpa [due] using h
      exact ⟨⟨.inr rfl, by simp⟩, by simp [due]⟩
  | some c =>
    cases deadline with
    | none =>
      obtain rfl : c = e := by simpa [due] using h
      exact ⟨⟨.inl rfl, by simp⟩, by simp [due]⟩
    | some d =>
      have least : min c d = e := by
        simp only [due] at h
        rw [← Nat.mono_cast.map_min] at h
        exact Nat.cast_inj.1 h
      refine ⟨⟨?_, ?_⟩, ?_⟩
      · rcases Nat.le_total c d with le | le
        · exact .inl (congrArg some (by omega))
        · exact .inr (congrArg some (by omega))
      · rintro s (⟨⟨⟩⟩ | ⟨⟨⟩⟩) <;> omega
      · simp only [due, Option.some.injEq, Nat.cast_le]
        omega

/-- A race that begins in time ends at the first limit or with the work, whichever comes first, and
the limit wins against work that ends with it. -/
theorem race_law (takes : Nat) (going : ctx.check t = .ok ()) :
    ∃ ending, ctx.race t (some takes) = some ending ∧
      (ending.time : ℕ∞) = min (min (due ctx.cancelAt) (due ctx.deadline)) (t + takes) ∧
      match ending with
      | .finished _ => (t + takes : ℕ∞) < min (due ctx.cancelAt) (due ctx.deadline)
      | .interrupted why _ => min (due ctx.cancelAt) (due ctx.deadline) ≤ t + takes ∧
          (why = .cancelled ↔ due ctx.cancelAt ≤ due ctx.deadline) := by
  -- without limits the work takes as long as it takes; with one it races against the first
  cases first : min (due ctx.cancelAt) (due ctx.deadline) with
  | top =>
    obtain ⟨deadline, cancelAt⟩ := ctx
    obtain ⟨rfl, rfl⟩ : cancelAt = none ∧ deadline = none := by
      cases cancelAt <;> cases deadline <;> simp [due] at first ⊢
    exact ⟨.finished (t + takes), rfl, by simp [Ending.time], by simp [← Nat.cast_add]⟩
  | coe e =>
    obtain ⟨ends, cancelled⟩ := ends_of_min first
    have before : t < e := ends.check_ok_iff.1 going
    rcases ends.race before (some takes) with
      ⟨_, ⟨⟩, inTime, finished⟩ | ⟨late, why, interrupted, told⟩
    · have inTime : (t + takes : ℕ∞) < e := by exact_mod_cast inTime
      exact ⟨_, finished, by simp [Ending.time, min_eq_right inTime.le], inTime⟩
    · have late : (e : ℕ∞) ≤ t + takes := by exact_mod_cast late takes rfl
      exact ⟨_, interrupted, by simp [Ending.time, min_eq_left late], late,
        (ends.cancelled_iff told).trans cancelled⟩

end Context

section

variable {c d : ℕ∞} {t : Nat}

theorem Checked.exists (c d : ℕ∞) (t : Nat) : ∃ result, Checked c d t result := by
  by_cases hc : c ≤ t
  · exact ⟨.error .cancelled, by simp [hc], by simp [hc], by simp [hc]⟩
  · by_cases hd : d ≤ t
    · exact ⟨.error .deadlineExceeded, by simp [hc], by simpa [hd] using hc, by simp [hd]⟩
    · exact ⟨.ok (), by simp [hc], by simp [hd], by simp [not_le.1 hc, not_le.1 hd]⟩

theorem Checked.unique {a b : Except Interruption Unit} (ha : Checked c d t a)
    (hb : Checked c d t b) : a = b := by
  match b with
  | .error .cancelled => exact ha.cancelled_iff.2 (hb.cancelled_iff.1 rfl)
  | .error .deadlineExceeded => exact ha.late_iff.2 (hb.late_iff.1 rfl)
  | .ok () => exact ha.ok_iff.2 (hb.ok_iff.1 rfl)

theorem Checked.reached {why : Interruption} (h : Checked c d t (.error why)) :
    (c ≤ t ∨ d ≤ t) ∧ (why = .cancelled → c ≤ t) := by
  cases why with
  | cancelled => exact ⟨.inl (h.cancelled_iff.1 rfl), fun _ => h.cancelled_iff.1 rfl⟩
  | deadlineExceeded => exact ⟨.inr (h.late_iff.1 rfl).2, nofun⟩

theorem Checked.refuses {result : Except Interruption Unit} (h : Checked c d t result)
    (past : c ≤ t ∨ d ≤ t) : ∃ why, result = .error why ∧ (c ≤ t → why = .cancelled) := by
  by_cases hc : c ≤ t
  · exact ⟨.cancelled, h.cancelled_iff.2 hc, fun _ => rfl⟩
  · exact ⟨.deadlineExceeded, h.late_iff.2 ⟨not_le.1 hc, past.resolve_left hc⟩,
      fun le => absurd le hc⟩

variable {α : Type} {takes till : Nat} {value : α} {begun : Bool}

/-- Work that is refused is not begun. -/
theorem Guarded.of_refused {why : Interruption} (told : Checked c d t (.error why)) :
    Guarded c d t takes value (.error why) false t := by
  constructor
  case refused =>
    intro other right
    obtain ⟨⟩ := right.unique told
    exact ⟨rfl, rfl, rfl⟩
  case begins =>
    intro right
    cases right.unique told
  case finished_iff =>
    intro v
    refine iff_of_false (by rintro ⟨⟩) ?_
    rintro ⟨-, before, inTime⟩
    cases told.ok_iff.2 ⟨lt_of_le_of_lt le_self_add before, lt_of_le_of_lt le_self_add inTime⟩
  case interrupted => exact fun begun => absurd begun Bool.false_ne_true

theorem Checked.not_error (told : Checked c d t (.ok ())) (why : Interruption) :
    ¬ Checked c d t (.error why) := by
  intro right
  cases right.unique told

/-- Work that is done before the first limit. -/
theorem Guarded.of_finished (told : Checked c d t (.ok ()))
    (time : (till : ℕ∞) = min c (min d (t + takes))) (inTime : (t + takes : ℕ∞) < min c d) :
    Guarded c d t takes value (.ok value) true till := by
  constructor
  case refused => exact fun why right => absurd right (told.not_error why)
  case begins => exact fun _ => ⟨rfl, time⟩
  case finished_iff =>
    intro v
    rw [← lt_min_iff, and_iff_left inTime, Except.ok.injEq, eq_comm]
  case interrupted =>
    intro _ why right
    cases right

/-- Work that the first limit ends. -/
theorem Guarded.of_interrupted {why : Interruption} (told : Checked c d t (.ok ()))
    (time : (till : ℕ∞) = min c (min d (t + takes))) (late : min c d ≤ t + takes)
    (first : why = .cancelled ↔ c ≤ d) : Guarded c d t takes value (.error why) true till := by
  constructor
  case refused => exact fun other right => absurd right (told.not_error other)
  case begins => exact fun _ => ⟨rfl, time⟩
  case finished_iff =>
    intro v
    rw [← lt_min_iff]
    refine iff_of_false (by rintro ⟨⟩) ?_
    rintro ⟨-, inTime⟩
    exact absurd inTime (not_lt.2 late)
  case interrupted =>
    rintro - _ ⟨⟩
    exact first

/-- When work is over that was interrupted, a limit has come, and the earliest cancellation if that
is what is told. -/
theorem Guarded.reached {why : Interruption}
    (h : Guarded c d t takes value (.error why) begun till) :
    (c ≤ till ∨ d ≤ till) ∧ (why = .cancelled → c ≤ till) := by
  obtain ⟨looked, right⟩ := Checked.exists c d t
  cases looked with
  | error seen =>
    obtain ⟨⟨⟩, -, rfl⟩ := h.refused seen right
    exact right.reached
  | ok u =>
    obtain ⟨started, time⟩ := h.begins right
    have unfinished : ¬ ((t + takes : ℕ∞) < c ∧ (t + takes : ℕ∞) < d) := fun inTime => by
      cases (h.finished_iff value).2 ⟨rfl, inTime⟩
    have first : (till : ℕ∞) = min c d := by
      rw [time, ← min_assoc, min_eq_left]
      exact not_lt.1 fun inTime => unfinished (lt_min_iff.1 inTime)
    rw [first]
    refine ⟨?_, fun cancelled => le_min le_rfl ((h.interrupted started why rfl).1 cancelled)⟩
    rcases le_total c d with le | le
    · exact .inl (le_min le_rfl le)
    · exact .inr (le_min le le_rfl)

/-- Work is not over before it begins. -/
theorem Guarded.began_le {result : Except Interruption α}
    (h : Guarded c d t takes value result begun till) : t ≤ till := by
  obtain ⟨looked, right⟩ := Checked.exists c d t
  cases looked with
  | error why => exact (h.refused why right).2.2.ge
  | ok u =>
    obtain ⟨before, inTime⟩ := right.ok_iff.1 rfl
    have later : (t : ℕ∞) ≤ till := by
      rw [(h.begins right).2]
      exact le_min before.le (le_min inTime.le le_self_add)
    exact Nat.cast_le.1 later

theorem Guarded.refuses {result : Except Interruption α}
    (h : Guarded c d t takes value result begun till) (past : c ≤ t ∨ d ≤ t) :
    ∃ why, result = .error why ∧ (c ≤ t → why = .cancelled) := by
  obtain ⟨looked, right⟩ := Checked.exists c d t
  obtain ⟨why, rfl, cancelled⟩ := right.refuses past
  exact ⟨why, (h.refused why right).1, cancelled⟩

end

namespace Timed

variable {R : Signature} {α σ : Type} {server : Server R σ} {ctx : Context} {r : R.Op} {w : World σ}

/-- The state that work leaves. Where it is not begun, nothing is changed. -/
def Work.leaves (work : Work σ α) (before : σ) : Except Interruption α → Bool → σ
  | _, false => before
  | .error _, true => work.begun
  | .ok _, true => work.answer.2

/-- **Work under a context** is begun only before its limits, and lasts until the first of them or
until it is done. -/
theorem guarded_law (ctx : Context) {takes : Nat}
    (h : (server.work w.time r w.state).takes = some takes) :
    ∃ result begun till,
      run server (guarded ctx r) w =
        some (result, ⟨till, (server.work w.time r w.state).leaves w.state result begun⟩) ∧
      Guarded (due ctx.cancelAt) (due ctx.deadline) w.time takes
        (server.work w.time r w.state).answer.1 result begun till := by
  have told := ctx.check_law w.time
  cases hc : ctx.check w.time with
  | error why =>
    rw [hc] at told
    have closed : run server (guarded ctx r) w = some (.error why, w) := by
      rw [guarded, ifOpen, run_bind_of_run run_check, hc]
      rfl
    exact ⟨.error why, false, w.time, closed, .of_refused told⟩
  | ok u =>
    cases u
    rw [hc] at told
    obtain ⟨ending, raced, time, won⟩ := Context.race_law takes hc
    have same : ctx.race w.time (server.work w.time r w.state).takes = some ending := h ▸ raced
    have opened : run server (guarded ctx r) w = step server (.race ctx r) w :=
      (run_ifOpen hc).trans (run_call _)
    rw [opened]
    simp only [step, same, Option.map_some]
    -- the race is over at the first limit or with the work; which of the two it was settles the
    -- result
    rw [min_assoc] at time
    cases ending with
    | finished t => exact ⟨_, true, t, rfl, .of_finished told time won⟩
    | interrupted why t => exact ⟨_, true, t, rfl, .of_interrupted told time won.1 won.2⟩

end Timed

/-! ## Turn by turn -/

namespace ContextRun

variable {α : Type}

/-- An event as it was seen: when it came, what it showed, and when it was over. -/
structure Turn (α : Type) where
  began : Nat
  event : ContextEvent α
  sight : ContextSight α
  ended : Nat

namespace Turn

/-- What the turn makes of the earliest cancellation. -/
noncomputable def brings (turn : Turn α) (cancelled : ℕ∞) : ℕ∞ :=
  match turn.event with
  | .act _ .cancel => min cancelled turn.began
  | _ => cancelled

/-- The turn shows what it should when these are the earliest cancellation and the deadline. -/
def Lawful (cancelled deadline : ℕ∞) (turn : Turn α) : Prop :=
  match turn.event with
  | .act _ .check => turn.ended = turn.began ∧
    ∃ result, turn.sight = .checked result ∧ Checked cancelled deadline turn.began result
  | .act _ (.guarded takes value) => ∃ result begun, turn.sight = .worked result begun ∧
    Guarded cancelled deadline turn.began takes value result begun turn.ended
  | .act _ .cancel | .clone _ _ => turn.sight = .quiet ∧ turn.ended = turn.began
  | .advance duration => turn.sight = .quiet ∧ turn.ended = turn.began + duration

/-- The turn tells whether the context is interrupted. -/
def Tells (turn : Turn α) : Prop :=
  match turn.event with
  | .act _ .check | .act _ (.guarded _ _) => True
  | .act _ .cancel | .clone _ _ | .advance _ => False

/-- The interruption that the turn tells of. -/
def interruption? (turn : Turn α) : Option Interruption :=
  match turn.sight with
  | .checked (.error why) | .worked (.error why) _ => some why
  | _ => none

end Turn

/-- The turn of an event. -/
def turn (r : ContextRun) (e : ContextEvent α) : Turn α :=
  ⟨r.now, e, (r.step e).1, (r.step e).2.now⟩

/-- The turns of a run. -/
def history (r : ContextRun) : List (ContextEvent α) → List (Turn α)
  | [] => []
  | e :: rest => r.turn e :: (r.step e).2.history rest

/-- The earliest cancellation, given the one that is to come and the turns so far. -/
noncomputable def cancelledBy (scheduled : ℕ∞) (past : List (Turn α)) : ℕ∞ :=
  past.foldl (fun cancelled turn => turn.brings cancelled) scheduled

/-- When the last of the turns came to its end. -/
def endOf (start : Nat) (past : List (Turn α)) : Nat := past.foldl (fun _ turn => turn.ended) start

/-- What a history from a time on tells, with a cancellation that is to come and a deadline. -/
structure Law (scheduled deadline : ℕ∞) (start : Nat) (history : List (Turn α)) : Prop where
  /-- A turn begins when the one before is over, and shows what the cancellations so far and the
  deadline make of that time. -/
  lawful : ∀ past turn rest, history = past ++ turn :: rest →
    turn.began = endOf start past ∧ turn.Lawful (cancelledBy scheduled past) deadline
  /-- What has been interrupted is so ever after, and what has been cancelled is. -/
  persists : ∀ past turn between later rest,
    history = past ++ turn :: (between ++ later :: rest) →
      ∀ why, turn.interruption? = some why → later.Tells →
        ∃ again, later.interruption? = some again ∧ (why = .cancelled → again = .cancelled)

/-! ## What binds a run

The invariant of the fold: when the context of a run is cancelled and when its deadline is. Only a
cancellation changes it, to the earlier of the two.
-/

/-- Every clone amounts to these two times, and all refer to one token. -/
structure Bound (r : ContextRun) (cancelled deadline : ℕ∞) : Prop where
  shared : ∀ h k, (r.handles h).token = (r.handles k).token
  cancelled : ∀ h, due (r.context h).cancelAt = cancelled
  deadline : ∀ h, due (r.context h).deadline = deadline

variable {r : ContextRun} {c d : ℕ∞} {past rest : List (Turn α)} {events : List (ContextEvent α)}

theorem bound_start (ctx : Context) (now : Nat) :
    (start ctx now).Bound (due ctx.cancelAt) (due ctx.deadline) :=
  ⟨fun _ _ => rfl, fun _ => rfl, fun _ => rfl⟩

theorem due_cancel (ctx : Context) (now : Nat) :
    due (ctx.cancel now).cancelAt = min (due ctx.cancelAt) now := by
  obtain ⟨deadline, cancelAt⟩ := ctx
  cases cancelAt with
  | none => simp [Context.cancel, due]
  | some t => simp [Context.cancel, due, Nat.mono_cast.map_min]

/-- A cancellation through one clone is one of all of them. -/
theorem Bound.cancel (h : r.Bound c d) (holder : Nat) :
    (r.cancel holder).Bound (min c r.now) d where
  shared := h.shared
  cancelled k := by
    have same : (r.handles k).token = (r.handles holder).token := h.shared k holder
    simp only [ContextRun.cancel, context, same, if_true]
    rw [← h.cancelled holder]
    exact due_cancel _ _
  deadline := h.deadline

/-- Work through any clone is the work that the two times allow. -/
theorem act_guarded (h : r.Bound c d) (holder takes : Nat) (value : α) :
    ∃ result begun till,
      r.act holder (.guarded takes value) = (.worked result begun, { r with now := till }) ∧
      Guarded c d r.now takes value result begun till := by
  let world : Timed.World Bool := ⟨r.now, false⟩
  have lasts : (Chore.server.work world.time (takes, value) world.state).takes = some takes := rfl
  obtain ⟨result, begun, till, ran, law⟩ :=
    Timed.guarded_law (R := Chore α) (r.context holder) lasts
  rw [h.cancelled holder, h.deadline holder] at law
  refine ⟨result, begun, till, ?_, law⟩
  simp only [act]
  rw [ran]
  cases result <;> cases begun <;> rfl

/-- An event shows what it should, and leaves the run bound by what it makes of the two times. -/
theorem Bound.step (h : r.Bound c d) (e : ContextEvent α) :
    (r.turn e).Lawful c d ∧ (r.step e).2.Bound ((r.turn e).brings c) d := by
  cases e with
  | act holder s =>
    cases s with
    | check =>
      have law := (r.context holder).check_law r.now
      rw [h.cancelled holder, h.deadline holder] at law
      exact ⟨⟨rfl, _, rfl, law⟩, h⟩
    | cancel => exact ⟨⟨rfl, rfl⟩, h.cancel holder⟩
    | guarded takes value =>
      obtain ⟨result, begun, till, done, law⟩ := act_guarded h holder takes value
      have stepped : r.step (.act holder (.guarded takes value)) =
          (.worked result begun, { r with now := till }) := done
      rw [turn, stepped]
      exact ⟨⟨result, begun, rfl, law⟩, h.shared, h.cancelled, h.deadline⟩
  | clone source holder =>
    -- a clone is one that was there before, so that nobody amounts to anything new
    have copied (k : Nat) : ∃ l, (r.step (.clone source holder : ContextEvent α)).2.handles k =
        r.handles l := by
      by_cases own : k = holder
      · exact ⟨source, if_pos own⟩
      · exact ⟨k, if_neg own⟩
    refine ⟨⟨rfl, rfl⟩, fun k l => ?_, fun k => ?_, fun k => ?_⟩
    · obtain ⟨k', hk⟩ := copied k
      obtain ⟨l', hl⟩ := copied l
      rw [hk, hl]
      exact h.shared k' l'
    · obtain ⟨k', hk⟩ := copied k
      rw [context, hk]
      exact h.cancelled k'
    · obtain ⟨k', hk⟩ := copied k
      rw [context, hk]
      exact h.deadline k'
  | advance duration => exact ⟨⟨rfl, rfl⟩, h.shared, h.cancelled, h.deadline⟩

/-! ## What a history tells

The cancellations so far can only move the limit forward, so what a turn was refused for stays a
reason to refuse every later one.
-/

theorem brings_le (turn : Turn α) (c : ℕ∞) : turn.brings c ≤ c := by
  unfold Turn.brings
  split
  · exact min_le_left _ _
  · exact le_rfl

theorem cancelledBy_le (past : List (Turn α)) (c : ℕ∞) : cancelledBy c past ≤ c := by
  induction past generalizing c with
  | nil => exact le_rfl
  | cons turn past ih => exact (ih _).trans (brings_le turn c)

/-- No turn is over before it begins. -/
theorem Turn.Lawful.began_le {turn : Turn α} (h : turn.Lawful c d) : turn.began ≤ turn.ended := by
  unfold Turn.Lawful at h
  split at h
  · exact h.1.ge
  · obtain ⟨result, begun, -, law⟩ := h
    exact law.began_le
  · exact h.2.ge
  · exact h.2.ge
  · rw [h.2]
    exact Nat.le_add_right _ _

/-- What a turn has told of has come when it is over. -/
theorem Turn.Lawful.reached {turn : Turn α} {why : Interruption} (h : turn.Lawful c d)
    (told : turn.interruption? = some why) :
    (c ≤ turn.ended ∨ d ≤ turn.ended) ∧ (why = .cancelled → c ≤ turn.ended) := by
  unfold Turn.Lawful at h
  unfold Turn.interruption? at told
  split at h
  · obtain ⟨time, result, seen, law⟩ := h
    rw [seen] at told
    cases result with
    | error other =>
      obtain ⟨⟩ := told
      rw [time]
      exact law.reached
    | ok => cases told
  · obtain ⟨result, begun, seen, law⟩ := h
    rw [seen] at told
    cases result with
    | error other =>
      obtain ⟨⟩ := told
      exact law.reached
    | ok => cases told
  all_goals
    rw [h.1] at told
    cases told

/-- Once one of the two times has come, every turn tells of it. -/
theorem Turn.Lawful.refuses {turn : Turn α} (h : turn.Lawful c d) (tells : turn.Tells)
    (past : c ≤ turn.began ∨ d ≤ turn.began) :
    ∃ why, turn.interruption? = some why ∧ (c ≤ turn.began → why = .cancelled) := by
  unfold Turn.Lawful at h
  unfold Turn.Tells at tells
  unfold Turn.interruption?
  split at h
  · obtain ⟨-, result, seen, law⟩ := h
    obtain ⟨why, rfl, cancelled⟩ := law.refuses past
    exact ⟨why, by rw [seen], cancelled⟩
  · obtain ⟨result, begun, seen, law⟩ := h
    obtain ⟨why, rfl, cancelled⟩ := law.refuses past
    exact ⟨why, by rw [seen], cancelled⟩
  -- the other events tell nothing, so nothing is claimed of them
  all_goals
    rename_i found
    rw [found] at tells
    exact tells.elim

/-- Where a turn was, there was a run, bound by what the turns before it have made of the times. -/
theorem Bound.split {turn : Turn α} (h : r.Bound c d)
    (hs : r.history events = past ++ turn :: rest) :
    ∃ (r' : ContextRun) (e : ContextEvent α) (more : List (ContextEvent α)),
      r'.Bound (cancelledBy c past) d ∧ r'.now = endOf r.now past ∧ r.now ≤ r'.now ∧
        turn = r'.turn e ∧ rest = (r'.step e).2.history more := by
  -- by induction on the turns before: each is a step, which keeps the run bound
  induction past generalizing r c events with
  | nil =>
    cases events with
    | nil => cases hs
    | cons e more =>
      obtain ⟨rfl, rfl⟩ := List.cons.inj hs
      exact ⟨r, e, more, h, rfl, Nat.le_refl _, rfl, rfl⟩
  | cons first past ih =>
    cases events with
    | nil => cases hs
    | cons e more =>
      obtain ⟨rfl, left⟩ := List.cons.inj hs
      obtain ⟨lawful, bound⟩ := h.step e
      obtain ⟨r', e', more', bound', now, later, found, left⟩ := ih bound left
      exact ⟨r', e', more', bound', now, Nat.le_trans lawful.began_le later, found, left⟩

/-- The history of a bound run is lawful. -/
theorem Bound.law (h : r.Bound c d) (events : List (ContextEvent α)) :
    Law c d r.now (r.history events) := by
  constructor
  case lawful =>
    intro past turn rest hs
    obtain ⟨r', e, more, bound, now, -, rfl, -⟩ := h.split hs
    exact ⟨now, (bound.step e).1⟩
  case persists =>
    intro past turn between later rest hs why told tells
    obtain ⟨r', e, more, bound, -, -, rfl, left⟩ := h.split hs
    obtain ⟨lawful, bound⟩ := bound.step e
    obtain ⟨r'', e', -, bound', -, after, rfl, -⟩ := bound.split left.symm
    -- what has come when the turn is over has come when the later one begins
    have come {x : ℕ∞} (hx : x ≤ (r'.turn e).ended) : x ≤ (r''.turn e').began :=
      hx.trans (Nat.cast_le.2 after)
    have earlier : cancelledBy ((r'.turn e).brings (cancelledBy c past)) between ≤
        cancelledBy c past := (cancelledBy_le _ _).trans (brings_le _ _)
    obtain ⟨reached, cancelled⟩ := lawful.reached told
    obtain ⟨again, tells, first⟩ := (bound'.step e').1.refuses tells
      (reached.imp (fun hc => earlier.trans (come hc)) come)
    exact ⟨again, tells, fun hw => first (earlier.trans (come (cancelled hw)))⟩

theorem history_sights (r : ContextRun) (events : List (ContextEvent α)) :
    (r.history events).map (·.sight) = (r.run events).1 := by
  induction events generalizing r with
  | nil => rfl
  | cons e rest ih => exact congrArg _ (ih _)

/-- **The meaning of a context over any history**: of looks, cancellations and work, through the
context or a clone of it. Where two times are the same, a cancellation is before the deadline, and
both before the end of work. -/
theorem history_law (ctx : Context) (now : Nat) (events : List (ContextEvent α)) :
    ((start ctx now).history events).map (·.sight) = ((start ctx now).run events).1 ∧
      Law (due ctx.cancelAt) (due ctx.deadline) now ((start ctx now).history events) :=
  ⟨history_sights _ events, (bound_start ctx now).law events⟩

end ContextRun

end Courier
