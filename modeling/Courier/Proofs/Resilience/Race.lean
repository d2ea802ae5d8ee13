import Courier.Resilience.Context

/-!
# How a race ends

Work under a context races against its limits. `Context.race` picks the earliest of several endings;
here is what the winner says about `Context.check`: work that is finished was finished while work
might still go on, and an interruption comes at a time at which it may not, for the reason that
`check` gives then.

The first limit of a context is one instant, `Ends`, and everything about a race can be said with
it: before that instant work may begin, and whatever is not finished before it is interrupted just
then.
-/

set_option autoImplicit false

namespace Courier

namespace Context

variable {ctx : Context} {now t : Nat} {why : Interruption} {takes : Option Nat}

/-- The limit lies in the future. -/
def Ahead (limit : Option Nat) (now : Nat) : Prop := ∀ t, limit = some t → now < t

theorem Ahead.mono {limit : Option Nat} (h : Ahead limit t) (le : now ≤ t) : Ahead limit now :=
  fun l hl => Nat.lt_of_le_of_lt le (h l hl)

theorem reached_eq_false_iff {limit : Option Nat} :
    reached limit now = false ↔ Ahead limit now := by
  cases limit with
  | none => simp [reached, Ahead]
  | some t => simp [reached, Ahead]

theorem check_ok_iff :
    ctx.check now = .ok () ↔ Ahead ctx.cancelAt now ∧ Ahead ctx.deadline now := by
  rw [check, ← reached_eq_false_iff, ← reached_eq_false_iff]
  cases reached ctx.cancelAt now <;> cases reached ctx.deadline now <;> simp

theorem check_mono (h : ctx.check t = .ok ()) (le : now ≤ t) : ctx.check now = .ok () := by
  obtain ⟨hc, hd⟩ := check_ok_iff.1 h
  exact check_ok_iff.2 ⟨hc.mono le, hd.mono le⟩

/-- The instant at which a context is interrupted: its first limit. -/
structure Ends (ctx : Context) (t : Nat) : Prop where
  limit : ctx.cancelAt = some t ∨ ctx.deadline = some t
  first : ∀ s, ctx.cancelAt = some s ∨ ctx.deadline = some s → t ≤ s

/-- Work may go on until that instant and not from then on. -/
theorem Ends.check_ok_iff (h : ctx.Ends t) : ctx.check now = .ok () ↔ now < t := by
  rw [Context.check_ok_iff]
  constructor
  · rintro ⟨hc, hd⟩
    rcases h.limit with hl | hl
    · exact hc t hl
    · exact hd t hl
  · intro hn
    exact ⟨fun s hs => Nat.lt_of_lt_of_le hn (h.first s (.inl hs)),
      fun s hs => Nat.lt_of_lt_of_le hn (h.first s (.inr hs))⟩

end Context

/-! ## The earliest of several endings

At a tie the ending listed first wins, as in a biased selection.
-/

namespace Ending

/-- An ending stands against those behind it, which have to be earlier to win. -/
theorem earliest_cons_iff {e x : Ending} {rest : List Ending} :
    earliest (e :: rest) = some x ↔
      (x = e ∧ ∀ f, earliest rest = some f → e.time ≤ f.time) ∨
        (earliest rest = some x ∧ x.time < e.time) := by
  rw [earliest]
  cases earliest rest with
  | none => simp [eq_comm]
  | some f =>
    by_cases h : f.time < e.time
    · simp only [if_pos h]
      constructor
      · rintro ⟨⟩
        exact .inr ⟨rfl, h⟩
      · rintro (⟨rfl, hf⟩ | ⟨hx, -⟩)
        · exact absurd h (Nat.not_lt.2 (hf f rfl))
        · exact hx
    · simp only [if_neg h]
      constructor
      · rintro ⟨⟩
        refine .inl ⟨rfl, ?_⟩
        rintro g ⟨⟩
        exact Nat.le_of_not_lt h
      · rintro (⟨rfl, -⟩ | ⟨⟨⟩, hx⟩)
        · rfl
        · exact absurd hx h

/-- Among endings, if there are any, one is the earliest. -/
theorem earliest_ne_none {e : Ending} {es : List Ending} (h : e ∈ es) : earliest es ≠ none := by
  cases es with
  | nil => cases h
  | cons x rest =>
    rw [earliest]
    cases earliest rest with
    | none => exact Option.some_ne_none _
    | some f =>
      by_cases hf : f.time < x.time
      · simp only [if_pos hf]
        exact Option.some_ne_none _
      · simp only [if_neg hf]
        exact Option.some_ne_none _

/-- No ending is earlier than the earliest. -/
theorem earliest_le {x e : Ending} {es : List Ending} (h : earliest es = some x) (he : e ∈ es) :
    x.time ≤ e.time := by
  -- the head stands against the winner of the tail, which is found first
  induction es generalizing x with
  | nil => cases he
  | cons f rest ih =>
    rcases earliest_cons_iff.1 h with ⟨rfl, hf⟩ | ⟨hx, hl⟩
    · rcases List.mem_cons.1 he with rfl | hr
      · exact Nat.le_refl _
      · cases hn : earliest rest with
        | none => exact absurd hn (earliest_ne_none hr)
        | some y => exact Nat.le_trans (hf y hn) (ih hn hr)
    · rcases List.mem_cons.1 he with rfl | hr
      · exact Nat.le_of_lt hl
      · exact ih hx hr

end Ending

namespace Context

variable {ctx : Context} {now t : Nat} {why : Interruption} {takes : Option Nat}

/-- Work that is done in time is finished, and only such work is. -/
theorem race_finished_iff :
    ctx.race now takes = some (.finished t) ↔
      (∃ d, takes = some d ∧ t = now + d) ∧ ctx.check t = .ok () := by
  rw [check_ok_iff]
  obtain ⟨deadline, cancelAt⟩ := ctx
  cases cancelAt <;> cases deadline <;> cases takes <;>
    simp [race, Ending.earliest_cons_iff, Ending.earliest.eq_1, Ahead, Ending.time] <;> omega

/-- Work is given up when its context is interrupted, for the reason of that. -/
theorem check_of_race (h : ctx.race now takes = some (.interrupted why t)) :
    now ≤ t ∧ ctx.check t = .error why := by
  revert h
  obtain ⟨deadline, cancelAt⟩ := ctx
  cases cancelAt <;> cases deadline <;> cases takes <;>
    simp [race, Ending.earliest_cons_iff, Ending.earliest.eq_1, Ending.time, check, reached] <;>
    grind

theorem race_ne_none {d : Nat} : ctx.race now (some d) ≠ none :=
  Ending.earliest_ne_none (List.mem_append_right _ List.mem_cons_self)

theorem le_race {e : Ending} (h : ctx.race now takes = some e) : now ≤ e.time := by
  cases e with
  | finished t =>
    obtain ⟨⟨d, -, rfl⟩, -⟩ := race_finished_iff.1 h
    exact Nat.le_add_right _ _
  | interrupted why t => exact (check_of_race h).1

/-! ## Against the first limit

With `Ends` there is one time at which the context stops everything. A race is over by then, and
finished exactly if the work is done before.
-/

/-- Nothing outlives a limit of its context. -/
theorem race_le {e : Ending} (h : ctx.race now takes = some e)
    (limit : ctx.cancelAt = some t ∨ ctx.deadline = some t) : e.time ≤ max now t := by
  rcases limit with hl | hl
  · refine Ending.earliest_le h (e := .interrupted .cancelled (max now t)) ?_
    simp [hl]
  · refine Ending.earliest_le h (e := .interrupted .deadlineExceeded (max now t)) ?_
    simp [hl]

/-- Under a context with a limit there is no waiting for ever. -/
theorem race_ends (limit : ctx.cancelAt = some t ∨ ctx.deadline = some t) :
    ctx.race now takes ≠ none := by
  rcases limit with hl | hl
  · apply Ending.earliest_ne_none (e := .interrupted .cancelled (max now t))
    simp [hl]
  · apply Ending.earliest_ne_none (e := .interrupted .deadlineExceeded (max now t))
    simp [hl]

theorem race_background : background.race now takes = takes.map fun d => .finished (now + d) := by
  cases takes <;> rfl

/-- What is begun before the context is interrupted is either done by then or interrupted then. -/
theorem Ends.race (ends : ctx.Ends t) (before : now < t) (takes : Option Nat) :
    (∃ d, takes = some d ∧ now + d < t ∧ ctx.race now takes = some (.finished (now + d))) ∨
      (∀ d, takes = some d → t ≤ now + d) ∧
        ∃ why, ctx.race now takes = some (.interrupted why t) ∧ ctx.check t = .error why := by
  cases he : ctx.race now takes with
  | none => exact absurd he (race_ends ends.limit)
  | some ending =>
    cases ending with
    | finished s =>
      obtain ⟨⟨d, hd, rfl⟩, hc⟩ := race_finished_iff.1 he
      exact .inl ⟨d, hd, ends.check_ok_iff.1 hc, rfl⟩
    | interrupted why s =>
      obtain ⟨-, hc⟩ := check_of_race he
      have late : t ≤ s := by
        apply Nat.le_of_not_lt
        intro hs
        rw [ends.check_ok_iff.2 hs] at hc
        cases hc
      -- an interruption comes neither before `t`, where the context is still open, nor after it
      have inTime : s ≤ max now t := race_le he ends.limit
      obtain rfl : s = t := by omega
      refine .inr ⟨?_, why, rfl, hc⟩
      rintro d rfl
      exact Ending.earliest_le he (e := .finished (now + d)) (by simp)

/-- The kind of an interruption is that of the limit that comes first; a cancellation wins. -/
theorem Ends.cancelled_iff (ends : ctx.Ends t) (h : ctx.check t = .error why) :
    why = .cancelled ↔ ctx.cancelAt = some t := by
  have cancelled : reached ctx.cancelAt t = true ↔ ctx.cancelAt = some t := by
    cases hc : ctx.cancelAt with
    | none => simp [reached]
    | some s =>
      have hs : t ≤ s := ends.first s (.inl hc)
      simp only [reached, decide_eq_true_eq, Option.some.injEq]
      omega
  rw [← cancelled]
  unfold check at h
  cases hr : reached ctx.cancelAt t with
  | true =>
    rw [hr, if_pos rfl] at h
    cases h
    exact iff_of_true rfl rfl
  | false =>
    rw [hr, if_neg Bool.false_ne_true] at h
    split at h <;> cases h
    exact iff_of_false Interruption.noConfusion Bool.noConfusion

end Context

end Courier
