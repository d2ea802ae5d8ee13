import Courier.Resilience.BreakerRun

/-!
# What one event does to a breaker

`BreakerRun.step` goes through `refresh`, `ticket`, `settle` and the counters. `BreakerRun.Move`
says once, for each event and each situation the breaker can be in, what comes of it: the reaction
and the whole state afterwards, with the guard under which it happens. `step_move` shows that every
step is one of these moves, and it is the only proof that opens the operations of a breaker; an
invariant is shown by cases on a move.

An outcome that changes nothing but the list of calls is one move, `inert`, with its three reasons:
the call belongs to an earlier phase, the breaker is open, or a call is given up that holds no
place.

The moves are to the breaker what a transition relation is to a protocol. A change to one operation
of the breaker is a change to its lemma in the second section and to a move or two; the laws only
know the moves.
-/

set_option autoImplicit false

namespace Courier

namespace BreakerConfig

/-- How many failures in a row open a breaker. -/
def limit (c : BreakerConfig) : Nat := max c.maxFailures.toNat 1

theorem limit_pos (c : BreakerConfig) : 0 < c.limit :=
  Nat.lt_of_lt_of_le Nat.one_pos (Nat.le_max_right _ _)

theorem quota_pos (c : BreakerConfig) : 0 < c.quota :=
  Nat.lt_of_lt_of_le Nat.one_pos (Nat.le_max_right _ _)

theorem limit_lt_size (c : BreakerConfig) : c.limit < UInt32.size := by
  have h : c.maxFailures.toNat < UInt32.size := c.maxFailures.toNat_lt_size
  exact Nat.max_lt.2 ⟨h, by decide⟩

theorem maxFailures_le_succ_iff (c : BreakerConfig) (n : Nat) :
    c.maxFailures.toNat ≤ n + 1 ↔ c.limit ≤ n + 1 := by
  unfold limit
  omega

end BreakerConfig

/-! ## The operations, situation by situation

What each operation of the breaker does in each state, one equation for each. Later proofs rewrite
with these.
-/

namespace Breaker

variable {config : BreakerConfig} {b : Breaker} {now : Nat} {t : Ticket} {outcome : Outcome}

theorem refresh_of_early (h : b.state = .open → now - b.since < config.timeout) :
    b.refresh config now = b := by
  rw [refresh, if_neg]
  rintro ⟨ho, hl⟩
  exact absurd (h ho) (Nat.not_lt.2 hl)

theorem refresh_of_late (ho : b.state = .open) (hl : config.timeout ≤ now - b.since) :
    b.refresh config now = b.enter now .halfOpen := if_pos ⟨ho, hl⟩

theorem ticket_closed (hs : b.state = .closed) :
    b.ticket config now = (.ok ⟨b.phase, false⟩, b) := by
  have hr : b.refresh config now = b := refresh_of_early fun ho => by rw [hs] at ho; cases ho
  simp only [ticket, hr, hs]

theorem ticket_early (ho : b.state = .open) (he : now - b.since < config.timeout) :
    b.ticket config now = (.error .open, b) := by
  simp only [ticket, refresh_of_early fun _ => he, ho]

theorem ticket_late (ho : b.state = .open) (hl : config.timeout ≤ now - b.since) :
    b.ticket config now =
      (.ok ⟨b.phase + 1, true⟩, { b.enter now .halfOpen with probes := 1 }) := by
  have hq : (b.enter now .halfOpen).probes < config.quota := config.quota_pos
  simp only [ticket, refresh_of_late ho hl, if_pos hq]
  rfl

theorem ticket_halfOpen (hs : b.state = .halfOpen) :
    b.ticket config now =
      if b.probes < config.quota then (.ok ⟨b.phase, true⟩, { b with probes := b.probes + 1 })
      else (.error .tooManyRequests, b) := by
  have hr : b.refresh config now = b := refresh_of_early fun ho => by rw [hs] at ho; cases ho
  simp only [ticket, hr]
  simp only [hs]

theorem succeed_closed (hs : b.state = .closed) :
    b.succeed config now = { b with failures := 0 } := by
  simp only [succeed, hs]

theorem succeed_halfOpen (hs : b.state = .halfOpen) :
    b.succeed config now =
      if config.quota ≤ b.successes + 1 then b.enter now .closed
      else { b with successes := b.successes + 1 } := by
  simp only [succeed, hs]
  rfl

theorem fail_closed (hs : b.state = .closed) :
    b.fail config now =
      if config.limit ≤ b.failures + 1 then
        { b with failures := b.failures + 1 }.enter now .open
      else { b with failures := b.failures + 1 } := by
  simp only [fail, hs, config.maxFailures_le_succ_iff]

theorem fail_halfOpen (hs : b.state = .halfOpen) : b.fail config now = b.enter now .open := by
  simp only [fail, hs]

theorem abandon_halfOpen (hs : b.state = .halfOpen) (hp : t.probe = true) :
    b.abandon t = { b with probes := b.probes - 1 } := if_pos ⟨hp, hs⟩

theorem abandon_idle (h : t.probe = false ∨ b.state ≠ .halfOpen) : b.abandon t = b := by
  rw [abandon, if_neg]
  rintro ⟨hp, hs⟩
  rcases h with h | h
  · rw [hp] at h; cases h
  · exact h hs

theorem settle_stale (h : t.phase ≠ b.phase) : b.settle config now t outcome = b :=
  if_neg fun he => h he.symm

theorem settle_present (h : t.phase = b.phase) :
    b.settle config now t outcome =
      match outcome with
      | .success => b.succeed config now
      | .failure => b.fail config now
      | .abandoned => b.abandon t := if_pos h.symm

theorem settle_open (ho : b.state = .open) : b.settle config now t outcome = b := by
  by_cases h : t.phase = b.phase
  · rw [settle_present h]
    cases outcome with
    | success => simp only [succeed, ho]
    | failure => simp only [fail, ho]
    | abandoned => exact abandon_idle (.inr (by rw [ho]; decide))
  · exact settle_stale h

/-- The reasons for which an outcome does nothing to a breaker. -/
theorem settle_inert (why : t.phase ≠ b.phase ∨ b.state = .open ∨
    (outcome = .abandoned ∧ (t.probe = false ∨ b.state = .closed))) :
    b.settle config now t outcome = b := by
  by_cases present : t.phase = b.phase
  · rcases why with hp | ho | ⟨rfl, hn⟩
    · exact absurd present hp
    · exact settle_open ho
    · rw [settle_present present]
      exact abandon_idle (hn.imp_right fun hs => by rw [hs]; decide)
  · exact settle_stale present

end Breaker

/-! ## Moves

All that one event can do, as an inductive relation with one constructor for each way it can go.
`step_move` is its completeness; every invariant of a run is a case analysis of `Move`.
-/

namespace BreakerRun

/-- The same, with a call less in flight. -/
def without (r : BreakerRun) (name : String) : BreakerRun := { r with calls := remove name r.calls }

/-- What an event may come to: the reaction and the state after it. -/
inductive Move (r : BreakerRun) : BreakerEvent → Reaction → BreakerRun → Prop
  | pass (name : String) (hs : r.breaker.state = .closed) :
      Move r (.start name) .passed
        { r with calls := (name, ⟨r.breaker.phase, false⟩) :: r.calls }
  | refuse (name : String) (hs : r.breaker.state = .open)
      (early : r.now - r.breaker.since < r.config.timeout) :
      Move r (.start name) (.rejected .open) r
  /-- The first call after the timeout finds the breaker half-open and is its first probe. -/
  | wake (name : String) (hs : r.breaker.state = .open)
      (late : r.config.timeout ≤ r.now - r.breaker.since) :
      Move r (.start name) .passed
        { r with
          breaker := { r.breaker.enter r.now .halfOpen with probes := 1 }
          calls := (name, ⟨r.breaker.phase + 1, true⟩) :: r.calls }
  | probe (name : String) (hs : r.breaker.state = .halfOpen)
      (free : r.breaker.probes < r.config.quota) :
      Move r (.start name) .passed
        { r with
          breaker := { r.breaker with probes := r.breaker.probes + 1 }
          calls := (name, ⟨r.breaker.phase, true⟩) :: r.calls }
  | full (name : String) (hs : r.breaker.state = .halfOpen)
      (taken : r.config.quota ≤ r.breaker.probes) :
      Move r (.start name) (.rejected .tooManyRequests) r
  | unknown (name : String) (outcome : Outcome) (missing : r.calls.lookup name = none) :
      Move r (.finish name outcome) .unknown r
  | inert (name : String) (outcome : Outcome) (t : Ticket) (found : r.calls.lookup name = some t)
      (why : t.phase ≠ r.breaker.phase ∨ r.breaker.state = .open ∨
        (outcome = .abandoned ∧ (t.probe = false ∨ r.breaker.state = .closed))) :
      Move r (.finish name outcome) (.finished outcome) (r.without name)
  | recover (name : String) (t : Ticket) (found : r.calls.lookup name = some t)
      (present : t.phase = r.breaker.phase) (hs : r.breaker.state = .closed) :
      Move r (.finish name .success) (.finished .success)
        { r.without name with breaker := { r.breaker with failures := 0 } }
  | stumble (name : String) (t : Ticket) (found : r.calls.lookup name = some t)
      (present : t.phase = r.breaker.phase) (hs : r.breaker.state = .closed)
      (below : r.breaker.failures + 1 < r.config.limit) :
      Move r (.finish name .failure) (.finished .failure)
        { r.without name with breaker := { r.breaker with failures := r.breaker.failures + 1 } }
  | trip (name : String) (t : Ticket) (found : r.calls.lookup name = some t)
      (present : t.phase = r.breaker.phase) (hs : r.breaker.state = .closed)
      (reached : r.config.limit ≤ r.breaker.failures + 1) :
      Move r (.finish name .failure) (.finished .failure)
        { r.without name with
          breaker := { r.breaker with failures := r.breaker.failures + 1 }.enter r.now .open }
  | gain (name : String) (t : Ticket) (found : r.calls.lookup name = some t)
      (present : t.phase = r.breaker.phase) (hs : r.breaker.state = .halfOpen)
      (below : r.breaker.successes + 1 < r.config.quota) :
      Move r (.finish name .success) (.finished .success)
        { r.without name with breaker := { r.breaker with successes := r.breaker.successes + 1 } }
  | close (name : String) (t : Ticket) (found : r.calls.lookup name = some t)
      (present : t.phase = r.breaker.phase) (hs : r.breaker.state = .halfOpen)
      (reached : r.config.quota ≤ r.breaker.successes + 1) :
      Move r (.finish name .success) (.finished .success)
        { r.without name with breaker := r.breaker.enter r.now .closed }
  | reopen (name : String) (t : Ticket) (found : r.calls.lookup name = some t)
      (present : t.phase = r.breaker.phase) (hs : r.breaker.state = .halfOpen) :
      Move r (.finish name .failure) (.finished .failure)
        { r.without name with breaker := r.breaker.enter r.now .open }
  | release (name : String) (t : Ticket) (found : r.calls.lookup name = some t)
      (present : t.phase = r.breaker.phase) (held : t.probe = true)
      (hs : r.breaker.state = .halfOpen) :
      Move r (.finish name .abandoned) (.finished .abandoned)
        { r.without name with breaker := { r.breaker with probes := r.breaker.probes - 1 } }
  | look (early : r.breaker.state = .open → r.now - r.breaker.since < r.config.timeout) :
      Move r .look .quiet r
  | ripen (hs : r.breaker.state = .open) (late : r.config.timeout ≤ r.now - r.breaker.since) :
      Move r .look .quiet { r with breaker := r.breaker.enter r.now .halfOpen }
  | reset : Move r .reset .quiet { r with breaker := r.breaker.enter r.now .closed }
  | advance (duration : Nat) :
      Move r (.advance duration) .quiet { r with now := r.now + duration }

open Breaker

/-- What comes of a call that wants through. -/
theorem start_move (r : BreakerRun) (name : String) :
    Move r (.start name) (r.step (.start name)).1 (r.step (.start name)).2 := by
  cases hs : r.breaker.state with
  | closed =>
    simp only [step, ticket_closed hs]
    exact .pass name hs
  | «open» =>
    by_cases hl : r.config.timeout ≤ r.now - r.breaker.since
    · simp only [step, ticket_late hs hl]
      exact .wake name hs hl
    · have he : r.now - r.breaker.since < r.config.timeout := Nat.lt_of_not_le hl
      simp only [step, ticket_early hs he]
      exact .refuse name hs he
  | halfOpen =>
    by_cases hq : r.breaker.probes < r.config.quota
    · simp only [step, ticket_halfOpen hs, if_pos hq]
      exact .probe name hs hq
    · simp only [step, ticket_halfOpen hs, if_neg hq]
      exact .full name hs (Nat.le_of_not_lt hq)

/-- A call of the present phase ends. -/
theorem settle_move {r : BreakerRun} {name : String} {t : Ticket} (outcome : Outcome)
    (found : r.calls.lookup name = some t) (present : t.phase = r.breaker.phase) :
    Move r (.finish name outcome) (.finished outcome)
      { r.without name with breaker := r.breaker.settle r.config r.now t outcome } := by
  cases hs : r.breaker.state with
  | «open» =>
    -- an open breaker takes no notice of any outcome
    rw [settle_open hs]
    exact .inert name outcome t found (.inr (.inl hs))
  | closed =>
    cases outcome with
    | success =>
      simp only [settle_present present, succeed_closed hs]
      exact .recover name t found present hs
    | failure =>
      simp only [settle_present present, fail_closed hs]
      split
      · exact .trip name t found present hs ‹_›
      · exact .stumble name t found present hs (Nat.lt_of_not_le ‹_›)
    | abandoned =>
      simp only [settle_present present, abandon_idle (.inr (by rw [hs]; decide))]
      exact .inert name .abandoned t found (.inr (.inr ⟨rfl, .inr hs⟩))
  | halfOpen =>
    cases outcome with
    | success =>
      simp only [settle_present present, succeed_halfOpen hs]
      split
      · exact .close name t found present hs ‹_›
      · exact .gain name t found present hs (Nat.lt_of_not_le ‹_›)
    | failure =>
      simp only [settle_present present, fail_halfOpen hs]
      exact .reopen name t found present hs
    | abandoned =>
      cases hp : t.probe with
      | true =>
        simp only [settle_present present, abandon_halfOpen hs hp]
        exact .release name t found present hp hs
      | false =>
        simp only [settle_present present, abandon_idle (.inl hp)]
        exact .inert name .abandoned t found (.inr (.inr ⟨rfl, .inl hp⟩))

/-- What comes of the end of a call. Whether it is known and whether it is of the present phase is
settled before the breaker is asked. -/
theorem finish_move (r : BreakerRun) (name : String) (outcome : Outcome) :
    Move r (.finish name outcome) (r.step (.finish name outcome)).1
      (r.step (.finish name outcome)).2 := by
  cases found : r.calls.lookup name with
  | none =>
    simp only [step, found]
    exact .unknown name outcome found
  | some t =>
    simp only [step, found]
    by_cases present : t.phase = r.breaker.phase
    · exact settle_move outcome found present
    · rw [settle_stale present]
      exact .inert name outcome t found (.inl present)

theorem look_move (r : BreakerRun) : Move r .look (r.step .look).1 (r.step .look).2 := by
  by_cases h : r.breaker.state = .open ∧ r.config.timeout ≤ r.now - r.breaker.since
  · simp only [step, refresh_of_late h.1 h.2]
    exact .ripen h.1 h.2
  · have he : r.breaker.state = .open → r.now - r.breaker.since < r.config.timeout :=
      fun ho => Nat.lt_of_not_le fun hl => h ⟨ho, hl⟩
    simp only [step, refresh_of_early he]
    exact .look he

/-- **Every step is a move.** -/
theorem step_move (r : BreakerRun) (e : BreakerEvent) : Move r e (r.step e).1 (r.step e).2 := by
  cases e with
  | start name => exact start_move r name
  | finish name outcome => exact finish_move r name outcome
  | look => exact look_move r
  | reset => exact .reset
  | advance duration => exact .advance duration

/-- And every move is a step: what an event comes to is settled by the situation. -/
theorem Move.step_eq {r s : BreakerRun} {e : BreakerEvent} {x : Reaction} (h : Move r e x s) :
    r.step e = (x, s) := by
  cases h with
  -- each move carries the guards under which its operation takes that branch
  | pass name hs => simp only [step, ticket_closed hs]
  | refuse name hs early => simp only [step, ticket_early hs early]
  | wake name hs late => simp only [step, ticket_late hs late]
  | probe name hs free => simp only [step, ticket_halfOpen hs, if_pos free]
  | full name hs taken => simp only [step, ticket_halfOpen hs, if_neg (Nat.not_lt.2 taken)]
  | unknown name outcome missing => simp only [step, missing]
  | inert name outcome t found why =>
    simp only [step, found]
    rw [settle_inert why]
    rfl
  | recover name t found present hs =>
    simp only [step, found, settle_present present, succeed_closed hs]
    rfl
  | stumble name t found present hs below =>
    simp only [step, found, settle_present present, fail_closed hs, if_neg (Nat.not_le.2 below)]
    rfl
  | trip name t found present hs reached =>
    simp only [step, found, settle_present present, fail_closed hs, if_pos reached]
    rfl
  | gain name t found present hs below =>
    simp only [step, found, settle_present present, succeed_halfOpen hs,
      if_neg (Nat.not_le.2 below)]
    rfl
  | close name t found present hs reached =>
    simp only [step, found, settle_present present, succeed_halfOpen hs, if_pos reached]
    rfl
  | reopen name t found present hs =>
    simp only [step, found, settle_present present, fail_halfOpen hs]
    rfl
  | release name t found present held hs =>
    simp only [step, found, settle_present present, abandon_halfOpen hs held]
    rfl
  | look early => simp only [step, refresh_of_early early]
  | ripen hs late => simp only [step, refresh_of_late hs late]
  | reset => rfl
  | advance duration => rfl

/-! ## Runs -/

theorem run_append (r : BreakerRun) (first later : List BreakerEvent) :
    (r.run (first ++ later)).2 = ((r.run first).2.run later).2 := by
  induction first generalizing r with
  | nil => rfl
  | cons e rest ih => exact ih (r.step e).2

theorem run_append_reactions (r : BreakerRun) (first later : List BreakerEvent) :
    (r.run (first ++ later)).1 = (r.run first).1 ++ ((r.run first).2.run later).1 := by
  induction first generalizing r with
  | nil => rfl
  | cons e rest ih => exact congrArg ((r.step e).1 :: ·) (ih (r.step e).2)

theorem run_preserves {P : BreakerRun → Prop} (hstep : ∀ r e, P r → P (r.step e).2)
    {r : BreakerRun} (h : P r) (events : List BreakerEvent) : P (r.run events).2 := by
  induction events generalizing r with
  | nil => exact h
  | cons e rest ih => exact ih (hstep r e h)

theorem Move.config {r s : BreakerRun} {e : BreakerEvent} {x : Reaction} (h : Move r e x s) :
    s.config = r.config := by
  cases h <;> rfl

theorem run_config (r : BreakerRun) (events : List BreakerEvent) :
    (r.run events).2.config = r.config :=
  run_preserves (P := fun s => s.config = r.config) (fun s e h => (step_move s e).config.trans h)
    rfl events

theorem Move.now_le {r s : BreakerRun} {e : BreakerEvent} {x : Reaction} (h : Move r e x s) :
    r.now ≤ s.now := by
  cases h with
  | advance duration => exact Nat.le_add_right _ _
  | _ => exact Nat.le_refl _

theorem run_now_le (r : BreakerRun) (events : List BreakerEvent) : r.now ≤ (r.run events).2.now :=
  run_preserves (P := fun s => r.now ≤ s.now)
    (fun s e h => Nat.le_trans h (step_move s e).now_le) (Nat.le_refl _) events

end BreakerRun

end Courier
