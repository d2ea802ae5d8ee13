import Courier.Proofs.Breaker.Phases

/-!
# The counters of a breaker

Two laws about what a breaker counts, said in terms of its past.

Places: a half-open phase has a fixed number of them. A place is taken by a probe that runs or has
succeeded, a success keeps it and a probe that is given up returns it. So no more probes of one
phase ever run at once than it has places, and a call is turned away only while one of them runs.

Failures: a closed breaker counts the failures since the latest success of its phase, and stays
below the limit; otherwise the count is the limit. It fits the 32 bits it is kept in, whatever the
configuration says.
-/

set_option autoImplicit false

namespace Courier

namespace BreakerRun

variable {r s : BreakerRun} {c : Chronicle} {name : String} {e : BreakerEvent} {x : Reaction}
  {t : Ticket}

/-! ## Places

In a half-open phase every probe holds a place until it is over, and a success keeps it. Outside of
one nobody holds a place.
-/

/-- How a breaker with a past gives out the places of its half-open phase. -/
structure SlotLaw (config : BreakerConfig) (r : BreakerRun) (c : Chronicle) : Prop where
  /-- The calls in flight carry the tickets that an onlooker would have written. -/
  in_flight : r.calls = c.calls
  idle : r.breaker.state ≠ .halfOpen → r.breaker.probes = 0 ∧ r.breaker.successes = 0
  /-- The places that are taken are those of probes that have succeeded or still run. -/
  taken : r.breaker.state = .halfOpen →
    r.breaker.probes = r.breaker.successes + c.running c.phases
  succeeded : r.breaker.state = .halfOpen → r.breaker.successes = c.successes
  successes_lt : r.breaker.state = .halfOpen → r.breaker.successes < config.quota
  probes_le : r.breaker.state = .halfOpen → r.breaker.probes ≤ config.quota
  /-- Of an earlier phase too, no more probes run than it had places. -/
  running_le : ∀ phase, c.running phase ≤ config.quota
  /-- A running probe that is given up returns a place that was taken. -/
  returned : ∀ name t, c.calls.lookup name = some t → t.probe = true → t.phase = c.phases →
    (r.step (.finish name .abandoned)).2.breaker.probes + 1 = r.breaker.probes
  turned_away : ∀ name, (r.step (.start name)).1 = .rejected .tooManyRequests →
    0 < c.running c.phases

namespace Accounted

theorem running_pos (h : Accounted r c)
    (m : Move r (.start name) (.rejected .tooManyRequests) s) : 0 < c.running c.phases := by
  cases m with
  | full _ hs taken =>
    obtain ⟨-, hp, hq, -⟩ := h.halfOpen hs
    omega

theorem halfOpen_of_probe (h : Accounted r c) (found : r.calls.lookup name = some t)
    (present : t.phase = r.breaker.phase) (held : t.probe = true) :
    r.breaker.state = .halfOpen := (h.tagged.probe_iff _ (mem_of_lookup found) present).1 held

/-- A probe of the present phase that is given up returns exactly one place. No truncation is hidden
in the subtraction: there was one to return. -/
theorem returned (h : Accounted r c) (m : Move r (.finish name .abandoned) x s)
    (found : r.calls.lookup name = some t) (held : t.probe = true)
    (present : t.phase = r.breaker.phase) : s.breaker.probes + 1 = r.breaker.probes := by
  have hs := h.halfOpen_of_probe found present held
  cases m with
  | unknown _ _ missing => rw [found] at missing; cases missing
  | inert _ _ u hu why =>
    -- it holds a place of the present phase, so none of the reasons applies
    rw [found] at hu
    cases hu
    simp [present, hs, held] at why
  | release _ u hu hp hh _ =>
    have hr := h.running_present found present hs .abandoned
    obtain ⟨-, hb, -⟩ := h.halfOpen hs
    have hpos : 0 < r.breaker.probes := by omega
    exact Nat.sub_add_cancel hpos

/-- The law of places holds wherever the breaker and its chronicle agree. -/
theorem keeps_slots (h : Accounted r c) : SlotLaw r.config r c where
  in_flight := h.calls.symm
  idle hs := by
    cases ho : r.breaker.state with
    | halfOpen => exact absurd ho hs
    | closed => exact ⟨(h.closed ho).1, (h.closed ho).2.1⟩
    | «open» => exact ⟨(h.opened ho).1, (h.opened ho).2.1⟩
  taken hs := (h.halfOpen hs).2.1
  succeeded hs := (h.halfOpen hs).1
  successes_lt hs := (h.halfOpen hs).2.2.1
  probes_le hs := (h.halfOpen hs).2.2.2.1
  running_le := h.running_le
  returned name t ht held hp := by
    rw [h.calls] at ht
    exact h.returned (step_move r _) ht held (hp.trans h.phases)
  turned_away name hx := by
    have m := step_move r (.start name)
    rw [hx] at m
    exact h.running_pos m

end Accounted

/-- **A breaker keeps account of its places**, whatever its configuration and whatever has happened
to it since it was made. -/
theorem slot_law (config : BreakerConfig) (time : Nat) (events : List BreakerEvent) :
    SlotLaw config (after config time events) (chronicle config time events) := by
  have h := (accounted config time events).keeps_slots
  rwa [after, run_config] at h

/-- A probe of an earlier phase succeeds in a later one and completes nothing there. -/
example :
    (after { maxFailures := 1, timeout := 10, halfOpenMax := 2 } 0
      [.start "a", .finish "a" .failure, .advance 10, .start "b", .start "c",
        .finish "b" .failure, .advance 10, .start "d", .finish "c" .success]).breaker =
    { state := .halfOpen, failures := 1, since := 20, probes := 1, phase := 4 } := by decide

/-! ## Failures

Closed, the count is the streak of failures the chronicle has written down; in the other states it
stays where it tripped.
-/

/-- How a breaker with a past counts failures. -/
structure TripLaw (config : BreakerConfig) (r : BreakerRun) (c : Chronicle) : Prop where
  /-- A closed breaker counts the failures since the latest success of its phase. -/
  counted : r.breaker.state = .closed → r.breaker.failures = c.streak
  below : r.breaker.state = .closed → r.breaker.failures < config.limit
  /-- It opens at the failure that reaches the limit, and at nothing else. -/
  trips_iff : r.breaker.state = .closed → ∀ e, ((r.step e).2.breaker.state = .open ↔
    ∃ name, e = .finish name .failure ∧ c.Present name ∧ c.streak + 1 = config.limit)
  reached : r.breaker.state ≠ .closed → r.breaker.failures = config.limit
  /-- An outcome of an earlier phase does not count. -/
  stale : ∀ name outcome, ¬ c.Present name →
    (r.step (.finish name outcome)).2.breaker.failures = r.breaker.failures
  given_up : ∀ name,
    (r.step (.finish name .abandoned)).2.breaker.failures = r.breaker.failures
  /-- A call that is only let through or rejected does not count. -/
  started : ∀ name, (r.step (.start name)).2.breaker.failures = r.breaker.failures
  /-- There is room for one failure more wherever one may be counted. -/
  fits : r.breaker.state = .closed → r.breaker.failures + 1 < UInt32.size
  fits_always : r.breaker.failures < UInt32.size

namespace Accounted

/-- The count changes at a reset, and at a success or a failure of the present phase. -/
theorem failures_move (h : Accounted r c) (m : Move r e x s) :
    s.breaker.failures = r.breaker.failures ∨ e = .reset ∨
      ∃ name outcome, e = .finish name outcome ∧ outcome ≠ .abandoned ∧ c.Present name := by
  cases m with
  | recover name t found present hs | stumble name t found present hs | trip name t found present hs
  | close name t found present hs | reopen name t found present hs =>
    exact .inr (.inr ⟨name, _, rfl, by decide, h.present found present⟩)
  | reset => exact .inr (.inl rfl)
  | _ => exact .inl rfl

theorem failures_le (h : Accounted r c) : r.breaker.failures ≤ r.config.limit := by
  by_cases hs : r.breaker.state = .closed
  · exact Nat.le_of_lt (h.closed hs).2.2.2
  · exact Nat.le_of_eq (h.failures_of_ne hs)

/-- The law of failures holds wherever they agree. -/
theorem keeps_failures (h : Accounted r c) : TripLaw r.config r c where
  counted hs := (h.closed hs).2.2.1
  below hs := (h.closed hs).2.2.2
  trips_iff hs e := by
    rw [h.next_state (step_move r e), hs]
    exact Chronicle.next_closed_iff r.config r.now e
  reached hs := h.failures_of_ne hs
  -- a finish changes the count only by an outcome of a present call, and a call given up has none
  stale name outcome hn := by
    rcases h.failures_move (step_move r (.finish name outcome)) with hk | hk | ⟨_, _, hk, -, hp⟩
    · exact hk
    · cases hk
    · cases hk
      exact absurd hp hn
  given_up name := by
    rcases h.failures_move (step_move r (.finish name .abandoned)) with hk | hk | ⟨_, _, hk, ha, -⟩
    · exact hk
    · cases hk
    · cases hk
      exact absurd rfl ha
  started name := by
    rcases h.failures_move (step_move r (.start name)) with hk | hk | ⟨_, _, hk, -, -⟩
    · exact hk
    · cases hk
    · cases hk
  fits hs := Nat.lt_of_le_of_lt (h.closed hs).2.2.2 r.config.limit_lt_size
  fits_always := Nat.lt_of_le_of_lt h.failures_le r.config.limit_lt_size

end Accounted

/-- **A breaker keeps count of its failures**, whatever its configuration and whatever has happened
to it since it was made. -/
theorem trip_law (config : BreakerConfig) (time : Nat) (events : List BreakerEvent) :
    TripLaw config (after config time events) (chronicle config time events) := by
  have h := (accounted config time events).keeps_failures
  rwa [after, run_config] at h

end BreakerRun

end Courier
