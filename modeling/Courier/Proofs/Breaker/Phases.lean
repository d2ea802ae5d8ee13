import Courier.Proofs.Breaker.Chronicle

/-!
# The law of phases

When a breaker changes its state, said in terms of its past. `Chronicle.next` is the whole table:
the state that follows on an event, given what an onlooker has written down by then. A breaker
follows it after every run (`next_state`), and the law reads its rows one by one.

An open breaker is looked at over a stretch of time. `Sleeps` says that nobody resets it and nobody
looks at it after its timeout; such a stretch, with whatever calls end in it, leaves the breaker as
it is (`run_sleeps`).
-/

set_option autoImplicit false

namespace Courier

/-- Does the event look at the state of the breaker? A call does before it is let through. -/
def BreakerEvent.looks : BreakerEvent → Bool
  | .start _ | .look => true
  | .finish _ _ | .reset | .advance _ => false

/-! ## The table

Each row of the table for one state, as an equivalence: the state that follows is this one exactly
if that event comes under those conditions.
-/

namespace Chronicle

variable {c : Chronicle} {config : BreakerConfig} {now : Nat} {state : CircuitState}
  {name : String} {outcome : Outcome}

instance (c : Chronicle) (name : String) : Decidable (c.Present name) :=
  match h : c.calls.lookup name with
  | some t => decidable_of_iff (t.phase = c.phases) (by simp [Present, h])
  | none => .isFalse (by simp [Present, h])

/-- The state that follows on an event. -/
def next (c : Chronicle) (config : BreakerConfig) (now : Nat) :
    CircuitState → BreakerEvent → CircuitState
  | _, .reset => .closed
  | .closed, .finish name .failure =>
    if c.Present name ∧ c.streak + 1 = config.limit then .open else .closed
  | .open, e => if e.looks ∧ c.began + config.timeout ≤ now then .halfOpen else .open
  | .halfOpen, .finish name .success =>
    if c.Present name ∧ c.successes + 1 = config.quota then .closed else .halfOpen
  | .halfOpen, .finish name .failure => if c.Present name then .open else .halfOpen
  | state, _ => state

theorem next_closed_failure :
    c.next config now .closed (.finish name .failure) =
      if c.Present name ∧ c.streak + 1 = config.limit then .open else .closed := rfl

theorem next_open {e : BreakerEvent} (he : e ≠ .reset) :
    c.next config now .open e =
      if e.looks ∧ c.began + config.timeout ≤ now then .halfOpen else .open := by
  cases e with
  | reset => exact absurd rfl he
  | finish name outcome => cases outcome <;> rfl
  | _ => rfl

theorem next_halfOpen_success :
    c.next config now .halfOpen (.finish name .success) =
      if c.Present name ∧ c.successes + 1 = config.quota then .closed else .halfOpen := rfl

theorem next_halfOpen_failure :
    c.next config now .halfOpen (.finish name .failure) =
      if c.Present name then .open else .halfOpen := rfl

/-- An outcome that is not of the present phase, one that comes while the breaker is open, and a
call that is given up change no state. -/
theorem next_idle (h : ¬ c.Present name ∨ state = .open ∨ outcome = .abandoned) :
    c.next config now state (.finish name outcome) = state := by
  cases state with
  | «open» => exact Eq.trans (next_open nofun) (if_neg nofun)
  | closed =>
    cases outcome with
    | success | abandoned => rfl
    | failure =>
      have hn : ¬ c.Present name := h.resolve_right (by simp)
      simp [next_closed_failure, hn]
  | halfOpen =>
    cases outcome with
    | abandoned => rfl
    | success | failure =>
      have hn : ¬ c.Present name := h.resolve_right (by simp)
      simp [next_halfOpen_success, next_halfOpen_failure, hn]

/-- A closed breaker opens at the failure that completes the streak, and only then. -/
theorem next_closed_iff (config : BreakerConfig) (now : Nat) (e : BreakerEvent) :
    c.next config now .closed e = .open ↔
      ∃ name, e = .finish name .failure ∧ c.Present name ∧ c.streak + 1 = config.limit := by
  cases e with
  | finish name outcome =>
    cases outcome with
    | failure => simp [next_closed_failure]
    | success | abandoned => exact ⟨nofun, by rintro ⟨_, h, -⟩; cases h⟩
  | _ => exact ⟨nofun, by rintro ⟨_, h, -⟩; cases h⟩

/-- A closed breaker never becomes half-open. It has to open first. -/
theorem next_closed_ne (config : BreakerConfig) (now : Nat) (e : BreakerEvent) :
    c.next config now .closed e ≠ .halfOpen := by
  cases e with
  | finish name outcome =>
    cases outcome with
    | failure => rw [next_closed_failure]; split <;> nofun
    | success | abandoned => nofun
  | _ => nofun

theorem next_open_iff (config : BreakerConfig) (now : Nat) (e : BreakerEvent) :
    c.next config now .open e = .halfOpen ↔
      e.looks = true ∧ c.began + config.timeout ≤ now := by
  by_cases he : e = .reset
  · rw [he]
    exact ⟨nofun, nofun⟩
  · simp [next_open he]

theorem next_open_closed_iff (config : BreakerConfig) (now : Nat) (e : BreakerEvent) :
    c.next config now .open e = .closed ↔ e = .reset := by
  by_cases he : e = .reset
  · rw [he]
    exact iff_of_true rfl rfl
  · rw [next_open he]
    split <;> simp [he]

/-- A half-open breaker closes by a reset, or by the success that completes the quota. This is the
one row of the table that counts up. -/
theorem next_halfOpen_closed_iff (config : BreakerConfig) (now : Nat) (e : BreakerEvent) :
    c.next config now .halfOpen e = .closed ↔
      e = .reset ∨
        ∃ name, e = .finish name .success ∧ c.Present name ∧ c.successes + 1 = config.quota := by
  cases e with
  | finish name outcome =>
    cases outcome with
    | success => simp [next_halfOpen_success]
    | failure => rw [next_halfOpen_failure]; split <;> simp
    | abandoned => exact ⟨nofun, by rintro (h | ⟨_, h, -⟩) <;> cases h⟩
  | reset => exact iff_of_true rfl (.inl rfl)
  | _ => exact ⟨nofun, by rintro (h | ⟨_, h, -⟩) <;> cases h⟩

theorem next_halfOpen_open_iff (config : BreakerConfig) (now : Nat) (e : BreakerEvent) :
    c.next config now .halfOpen e = .open ↔ ∃ name, e = .finish name .failure ∧ c.Present name := by
  cases e with
  | finish name outcome =>
    cases outcome with
    | success => rw [next_halfOpen_success]; split <;> simp
    | failure => simp [next_halfOpen_failure]
    | abandoned => exact ⟨nofun, by rintro ⟨_, h, -⟩; cases h⟩
  | _ => exact ⟨nofun, by rintro ⟨_, h, -⟩; cases h⟩

end Chronicle

/-! ## A breaker follows the table

Move by move, with the conditions of the table found in the counters by the agreement with the
chronicle.
-/

namespace BreakerRun

variable {r s : BreakerRun} {c : Chronicle} {name : String} {e : BreakerEvent} {x : Reaction}
  {t : Ticket}

namespace Accounted

theorem present (h : Accounted r c) (found : r.calls.lookup name = some t)
    (ht : t.phase = r.breaker.phase) : c.Present name :=
  ⟨t, h.lookup found, ht.trans h.phases.symm⟩

theorem not_present (h : Accounted r c) (found : r.calls.lookup name = some t)
    (ht : t.phase ≠ r.breaker.phase) : ¬ c.Present name := by
  rintro ⟨u, hu, hp⟩
  rw [h.lookup found] at hu
  cases hu
  exact ht (hp.trans h.phases)

theorem not_present_of_missing (h : Accounted r c) (missing : r.calls.lookup name = none) :
    ¬ c.Present name := by
  rintro ⟨u, hu, -⟩
  rw [h.calls, missing] at hu
  cases hu

theorem late_iff (h : Accounted r c) :
    r.config.timeout ≤ r.now - r.breaker.since ↔ c.began + r.config.timeout ≤ r.now := by
  have hb := h.began
  have hl := h.since_le
  omega

/-- **The table of a breaker.** -/
theorem next_state (h : Accounted r c) (m : Move r e x s) :
    s.breaker.state = c.next r.config r.now r.breaker.state e := by
  cases m with
  | pass name hs => simp [Chronicle.next, hs]
  | refuse name hs early =>
    have he : ¬ c.began + r.config.timeout ≤ r.now := fun hl =>
      Nat.not_le.2 early (h.late_iff.2 hl)
    simp [Chronicle.next, hs, he]
  | wake name hs late =>
    simp [Chronicle.next, hs, BreakerEvent.looks, h.late_iff.1 late, Breaker.enter]
  | probe name hs free => simp [Chronicle.next, hs]
  | full name hs taken => simp [Chronicle.next, hs]
  | unknown name outcome missing =>
    -- a call that is not in flight is of no phase
    exact (Chronicle.next_idle (.inl (h.not_present_of_missing missing))).symm
  | inert name outcome t found why =>
    refine (Chronicle.next_idle ?_).symm
    rcases why with hp | ho | ⟨ha, -⟩
    · exact .inl (h.not_present found hp)
    · exact .inr (.inl ho)
    · exact .inr (.inr ha)
  | recover name t found present hs => simp [Chronicle.next, hs]
  | stumble name t found present hs below =>
    obtain ⟨-, -, hf, -⟩ := h.closed hs
    have hn : ¬ c.streak + 1 = r.config.limit := by omega
    simp [Chronicle.next, hs, hn]
  | trip name t found present hs reached =>
    obtain ⟨-, -, hf, hl⟩ := h.closed hs
    have hn : c.streak + 1 = r.config.limit := by omega
    simp [Chronicle.next, hs, Breaker.enter, h.present found present, hn]
  | gain name t found present hs below =>
    obtain ⟨hf, -⟩ := h.halfOpen hs
    have hn : ¬ c.successes + 1 = r.config.quota := by omega
    simp [Chronicle.next, hs, hn]
  | close name t found present hs reached =>
    obtain ⟨hf, -, hl, -⟩ := h.halfOpen hs
    have hn : c.successes + 1 = r.config.quota := by omega
    simp [Chronicle.next, hs, Breaker.enter, h.present found present, hn]
  | reopen name t found present hs =>
    simp [Chronicle.next, hs, Breaker.enter, h.present found present]
  | release name t found present held hs => simp [Chronicle.next, hs]
  | look early =>
    cases hs : r.breaker.state with
    | «open» =>
      have he : ¬ c.began + r.config.timeout ≤ r.now := fun hl =>
        Nat.not_le.2 (early hs) (h.late_iff.2 hl)
      simp [Chronicle.next, he]
    | closed | halfOpen => rfl
  | ripen hs late =>
    simp [Chronicle.next, hs, BreakerEvent.looks, h.late_iff.1 late, Breaker.enter]
  | reset => cases r.breaker.state <;> rfl
  | advance duration => cases r.breaker.state <;> simp [Chronicle.next, BreakerEvent.looks]

end Accounted

/-! ## An open breaker over time

While an open breaker sleeps, only the time goes on. So the time of its opening is still known when
somebody looks.
-/

/-- Nobody resets the breaker, and nobody looks at it from a time on. -/
def Sleeps (deadline : Nat) (r : BreakerRun) : List BreakerEvent → Prop
  | [] => True
  | e :: rest =>
    e ≠ .reset ∧ (e.looks = true → r.now < deadline) ∧ Sleeps deadline (r.step e).2 rest

/-- Whoever looks at a time looks before all later times. -/
theorem sleeps_of_early {deadline : Nat} {r : BreakerRun} {later : List BreakerEvent}
    (hr : .reset ∉ later) (early : (r.run later).2.now < deadline) : Sleeps deadline r later := by
  induction later generalizing r with
  | nil => trivial
  | cons e rest ih =>
    obtain ⟨he, hrest⟩ := List.ne_and_not_mem_of_not_mem_cons hr
    have hn : r.now < deadline := Nat.lt_of_le_of_lt (run_now_le r (e :: rest)) early
    exact ⟨he.symm, fun _ => hn, ih hrest early⟩

/-- What may happen meanwhile leaves an open breaker as it is. -/
theorem Move.asleep (m : Move r e x s) (ho : r.breaker.state = .open) (hr : e ≠ .reset)
    (early : e.looks = true → r.now - r.breaker.since < r.config.timeout) :
    s.breaker = r.breaker := by
  cases m with
  | refuse | unknown | inert | look | advance => rfl
  | wake name hs late => exact absurd (early rfl) (Nat.not_lt.2 late)
  | ripen hs late => exact absurd (early rfl) (Nat.not_lt.2 late)
  | reset => exact absurd rfl hr
  | pass _ hs | probe _ hs _ | full _ hs _ | recover _ _ _ _ hs | stumble _ _ _ _ hs _
  | trip _ _ _ _ hs _ | gain _ _ _ _ hs _ | close _ _ _ _ hs _ | reopen _ _ _ _ hs
  | release _ _ _ _ _ hs => exact absurd (ho.symm.trans hs) (by decide)

/-- An open breaker that is left alone, or looked at too early only, stays as it is. -/
theorem run_sleeps {deadline : Nat} {r : BreakerRun} {later : List BreakerEvent}
    (ho : r.breaker.state = .open) (hl : r.breaker.since ≤ r.now)
    (hd : deadline = r.breaker.since + r.config.timeout) (h : Sleeps deadline r later) :
    (r.run later).2.breaker = r.breaker := by
  induction later generalizing r with
  | nil => rfl
  | cons e rest ih =>
    obtain ⟨hr, early, hrest⟩ := h
    have m := step_move r e
    have hb : (r.step e).2.breaker = r.breaker := m.asleep ho hr fun hk => by
      have := early hk
      omega
    have hc : (r.step e).2.config = r.config := m.config
    -- the breaker is the same, so its timeout is over at the same time
    refine (ih ?_ ?_ ?_ hrest).trans hb
    · rw [hb]; exact ho
    · rw [hb]; exact Nat.le_trans hl m.now_le
    · rw [hb, hc]; exact hd

/-! ## The law -/

/-- When a breaker with a past changes its state, and what it makes of the calls meanwhile. -/
structure PhaseLaw (config : BreakerConfig) (r : BreakerRun) (c : Chronicle) : Prop where
  /-- Until the timeout is over an open breaker rejects every call and does nothing for it, however
  often it is called and whatever ends meanwhile. -/
  rejects : r.breaker.state = .open → ∀ later name, .reset ∉ later →
    (r.run later).2.now < c.began + config.timeout →
      (r.run later).2.step (.start name) = (.rejected .open, (r.run later).2)
  /-- The first to look at an open breaker after its timeout finds it half-open. -/
  wakes : r.breaker.state = .open → ∀ later, Sleeps (c.began + config.timeout) r later →
    c.began + config.timeout ≤ (r.run later).2.now → ∀ e, e.looks = true →
      ((r.run later).2.step e).2.breaker.state = .halfOpen
  /-- If that is a call, it is let through as a probe of the phase that begins. -/
  probes : r.breaker.state = .open → ∀ later, Sleeps (c.began + config.timeout) r later →
    c.began + config.timeout ≤ (r.run later).2.now → ∀ name,
      ((r.run later).2.step (.start name)).1 = .passed ∧
      ((r.run later).2.step (.start name)).2.calls =
        (name, ⟨c.phases + 1, true⟩) :: (r.run later).2.calls
  open_iff_of_closed : r.breaker.state = .closed → ∀ e, ((r.step e).2.breaker.state = .open ↔
    ∃ name, e = .finish name .failure ∧ c.Present name ∧ c.streak + 1 = config.limit)
  never_halfOpen : r.breaker.state = .closed → ∀ e, (r.step e).2.breaker.state ≠ .halfOpen
  halfOpen_iff_of_open : r.breaker.state = .open → ∀ e, ((r.step e).2.breaker.state = .halfOpen ↔
    e.looks = true ∧ c.began + config.timeout ≤ r.now)
  closed_iff_of_open : r.breaker.state = .open → ∀ e, ((r.step e).2.breaker.state = .closed ↔
    e = .reset)
  /-- A half-open breaker closes at the success that completes the quota of its phase. -/
  closed_iff_of_halfOpen : r.breaker.state = .halfOpen → ∀ e,
    ((r.step e).2.breaker.state = .closed ↔ e = .reset ∨
      ∃ name, e = .finish name .success ∧ c.Present name ∧ c.successes + 1 = config.quota)
  open_iff_of_halfOpen : r.breaker.state = .halfOpen → ∀ e, ((r.step e).2.breaker.state = .open ↔
    ∃ name, e = .finish name .failure ∧ c.Present name)
  /-- Whatever closes a breaker, it closes without failures. -/
  closes_clean : ∀ e, r.breaker.state ≠ .closed → (r.step e).2.breaker.state = .closed →
    (r.step e).2.breaker.failures = 0
  /-- Whatever opens a breaker, its timeout counts from then on. -/
  opens_now : ∀ e, r.breaker.state ≠ .open → (r.step e).2.breaker.state = .open →
    (r.step e).2.breaker.since = r.now ∧
    (c.note r.now e (r.step e).1 r.breaker.state (r.step e).2.breaker.state).began = r.now
  /-- The calls of a half-open phase are its probes. -/
  present_probe : r.breaker.state = .halfOpen → ∀ name, c.Present name →
    ∃ t, r.calls.lookup name = some t ∧ t.probe = true

/-- A change of state is dated now, and a breaker that closes holds nothing against anyone. -/
theorem Move.changes (m : Move r e x s) (hs : r.breaker.state ≠ s.breaker.state) :
    s.breaker.since = r.now ∧ (s.breaker.state = .closed → s.breaker.failures = 0) := by
  cases m with
  | wake | trip | close | reopen | ripen | reset =>
    refine ⟨rfl, fun hc => ?_⟩
    simp_all [Breaker.enter]
  | _ => exact absurd rfl hs

namespace Accounted

/-- An open breaker that has slept is as it was, and its timeout is over when the onlooker says. -/
theorem slept (h : Accounted r c) (ho : r.breaker.state = .open) {later : List BreakerEvent}
    (hs : Sleeps (c.began + r.config.timeout) r later) :
    (r.run later).2.breaker = r.breaker ∧ (r.run later).2.breaker.state = .open ∧
      ((r.run later).2.config.timeout ≤ (r.run later).2.now - (r.run later).2.breaker.since ↔
        c.began + r.config.timeout ≤ (r.run later).2.now) := by
  have hd : c.began + r.config.timeout = r.breaker.since + r.config.timeout := by rw [h.began]
  have hb := run_sleeps ho h.since_le hd hs
  refine ⟨hb, by rw [hb]; exact ho, ?_⟩
  have hl : r.breaker.since ≤ (r.run later).2.now := Nat.le_trans h.since_le (run_now_le r later)
  rw [hb, run_config, hd]
  omega

/-- The law of phases holds wherever a breaker and its chronicle agree. -/
theorem keeps_phases (h : Accounted r c) : PhaseLaw r.config r c where
  rejects ho later name hr early := by
    obtain ⟨-, ho', hl⟩ := h.slept ho (sleeps_of_early hr early)
    have he := Nat.lt_of_not_le fun hk => Nat.not_le.2 early (hl.1 hk)
    simp only [step, Breaker.ticket_early ho' he]
  wakes ho later hs late e he := by
    obtain ⟨-, ho', hl⟩ := h.slept ho hs
    cases e with
    | start name => simp only [step, Breaker.ticket_late ho' (hl.2 late), Breaker.enter]
    | look => simp only [step, Breaker.refresh_of_late ho' (hl.2 late), Breaker.enter]
    | _ => cases he
  probes ho later hs late name := by
    obtain ⟨hb, ho', hl⟩ := h.slept ho hs
    simp only [step, Breaker.ticket_late ho' (hl.2 late)]
    rw [hb, h.phases]
    exact ⟨trivial, rfl⟩
  -- these are the rows of the chronicle's table, which the breaker follows after every event
  open_iff_of_closed hs e := by
    rw [h.next_state (step_move r e), hs]
    exact Chronicle.next_closed_iff r.config r.now e
  never_halfOpen hs e := by
    rw [h.next_state (step_move r e), hs]
    exact Chronicle.next_closed_ne r.config r.now e
  halfOpen_iff_of_open hs e := by
    rw [h.next_state (step_move r e), hs]
    exact Chronicle.next_open_iff r.config r.now e
  closed_iff_of_open hs e := by
    rw [h.next_state (step_move r e), hs]
    exact Chronicle.next_open_closed_iff r.config r.now e
  closed_iff_of_halfOpen hs e := by
    rw [h.next_state (step_move r e), hs]
    exact Chronicle.next_halfOpen_closed_iff r.config r.now e
  open_iff_of_halfOpen hs e := by
    rw [h.next_state (step_move r e), hs]
    exact Chronicle.next_halfOpen_open_iff r.config r.now e
  closes_clean e hs hc := ((step_move r e).changes (by rw [hc]; exact hs)).2 hc
  opens_now e hs ho := by
    have m := step_move r e
    have hn : (r.step e).2.breaker.since = r.now := (m.changes (by rw [ho]; exact hs)).1
    exact ⟨hn, (h.move m).began.trans hn⟩
  present_probe hs name := by
    rintro ⟨t, ht, hp⟩
    rw [h.calls] at ht
    exact ⟨t, ht, h.probe_of_present ht (hp.trans h.phases) hs⟩

end Accounted

/-- **A breaker keeps the law of phases**, whatever its configuration and whatever has happened to
it since it was made. -/
theorem phase_law (config : BreakerConfig) (time : Nat) (events : List BreakerEvent) :
    PhaseLaw config (after config time events) (chronicle config time events) := by
  have h := (accounted config time events).keeps_phases
  rwa [after, run_config] at h

end BreakerRun

end Courier
