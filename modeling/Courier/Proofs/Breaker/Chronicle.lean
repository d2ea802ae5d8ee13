import Courier.Proofs.Breaker.Move

/-!
# What an onlooker writes down

The laws of a breaker speak of its past: of the calls let through in the present phase, of the
outcomes since the latest success, of the time at which it opened. The breaker itself keeps only
counters and the number of its phase. `Chronicle` is that past, kept by an onlooker who is told each
event, its reaction, and the state before and after it, and who reads none of the breaker's
counters: a phase begins where the state changes or the breaker is reset, and nowhere else.

`Accounted` says how the two agree, and `accounted` that they do after every run from a new breaker:
the tickets of the calls in flight are those the onlooker would have written, and each counter is
what the onlooker counts. The laws of the other modules are read off it.

Neither a failure to count nor a place that is lost could go unnoticed here: each counter of the
breaker is an expression in what the onlooker has written down, and the onlooker writes down each
event once.
-/

set_option autoImplicit false

namespace Courier

/-- Does a new phase begin? -/
def BreakerEvent.begins (e : BreakerEvent) (before after : CircuitState) : Bool :=
  decide (e = .reset ∨ before ≠ after)

/-- The past of a breaker, as far as the present phase and the calls in flight go. -/
structure Chronicle where
  /-- How many phases have begun since the breaker was made. -/
  phases : Nat := 0
  /-- When the present one began. -/
  began : Nat
  /-- The calls in flight, the latest first. The ticket tells the phase in which a call was let
  through, and whether the breaker was half-open then. -/
  calls : List (String × Ticket) := []
  /-- The outcomes of calls of the present phase, the latest first. -/
  outcomes : List Outcome := []
  deriving DecidableEq, Repr

namespace Chronicle

/-- A call in flight ends. Its outcome is written down if it is of the present phase. -/
def conclude (c : Chronicle) : BreakerEvent → Chronicle
  | .finish name outcome =>
    match c.calls.lookup name with
    | some t => { c with
        calls := BreakerRun.remove name c.calls
        outcomes := if t.phase = c.phases then outcome :: c.outcomes else c.outcomes }
    | none => c
  | .start _ | .look | .reset | .advance _ => c

/-- A phase may begin. The calls in flight stay. -/
def turn (c : Chronicle) (now : Nat) (begins : Bool) : Chronicle :=
  if begins then { c with phases := c.phases + 1, began := now, outcomes := [] } else c

/-- A call that is let through belongs to the phase in which that leaves the breaker. -/
def enrol (c : Chronicle) (after : CircuitState) : BreakerEvent → Reaction → Chronicle
  | .start name, .passed =>
    { c with calls := (name, ⟨c.phases, decide (after = .halfOpen)⟩) :: c.calls }
  | _, _ => c

/-- Writes down an event. -/
def note (c : Chronicle) (now : Nat) (e : BreakerEvent) (reaction : Reaction)
    (before after : CircuitState) : Chronicle :=
  ((c.conclude e).turn now (e.begins before after)).enrol after e reaction

/-- Writes down the events of a run. -/
def follow (c : Chronicle) (r : BreakerRun) : List BreakerEvent → Chronicle
  | [] => c
  | e :: rest =>
    let next := r.step e
    (c.note r.now e next.1 r.breaker.state next.2.breaker.state).follow next.2 rest

/-- How many probes of a phase are in flight. -/
def running (c : Chronicle) (phase : Nat) : Nat :=
  c.calls.countP fun x => x.2.probe && x.2.phase == phase

/-- Is the call in flight, and was it let through in the present phase? -/
def Present (c : Chronicle) (name : String) : Prop :=
  ∃ t, c.calls.lookup name = some t ∧ t.phase = c.phases

/-- How many calls of the present phase have succeeded. -/
def successes (c : Chronicle) : Nat := c.outcomes.count .success

/-- How many calls of the present phase have failed since the latest of them succeeded. A call that
was given up counts neither way. -/
def streak (c : Chronicle) : Nat :=
  ((c.outcomes.filter fun o => o ≠ .abandoned).takeWhile fun o => o = .failure).length

end Chronicle

namespace BreakerRun

/-- A new breaker. -/
def made (config : BreakerConfig) (time : Nat) : BreakerRun :=
  { config, breaker := { since := time }, now := time }

/-- A breaker made at a time, after some events. -/
def after (config : BreakerConfig) (time : Nat) (events : List BreakerEvent) : BreakerRun :=
  ((made config time).run events).2

/-- What has been written down of it by then. -/
def chronicle (config : BreakerConfig) (time : Nat) (events : List BreakerEvent) : Chronicle :=
  Chronicle.follow { began := time } (made config time) events

end BreakerRun

/-! ## Calls in flight

A list of tickets by the name of the call, the latest first. `Tagged` is the invariant on their
phases: no ticket is newer than the present phase, and those of the present phase are probes exactly
in a half-open one.
-/

namespace BreakerRun

variable {name : String} {calls : List (String × Ticket)} {t : Ticket}

theorem remove_eq_eraseP (name : String) (calls : List (String × Ticket)) :
    remove name calls = calls.eraseP fun x => x.1 == name := by
  induction calls with
  | nil => rfl
  | cons y rest ih =>
    by_cases h : y.1 = name
    · rw [remove, if_pos h, List.eraseP_cons_of_pos (by simpa using h)]
    · rw [remove, if_neg h, List.eraseP_cons_of_neg (by simpa using h), ih]

theorem mem_of_mem_remove {x : String × Ticket} (h : x ∈ remove name calls) : x ∈ calls := by
  rw [remove_eq_eraseP] at h
  exact List.mem_of_mem_eraseP h

/-- The call that ends is the latest of its name. -/
theorem remove_of_lookup (h : calls.lookup name = some t) :
    ∃ later earlier, calls = later ++ (name, t) :: earlier ∧
      remove name calls = later ++ earlier := by
  obtain ⟨later, earlier, hc, hn⟩ := List.lookup_eq_some_iff.1 h
  have ha : ∀ x ∈ later, ¬ (x.1 == name) = true := by
    intro x hx he
    have hb := hn x hx
    simp_all
  refine ⟨later, earlier, hc, ?_⟩
  rw [remove_eq_eraseP, hc, List.eraseP_append_right _ ha, List.eraseP_cons_of_pos (by simp)]

theorem mem_of_lookup (h : calls.lookup name = some t) : (name, t) ∈ calls := by
  obtain ⟨later, earlier, hc, -⟩ := remove_of_lookup h
  rw [hc]
  exact List.mem_append_right _ List.mem_cons_self

theorem countP_remove (p : String × Ticket → Bool) (h : calls.lookup name = some t) :
    calls.countP p = (remove name calls).countP p + if p (name, t) then 1 else 0 := by
  obtain ⟨later, earlier, hc, hr⟩ := remove_of_lookup h
  rw [hr, hc, List.countP_append, List.countP_append, List.countP_cons]
  omega

/-- No ticket is of a phase to come, and those of the present phase are probes if and only if the
breaker is half-open. -/
structure Tagged (phase : Nat) (state : CircuitState) (calls : List (String × Ticket)) : Prop where
  phase_le : ∀ x ∈ calls, x.2.phase ≤ phase
  probe_iff : ∀ x ∈ calls, x.2.phase = phase → (x.2.probe = true ↔ state = .halfOpen)

namespace Tagged

variable {phase : Nat} {state : CircuitState}

theorem remove (h : Tagged phase state calls) (name : String) :
    Tagged phase state (remove name calls) where
  phase_le x hx := h.phase_le x (mem_of_mem_remove hx)
  probe_iff x hx := h.probe_iff x (mem_of_mem_remove hx)

theorem enter (h : Tagged phase state calls) (after : CircuitState) :
    Tagged (phase + 1) after calls where
  phase_le x hx := Nat.le_succ_of_le (h.phase_le x hx)
  probe_iff x hx he := absurd (h.phase_le x hx) (by omega)

/-- A call that is let through gets a ticket that fits. -/
theorem push (h : Tagged phase state calls) (name : String) (probe : Bool)
    (hp : probe = true ↔ state = .halfOpen) :
    Tagged phase state ((name, ⟨phase, probe⟩) :: calls) where
  phase_le x hx := by
    rcases List.mem_cons.1 hx with rfl | hx
    · exact Nat.le_refl _
    · exact h.phase_le x hx
  probe_iff x hx he := by
    rcases List.mem_cons.1 hx with rfl | hx
    · exact hp
    · exact h.probe_iff x hx he

end Tagged

end BreakerRun

/-! ## What each event adds

One equation for each way an event can go, so that the proofs below never unfold `note`.
-/

namespace Chronicle

variable {c : Chronicle} {now : Nat} {state before after : CircuitState} {name : String}
  {outcome : Outcome} {t : Ticket}

theorem note_same {e : BreakerEvent} {x : Reaction} (he : e ≠ .reset) :
    c.note now e x state state = (c.conclude e).enrol state e x := by
  simp [note, turn, BreakerEvent.begins, he]

theorem note_begins {e : BreakerEvent} {x : Reaction} (h : e = .reset ∨ before ≠ after) :
    c.note now e x before after = ((c.conclude e).turn now true).enrol after e x := by
  rw [note, BreakerEvent.begins, decide_eq_true h]

theorem note_rejected (why : Rejection) :
    c.note now (.start name) (.rejected why) state state = c := note_same nofun

theorem note_passed (probe : Bool) (hp : probe = true ↔ state = .halfOpen) :
    c.note now (.start name) .passed state state =
      { c with calls := (name, ⟨c.phases, probe⟩) :: c.calls } := by
  have he : decide (state = .halfOpen) = probe := by
    rw [Bool.eq_iff_iff, decide_eq_true_iff]
    exact hp.symm
  rw [← he]
  exact note_same nofun

theorem note_woken (hb : before = .open) (ha : after = .halfOpen) :
    c.note now (.start name) .passed before after =
      { c.turn now true with calls := (name, ⟨c.phases + 1, true⟩) :: c.calls } := by
  subst hb ha
  exact note_begins (.inr nofun)

theorem note_unknown (h : c.calls.lookup name = none) :
    c.note now (.finish name outcome) .unknown state state = c := by
  have hc : c.conclude (.finish name outcome) = c := by simp only [conclude, h]
  exact Eq.trans (note_same nofun) hc

theorem note_finished :
    c.note now (.finish name outcome) (.finished outcome) state state =
      c.conclude (.finish name outcome) := note_same nofun

theorem note_turned (h : before ≠ after) :
    c.note now (.finish name outcome) (.finished outcome) before after =
      (c.conclude (.finish name outcome)).turn now true := note_begins (.inr h)

theorem note_look : c.note now .look .quiet state state = c := note_same nofun

theorem note_ripened (h : before ≠ after) :
    c.note now .look .quiet before after = c.turn now true := note_begins (.inr h)

theorem note_reset : c.note now .reset .quiet before after = c.turn now true :=
  note_begins (.inl rfl)

theorem note_advance (duration : Nat) :
    c.note now (.advance duration) .quiet state state = c := note_same nofun

theorem conclude_of_lookup (h : c.calls.lookup name = some t) (outcome : Outcome) :
    c.conclude (.finish name outcome) = { c with
      calls := BreakerRun.remove name c.calls
      outcomes := if t.phase = c.phases then outcome :: c.outcomes else c.outcomes } := by
  simp only [conclude, h]

theorem outcomes_present (h : c.calls.lookup name = some t) (ht : t.phase = c.phases)
    (outcome : Outcome) :
    (c.conclude (.finish name outcome)).outcomes = outcome :: c.outcomes := by
  rw [conclude_of_lookup h outcome]
  exact if_pos ht

theorem outcomes_stale (h : c.calls.lookup name = some t) (ht : t.phase ≠ c.phases)
    (outcome : Outcome) :
    (c.conclude (.finish name outcome)).outcomes = c.outcomes := by
  rw [conclude_of_lookup h outcome]
  exact if_neg ht

theorem phases_conclude (h : c.calls.lookup name = some t) (outcome : Outcome) :
    (c.conclude (.finish name outcome)).phases = c.phases := by
  rw [conclude_of_lookup h outcome]

theorem running_push (c : Chronicle) (name : String) (u : Ticket) (p : Nat) :
    ({ c with calls := (name, u) :: c.calls } : Chronicle).running p =
      c.running p + if u.probe && u.phase == p then 1 else 0 := List.countP_cons

theorem running_conclude (h : c.calls.lookup name = some t) (outcome : Outcome) (p : Nat) :
    c.running p = (c.conclude (.finish name outcome)).running p +
      if t.probe && t.phase == p then 1 else 0 := by
  rw [conclude_of_lookup h outcome]
  exact BreakerRun.countP_remove _ h

theorem streak_success {d : Chronicle} (h : d.outcomes = .success :: c.outcomes) :
    d.streak = 0 := by
  simp [streak, h]

theorem streak_failure {d : Chronicle} (h : d.outcomes = .failure :: c.outcomes) :
    d.streak = c.streak + 1 := by
  simp [streak, h]

theorem streak_abandoned {d : Chronicle} (h : d.outcomes = .abandoned :: c.outcomes) :
    d.streak = c.streak := by
  simp [streak, h]

end Chronicle

/-! ## The agreement

`Aligned` compares what a breaker shows with what was written down, `Counted` its counters. Both
together are the invariant of every run (`accounted`).
-/

namespace BreakerRun

/-- The breaker's numbers of phases, times and tickets are the onlooker's. -/
structure Aligned (r : BreakerRun) (c : Chronicle) : Prop where
  phases : c.phases = r.breaker.phase
  began : c.began = r.breaker.since
  calls : c.calls = r.calls
  since_le : r.breaker.since ≤ r.now
  tagged : Tagged r.breaker.phase r.breaker.state r.calls
  /-- No phase has more probes in flight than it has places. -/
  running_le : ∀ phase, c.running phase ≤ r.config.quota

/-- The breaker's counters are what the onlooker counts. -/
def Counted (config : BreakerConfig) (b : Breaker) (c : Chronicle) : Prop :=
  match b.state with
  | .closed => b.probes = 0 ∧ b.successes = 0 ∧ b.failures = c.streak ∧ b.failures < config.limit
  | .open => b.probes = 0 ∧ b.successes = 0 ∧ b.failures = config.limit
  | .halfOpen =>
    b.successes = c.successes ∧ b.probes = b.successes + c.running c.phases ∧
      b.successes < config.quota ∧ b.probes ≤ config.quota ∧ b.failures = config.limit

/-- A breaker and its chronicle agree. -/
structure Accounted (r : BreakerRun) (c : Chronicle) : Prop extends Aligned r c where
  counted : Counted r.config r.breaker c

namespace Aligned

variable {r : BreakerRun} {c : Chronicle} {name : String} {t : Ticket}

/-- No probe of a phase to come is in flight. -/
theorem running_next (h : Aligned r c) : c.running (c.phases + 1) = 0 := by
  rw [Chronicle.running, List.countP_eq_zero]
  intro x hx hp
  have hle : x.2.phase ≤ r.breaker.phase := h.tagged.phase_le x (h.calls ▸ hx)
  have hph := h.phases
  simp only [Bool.and_eq_true, beq_iff_eq] at hp
  omega

/-- Only the phase, its state and its beginning matter. -/
theorem congr (h : Aligned r c) {b : Breaker} (hp : b.phase = r.breaker.phase)
    (hs : b.state = r.breaker.state) (hb : b.since = r.breaker.since) :
    Aligned { r with breaker := b } c where
  phases := h.phases.trans hp.symm
  began := h.began.trans hb.symm
  calls := h.calls
  since_le := by rw [hb]; exact h.since_le
  tagged := by rw [hp, hs]; exact h.tagged
  running_le := h.running_le

/-- A call that ends is taken out on both sides. -/
theorem conclude (h : Aligned r c) (found : r.calls.lookup name = some t) (outcome : Outcome) :
    Aligned (r.without name) (c.conclude (.finish name outcome)) := by
  have hf : c.calls.lookup name = some t := by rw [h.calls]; exact found
  have hc := Chronicle.conclude_of_lookup hf outcome
  refine ⟨?_, ?_, ?_, h.since_le, h.tagged.remove name, fun p => ?_⟩
  · rw [hc]; exact h.phases
  · rw [hc]; exact h.began
  · rw [hc]; exact congrArg (remove name) h.calls
  · have hr := Chronicle.running_conclude hf outcome p
    exact Nat.le_trans (by omega) (h.running_le p)

theorem enter (h : Aligned r c) (failures : Nat) (after : CircuitState) :
    Aligned { r with breaker := { r.breaker with failures := failures }.enter r.now after }
      (c.turn r.now true) where
  phases := congrArg (· + 1) h.phases
  began := rfl
  calls := h.calls
  since_le := Nat.le_refl _
  tagged := h.tagged.enter after
  running_le := h.running_le

/-- A call is let through; in a half-open phase that takes a free place. -/
theorem push (h : Aligned r c) (name : String) (probe : Bool)
    (hp : probe = true ↔ r.breaker.state = .halfOpen)
    (free : probe = true → c.running c.phases < r.config.quota) :
    Aligned { r with calls := (name, ⟨r.breaker.phase, probe⟩) :: r.calls }
      { c with calls := (name, ⟨c.phases, probe⟩) :: c.calls } where
  phases := h.phases
  began := h.began
  calls := by rw [h.phases, h.calls]
  since_le := h.since_le
  tagged := h.tagged.push name probe hp
  running_le p := by
    rw [Chronicle.running_push]
    split
    · rename_i hq
      simp only [Bool.and_eq_true, beq_iff_eq] at hq
      rw [← hq.2]
      exact free hq.1
    · exact h.running_le p

end Aligned

/-- A phase begins with no probes and no successes; only a closed one without failures. -/
theorem counted_enter {config : BreakerConfig} {b : Breaker} {c : Chronicle} (now : Nat)
    {after : CircuitState} (hf : after ≠ .closed → b.failures = config.limit)
    (hr : c.running c.phases = 0) (ho : c.outcomes = []) :
    Counted config (b.enter now after) c := by
  have hl := config.limit_pos
  have hq := config.quota_pos
  cases after with
  | closed => simp [Counted, Breaker.enter, Chronicle.streak, ho, hl]
  | «open» => simp [Counted, Breaker.enter, hf]
  | halfOpen => simp [Counted, Breaker.enter, Chronicle.successes, ho, hr, hq, hf]

namespace Accounted

variable {r s : BreakerRun} {c : Chronicle} {e : BreakerEvent} {x : Reaction} {name : String}
  {t : Ticket}

theorem closed (h : Accounted r c) (hs : r.breaker.state = .closed) :
    r.breaker.probes = 0 ∧ r.breaker.successes = 0 ∧ r.breaker.failures = c.streak ∧
      r.breaker.failures < r.config.limit := by
  have hc := h.counted
  rwa [Counted, hs] at hc

theorem opened (h : Accounted r c) (hs : r.breaker.state = .open) :
    r.breaker.probes = 0 ∧ r.breaker.successes = 0 ∧ r.breaker.failures = r.config.limit := by
  have hc := h.counted
  rwa [Counted, hs] at hc

theorem halfOpen (h : Accounted r c) (hs : r.breaker.state = .halfOpen) :
    r.breaker.successes = c.successes ∧
      r.breaker.probes = r.breaker.successes + c.running c.phases ∧
      r.breaker.successes < r.config.quota ∧ r.breaker.probes ≤ r.config.quota ∧
      r.breaker.failures = r.config.limit := by
  have hc := h.counted
  rwa [Counted, hs] at hc

theorem failures_of_ne (h : Accounted r c) (hs : r.breaker.state ≠ .closed) :
    r.breaker.failures = r.config.limit := by
  cases ho : r.breaker.state with
  | closed => exact absurd ho hs
  | «open» => exact (h.opened ho).2.2
  | halfOpen => exact (h.halfOpen ho).2.2.2.2

theorem lookup (h : Accounted r c) (found : r.calls.lookup name = some t) :
    c.calls.lookup name = some t := by
  rw [h.calls]
  exact found

theorem outcomes_present (h : Accounted r c) (found : r.calls.lookup name = some t)
    (present : t.phase = r.breaker.phase) (outcome : Outcome) :
    (c.conclude (.finish name outcome)).outcomes = outcome :: c.outcomes :=
  Chronicle.outcomes_present (h.lookup found) (present.trans h.phases.symm) outcome

theorem probe_of_present (h : Accounted r c) (found : r.calls.lookup name = some t)
    (present : t.phase = r.breaker.phase) (hs : r.breaker.state = .halfOpen) : t.probe = true :=
  (h.tagged.probe_iff _ (mem_of_lookup found) present).2 hs

theorem running_present (h : Accounted r c) (found : r.calls.lookup name = some t)
    (present : t.phase = r.breaker.phase) (hs : r.breaker.state = .halfOpen) (outcome : Outcome) :
    c.running c.phases = (c.conclude (.finish name outcome)).running c.phases + 1 := by
  have hr := Chronicle.running_conclude (h.lookup found) outcome c.phases
  rw [h.probe_of_present found present hs, present, ← h.phases] at hr
  simpa using hr

theorem enter (h : Aligned r c) (failures : Nat) (after : CircuitState)
    (hf : after ≠ .closed → failures = r.config.limit) :
    Accounted { r with breaker := { r.breaker with failures := failures }.enter r.now after }
      (c.turn r.now true) where
  toAligned := h.enter failures after
  counted := counted_enter r.now hf h.running_next rfl

/-- An outcome of an earlier phase leaves every count of the present one as it is. -/
theorem stale (h : Accounted r c) (found : r.calls.lookup name = some t)
    (ht : t.phase ≠ r.breaker.phase) (outcome : Outcome) :
    Counted r.config r.breaker (c.conclude (.finish name outcome)) := by
  have hf := h.lookup found
  -- the ticket is of another phase for the onlooker too, so that neither outcomes nor probes are
  -- counted
  have hne : t.phase ≠ c.phases := by rw [h.phases]; exact ht
  have ho := Chronicle.outcomes_stale hf hne outcome
  have hp := Chronicle.phases_conclude hf outcome
  have hr : c.running c.phases = (c.conclude (.finish name outcome)).running c.phases := by
    have hr := Chronicle.running_conclude hf outcome c.phases
    simpa [hne] using hr
  have hc := h.counted
  simp only [Counted, Chronicle.streak, Chronicle.successes, ho, hp, ← hr] at hc ⊢
  exact hc

/-- A call of the present phase that holds no place and is given up changes no count, and neither
does one that ends while the breaker is open. -/
theorem idle (h : Accounted r c) (found : r.calls.lookup name = some t)
    (present : t.phase = r.breaker.phase) {outcome : Outcome}
    (why : r.breaker.state = .open ∨
      (outcome = .abandoned ∧ (t.probe = false ∨ r.breaker.state = .closed))) :
    Counted r.config r.breaker (c.conclude (.finish name outcome)) := by
  cases hs : r.breaker.state with
  | «open» =>
    rw [Counted, hs]
    exact h.opened hs
  | closed =>
    obtain ⟨rfl, -⟩ := why.resolve_left (by simp [hs])
    obtain ⟨h1, h2, h3, h4⟩ := h.closed hs
    rw [Counted, hs]
    refine ⟨h1, h2, ?_, h4⟩
    rw [Chronicle.streak_abandoned (h.outcomes_present found present .abandoned), h3]
  | halfOpen =>
    -- a call of a half-open phase is a probe, so it does hold a place
    obtain ⟨-, hp⟩ := why.resolve_left (by simp [hs])
    have ht := h.probe_of_present found present hs
    simp [ht, hs] at hp

/-- **Every move keeps the agreement.** -/
theorem move (h : Accounted r c) (m : Move r e x s) :
    Accounted s (c.note r.now e x r.breaker.state s.breaker.state) := by
  cases m with
  | pass name hs =>
    rw [Chronicle.note_passed false (by simp [hs])]
    refine ⟨h.toAligned.push name false (by simp [hs]) nofun, ?_⟩
    rw [Counted, hs]
    exact h.closed hs
  | refuse name hs early => rw [Chronicle.note_rejected]; exact h
  | wake name hs late =>
    have hn : Aligned _ (c.turn r.now true) := h.toAligned.enter r.breaker.failures .halfOpen
    have h0 : (c.turn r.now true).running (c.turn r.now true).phases = 0 := h.running_next
    have hq := r.config.quota_pos
    rw [Chronicle.note_woken hs (by rfl)]
    have hp := hn.push name true (by simp [Breaker.enter]) fun _ => by rw [h0]; exact hq
    refine ⟨hp.congr rfl rfl rfl, rfl, ?_, hq, hq, (h.opened hs).2.2⟩
    -- its first probe is the only one in flight
    have hr := Chronicle.running_push (c.turn r.now true) name ⟨c.phases + 1, true⟩ (c.phases + 1)
    rw [show (c.turn r.now true).running (c.phases + 1) = 0 from h0] at hr
    exact ((Nat.zero_add _).trans (hr.trans (by simp))).symm
  | probe name hs free =>
    obtain ⟨h1, h2, h3, h4, h5⟩ := h.halfOpen hs
    rw [Chronicle.note_passed true (by simp [hs])]
    refine ⟨(h.toAligned.push name true (by simp [hs]) fun _ => by omega).congr rfl rfl rfl, ?_⟩
    rw [Counted, hs]
    refine ⟨h1, ?_, h3, free, h5⟩
    rw [Chronicle.running_push]
    simp [h2, Nat.add_assoc]
  | full name hs taken => rw [Chronicle.note_rejected]; exact h
  | unknown name outcome missing =>
    rw [Chronicle.note_unknown (by rw [h.calls]; exact missing)]
    exact h
  | inert name outcome t found why =>
    have hc : Counted r.config r.breaker (c.conclude (.finish name outcome)) := by
      by_cases ht : t.phase = r.breaker.phase
      · exact h.idle found ht (why.resolve_left fun hne => hne ht)
      · exact h.stale found ht outcome
    exact Chronicle.note_finished ▸ ⟨h.toAligned.conclude found outcome, hc⟩
  | recover name t found present hs =>
    obtain ⟨h1, h2, -, -⟩ := h.closed hs
    have ho := h.outcomes_present found present .success
    rw [Chronicle.note_finished]
    refine ⟨(h.toAligned.conclude found .success).congr rfl rfl rfl, ?_⟩
    rw [Counted, hs]
    exact ⟨h1, h2, (Chronicle.streak_success ho).symm, r.config.limit_pos⟩
  | stumble name t found present hs below =>
    obtain ⟨h1, h2, h3, -⟩ := h.closed hs
    have ho := h.outcomes_present found present .failure
    rw [Chronicle.note_finished]
    refine ⟨(h.toAligned.conclude found .failure).congr rfl rfl rfl, ?_⟩
    rw [Counted, hs]
    exact ⟨h1, h2, by rw [Chronicle.streak_failure ho, h3], below⟩
  -- the count can only just have reached the limit, since it was below it before
  | trip name t found present hs reached =>
    have hf : r.breaker.failures + 1 = r.config.limit :=
      Nat.le_antisymm (h.closed hs).2.2.2 reached
    rw [Chronicle.note_turned (by simp [hs, Breaker.enter])]
    exact enter (h.toAligned.conclude found .failure) (r.breaker.failures + 1) .open fun _ => hf
  | gain name t found present hs below =>
    obtain ⟨h1, h2, -, h4, h5⟩ := h.halfOpen hs
    have ho := h.outcomes_present found present .success
    have hr := h.running_present found present hs .success
    rw [Chronicle.note_finished]
    refine ⟨(h.toAligned.conclude found .success).congr rfl rfl rfl, ?_⟩
    rw [Counted, hs]
    refine ⟨?_, ?_, below, h4, h5⟩
    · rw [Chronicle.successes, ho, List.count_cons_self, ← Chronicle.successes, h1]
    · rw [Chronicle.phases_conclude (h.lookup found)]
      simp only
      omega
  | close name t found present hs reached =>
    rw [Chronicle.note_turned (by simp [hs, Breaker.enter])]
    exact enter (h.toAligned.conclude found .success) r.breaker.failures .closed
      fun hne => absurd rfl hne
  | reopen name t found present hs =>
    have hf := h.failures_of_ne (by rw [hs]; decide)
    rw [Chronicle.note_turned (by simp [hs, Breaker.enter])]
    exact enter (h.toAligned.conclude found .failure) r.breaker.failures .open fun _ => hf
  -- one place less is taken and one probe less is running: the difference stays the successes
  | release name t found present held hs =>
    obtain ⟨h1, h2, h3, h4, h5⟩ := h.halfOpen hs
    have ho := h.outcomes_present found present .abandoned
    have hr := h.running_present found present hs .abandoned
    rw [Chronicle.note_finished]
    refine ⟨(h.toAligned.conclude found .abandoned).congr rfl rfl rfl, ?_⟩
    rw [Counted, hs]
    refine ⟨?_, ?_, h3, Nat.le_trans (Nat.sub_le _ _) h4, h5⟩
    · rw [Chronicle.successes, ho, List.count_cons_of_ne (by decide), ← Chronicle.successes, h1]
    · rw [Chronicle.phases_conclude (h.lookup found)]
      simp only
      omega
  | look early => rw [Chronicle.note_look]; exact h
  | ripen hs late =>
    rw [Chronicle.note_ripened (by simp [hs, Breaker.enter])]
    exact enter h.toAligned r.breaker.failures .halfOpen fun _ => (h.opened hs).2.2
  | reset =>
    rw [Chronicle.note_reset]
    exact enter h.toAligned r.breaker.failures .closed fun hne => absurd rfl hne
  | advance duration =>
    rw [Chronicle.note_advance]
    exact ⟨{ h.toAligned with since_le := Nat.le_trans h.since_le (Nat.le_add_right _ _) },
      h.counted⟩

theorem made (config : BreakerConfig) (time : Nat) :
    Accounted (made config time) { began := time } where
  phases := rfl
  began := rfl
  calls := rfl
  since_le := Nat.le_refl _
  tagged := ⟨nofun, nofun⟩
  running_le _ := Nat.zero_le _
  counted := ⟨rfl, rfl, rfl, config.limit_pos⟩

theorem follow (h : Accounted r c) (events : List BreakerEvent) :
    Accounted (r.run events).2 (c.follow r events) := by
  induction events generalizing r c with
  | nil => exact h
  | cons e rest ih => exact ih (h.move (step_move r e))

end Accounted

/-- **A breaker and the chronicle of its run agree**, whatever has happened to it. -/
theorem accounted (config : BreakerConfig) (time : Nat) (events : List BreakerEvent) :
    Accounted (after config time events) (chronicle config time events) :=
  (Accounted.made config time).follow events

/-- One probe fails while another runs: of the half-open phase only that ticket is left. -/
example :
    chronicle { maxFailures := 1, timeout := 10, halfOpenMax := 2 } 0
      [.start "a", .finish "a" .failure, .advance 10, .start "b", .start "c",
        .finish "b" .failure] =
    { phases := 3, began := 10, calls := [("c", ⟨2, true⟩)], outcomes := [] } := by decide

end BreakerRun

end Courier
