import Courier.Proofs.Breaker.Chronicle

/-!
# Outcomes that come too late

A call may still be on its way when its phase is over, and the breaker may since have come back to
the state in which it let the call through. Then it makes no difference to anyone how the call ends,
or whether it ever does: two runs that differ in nothing else leave the breaker in the same state,
to the last field, after every step.

The proof keeps two runs side by side (`Beside`). They agree on the breaker and on all other calls,
and whatever is in flight under the name of the late call carries the ticket of an earlier phase in
both. That phase never comes back: the number of the present one only grows, and it has grown since
the call was let through (`phase_lt_of_turns`).
-/

set_option autoImplicit false

namespace Courier

/-- Does a call of that name start or end? -/
def BreakerEvent.about (name : String) : BreakerEvent → Bool
  | .start other | .finish other _ => decide (other = name)
  | .look | .reset | .advance _ => false

theorem BreakerEvent.eq_finish_of_about {name : String} {e : BreakerEvent}
    (h : e.about name = true) (hn : e ≠ .start name) : ∃ outcome, e = .finish name outcome := by
  cases e with
  | start other => exact absurd (congrArg BreakerEvent.start (of_decide_eq_true h)) hn
  | finish other outcome => exact ⟨outcome, by rw [of_decide_eq_true h]⟩
  | look | reset | advance => cases h

namespace BreakerRun

variable {name other : String} {calls : List (String × Ticket)} {r s : BreakerRun}
  {e : BreakerEvent} {x : Reaction}

/-- Does a new phase begin in the course of the events? -/
def turns (r : BreakerRun) : List BreakerEvent → Bool
  | [] => false
  | e :: rest =>
    let next := (r.step e).2
    e.begins r.breaker.state next.breaker.state || next.turns rest

/-- What an event leaves behind: what came of it, the whole breaker, and the time. A view of the
breaker is read off the last two. -/
structure Aftermath where
  reaction : Reaction
  breaker : Breaker
  now : Nat
  deriving DecidableEq, Repr

/-- What each event leaves behind that is not about the call of that name. -/
def apartFrom (name : String) (r : BreakerRun) : List BreakerEvent → List Aftermath
  | [] => []
  | e :: rest =>
    let next := r.step e
    let more := apartFrom name next.2 rest
    if e.about name then more else ⟨next.1, next.2.breaker, next.2.now⟩ :: more

/-! ## Phases and calls of a name -/

/-- The number of the phase grows by one where a phase begins, and nowhere else. -/
theorem Move.phase (m : Move r e x s) :
    s.breaker.phase =
      r.breaker.phase + if e.begins r.breaker.state s.breaker.state then 1 else 0 := by
  cases m with
  | wake _ hs | trip _ _ _ _ hs | close _ _ _ _ hs | reopen _ _ _ _ hs | ripen hs =>
    simp [BreakerEvent.begins, Breaker.enter, hs]
  | reset => simp [BreakerEvent.begins, Breaker.enter]
  | _ => simp [BreakerEvent.begins, without]

theorem Move.phase_le (m : Move r e x s) : r.breaker.phase ≤ s.breaker.phase := by
  rw [m.phase]
  exact Nat.le_add_right _ _

theorem run_phase_le (r : BreakerRun) (events : List BreakerEvent) :
    r.breaker.phase ≤ (r.run events).2.breaker.phase :=
  run_preserves (P := fun s => r.breaker.phase ≤ s.breaker.phase)
    (fun s e h => Nat.le_trans h (step_move s e).phase_le) (Nat.le_refl _) events

/-- Once the breaker has changed its state or been reset, the phase is a later one for good. -/
theorem phase_lt_of_turns {events : List BreakerEvent} (h : r.turns events = true) :
    r.breaker.phase < (r.run events).2.breaker.phase := by
  induction events generalizing r with
  | nil => cases h
  | cons e rest ih =>
    have m := step_move r e
    -- it grows at the first event that begins a phase, and never falls afterwards
    rcases Bool.or_eq_true_iff.1 h with hb | hrest
    · have hp := m.phase
      rw [if_pos hb] at hp
      exact Nat.lt_of_lt_of_le (Nat.lt_of_lt_of_eq (Nat.lt_succ_self _) hp.symm)
        (run_phase_le (r.step e).2 rest)
    · exact Nat.lt_of_le_of_lt m.phase_le (ih hrest)

/-- A call of a name is let through by an event about that name only. -/
theorem Move.mem_calls (m : Move r e x s) (he : e.about name = false) {y : String × Ticket}
    (hy : y ∈ s.calls) (hn : y.1 = name) : y ∈ r.calls := by
  cases m with
  | pass other | wake other | probe other =>
    rcases List.mem_cons.1 hy with rfl | hy
    · exact absurd hn (of_decide_eq_false he)
    · exact hy
  | inert | recover | stumble | trip | gain | close | reopen | release =>
    exact mem_of_mem_remove hy
  | _ => exact hy

/-- The calls of other names. -/
def others (name : String) (calls : List (String × Ticket)) : List (String × Ticket) :=
  calls.filter fun y => decide (y.1 ≠ name)

/-- Calls of other names are found among the others. -/
theorem lookup_others (hn : other ≠ name) :
    (others name calls).lookup other = calls.lookup other := by
  induction calls with
  | nil => rfl
  | cons y rest ih =>
    by_cases hy : y.1 = name
    · have ho : (other == y.1) = false := beq_eq_false_iff_ne.2 (hy ▸ hn)
      rw [others, List.filter_cons_of_neg (by simpa using hy), List.lookup_cons, ho]
      exact ih
    · rw [others, List.filter_cons_of_pos (by simpa using hy), List.lookup_cons, List.lookup_cons]
      cases other == y.1 with
      | true => rfl
      | false => exact ih

theorem others_remove_self : others name (remove name calls) = others name calls := by
  induction calls with
  | nil => rfl
  | cons y rest ih =>
    by_cases hy : y.1 = name
    · simp [remove, others, hy]
    · simpa [remove, others, hy] using ih

/-- A call of another name that ends is taken out of the others too. Only calls of the one name are
looked past. -/
theorem others_remove (hn : other ≠ name) :
    others name (remove other calls) = remove other (others name calls) := by
  induction calls with
  | nil => rfl
  | cons y rest ih =>
    by_cases ho : y.1 = other
    · have hy : y.1 ≠ name := ho ▸ hn
      simp [remove, others, ho, hn]
    · by_cases hy : y.1 = name
      · simpa [remove, others, ho, hy, hn.symm] using ih
      · simpa [remove, others, ho, hy] using ih

/-! ## Two runs side by side

The two runs have one breaker and differ in the calls of one name at most, all of them of earlier
phases. However such a call ends, it leaves the list and nothing else changes.
-/

/-- Calls of that name in flight belong to earlier phases. -/
def Outdated (name : String) (r : BreakerRun) : Prop :=
  ∀ y ∈ r.calls, y.1 = name → y.2.phase < r.breaker.phase

theorem Outdated.step (h : Outdated name r) (he : e.about name = false) :
    Outdated name (r.step e).2 := by
  intro y hy hn
  have m := step_move r e
  exact Nat.lt_of_lt_of_le (h y (m.mem_calls he hy hn) hn) m.phase_le

/-- A late call that ends changes the list of calls and nothing else. -/
theorem Outdated.finish_eq (h : Outdated name r) (outcome : Outcome) :
    (r.step (.finish name outcome)).2 = r ∨
      (r.step (.finish name outcome)).2 = r.without name := by
  cases found : r.calls.lookup name with
  | none =>
    left
    simp only [BreakerRun.step, found]
  | some t =>
    right
    have ht : t.phase ≠ r.breaker.phase := Nat.ne_of_lt (h _ (mem_of_lookup found) rfl)
    simp only [BreakerRun.step, found, Breaker.settle_stale ht]
    rfl

/-- The same but for outdated calls of one name. -/
structure Beside (name : String) (r s : BreakerRun) : Prop where
  config : s.config = r.config
  breaker : s.breaker = r.breaker
  now : s.now = r.now
  calls : others name s.calls = others name r.calls
  outdated : Outdated name r
  outdated_right : Outdated name s

namespace Beside

theorem refl (h : Outdated name r) : Beside name r r := ⟨rfl, rfl, rfl, rfl, h, h⟩

theorem lookup (h : Beside name r s) (hn : other ≠ name) :
    s.calls.lookup other = r.calls.lookup other := by
  rw [← lookup_others hn, h.calls, lookup_others hn]

/-- The late call ends in the first of the runs. -/
theorem finish (h : Beside name r s) (outcome : Outcome) :
    Beside name (r.step (.finish name outcome)).2 s := by
  rcases h.outdated.finish_eq outcome with hr | hr
  · rw [hr]
    exact h
  · rw [hr]
    refine ⟨h.config, h.breaker, h.now, h.calls.trans others_remove_self.symm, ?_,
      h.outdated_right⟩
    exact fun y hy hn => h.outdated y (mem_of_mem_remove hy) hn

/-- An event that is not about the late call does the same in both. -/
theorem step (h : Beside name r s) (he : e.about name = false) :
    (s.step e).1 = (r.step e).1 ∧ Beside name (r.step e).2 (s.step e).2 := by
  have hr := h.outdated.step he
  have hs := h.outdated_right.step he
  have hl (other : String) (hn : other ≠ name) := h.lookup hn
  obtain ⟨config, b, now, calls⟩ := r
  obtain ⟨config', b', now', calls'⟩ := s
  obtain rfl : config' = config := h.config
  obtain rfl : b' = b := h.breaker
  obtain rfl : now' = now := h.now
  have hc : others name calls' = others name calls := h.calls
  cases e with
  | start other =>
    have hn : other ≠ name := of_decide_eq_false he
    -- both ask the same breaker at the same time, so that they get the same ticket or the same
    -- rejection
    cases ht : b'.ticket config' now' with
    | mk answer b =>
      cases answer with
      | error why =>
        simp only [BreakerRun.step, ht] at hr hs ⊢
        exact ⟨trivial, rfl, rfl, rfl, hc, hr, hs⟩
      | ok t =>
        simp only [BreakerRun.step, ht] at hr hs ⊢
        refine ⟨trivial, rfl, rfl, rfl, ?_, hr, hs⟩
        simpa [others, hn] using hc
  | finish other outcome =>
    have hn : other ≠ name := of_decide_eq_false he
    have ho : calls'.lookup other = calls.lookup other := hl other hn
    cases found : calls.lookup other with
    | none =>
      simp only [BreakerRun.step, ho, found] at hr hs ⊢
      exact ⟨trivial, rfl, rfl, rfl, hc, hr, hs⟩
    | some t =>
      simp only [BreakerRun.step, ho, found] at hr hs ⊢
      refine ⟨trivial, rfl, rfl, rfl, ?_, hr, hs⟩
      simp only [others_remove hn, hc]
  | look | reset | advance => exact ⟨rfl, rfl, rfl, rfl, hc, hr, hs⟩

/-- A run leaves the same behind as one without the end of the late call. -/
theorem run (h : Beside name r s) {events : List BreakerEvent} (hn : .start name ∉ events) :
    apartFrom name r events = apartFrom name s (events.filter fun e => !e.about name) ∧
      Beside name (r.run events).2 (s.run (events.filter fun e => !e.about name)).2 := by
  -- by induction on the events of the first run; those about the late call are missing from the
  -- second
  induction events generalizing r s with
  | nil => exact ⟨rfl, h⟩
  | cons e rest ih =>
    obtain ⟨hne, hrest⟩ := List.ne_and_not_mem_of_not_mem_cons hn
    cases he : e.about name with
    | false =>
      obtain ⟨hx, hnext⟩ := h.step he
      obtain ⟨htail, hend⟩ := ih hnext hrest
      rw [List.filter_cons_of_pos (by simp [he])]
      refine ⟨?_, hend⟩
      simp only [apartFrom, he, hx, hnext.breaker, hnext.now, htail]
    | true =>
      rw [List.filter_cons_of_neg (by simp [he])]
      obtain ⟨outcome, rfl⟩ := BreakerEvent.eq_finish_of_about he hne.symm
      obtain ⟨htail, hend⟩ := ih (h.finish outcome) hrest
      refine ⟨?_, hend⟩
      simp only [apartFrom, he, htail, if_true]

end Beside

/-- Calls of a name that nothing has been about since are outdated once a phase has begun. -/
theorem outdated_of_turns {r : BreakerRun} {between : List BreakerEvent}
    (tagged : Tagged r.breaker.phase r.breaker.state r.calls)
    (silent : ∀ e ∈ between, e.about name = false) (turned : r.turns between = true) :
    Outdated name (r.run between).2 := by
  have hk : ∀ y ∈ (r.run between).2.calls, y.1 = name → y ∈ r.calls := by
    clear tagged turned
    induction between generalizing r with
    | nil => exact fun y hy _ => hy
    | cons e rest ih =>
      intro y hy hn
      have hy' := ih (fun e he => silent e (List.mem_cons_of_mem _ he)) y hy hn
      exact (step_move r e).mem_calls (silent e List.mem_cons_self) hy' hn
  intro y hy hn
  exact Nat.lt_of_le_of_lt (tagged.phase_le y (hk y hy hn)) (phase_lt_of_turns turned)

/-- Nothing but the call of that name itself can tell the one course of events from the other: all
other events leave the same behind, and so does the whole. -/
def Indistinct (name : String) (r : BreakerRun) (first second : List BreakerEvent) : Prop :=
  apartFrom name r first = apartFrom name r second ∧
    (r.run first).2.breaker = (r.run second).2.breaker

/-- **Late outcomes are inert.** A call has started, and while it runs the breaker changes its state
or is reset. From then on, two courses of events that differ only in how and when the call ends, and
whether it does, cannot be told from one another; the same goes for what there is of them at any
time. No other call goes by its name. -/
theorem late_outcomes_inert (config : BreakerConfig) (time : Nat)
    (before between first second : List BreakerEvent) (name : String)
    (silent : ∀ e ∈ between, e.about name = false)
    (turned : (after config time (before ++ [.start name])).turns between = true)
    (own : .start name ∉ first ∧ .start name ∉ second)
    (same : (first.filter fun e => !e.about name) = second.filter fun e => !e.about name) :
    Indistinct name (after config time (before ++ .start name :: between)) first second := by
  have tagged := (accounted config time (before ++ [.start name])).tagged
  have hb : before ++ .start name :: between = (before ++ [.start name]) ++ between := by simp
  have hl : after config time (before ++ .start name :: between) =
      ((after config time (before ++ [.start name])).run between).2 := by
    rw [after, hb, run_append]
    rfl
  have h : Beside name _ _ := .refl (outdated_of_turns tagged silent turned)
  rw [hl]
  obtain ⟨hf, hfirst⟩ := h.run own.1
  obtain ⟨hs, hsecond⟩ := h.run own.2
  rw [← same] at hs hsecond
  exact ⟨hf.trans hs.symm, hfirst.breaker.symm.trans hsecond.breaker⟩

/-- A probe of one half-open phase succeeds in the next one, or never ends: the breaker closes after
as many probes of its own. -/
theorem late_outcomes_inert_next_halfOpen :
    let config : BreakerConfig := { maxFailures := 1, timeout := 10, halfOpenMax := 2 }
    let before : List BreakerEvent := [.start "a", .finish "a" .failure, .advance 10]
    let between : List BreakerEvent :=
      [.start "b", .finish "b" .failure, .advance 10, .start "c"]
    let rest : List BreakerEvent := [.start "d", .finish "c" .success, .finish "d" .success]
    (after config 0 (before ++ [.start "old"])).breaker.state = .halfOpen ∧
      (after config 0 (before ++ .start "old" :: between)).breaker.state = .halfOpen ∧
      ((after config 0 (before ++ .start "old" :: between)).run rest).2.breaker.state = .closed ∧
      Indistinct "old" (after config 0 (before ++ .start "old" :: between))
        (.finish "old" .success :: rest) rest := by
  intro config before between rest
  refine ⟨by decide, by decide, by decide, ?_⟩
  exact late_outcomes_inert config 0 before between (.finish "old" .success :: rest) rest "old"
    (by decide) (by decide) (by decide) (by decide)

end BreakerRun

end Courier
