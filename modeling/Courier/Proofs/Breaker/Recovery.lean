import Courier.Proofs.Breaker.Chronicle

/-!
# A breaker can recover

However a breaker has come to where it is: if no call is in flight, and the timeout has gone by, as
many successful calls as a half-open phase has places close it, one after another. None of them is
turned away.

What could stand in the way is a place that nobody holds and nobody returns, or a success that is
not counted. `Accounted` excludes both: with no call in flight, the places taken are those of the
successes. So the breaker is `Recovering`: closed, or half-open with a success for every call since,
or open and rested, with all calls still to come. A call that is made on its own brings it one step
further (`Recovering.visit`).

No assumption is made on the calls that came before, on their tickets or on the time that has gone
by. It is the invariant of the whole past that does the work; the visits themselves are four events
each.
-/

set_option autoImplicit false

namespace Courier

/-- A call that nothing overlaps with, and that succeeds: a pause goes before it, and it takes its
time. -/
structure Visit where
  call : String
  pause : Nat
  takes : Nat
  deriving DecidableEq, Repr

def Visit.events (v : Visit) : List BreakerEvent :=
  [.advance v.pause, .start v.call, .advance v.takes, .finish v.call .success]

/-- What comes of a visit: the call is let through and succeeds. -/
def Visit.served : List Reaction := [.quiet, .passed, .quiet, .finished .success]

namespace BreakerRun

variable {n : Nat} {name : String} {r s : BreakerRun} {c : Chronicle} {x : Reaction}

/-- A breaker after as many visits, with nothing in flight. -/
structure Recovering (n : Nat) (r : BreakerRun) : Prop where
  idle : r.calls = []
  clean : r.breaker.state = .closed → n ≠ 0 → r.breaker.failures = 0
  won : r.breaker.state = .halfOpen → n ≤ r.breaker.successes
  rested : r.breaker.state = .open →
    n = 0 ∧ r.config.timeout ≤ r.now - r.breaker.since

/-- The breaker during the next visit: the call has been let through. -/
structure Visited (n : Nat) (name : String) (r : BreakerRun) : Prop where
  alone : ∃ t, r.calls = [(name, t)] ∧ t.phase = r.breaker.phase
  not_open : r.breaker.state ≠ .open
  won : r.breaker.state = .halfOpen → n ≤ r.breaker.successes

namespace Recovering

/-- A pause changes nothing about that. -/
theorem advance (h : Recovering n r) (duration : Nat) :
    Recovering n { r with now := r.now + duration } where
  idle := h.idle
  clean := h.clean
  won := h.won
  rested hs := by
    obtain ⟨hn, late⟩ := h.rested hs
    refine ⟨hn, Nat.le_trans late ?_⟩
    exact Nat.sub_le_sub_right (Nat.le_add_right _ _) _

/-- With no call in flight a half-open breaker has a place free. -/
theorem free (h : Recovering n r) (hr : Accounted r c) (hs : r.breaker.state = .halfOpen) :
    r.breaker.probes < r.config.quota := by
  obtain ⟨-, taken, short, -⟩ := hr.halfOpen hs
  have none : c.running c.phases = 0 := by
    rw [Chronicle.running, hr.calls, h.idle]
    rfl
  omega

/-- The next call is let through. -/
theorem start (h : Recovering n r) (hr : Accounted r c) (m : Move r (.start name) x s) :
    x = .passed ∧ Visited n name s := by
  cases m with
  | pass _ hs =>
    refine ⟨rfl, ⟨_, by rw [h.idle], rfl⟩, ?_, ?_⟩
    · simp [hs]
    · simp [hs]
  -- an open breaker has rested: it does not refuse any more
  | refuse _ hs early => exact absurd (h.rested hs).2 (Nat.not_le.2 early)
  | wake _ hs late =>
    refine ⟨rfl, ⟨_, by rw [h.idle], rfl⟩, nofun, fun _ => ?_⟩
    exact Nat.le_of_eq (h.rested hs).1
  | probe _ hs free =>
    refine ⟨rfl, ⟨_, by rw [h.idle], rfl⟩, ?_, fun _ => h.won hs⟩
    simp [hs]
  -- and a half-open one has a place free, since nobody is in flight
  | full _ hs taken => exact absurd (h.free hr hs) (Nat.not_lt.2 taken)

end Recovering

/-- The call succeeds, and that counts. -/
theorem Visited.finish (h : Visited n name r) (m : Move r (.finish name .success) x s) :
    x = .finished .success ∧ Recovering (n + 1) s := by
  obtain ⟨t, only, present⟩ := h.alone
  have known : r.calls.lookup name = some t := by
    rw [only]
    exact List.lookup_cons_self
  -- it was the only call in flight
  have idle : (r.without name).calls = [] := by
    simp [without, only, remove]
  cases m with
  | unknown _ _ missing =>
    rw [known] at missing
    cases missing
  | inert _ _ u found why =>
    obtain rfl : t = u := Option.some.inj (known.symm.trans found)
    rcases why with hp | ho | ⟨ha, -⟩
    · exact absurd present hp
    · exact absurd ho h.not_open
    · cases ha
  | recover _ u found _ hs =>
    refine ⟨rfl, idle, fun _ _ => rfl, fun hh => ?_, fun ho => ?_⟩
    · exact absurd (hs.symm.trans hh) (by decide)
    · exact absurd (hs.symm.trans ho) (by decide)
  | gain _ u found _ hs below =>
    refine ⟨rfl, idle, fun hc => ?_, fun _ => ?_, fun ho => ?_⟩
    · exact absurd (hs.symm.trans hc) (by decide)
    · exact Nat.succ_le_succ (h.won hs)
    · exact absurd (hs.symm.trans ho) (by decide)
  | close _ u found _ hs reached =>
    refine ⟨rfl, idle, fun _ _ => rfl, fun hh => ?_, fun ho => ?_⟩
    · cases hh
    · cases ho

/-- **A visit is served, and brings the breaker one step further.** -/
theorem Recovering.visit (h : Recovering n r) (hr : Accounted r c) (v : Visit) :
    (r.run v.events).1 = Visit.served ∧ Recovering (n + 1) (r.run v.events).2 := by
  have hp := hr.move (step_move r (.advance v.pause))
  obtain ⟨passed, begun⟩ := (h.advance v.pause).start hp
    (step_move (r.step (.advance v.pause)).2 (.start v.call))
  -- the four events one by one, each from what the one before has left
  generalize hb : (r.step (.advance v.pause)).2.step (.start v.call) = begin at passed begun
  have during : Visited n v.call (begin.2.step (.advance v.takes)).2 :=
    ⟨begun.alone, begun.not_open, begun.won⟩
  obtain ⟨ended, done⟩ := during.finish (step_move _ (.finish v.call .success))
  have hrun : r.run v.events =
      ([.quiet, begin.1, .quiet,
        ((begin.2.step (.advance v.takes)).2.step (.finish v.call .success)).1],
      ((begin.2.step (.advance v.takes)).2.step (.finish v.call .success)).2) := by
    rw [← hb]
    rfl
  rw [hrun, passed, ended]
  exact ⟨rfl, done⟩

/-- Visits are served one after another. -/
theorem Recovering.visits (h : Recovering n r) (hr : Accounted r c) (visits : List Visit) :
    (r.run (visits.flatMap Visit.events)).1 = visits.flatMap (fun _ => Visit.served) ∧
      Recovering (n + visits.length) (r.run (visits.flatMap Visit.events)).2 := by
  induction visits generalizing n r c with
  | nil => exact ⟨rfl, h⟩
  | cons v rest ih =>
    obtain ⟨served, one⟩ := h.visit hr v
    obtain ⟨servedRest, all⟩ := ih one (hr.follow v.events)
    rw [List.flatMap_cons, List.flatMap_cons, run_append, run_append_reactions, served, servedRest]
    refine ⟨rfl, ?_⟩
    rwa [List.length_cons, Nat.add_comm rest.length, ← Nat.add_assoc]

/-- With nothing in flight and the timeout gone by, a breaker is ready for its first visit. -/
theorem Accounted.recovering (h : Accounted r c) (idle : r.calls = []) {wait : Nat}
    (enough : r.config.timeout ≤ wait) :
    Recovering 0 (r.step (.advance wait)).2 where
  idle := idle
  clean _ hn := absurd rfl hn
  won _ := Nat.zero_le _
  rested _ := by
    have hl := h.since_le
    refine ⟨rfl, ?_⟩
    simp only [step]
    omega

/-- The breaker is closed, and nothing is held against anyone. -/
structure Recovered (r : BreakerRun) : Prop where
  closed : r.breaker.state = .closed
  failures : r.breaker.failures = 0
  probes : r.breaker.probes = 0

/-- After as many visits as a half-open phase has places a breaker has recovered. -/
theorem Recovering.recovered (h : Recovering n r) (hr : Accounted r c)
    (enough : r.config.quota ≤ n) : Recovered r := by
  have hq := r.config.quota_pos
  cases hs : r.breaker.state with
  | closed => exact ⟨hs, h.clean hs (by omega), (hr.closed hs).1⟩
  -- at least one visit has been made, so that it is not open any more
  | «open» =>
    have hn := (h.rested hs).1
    omega
  | halfOpen =>
    have won := h.won hs
    have short := (hr.halfOpen hs).2.2.1
    omega

/-- **A breaker can always recover.** Whatever has happened to it, once no call is in flight and the
timeout has gone by, as many successful calls as a half-open phase has places are all let through
when they are made one after another, and leave it closed, with no failures and no probes. -/
theorem recovers (config : BreakerConfig) (time : Nat) (past : List BreakerEvent) (wait : Nat)
    (visits : List Visit) (idle : (after config time past).calls = [])
    (waited : config.timeout ≤ wait) (enough : config.quota ≤ visits.length) :
    ((after config time (past ++ [.advance wait])).run (visits.flatMap Visit.events)).1 =
        visits.flatMap (fun _ => Visit.served) ∧
      Recovered (after config time (past ++ .advance wait :: visits.flatMap Visit.events)) := by
  have hr := accounted config time past
  have hc : (after config time past).config = config := run_config _ past
  have ready := hr.recovering idle (hc.symm ▸ waited)
  have begun : after config time (past ++ [.advance wait]) =
      ((after config time past).step (.advance wait)).2 := by
    rw [after, run_append]
    rfl
  have ended : after config time (past ++ .advance wait :: visits.flatMap Visit.events) =
      (((after config time past).step (.advance wait)).2.run (visits.flatMap Visit.events)).2 := by
    rw [after, run_append]
    rfl
  -- the invariant holds when the visits begin, and the visits keep it
  have hb := hr.move (step_move _ (.advance wait))
  obtain ⟨served, done⟩ := ready.visits hb visits
  refine ⟨by rw [begun]; exact served, ?_⟩
  rw [ended]
  refine done.recovered (hb.follow _) ?_
  rw [run_config, Nat.zero_add]
  exact hc.symm ▸ enough

/-- A half-open phase that has been left half-way: one probe has succeeded, another was given up. -/
theorem recovers_halfway :
    let config : BreakerConfig := { maxFailures := 0, timeout := 10, halfOpenMax := 2 }
    let past : List BreakerEvent :=
      [.start "a", .finish "a" .failure, .advance 10, .start "b", .start "c",
        .finish "b" .success, .finish "c" .abandoned]
    let visits : List Visit := [⟨"v", 0, 3⟩, ⟨"v", 1, 0⟩]
    (after config 0 past).breaker.state = .halfOpen ∧ (after config 0 past).calls = [] ∧
      config.quota = visits.length ∧
      ((after config 0 (past ++ [.advance 10])).run (visits.flatMap Visit.events)).1 =
        visits.flatMap (fun _ => Visit.served) ∧
      Recovered (after config 0 (past ++ .advance 10 :: visits.flatMap Visit.events)) := by
  intro config past visits
  have idle : (after config 0 past).calls = [] := by decide
  have enough : config.quota = visits.length := by decide
  refine ⟨by decide, idle, enough, ?_⟩
  exact recovers config 0 past 10 visits idle (Nat.le_refl _) (Nat.le_of_eq enough)

end BreakerRun

end Courier
