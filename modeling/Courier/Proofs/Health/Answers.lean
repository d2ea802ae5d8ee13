import Courier.Proofs.Health.Verdicts
import Courier.Proofs.Router.Calls

/-!
# What a health check says

A probe is over when the dependency has answered or the timeout has passed (`Probe.Over`), and the
dependency is well if it has by then said so (`Probe.Well`). From that follows the report as a whole
(`Told`): it is unhealthy if the database or the broker is not well, degraded if only the cache is
not or a breaker is not closed, and healthy otherwise.

A report is put together from entries with names of their own, so that it does not matter in which
order it is gone through (`overall_perm`). It is made as soon as all probes are over and not after
the timeout, and the answer to a call for it tells whether the service may go on (`Answered`).
-/

set_option autoImplicit false

namespace Courier.Health

variable {timeout t now : Nat} {name : String}

/-! ## Probes

A probe is well if it succeeds in time; the time limit itself is still in time.
-/

namespace Probe

variable {p : Probe}

/-- The dependency says in time that it is well. -/
def Well (timeout : Nat) (p : Probe) : Prop :=
  ∃ t, p.takes = some t ∧ t ≤ timeout ∧ p.failure = none

/-- So long after the probe began it has been answered or given up. -/
def Over (timeout : Nat) (p : Probe) (t : Nat) : Prop :=
  timeout ≤ t ∨ ∃ answered, p.takes = some answered ∧ answered ≤ t

theorem duration_le_iff : p.duration timeout ≤ t ↔ p.Over timeout t := by
  unfold duration Over
  cases p.takes with
  | none => simp
  | some answered =>
    simp only [Option.some.injEq, exists_eq_left']
    omega

theorem overAt_eq (since : Nat) :
    p.overAt since (since + timeout) = since + p.duration timeout := by
  unfold overAt duration
  cases p.takes with
  | none => rfl
  | some answered => exact Nat.add_min_add_left since answered timeout

/-- What is seen in such a wait makes the same check as the dependency itself. -/
theorem check_seen (since : Nat) :
    (seen since (p.sign? since (since + timeout))).check timeout name = p.check timeout name := by
  unfold sign?
  cases takes : p.takes with
  | none => simp [seen, check, trouble?, takes]
  | some answered =>
    by_cases inTime : answered ≤ timeout
    · simp [seen, check, trouble?, duration, takes, inTime]
    · simp [seen, check, trouble?, takes, inTime]

theorem trouble?_eq_none_iff : p.trouble? timeout = none ↔ p.Well timeout := by
  unfold trouble? Well
  cases p.takes with
  | none => simp
  | some t => by_cases inTime : t ≤ timeout <;> simp [inTime]

theorem healthy_iff : (p.check timeout name).status = .healthy ↔ p.Well timeout := by
  rw [← trouble?_eq_none_iff, check]
  cases p.trouble? timeout with
  | none => simp [HealthCheck.reachable]
  | some error =>
    simp only [reduceCtorEq, iff_false]
    split <;> simp [HealthCheck.unreachable, HealthCheck.impaired]

theorem unhealthy_iff :
    (p.check timeout name).status = .unhealthy ↔ name ∈ critical ∧ ¬ p.Well timeout := by
  rw [← trouble?_eq_none_iff, check]
  cases p.trouble? timeout with
  | none => simp [HealthCheck.reachable]
  | some error =>
    by_cases needed : name ∈ critical <;>
      simp [needed, HealthCheck.unreachable, HealthCheck.impaired]

end Probe

/-- The dependencies by name. -/
def Probes.named (p : Probes) : List (String × Probe) :=
  [(Health.database, p.database), (Health.cache, p.cache), (Health.broker, p.broker)]

theorem duration_le_iff {p : Probes} :
    duration timeout p ≤ t ↔ ∀ c ∈ p.named, c.2.Over timeout t := by
  simp only [duration, Nat.max_le, Probe.duration_le_iff, Probes.named, List.forall_mem_cons,
    List.not_mem_nil, false_imp_iff, implies_true, and_true]

/-! ## Reports

The checks of a report have different names, provided the breakers have. So the map keeps all of
them and the order they are put in does not matter.
-/

/-- A dependency or a breaker is named only once. -/
def Apart (breakers : List String) : Prop :=
  ([database, cache, broker] ++ breakers).Nodup

/-- The checks of a report. -/
def entries (timeout : Nat) (p : Probes) (breakers : List BreakerView) :
    List (String × HealthCheck) :=
  (p.named.map fun c => (c.1, c.2.check timeout c.1)) ++
    breakers.map fun b => (b.service, .ofCircuit b.state (breakerDetail b))

variable {p : Probes} {breakers : List BreakerView} {timestamp : DateTime}

theorem report_checks :
    (report timeout p breakers timestamp).checks = .ofList (entries timeout p breakers) := by
  rw [Dict.ofList, entries, List.foldl_append, List.foldl_map, List.foldl_map]
  rfl

theorem entries_own (apart : Apart (breakers.map (·.service))) :
    ((entries timeout p breakers).map (·.1)).Nodup := by
  have names : (entries timeout p breakers).map (·.1) =
      [database, cache, broker] ++ breakers.map (·.service) := by
    simp [entries, Probes.named, Function.comp_def]
  rwa [names]

theorem report_status (apart : Apart (breakers.map (·.service))) :
    (report timeout p breakers timestamp).status = overall (entries timeout p breakers) := by
  have status : (report timeout p breakers timestamp).status =
      overall (report timeout p breakers timestamp).checks.entries := rfl
  rw [status, report_checks]
  exact overall_perm (Dict.ofList_perm (entries_own apart))

theorem ofCircuit_healthy_iff {state : CircuitState} {detail : Option String} :
    (HealthCheck.ofCircuit state detail).status = .healthy ↔ state = .closed := by
  by_cases closed : state = .closed <;> simp [HealthCheck.ofCircuit, closed]

theorem ofCircuit_serving {state : CircuitState} {detail : Option String} :
    (HealthCheck.ofCircuit state detail).status ≠ .unhealthy := by
  by_cases closed : state = .closed <;> simp [HealthCheck.ofCircuit, closed]

/-- What a report says of dependencies and breakers. -/
structure Told (timeout : Nat) (p : Probes) (breakers : List BreakerView) (r : HealthReport) :
    Prop where
  dependencies : ∀ c ∈ p.named, ∃ check, r.checks.get? c.1 = some check ∧
    (check.status = .healthy ↔ c.2.Well timeout)
  circuits : ∀ b ∈ breakers, ∃ check, r.checks.get? b.service = some check ∧
    check.circuit = some b.state ∧ (check.status = .healthy ↔ b.state = .closed)
  ordered : ∀ order, order.Perm r.checks.entries → overall order = r.status
  unhealthy : r.status = .unhealthy ↔ ¬ p.database.Well timeout ∨ ¬ p.broker.Well timeout
  degraded : r.status = .degraded ↔ (p.database.Well timeout ∧ p.broker.Well timeout) ∧
    (¬ p.cache.Well timeout ∨ ∃ b ∈ breakers, b.state ≠ .closed)
  healthy : r.status = .healthy ↔ (p.database.Well timeout ∧ p.broker.Well timeout) ∧
    p.cache.Well timeout ∧ ∀ b ∈ breakers, b.state = .closed

/-- A report is unhealthy for want of the database or the broker, and for nothing else. A breaker
can at worst degrade it. -/
theorem entries_unhealthy_iff : overall (entries timeout p breakers) = .unhealthy ↔
    ¬ p.database.Well timeout ∨ ¬ p.broker.Well timeout := by
  rw [overall_unhealthy_iff]
  simp only [entries, List.mem_append, List.mem_map, or_and_right, exists_or]
  -- no breaker is unhealthy
  have none : ¬ ∃ c : String × HealthCheck,
      (∃ b ∈ breakers, (b.service, .ofCircuit b.state (breakerDetail b)) = c) ∧
        c.2.status = .unhealthy ∧ c.1 ∈ critical := by
    rintro ⟨_, ⟨b, -, rfl⟩, bad, -⟩
    exact ofCircuit_serving bad
  rw [or_iff_left none]
  simp [Probes.named, Probe.unhealthy_iff, critical, database, cache, broker]

theorem entries_healthy_iff : overall (entries timeout p breakers) = .healthy ↔
    (p.database.Well timeout ∧ p.broker.Well timeout) ∧
      p.cache.Well timeout ∧ ∀ b ∈ breakers, b.state = .closed := by
  rw [overall_healthy_iff, entries, List.forall_mem_append, List.forall_mem_map,
    List.forall_mem_map]
  simp only [Probe.healthy_iff, ofCircuit_healthy_iff]
  simp [Probes.named, and_assoc, and_left_comm]

/-- All that is said of a report, by its entries. -/
theorem report_told (apart : Apart (breakers.map (·.service))) :
    Told timeout p breakers (report timeout p breakers timestamp) := by
  have own : ((entries timeout p breakers).map (·.1)).Nodup := entries_own apart
  have status : (report timeout p breakers timestamp).status =
      overall (entries timeout p breakers) := report_status apart
  constructor
  case dependencies =>
    intro c hc
    refine ⟨c.2.check timeout c.1, ?_, Probe.healthy_iff⟩
    rw [report_checks, Dict.get?_ofList_iff own]
    exact List.mem_append_left _ (List.mem_map.2 ⟨c, hc, rfl⟩)
  case circuits =>
    intro b hb
    refine ⟨.ofCircuit b.state (breakerDetail b), ?_, rfl, ofCircuit_healthy_iff⟩
    rw [report_checks, Dict.get?_ofList_iff own]
    exact List.mem_append_right _ (List.mem_map.2 ⟨b, hb, rfl⟩)
  case ordered => exact fun order perm => overall_perm perm
  case unhealthy => rw [status, entries_unhealthy_iff]
  case healthy => rw [status, entries_healthy_iff]
  case degraded =>
    rw [status, degraded_iff, entries_unhealthy_iff, entries_healthy_iff]
    simp only [not_or, not_not, not_and_or, not_forall]
    tauto

/-! ## In time

The program awaits one probe after the other. As all of them began together, the wait is over when
the last one is (`check_run`).
-/

/-- A look may wake a breaker up, but does not close it: it is seen closed if it is. -/
theorem Guard.look_closed_iff {g : Guard} :
    (g.look now).state = .closed ↔ (g.breaker now).state = .closed := by
  unfold look Breaker.view Breaker.refresh
  split
  · rename_i waking
    simp [Breaker.enter, waking.1]
  · rfl

/-- What is seen of the dependencies in a wait as long as the timeout. -/
def Probes.seen (timeout since : Nat) (p : Probes) : Probes where
  database := .seen since (p.database.sign? since (since + timeout))
  cache := .seen since (p.cache.sign? since (since + timeout))
  broker := .seen since (p.broker.sign? since (since + timeout))

theorem report_seen (since : Nat) :
    report timeout (p.seen timeout since) breakers timestamp =
      report timeout p breakers timestamp := by
  simp only [report, Probes.seen, Probe.check_seen]

/-- A wait that begins when some time has passed since the dependencies were asked goes on for what
is left. -/
theorem await_run (scene : Scene) (since t : Nat) (d : Dependency) :
    (await timeout since d).run scene.step (since + t) =
      some (.seen since (((scene.probes since).of d).sign? since (since + timeout)),
        since + max t (((scene.probes since).of d).duration timeout)) := by
  rw [← Nat.add_max_add_left, ← Probe.overAt_eq]
  rfl

/-- **The dependencies are waited for together**: a check ends when the last of them has been
answered or given up, though it waits for one after the other. -/
theorem check_run (scene : Scene) (timeout now : Nat) :
    let done := now + duration timeout (scene.probes now)
    (check timeout).run scene.step now = some
      (report timeout (scene.probes now) (scene.guards.map (·.look done)) (scene.clock done),
        done) := by
  intro done
  -- the clock is read and the dependencies are asked at once, and the waits begin
  change Flow.run scene.step (await timeout now .database >>= _) (now + 0) = _
  rw [Flow.bind_def, Flow.run_bind, await_run, Option.bind_some]
  rw [Flow.bind_def, Flow.run_bind, await_run, Option.bind_some]
  rw [Flow.bind_def, Flow.run_bind, await_run, Option.bind_some]
  have ends : max (max (max 0 ((scene.probes now).database.duration timeout))
      ((scene.probes now).cache.duration timeout)) ((scene.probes now).broker.duration timeout) =
      duration timeout (scene.probes now) := by
    rw [Nat.zero_max, Nat.max_assoc]
    rfl
  dsimp only [Probes.of]
  rw [ends]
  change some (report timeout ((scene.probes now).seen timeout now) _ _, done) = _
  rw [report_seen]

theorem healthAnswer_status {r : HealthReport} :
    (Router.healthAnswer r).status = if r.status = .unhealthy then 503 else 200 := by
  cases h : r.status <;> simp [Router.healthAnswer, Router.Answer.json, HealthStatus.isServing, h]

/-- The report that is made in a scene, and the answer to a call for it. -/
structure Answered (timeout : Nat) (scene : Scene) (now done : Nat) (r : HealthReport)
    (answer : Router.Answer) : Prop where
  ended : now ≤ done ∧ done ≤ now + timeout
  awaited : ∀ t, done ≤ now + t ↔ ∀ c ∈ (scene.probes now).named, c.2.Over timeout t
  told : Told timeout (scene.probes now) (scene.guards.map (·.look done)) r
  degraded : r.status = .degraded ↔
    ((scene.probes now).database.Well timeout ∧ (scene.probes now).broker.Well timeout) ∧
      (¬ (scene.probes now).cache.Well timeout ∨
        ∃ g ∈ scene.guards, (g.breaker done).state ≠ .closed)
  written : answer = Router.healthAnswer r
  unavailable : answer.status = 503 ↔
    ¬ (scene.probes now).database.Well timeout ∨ ¬ (scene.probes now).broker.Well timeout
  available : answer.status = 200 ↔
    (scene.probes now).database.Well timeout ∧ (scene.probes now).broker.Well timeout

/-- **A health check ends in time, and says what there is to be said.** Whatever the dependencies do
and whatever the breakers are like, it ends as soon as every probe has been answered or given up,
and no cache and no breaker has the service taken out of rotation. -/
theorem health_answers (s : Router.Service) (scene : Scene) (now : Nat) (call : Router.Call)
    (asks : call.AsksHealth) (apart : Apart (scene.guards.map (·.service))) :
    ∃ r done answer, (check s.healthTimeout).run scene.step now = some (r, done) ∧
      (Router.handle s call).run scene.step now = some (answer, done) ∧
      Answered s.healthTimeout scene now done r answer := by
  let probes := scene.probes now
  let done := now + duration s.healthTimeout probes
  let r := report s.healthTimeout probes (scene.guards.map (·.look done)) (scene.clock done)
  have ran : (check s.healthTimeout).run scene.step now = some (r, done) :=
    check_run scene s.healthTimeout now
  have told : Told s.healthTimeout probes (scene.guards.map (·.look done)) r := by
    refine report_told ?_
    rwa [List.map_map]
  have awaited : ∀ t, done ≤ now + t ↔ ∀ c ∈ probes.named, c.2.Over s.healthTimeout t := by
    intro t
    rw [← duration_le_iff]
    exact Nat.add_le_add_iff_left
  refine ⟨r, done, Router.healthAnswer r, ran, ?_, ?_⟩
  · rw [Router.handle_asksHealth asks, Flow.bind_def, Flow.run_bind, ran]
    rfl
  · refine ⟨⟨Nat.le_add_right _ _, ?_⟩, awaited, told, ?_, rfl, ?_, ?_⟩
    · exact (awaited _).2 fun c _ => .inl (Nat.le_refl _)
    · simp [told.degraded, probes, Guard.look_closed_iff]
    · rw [healthAnswer_status, ← told.unhealthy]
      split <;> simp_all
    · rw [healthAnswer_status, ← not_iff_not, not_and_or, ← told.unhealthy]
      split <;> simp_all

/-- The database answers at the last moment, the cache never, and a breaker is open. -/
theorem health_answers_degraded :
    let s : Router.Service := ⟨{ replyTtl := 60000 }, 1000⟩
    let call : Router.Call := { method := "GET", path := "/health" }
    let scene : Scene :=
      { probes := fun _ => ⟨⟨some 1000, none⟩, ⟨none, none⟩, ⟨some 0, none⟩⟩
        guards := [⟨"user-service", {}, fun _ => { state := .open }⟩]
        clock := fun _ => default }
    call.AsksHealth ∧ Apart (scene.guards.map (·.service)) ∧
      ∃ r done answer, (Router.handle s call).run scene.step 0 = some (answer, done) ∧
        answer.status = 200 ∧ r.status = .degraded ∧ Answered 1000 scene 0 done r answer := by
  intro s call scene
  have asks : call.AsksHealth := ⟨rfl, rfl⟩
  have apart : Apart (scene.guards.map (·.service)) := by
    unfold Apart
    decide
  obtain ⟨r, done, answer, -, handled, law⟩ := health_answers s scene 0 call asks apart
  have database : (scene.probes 0).database.Well 1000 := ⟨1000, rfl, Nat.le_refl _, rfl⟩
  have broker : (scene.probes 0).broker.Well 1000 := ⟨0, rfl, Nat.zero_le _, rfl⟩
  refine ⟨asks, apart, r, done, answer, handled, law.available.2 ⟨database, broker⟩, ?_, law⟩
  refine law.degraded.2 ⟨⟨database, broker⟩, .inl ?_⟩
  rintro ⟨_, ⟨⟩, -⟩

end Courier.Health
