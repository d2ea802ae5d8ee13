import Courier.Proofs.Broker.Declaring
import Courier.Proofs.Config.Order
import Courier.Proofs.Number.Reading

/-!
# What an accepted configuration can do

A configuration is accepted from a list of variables or from an environment (`Config.Accepts`).
It has services to turn to, and what it asks of the broker is declared there. Two of its settings
are not bound as one would like: a factor that is no number is not below one and so is accepted,
and a time that needs all 64 bits is declared as a negative one. Both are told apart from all others
by the variables alone (`Config.AcceptanceLaw`).

That a configuration was accepted is used as `Accepted` alone, which says of each setting what was
read for it. How variables are read does not come into it.
-/

set_option autoImplicit false

namespace Courier

open Binary64 (AtLeast ReadsNan)
open Broker (Publisher queues)
open Courier.Flow (Runs)

namespace Config

variable {c : Config} {vars : List Variable}

/-! ## Settings that fit together -/

/-- What the settings of an accepted configuration have to do with each other. -/
theorem validate_ok_iff : c.validate = .ok () ↔
    (c.useMockServices = true ∨ c.userServiceUrl ≠ "" ∧ c.templateServiceUrl ≠ "") ∧
      (c.retryBackoffMultiplier = .nan ∨ AtLeast 1 c.retryBackoffMultiplier) := by
  have grows := Binary64.lt_eq_false_iff (d := c.retryBackoffMultiplier) Binary64.isWhole_one le_rfl
  rw [Nat.cast_one] at grows
  rw [← grows, validate]
  cases c.useMockServices <;> by_cases hu : c.userServiceUrl = "" <;>
    by_cases ht : c.templateServiceUrl = "" <;>
    cases c.retryBackoffMultiplier.lt .one <;> simp [hu, ht]

/-! ## The factor of retries

The check compares doubles, and a comparison with a double that is no number is false. So the text
for no number passes.
-/

theorem name_of_setting {s : Setting} {name : String} (h : setting? name = some s) :
    lowerName name = s.name :=
  (beq_iff_eq.1 (List.find?_some (p := fun s : Setting => s.name == lowerName name) h)).symm

theorem setting?_of_name {s : Setting} {name : String} (hs : s ∈ Setting.all)
    (h : lowerName name = s.name) : setting? name = some s := by
  cases found : setting? name with
  | none =>
    have missed := List.find?_eq_none.1 found s hs
    exact absurd (beq_iff_eq.2 h.symm) missed
  | some t =>
    have same : t.name = s.name := (name_of_setting found).symm.trans h
    rw [List.inj_on_of_nodup_map Setting.names_nodup (List.mem_of_find?_eq_some found) hs same]

theorem mem_known {s : Setting} {v : Variable} (hs : s ∈ Setting.all) (mem : v ∈ vars)
    (h : lowerName v.1 = s.name) : (s, v.2) ∈ known vars :=
  List.mem_filterMap.2 ⟨v, mem, by rw [setting?_of_name hs h]; rfl⟩

theorem exists_of_mem_given {name : String} (h : name ∈ given (known vars)) :
    ∃ v ∈ vars, lowerName v.1 = name := by
  obtain ⟨p, hp, rfl⟩ := List.mem_map.1 h
  obtain ⟨v, mem, found⟩ := List.mem_filterMap.1 hp
  obtain ⟨s, hs, rfl⟩ := Option.map_eq_some_iff.1 found
  exact ⟨v, mem, name_of_setting hs⟩

/-- The setting of the factor. -/
def factor : Setting :=
  .double "retry_backoff_multiplier" fun x c => { c with retryBackoffMultiplier := x }

theorem factor_eq : Setting.all[22] = factor := rfl

theorem factor_mem : factor ∈ Setting.all := factor_eq ▸ List.getElem_mem (by decide)

theorem factor_of (c : Config) : factor.of c = some (.double c.retryBackoffMultiplier) := by
  rw [Setting.of, ← factor_eq, Setting.place_all]
  rfl

/-- A text is read for it as a number is. -/
theorem factor_read {text : String} {x : Binary64} :
    factor.read text = .ok (some (.double x)) ↔ Binary64.read text = .ok x := by
  rw [Setting.read]
  show ((((Binary64.read text).mapError _).map _).map _ = _) ↔ _
  cases Binary64.read text with
  | error e => exact iff_of_false (fun h => by cases h) fun h => by cases h
  | ok y =>
    show Except.ok (factor.of _) = _ ↔ _
    simp [factor_of]

/-- The factor is no number if the text that is given for it reads as none. -/
theorem factor_nan_iff (accepted : Accepted (known vars) c) : c.retryBackoffMultiplier = .nan ↔
    ∃ v ∈ vars, lowerName v.1 = factor.name ∧ ReadsNan v.2 := by
  have reads (v : Variable) (mem : v ∈ vars) (named : lowerName v.1 = factor.name) :
      Binary64.read v.2 = .ok c.retryBackoffMultiplier := by
    have read := accepted.read (factor, v.2) (mem_known factor_mem mem named)
    rw [factor_of] at read
    exact factor_read.1 read
  constructor
  · intro none
    by_cases hg : factor.name ∈ given (known vars)
    · obtain ⟨v, mem, named⟩ := exists_of_mem_given hg
      exact ⟨v, mem, named, Binary64.read_eq_nan_iff.1 (none ▸ reads v mem named)⟩
    · -- the default is a number
      have two := accepted.default factor factor_mem hg
      rw [factor_of, factor_of, none] at two
      cases two
  · rintro ⟨v, mem, named, none⟩
    exact Except.ok.inj ((reads v mem named).symm.trans (Binary64.read_eq_nan_iff.2 none))

/-! ## The queues

The times are told to the broker as signed numbers of the same width.
-/

/-- The queues, and the times that a configuration has for them. -/
def queueTimes (c : Config) : List (String × UInt64) := [
  (c.emailQueueName, c.queueMessageTtlMs),
  (c.pushQueueName, c.queueMessageTtlMs),
  (c.dlqName, c.dlqMessageTtlMs)]

/-- The times of the queues as they are set. -/
def wantedTimes (c : Config) : List (String × Int) := c.queueTimes.map fun q => (q.1, q.2.toNat)

/-- The times as they are told to the broker. -/
def toldTimes (c : Config) : List (String × Int) := c.queueTimes.map fun q => (q.1, signed q.2)

theorem toldTimes_eq_iff : c.toldTimes = c.wantedTimes ↔
    c.queueMessageTtlMs.toNat < 2 ^ 63 ∧ c.dlqMessageTtlMs.toNat < 2 ^ 63 := by
  simp [toldTimes, wantedTimes, queueTimes, signed_eq_iff]

theorem topology_queues (c : Config) :
    c.topology.filterMap Broker.Declaration.queue? = c.toldTimes := by
  simp only [toldTimes, queueTimes, List.map_cons, List.map_nil, ← timeToLive_toInt]
  rfl

/-! ## The law -/

/-- A list of variables is accepted as a configuration: as it is, or from an environment in which
they were set one after the other. The second list is what is there to be read. -/
inductive Accepts (vars : List Variable) : List Variable → Config → Prop
  | listed {c : Config} (h : ofVariables vars = .ok c) : Accepts vars vars c
  | loaded {c : Config} (h : load vars = .ok c) : Accepts vars (environment vars) c

theorem Accepts.accepted {given : List Variable} (h : Accepts vars given c) :
    Accepted (known given) c := by
  cases h with
  | listed h => exact ofVariables_ok_iff.1 h
  | loaded h => exact ofVariables_ok_iff.1 h

/-- The factor of a configuration and those of both kinds of retries. -/
def factors (c : Config) : List Binary64 :=
  [c.retryBackoffMultiplier, c.retryPolicy.multiplier, c.publishPolicy.multiplier]

/-- What holds of a configuration that the variables `given` were accepted as. -/
structure AcceptanceLaw (given : List Variable) (c : Config) : Prop where
  services : c.useMockServices = true ∨ c.userServiceUrl ≠ "" ∧ c.templateServiceUrl ≠ ""
  /-- Every factor is at least one, or no number. -/
  grows : ∀ m ∈ c.factors, m = .nan ∨ AtLeast 1 m
  /-- A factor is no number exactly if the variable says so. -/
  number : ∀ m ∈ c.factors, m = .nan ↔
    ∃ v ∈ given, lowerName v.1 = "retry_backoff_multiplier" ∧ ReadsNan v.2
  /-- Queues are declared one after the other, with their times as numbers with a sign. -/
  declares : ∀ log result, Runs (Publisher.connect c) log result → queues log <+: c.toldTimes
  /-- Where a connection is made all of them have been declared. -/
  connected : ∀ log p, Runs (Publisher.connect c) log (.ok p) → queues log = c.toldTimes
  /-- A connection can be made. -/
  connects : ∃ log, Runs (Publisher.connect c) log (.ok (.ofConfig c))
  /-- These are the times of the configuration if none needs all 64 bits. -/
  times : c.toldTimes = c.wantedTimes ↔
    c.queueMessageTtlMs.toNat < 2 ^ 63 ∧ c.dlqMessageTtlMs.toNat < 2 ^ 63
  /-- One that does is told as a negative one. -/
  negative : ∀ q ∈ c.queueTimes, signed q.2 < 0 ↔ 2 ^ 63 ≤ q.2.toNat

/-- **What an accepted configuration can do.** -/
theorem acceptance_law {given : List Variable} (h : Accepts vars given c) :
    AcceptanceLaw given c := by
  have accepted := h.accepted
  obtain ⟨services, grows⟩ := validate_ok_iff.1 accepted.fits
  have same (m : Binary64) (mem : m ∈ c.factors) : m = c.retryBackoffMultiplier := by
    simpa [factors, retryPolicy, publishPolicy] using mem
  constructor
  case services => exact services
  case grows => exact fun m mem => same m mem ▸ grows
  case number => exact fun m mem => same m mem ▸ factor_nan_iff accepted
  case declares =>
    intro log result runs
    rw [← topology_queues]
    exact (Publisher.connect_declares runs).1.filterMap _
  case connected =>
    intro log p runs
    rw [← topology_queues, queues, ((Publisher.connect_declares runs).2 p rfl).2]
  case connects => exact Publisher.exists_connects c
  case times => exact toldTimes_eq_iff
  case negative => exact fun q _ => signed_neg_iff

/-- An environment in which the factor is given twice, one time wrongly, with the greatest time that
has no sign bit. -/
theorem acceptance_law_loaded :
    let vars : List Variable := [("REDIS_URL", "redis://cache"), ("Database_Url", "postgres://db"),
      ("RABBITMQ_URL", "amqp://broker"), ("USER_SERVICE_URL", "http://users"),
      ("TEMPLATE_SERVICE_URL", "http://templates"), ("RETRY_BACKOFF_MULTIPLIER", "0.5"),
      ("DLQ_MESSAGE_TTL_MS", "9223372036854775807"), ("RETRY_BACKOFF_MULTIPLIER", "+InF")]
    ∃ c, Accepts vars (environment vars) c ∧ AcceptanceLaw (environment vars) c ∧
      c.retryBackoffMultiplier = .infinite false := by
  intro vars
  have accepted : load vars =
      .ok { redisUrl := "redis://cache", databaseUrl := "postgres://db",
            rabbitmqUrl := "amqp://broker", userServiceUrl := "http://users",
            templateServiceUrl := "http://templates", retryBackoffMultiplier := .infinite false,
            dlqMessageTtlMs := 9223372036854775807 } := rfl
  exact ⟨_, .loaded accepted, acceptance_law (.loaded accepted), rfl⟩

/-- Variables are accepted with a factor that is no number and with a time that is declared as a
negative one. -/
theorem accepts_nan_and_negative :
    let vars : List Variable := [("REDIS_URL", "redis://cache"), ("DATABASE_URL", "postgres://db"),
      ("RABBITMQ_URL", "amqp://broker"), ("USE_MOCK_SERVICES", "true"),
      ("RETRY_BACKOFF_MULTIPLIER", "NaN"), ("QUEUE_MESSAGE_TTL_MS", "9223372036854775808")]
    ∃ c, ofVariables vars = .ok c ∧ (∀ m ∈ c.factors, ¬ AtLeast 1 m) ∧
      c.queueMessageTtlMs.toNat = 2 ^ 63 ∧
      ∃ log p, Runs (Publisher.connect c) log (.ok p) ∧ ("email.queue", -2 ^ 63) ∈ queues log := by
  intro vars
  have accepted : ofVariables vars =
      .ok { redisUrl := "redis://cache", databaseUrl := "postgres://db",
            rabbitmqUrl := "amqp://broker", useMockServices := true, retryBackoffMultiplier := .nan,
            queueMessageTtlMs := 9223372036854775808 } := rfl
  refine ⟨_, accepted, ?_, rfl, ?_⟩
  · intro m mem
    have none : m = .nan := by simpa [factors, retryPolicy, publishPolicy] using mem
    rw [none]
    exact nofun
  · obtain ⟨log, runs⟩ := Publisher.exists_connects _
    refine ⟨log, _, runs, ?_⟩
    rw [queues, ((Publisher.connect_declares runs).2 _ rfl).2, topology_queues]
    decide

end Config

end Courier
