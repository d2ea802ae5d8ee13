import Courier.Config.Clients
import Courier.Config.Variables
import Courier.Live.Peers
import Courier.Proofs.Broker.Copies
import Courier.Proofs.Pipeline.Compensation

/-!
# What a dead letter tells of the attempts

The publisher counts attempts, and no attempt at all counts as one; a dead letter tells what the
pipeline was set to. Both come from one setting. A run of the service with its live clients is taken
apart into the steps of the pipeline and what each of them puts on the wires
(`Flow.runs_interpret_iff`); the copies that have gone to the broker are then counted step by step.
-/

set_option autoImplicit false

namespace Courier

open Courier.Flow (Runs runs_bind_iff runs_call_iff runs_pure_iff runs_interpret_iff Carried Asks)
open Backend (told repairs publications)
open Broker (Message)

variable {α : Type} {a : α}

namespace Live

variable {log : List (Exchange (Timed Wires))}

/-- The copy of a message that an operation hands to the broker. -/
def copy? : (Timed Wires).Op → Option Message
  | .plain (.broker (.publish m)) | .race _ (.broker (.publish m)) => some m
  | _ => none

/-- The copies that were handed to the broker, in their order. -/
def copies (log : List (Exchange (Timed Wires))) : List Message := log.filterMap fun x => copy? x.op

theorem copies_append (early late : List (Exchange (Timed Wires))) :
    copies (early ++ late) = copies early ++ copies late := List.filterMap_append

/-- Nothing is handed to the broker. -/
abbrev Silent (p : Act α) : Prop := p.Asks fun op => copy? op = none

theorem Silent.copies {p : Act α} (h : Silent p) (runs : Runs p log a) : copies log = [] :=
  List.filterMap_eq_nil_iff.2 (h.of_runs runs)

theorem silent_ask {q : Query} (h : copy? (.plain q) = none) : Silent (ask q) :=
  ⟨h, fun _ => True.intro⟩

theorem silent_race {ctx : Context} {q : Query} (h : copy? (.race ctx q) = none) :
    Silent (Timed.race (R := Wires) ctx q) := ⟨h, fun _ => True.intro⟩

theorem silent_lift {R : Signature} {alone : (r : R.Op) → Act (R.Answer r)}
    {raced : Context → (r : R.Op) → Act (Except Interruption (R.Answer r))}
    (asked : ∀ r, Silent (alone r)) (begun : ∀ ctx r, Silent (raced ctx r))
    (p : Flow (Timed R) α) : Silent (Timed.lift alone raced p) := by
  refine Asks.interpret fun op => ?_
  cases op with
  | now | pause => exact ⟨rfl, fun _ => True.intro⟩
  | plain r => exact asked r
  | race ctx r => exact begun ctx r

theorem silent_overUsers (p : Flow (Timed Http.Link) α) : Silent (overUsers p) :=
  silent_lift (R := Http.Link) (fun _ => silent_ask rfl) (fun _ _ => silent_race rfl) p

theorem silent_overTemplates (p : Flow (Timed Http.Link) α) : Silent (overTemplates p) :=
  silent_lift (R := Http.Link) (fun _ => silent_ask rfl) (fun _ _ => silent_race rfl) p

theorem silent_overStore (p : Flow (Timed Store.Wire) α) : Silent (overStore p) :=
  silent_lift (R := Store.Wire) (fun _ => silent_ask rfl) (fun _ _ => silent_race rfl) p

theorem silent_overCache (p : Flow (Timed Cache.Wire) α) : Silent (overCache p) :=
  silent_lift (R := Cache.Wire) (fun _ => silent_ask rfl) (fun _ _ => silent_race rfl) p

/-- The services in memory are silent, too. -/
theorem silent_reach (ctx : Context) (service key : String) :
    Silent (InMemory.reach (R := Wires) ctx service key) := by
  refine Asks.bind (Asks.bind ⟨rfl, fun _ => True.intro⟩ fun checked => ?_) fun waited => ?_
  · cases checked with
    | error => exact True.intro
    | ok => exact ⟨rfl, fun _ => True.intro⟩
  · cases waited with
    | error => exact True.intro
    | ok =>
      dsimp only
      split <;> exact True.intro

/-- What is done over the broker's wire is done over all of them. -/
theorem overBroker_copies {program : Flow (Timed Broker.Wire) α}
    (h : Runs (overBroker program) log a) :
    ∃ own, Runs program own a ∧ copies log = Broker.copies own := by
  obtain ⟨steps, runs, rfl⟩ := runs_interpret_iff.1 h
  refine ⟨_, runs, ?_⟩
  clear runs h
  -- by induction on the steps, of which those for the broker are the same on both sides
  induction steps with
  | nil => rfl
  | cons step steps ih =>
    have one : copies step.log = Broker.copies [step.exchange] := by
      obtain ⟨⟨op, x⟩, log, runs⟩ := step
      cases op with
      | now | pause =>
        obtain rfl := runs_call_iff.1 runs
        rfl
      | plain q | race ctx q =>
        obtain rfl := runs_call_iff.1 runs
        cases q <;> rfl
    rw [List.flatMap_cons, copies_append, one, ih, ← Broker.copies_append]
    rfl

end Live

open Live

/-! ## What each question puts on the wires

Copies reach the broker by two questions only. All others are silent, whatever client plays them.
-/

/-- Nothing is handed to the broker for the question. -/
def Backend.Op.Quiet : Backend.Op → Prop
  | .publish _ _ _ _ | .deadLetter _ _ => False
  | _ => True

namespace LiveService

variable {s : LiveService}

/-- What is done for a question hands nothing over, unless it is for the broker. -/
theorem play_silent (s : LiveService) {op : Backend.Op} (h : op.Quiet) : Silent (s.play op) := by
  cases op with
  | publish | deadLetter => exact absurd h id
  | now => exact ⟨rfl, fun _ => True.intro⟩
  | wallClock | track | probe | sign | breakers => exact silent_ask rfl
  | stamp =>
    exact Asks.bind (silent_ask rfl) fun _ => Asks.bind (silent_ask rfl) fun _ => True.intro
  | preferences ctx userId =>
    show Silent (s.preferences ctx userId)
    unfold preferences
    cases s.users with
    | some client => exact silent_overUsers _
    | none =>
      refine Asks.bind (silent_reach ctx userService userId) fun reached => ?_
      cases reached <;> exact True.intro
  | render ctx code language values =>
    show Silent (s.render ctx code language values)
    unfold render
    cases s.templates with
    | some client => exact silent_overTemplates _
    | none =>
      refine Asks.bind (silent_reach ctx templateService code) fun reached => ?_
      cases reached with
      | error => exact True.intro
      | ok => exact Asks.bind (silent_ask rfl) fun _ => True.intro
  | create | find | list => exact silent_overStore _
  | update => exact Asks.bind (silent_ask rfl) fun _ => silent_overStore _
  | cacheGet | cacheSet => exact silent_overCache _

/-- A question of the service, with all that it puts on the wires. -/
abbrev Step (s : LiveService) : Type := Carried (S := Backend) (T := Timed Wires) s.play

section

variable {step : s.Step} {steps : List s.Step} {bounds : Context}

/-- Questions that are not for the broker hand nothing over. -/
theorem copies_of_quiet (h : ∀ step ∈ steps, Backend.Op.Quiet step.exchange.op) :
    copies (steps.flatMap (·.log)) = [] := by
  induction steps with
  | nil => rfl
  | cons step steps ih =>
    obtain ⟨here, more⟩ := List.forall_mem_cons.1 h
    rw [List.flatMap_cons, copies_append, (s.play_silent here).copies step.runs, ih more]
    rfl

/-- A delivery that was not taken has gone to the broker as often as it may. -/
theorem copies_of_publish {channel : Channel} {id : Uuid} {delivery : Delivery} {e : PublishFailure}
    (asked : step.exchange = told (.publish bounds channel id delivery) (.error e))
    (genuine : ∀ why, e ≠ .interrupted why) :
    copies step.log =
      List.replicate s.publisher.policy.attempts (s.publisher.message channel id delivery) := by
  obtain ⟨exchange, log, runs⟩ := step
  subst asked
  obtain ⟨own, sent, same⟩ := overBroker_copies runs
  obtain ⟨k, -, copied, all⟩ := Broker.Publisher.send_copies sent
  rw [same, copied, all e rfl genuine]

/-- A dead letter is handed over by itself, however often. -/
theorem copies_of_deadLetter {letter : DeadLetter} {answer : Except PublishFailure Unit}
    (asked : step.exchange = told (.deadLetter bounds letter) answer) :
    ∃ id k, copies step.log = List.replicate k (s.publisher.letterMessage id letter) := by
  obtain ⟨exchange, log, runs⟩ := step
  subst asked
  obtain ⟨id, early, late, rfl, drawn, kept⟩ := runs_bind_iff.1 runs
  obtain ⟨own, sent, same⟩ := overBroker_copies kept
  obtain ⟨k, -, copied, -⟩ := Broker.Publisher.send_copies sent
  refine ⟨id, k, ?_⟩
  rw [copies_append, (silent_ask rfl : Silent (ask .freshId)).copies drawn, same, copied]
  rfl

/-- What is put right after a delivery that was not taken gives the broker the dead letter. -/
theorem copies_of_compensation {p : Pipeline} {record : Notification} {delivery : Delivery}
    {e : PublishFailure} {now : Nat} {updated : Except StoreFailure Unit} {time : DateTime}
    {buried : Except PublishFailure Unit}
    (shape : steps.map (·.exchange) = p.compensation record delivery e now updated time buried) :
    ∃ id k, copies (steps.flatMap (·.log)) = List.replicate k (s.publisher.letterMessage id
      (.ofDelivery delivery e.message Pipeline.publishErrorType time
        p.settings.publishAttempts)) := by
  obtain ⟨looked, _, rfl, atNow, shape⟩ := List.map_eq_cons_iff.1 shape
  obtain ⟨marked, _, rfl, atMark, shape⟩ := List.map_eq_cons_iff.1 shape
  obtain ⟨timed, _, rfl, atTime, shape⟩ := List.map_eq_cons_iff.1 shape
  obtain ⟨last, _, rfl, written, shape⟩ := List.map_eq_cons_iff.1 shape
  obtain rfl := List.map_eq_nil_iff.1 shape
  -- of the four steps only the last reaches the broker
  have quiet : ∀ step ∈ [looked, marked, timed], Backend.Op.Quiet step.exchange.op := by
    intro step mem
    simp only [List.mem_cons, List.not_mem_nil, or_false] at mem
    rcases mem with rfl | rfl | rfl
    · rw [atNow]; exact True.intro
    · rw [atMark]; exact True.intro
    · rw [atTime]; exact True.intro
  obtain ⟨id, k, lettered⟩ := copies_of_deadLetter written
  refine ⟨id, k, ?_⟩
  rw [show [looked, marked, timed, last] = [looked, marked, timed] ++ [last] from rfl,
    List.flatMap_append, copies_append, copies_of_quiet quiet, List.flatMap_singleton, lettered]
  rfl

end

end LiveService

/-! ## The law -/

/-- No run gives the broker two deliveries. -/
theorem Pipeline.Passage.publishes_once {p : Pipeline} {ctx : Context} {request : Request}
    {log : List (Exchange Backend)} {result : Except Failure Reply}
    (h : p.Passage ctx request log result) : (publications log).length ≤ 1 := by
  cases h with
  | interrupted | repeated => exact Nat.zero_le 1
  | keyless _ _ _ course => exact course.agrees.published_once
  | failed _ _ _ _ _ _ _ course => exact course.agrees.published_once
  | kept now runs key keyed answer missed reply course =>
    have once := course.agrees.published_once
    rw [publications] at once ⊢
    rw [List.filterMap_cons_none rfl, List.filterMap_cons_none rfl, List.filterMap_append]
    exact (List.append_nil _).symm ▸ once

/-- What the broker has got where a delivery was not taken, and what the dead letter tells of it. -/
structure Buried (c : Config) (steps : List (LiveService.ofConfig c).Step)
    (publishing : (LiveService.ofConfig c).Step) (channel : Channel) (id : Uuid)
    (delivery : Delivery) (reason : String) (letter : DeadLetter) : Prop where
  /-- It is the one dead letter of the run. -/
  kept : ∃ bounds, repairs (steps.map (·.exchange)) =
    [.mark bounds id .failed (some reason), .bury bounds letter]
  keeps : letter.Keeps delivery reason c.publishMaxAttempts
  /-- The delivery was tried once at least. -/
  tried : copies publishing.log = List.replicate (max c.publishMaxAttempts.toNat 1)
    ((Broker.Publisher.ofConfig c).message channel id delivery)
  /-- Nothing else has gone to the broker, the dead letter apart. -/
  handed : ∃ letterId k, copies (steps.flatMap (·.log)) = copies publishing.log ++
    List.replicate k ((Broker.Publisher.ofConfig c).letterMessage letterId letter)
  /-- The dead letter tells the attempts that were made unless none was to be made. -/
  counted : letter.retryCount.toNat = (copies publishing.log).length ↔ c.publishMaxAttempts ≠ 0

section

variable {x : Exchange Backend} {early late : List (Exchange Backend)}

/-- Nothing is put right and no delivery given away before the one delivery that fails. -/
theorem quiet_before (once : (publications (early ++ x :: late)).length ≤ 1)
    (given : x.publication? ≠ none) (unrepaired : repairs early = []) :
    ∀ y ∈ early, Backend.Op.Quiet y.op := by
  obtain ⟨answer, found⟩ := Option.ne_none_iff_exists'.1 given
  have none_given : publications early = [] := by
    rw [publications, List.filterMap_append, List.filterMap_cons_some found, List.length_append,
      List.length_cons] at once
    exact List.length_eq_zero_iff.1 (by rw [publications]; omega)
  rintro ⟨op, answer⟩ mem
  have no_delivery := List.filterMap_eq_nil_iff.1 none_given _ mem
  have no_letter := List.filterMap_eq_nil_iff.1 unrepaired _ mem
  cases op with
  | publish => cases no_delivery
  | deadLetter => cases no_letter
  | _ => exact True.intro

end

/-- **What a dead letter tells of the attempts**, with whatever is answered on the wires. -/
theorem dead_letter_counts (c : Config) (ctx : Context) (request : Request)
    {steps : List (LiveService.ofConfig c).Step} {result : Except Failure Reply}
    (runs : Runs (c.pipeline.process ctx request) (steps.map (·.exchange)) result)
    {publishing : (LiveService.ofConfig c).Step} (among : publishing ∈ steps)
    {bounds : Context} {channel : Channel} {id : Uuid} {delivery : Delivery} {e : PublishFailure}
    (failed : publishing.exchange = told (.publish bounds channel id delivery) (.error e))
    (genuine : ∀ why, e ≠ .interrupted why) :
    ∃ letter, Buried c steps publishing channel id delivery e.message letter := by
  have passage := Pipeline.process_passage runs
  obtain ⟨before, after, rfl⟩ := List.append_of_mem among
  rw [List.map_append, List.map_cons, failed] at passage
  have refused := passage.refused rfl
  obtain ⟨record, -, -, rfl, rfl, -, now, updated, time, buried, shape⟩ := refused.waiting
  have tried := LiveService.copies_of_publish failed genuine
  refine ⟨.ofDelivery delivery e.message Pipeline.publishErrorType time c.publishMaxAttempts, ?_⟩
  constructor
  case kept =>
    refine ⟨.lasting now c.pipeline.settings.compensationTimeout, ?_⟩
    rw [List.map_append, List.map_cons, failed, shape, repairs, List.filterMap_append]
    exact congrArg (· ++ _) refused.unrepaired
  case keeps => exact DeadLetter.ofDelivery_keeps delivery e.message _ time _
  case tried => exact tried
  case handed =>
    -- nothing before the refused hand-over reaches the broker
    have quiet := quiet_before passage.publishes_once (Option.some_ne_none _) refused.unrepaired
    have early : copies (before.flatMap (·.log)) = [] :=
      LiveService.copies_of_quiet fun step mem => quiet _ (List.mem_map_of_mem mem)
    obtain ⟨letterId, k, late⟩ := LiveService.copies_of_compensation shape
    refine ⟨letterId, k, ?_⟩
    rw [List.flatMap_append, List.flatMap_cons, copies_append, copies_append, early, late]
    rfl
  case counted =>
    rw [tried, List.length_replicate]
    show c.publishMaxAttempts.toNat = max c.publishMaxAttempts.toNat 1 ↔ _
    -- the two counts differ only where no attempt at all was configured
    have zero : c.publishMaxAttempts = 0 ↔ c.publishMaxAttempts.toNat = 0 := UInt32.toNat_inj.symm
    rw [Ne, zero]
    omega

/-! ## Two settings -/

namespace Live

/-- Peers to whom every question is the first one. -/
def Peers.afresh (p : Peers) : Surroundings (Timed Wires) := fun _ op =>
  match op with
  | .now => (0 : Nat)
  | .plain q => (p.answer 0 q).1
  | .race _ q => .ok (p.answer 0 q).1
  | .pause _ _ _ => .ok ()

/-- A broker that takes no message. -/
def refusing : Peers where
  users := { config := {}, script := .answers .hangsUp [] }
  templates := { config := {}, script := .answers .hangsUp [] }
  broker := { answers := [.confirms .refused] }
  clock := fun _ => default
  identifier := fun _ => default

/-- The services in memory, and a broker to be tried so many times. -/
def trial (attempts : UInt32) : Config where
  redisUrl := "redis://cache"
  databaseUrl := "postgres://store"
  rabbitmqUrl := "amqp://broker"
  useMockServices := true
  publishMaxAttempts := attempts

/-- A welcome to a user, whom it does not reach. -/
def trialSteps (attempts : UInt32) : List (LiveService.ofConfig (trial attempts)).Step :=
  let request : Request := {
    userId := "u1"
    templateCode := "welcome_email"
    values := Dict.empty.insert "name" (.string "Jane") }
  (((trial attempts).pipeline.process .background request).carry (S := Backend)
    (T := Timed Wires) (LiveService.ofConfig (trial attempts)).play refusing.afresh []).1

end Live

theorem dead_letter_counts_three :
    ∃ publishing ∈ trialSteps 3, ∃ delivery letter,
      publishing.exchange = told (.publish .background .email default delivery)
        (.error (.nacked "email")) ∧
      Buried (trial 3) (trialSteps 3) publishing .email default delivery
        (PublishFailure.nacked "email").message letter := by
  have among := List.get_mem (trialSteps 3) ⟨5, by decide +kernel⟩
  obtain ⟨delivery, failed⟩ : ∃ delivery, ((trialSteps 3).get ⟨5, by decide +kernel⟩).exchange =
      told (.publish .background .email default delivery) (.error (.nacked "email")) :=
    ⟨_, by with_unfolding_all rfl⟩
  obtain ⟨letter, buried⟩ := dead_letter_counts (trial 3) .background _
    (Flow.carry_runs (S := Backend) (T := Timed Wires) refusing.afresh _ _) among failed nofun
  exact ⟨_, among, delivery, letter, failed, buried⟩

/-- Where no attempt was to be made, one is, and the dead letter tells none. -/
theorem dead_letter_counts_none :
    Config.ofVariables [("REDIS_URL", "redis://cache"), ("DATABASE_URL", "postgres://store"),
        ("RABBITMQ_URL", "amqp://broker"), ("USE_MOCK_SERVICES", "true"),
        ("PUBLISH_MAX_ATTEMPTS", "0")] = .ok (trial 0) ∧
      ∃ publishing ∈ trialSteps 0, ∃ burying ∈ trialSteps 0,
        ∃ delivery bounds letter answer,
          publishing.exchange = told (.publish .background .email default delivery)
            (.error (.nacked "email")) ∧
          (copies publishing.log).length = 1 ∧
          burying.exchange = told (.deadLetter bounds letter) answer ∧ letter.retryCount = 0 := by
  have publishing := List.get_mem (trialSteps 0) ⟨5, by decide +kernel⟩
  have burying := List.get_mem (trialSteps 0) ⟨9, by decide +kernel⟩
  obtain ⟨delivery, failed⟩ : ∃ delivery, ((trialSteps 0).get ⟨5, by decide +kernel⟩).exchange =
      told (.publish .background .email default delivery) (.error (.nacked "email")) :=
    ⟨_, by with_unfolding_all rfl⟩
  obtain ⟨bounds, letter, answer, buried, tells⟩ : ∃ bounds letter answer,
      ((trialSteps 0).get ⟨9, by decide +kernel⟩).exchange =
        told (.deadLetter bounds letter) answer ∧ letter.retryCount = 0 :=
    ⟨_, _, _, by with_unfolding_all rfl, by with_unfolding_all rfl⟩
  exact ⟨by decide +kernel, _, publishing, _, burying, delivery, bounds, letter, answer, failed,
    by decide +kernel, buried, tells⟩

end Courier
