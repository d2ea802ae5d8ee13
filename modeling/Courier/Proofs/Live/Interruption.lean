import Courier.Live.Peers
import Courier.Proofs.Live.Clients

/-!
# No work after an interruption

The pipeline goes on after some failures, and a request may be interrupted at any instant: inside an
attempt, in a wait or between two steps. All the same, nothing is begun for it from then on. What is
begun later puts a failed publication right, in a context of its own.

Every operation of a run is `Proper`: begun under a context that is not interrupted. The clients see
to that (`Proofs.Live.Clients`), each on its own wire; `Pipeline.serving` is what the pipeline owes
them, and `process_serves` that it keeps to it. `process_stops` puts the two together.

The rule `Pipeline.serving` is the contract between the two sides. It says nothing of wires, so the
pipeline is dealt with once for all clients, and it names no step of the pipeline, so the clients
are dealt with one by one.
-/

set_option autoImplicit false

namespace Courier

open Timed (Awaits Bounded Keeps World Server keeping keeping_mono)

variable {α σ : Type}

namespace Live

/-- It leaves the process. -/
def Query.Outbound : Query → Prop
  | .users q | .templates q => q.Outer
  | .store _ | .broker _ | .cache _ | .track _ _ | .probe | .sign _ _ _ => True
  | .wallClock | .freshId | .breakers => False

/-- The operation begins something outside. -/
def Outward : (Timed Wires).Op → Prop
  | .plain q | .race _ q => q.Outbound
  | .now | .pause _ _ _ => False

/-- The breakers answer at once. -/
structure PromptBreakers (server : Server Wires σ) : Prop where
  users : ∀ now (q : Http.Query) st, q.Inner → (server.work now (.users q) st).takes = some 0
  templates : ∀ now (q : Http.Query) st, q.Inner →
    (server.work now (.templates q) st).takes = some 0

end Live

open Live

/-- What puts a failed publication right, in a context of its own. -/
inductive Pipeline.Remedy (p : Pipeline) (s : LiveService) : Context → Live.Query → Prop
  | mark (since : Nat) (id : Uuid) (reason : String) (time : DateTime) :
      Remedy p s (.lasting since p.settings.compensationTimeout)
        (.store (.run (.update id Status.failed.name (some reason) time)))
  | bury (since : Nat) (id : Uuid) (letter : DeadLetter) :
      Remedy p s (.lasting since p.settings.compensationTimeout)
        (.broker (.publish (s.publisher.letterMessage id letter)))

open Pipeline (Remedy)

/-- How an operation may be begun for a request: under a context that is not interrupted, which is
that of the request or that of a remedy. -/
def Live.Proper (p : Pipeline) (s : LiveService) (ctx : Context) (t : Nat) :
    (Timed Wires).Op → Prop
  | .now | .pause _ _ _ => True
  | .plain q => q.Outbound → (∃ userId timeout, q = .track userId timeout) ∧ ctx.check t = .ok ()
  | .race c q => q.Outbound → c.check t = .ok () ∧ (c = ctx ∨ Remedy p s c q)

/-! ## On the wires

The clients are bounded by their context (`Bounded`); this is brought into the form of the rule that
the whole run keeps.
-/

section

variable {server : Server Wires σ} {ctx c : Context} {p : Pipeline} {s : LiveService} {w : World σ}
  {post : α → Nat → Prop}

/-- What keeps within a context is proper if what it asks inside is over at once and what it begins
may be begun. -/
theorem proper_of_bounded {inside : Query → Prop}
    (prompt : ∀ q, inside q →
      ¬ q.Outbound ∧ ∀ now st, (server.work now q st).takes = some 0)
    {program : Act α}
    (h : Bounded c inside (fun q => c = ctx ∨ Remedy p s c q) program w.time post) :
    Keeps server (Proper p s ctx) program w fun a w' => post a w'.time := by
  refine h.transfer keeping_mono World.time ?_
  intro op w k hk
  cases op with
  | now => exact ⟨trivial, fun _ _ h => by cases h; exact hk⟩
  | plain q =>
    obtain ⟨stays, takes⟩ := prompt q hk.1
    -- inner questions take no time, so the deadline cannot pass during one
    refine Timed.keeps_plain (fun ho => absurd ho stays) fun d hd => ?_
    cases (takes w.time w.state).symm.trans hd
    exact hk.2 _
  | race c' q =>
    obtain ⟨rfl, own, running, awaits⟩ := hk
    exact Timed.keeps_race (fun _ => ⟨running, own⟩) (fun why t _ hc => awaits.interrupted why t hc)
      fun x t _ hc => awaits.answered x t hc
  | pause c' delay jitter =>
    obtain ⟨rfl, awaits⟩ := hk
    exact Timed.keeps_wait trivial (fun why t hc => awaits.interrupted why t hc)
      fun t hc => awaits.answered () t hc

/-- A breaker is asked. -/
def Live.Query.AsksBreaker : Query → Prop
  | .users q | .templates q => q.Inner
  | _ => False

/-- What asks nothing inside but breakers is proper. -/
theorem proper_of_breakers (prompt : PromptBreakers server) {program : Act α}
    (h : Bounded ctx Query.AsksBreaker (fun _ => True) program w.time post) :
    Keeps server (Proper p s ctx) program w fun a w' => post a w'.time := by
  refine proper_of_bounded (fun q hq => ?_)
    (Timed.bounded_widen (fun _ hq => hq) (fun _ _ => .inl rfl) h)
  cases q with
  | users q => exact ⟨Http.Query.Inner.not_outer hq, fun now st => prompt.users now q st hq⟩
  | templates q => exact ⟨Http.Query.Inner.not_outer hq, fun now st => prompt.templates now q st hq⟩
  | _ => exact absurd hq id

theorem proper_of_outward {program : Act α}
    (h : Bounded c (fun _ => False) (fun q => c = ctx ∨ Remedy p s c q) program w.time post) :
    Keeps server (Proper p s ctx) program w fun a w' => post a w'.time :=
  proper_of_bounded (fun _ hq => absurd hq id) h

theorem overStore_proper {program : Flow (Timed Store.Wire) α}
    (h : Bounded c (fun _ => False) (fun q => c = ctx ∨ Remedy p s c (.store q)) program w.time
      post) :
    Keeps server (Proper p s ctx) (overStore program) w fun a w' => post a w'.time :=
  proper_of_outward (overStore_bounded h)

theorem overBroker_proper {program : Flow (Timed Broker.Wire) α}
    (h : Bounded c (fun _ => False) (fun q => c = ctx ∨ Remedy p s c (.broker q)) program w.time
      post) :
    Keeps server (Proper p s ctx) (overBroker program) w fun a w' => post a w'.time :=
  proper_of_outward (overBroker_bounded h)

theorem overCache_proper {program : Flow (Timed Cache.Wire) α}
    (h : Bounded c (fun _ => False) (fun q => c = ctx ∨ Remedy p s c (.cache q)) program w.time
      post) :
    Keeps server (Proper p s ctx) (overCache program) w fun a w' => post a w'.time :=
  proper_of_outward (overCache_bounded h)

end

/-! ## The pipeline

The pipeline on its own: what it asks, under which context, and at which time. No client is opened
here.
-/

namespace Pipeline

variable {p : Pipeline} {ctx : Context} {t : Nat}

/-- What the pipeline owes the clients, and what it may count on: its dependencies are asked in the
context of the request, remedies are asked for in one of their own, and a report is asked for only
right after a message has been taken. -/
def serving (p : Pipeline) (ctx : Context) : Flow.Rule Backend Nat := fun op t k =>
  match op with
  | .now => k t t
  | .wallClock | .stamp => ∀ x t', k x t'
  | .preferences c _ | .render c _ _ _ | .create c _ | .cacheGet c _ | .cacheSet c _ _ _ =>
    c = ctx ∧ ∀ x t', k x t'
  | .publish c _ _ _ => c = ctx ∧ ∀ x t', Broker.TakenIn ctx x t' → k x t'
  | .update c _ status error =>
    status = .failed ∧ (∃ reason, error = some reason) ∧
      (∃ since, c = .lasting since p.settings.compensationTimeout) ∧ ∀ x t', k x t'
  | .deadLetter c _ =>
    (∃ since, c = .lasting since p.settings.compensationTimeout) ∧ ∀ x t', k x t'
  | .track _ _ => ctx.check t = .ok () ∧ ∀ t', k () t'
  | .find _ _ | .list _ _ _ _ | .probe | .sign _ _ _ | .breakers => False

/-- What is promised for a question may be less than what is kept. -/
theorem serving_mono : (serving p ctx).Mono := by
  intro op t k k' hk h
  cases op with
  | now => exact hk _ _ h
  | wallClock | stamp => exact fun x t' => hk x t' (h x t')
  | preferences | render | create | cacheGet | cacheSet =>
    exact ⟨h.1, fun x t' => hk x t' (h.2 x t')⟩
  | publish => exact ⟨h.1, fun x t' hx => hk x t' (h.2 x t' hx)⟩
  | update => exact ⟨h.1, h.2.1, h.2.2.1, fun x t' => hk x t' (h.2.2.2 x t')⟩
  | deadLetter => exact ⟨h.1, fun x t' => hk x t' (h.2 x t')⟩
  | track => exact ⟨h.1, fun t' => hk () t' (h.2 t')⟩
  | find | list | probe | sign | breakers => exact h

theorem now_serves_iff {f : Nat → Flow Backend α} {post : α → Nat → Prop} :
    (Backend.now >>= f).Holds (serving p ctx) t post ↔ (f t).Holds (serving p ctx) t post := .rfl

theorem compensate_serves (record : Notification) (delivery : Delivery) (failure : PublishFailure) :
    (p.compensate record delivery failure).Holds (serving p ctx) t fun _ _ => True := by
  refine now_serves_iff.2 (Flow.holds_call_bind_iff.2 ?_)
  refine ⟨rfl, ⟨_, rfl⟩, ⟨t, rfl⟩, fun _ _ => Flow.holds_call_bind_iff.2 fun _ _ => ?_⟩
  exact Flow.holds_call_bind_iff.2 ⟨⟨t, rfl⟩, fun _ _ => True.intro⟩

theorem settle_serves (request : Request) (status : Status) (error : Option String) (stage : Stage)
    (message : String) :
    (settle ctx request status error stage message).Holds (serving p ctx) t fun _ _ => True := by
  refine Flow.holds_call_bind_iff.2 fun stamp _ => ?_
  refine Flow.holds_call_bind_iff.2 ⟨rfl, fun created _ => ?_⟩
  cases created <;> exact True.intro

/-- A notification that goes out is created, handed over and reported in the context of the request.
The report needs it to be open still, which the broker's word that the message was taken vouches
for. -/
theorem dispatch_serves (request : Request) (recipient : String) (rendering : Rendering) :
    (p.dispatch ctx request recipient rendering).Holds (serving p ctx) t fun _ _ => True := by
  refine Flow.holds_call_bind_iff.2 fun stamp _ => ?_
  refine Flow.holds_call_bind_iff.2 ⟨rfl, fun created _ => ?_⟩
  cases created with
  | error e => exact True.intro
  | ok =>
    refine Flow.holds_call_bind_iff.2 ⟨rfl, fun published t taken => ?_⟩
    cases published with
    | error e =>
      refine Flow.holds_bind_iff.2 ((compensate_serves _ _ _).mono serving_mono fun _ _ _ => ?_)
      exact True.intro
    | ok =>
      simp only
      split
      · -- the message has been taken just now, so that the context is not interrupted
        exact Flow.holds_call_bind_iff.2 ⟨taken rfl, fun _ => True.intro⟩
      · exact True.intro

/-- All steps before that are asked in the context of the request, too. -/
theorem execute_serves (request : Request) :
    (p.execute ctx request).Holds (serving p ctx) t fun _ _ => True := by
  refine Flow.holds_call_bind_iff.2 ⟨rfl, fun prefs _ => ?_⟩
  cases prefs with
  | error e => exact True.intro
  | ok prefs =>
    dsimp only
    cases prefs.refusal? request.channel with
    | some refusal => exact settle_serves _ _ _ _ _
    | none =>
      cases prefs.recipient request.channel with
      | error obstacle => exact settle_serves _ _ _ _ _
      | ok recipient =>
        refine Flow.holds_call_bind_iff.2 ⟨rfl, fun rendered _ => ?_⟩
        cases rendered with
        | error e => exact True.intro
        | ok rendering => exact dispatch_serves _ _ _

/-- The pipeline keeps to its side: clock, cache and steps. -/
theorem process_serves (request : Request) :
    (p.process ctx request).Holds (serving p ctx) t fun _ _ => True := by
  refine now_serves_iff.2 ?_
  cases ctx.check t with
  | error why => exact True.intro
  | ok =>
    dsimp only
    cases request.key? with
    | none => exact execute_serves request
    | some key =>
      -- the lookup keeps to the rule whatever the cache answers
      have looked : (Replies.lookup ctx key).Holds (serving p ctx) t fun _ _ => True := by
        refine Flow.holds_call_bind_iff.2 ⟨rfl, fun answer _ => ?_⟩
        rcases answer with i | (f | (_ | text)) <;> exact True.intro
      refine Flow.holds_bind_iff.2 (looked.mono serving_mono fun found t _ => ?_)
      cases found with
      | some reply => exact True.intro
      | none =>
        refine Flow.holds_bind_iff.2
          ((execute_serves request).mono serving_mono fun result t _ => ?_)
        cases result with
        | error e => exact True.intro
        | ok reply =>
          exact Flow.holds_bind_iff.2 (Flow.holds_call_bind_iff.2 ⟨rfl, fun _ _ => True.intro⟩)

/-- A request that comes with an interrupted context is told so, once the clock has been looked
at. -/
theorem process_interrupted {τ : Type} {J : Flow.Rule Backend τ} {x : τ} {why : Interruption}
    (shown : ∀ k, k t x → J .now x k) (interrupted : ctx.check t = .error why) (request : Request) :
    (p.process ctx request).Holds J x fun result y =>
      result = .error (.interrupted why) ∧ y = x := by
  have looked {f : Nat → Flow Backend (Except Failure Reply)}
      {post : Except Failure Reply → τ → Prop} (h : (f t).Holds J x post) :
      (Backend.now >>= f).Holds J x post := shown _ h
  refine looked ?_
  cases hc : ctx.check t with
  | error why' =>
    rw [interrupted] at hc
    obtain rfl := Except.error.inj hc
    exact ⟨rfl, rfl⟩
  | ok =>
    rw [interrupted] at hc
    cases hc

end Pipeline

/-! ## The live service

Each question of the pipeline as its client plays it. With the part above, this gives the run of the
whole service by transfer of the rule.
-/

namespace LiveService

variable {s : LiveService} {p : Pipeline} {ctx : Context} {server : Server Wires σ} {w : World σ}

theorem told_proper {q : Query} {k : Wires.Answer q → World σ → Prop} (stays : ¬ q.Outbound)
    (hk : ∀ x w', k x w') : Keeps server (Proper p s ctx) (ask q) w k :=
  Timed.keeps_plain (fun ho => absurd ho stays) fun _ _ => hk _ _

theorem preferences_proper (prompt : PromptBreakers server) (userId : String) :
    Keeps server (Proper p s ctx) (s.preferences ctx userId) w fun _ _ => True :=
  proper_of_breakers prompt (s.preferences_bounded (fun _ hq => hq) userId)

/-- A text is rendered properly, by the service or in memory. -/
theorem render_proper (prompt : PromptBreakers server) (code language : String)
    (values : Dict Json) :
    Keeps server (Proper p s ctx) (s.render ctx code language values) w fun _ _ => True := by
  unfold render
  cases s.templates with
  | some client =>
    exact proper_of_breakers prompt (askTemplates_bounded (fun _ hq => hq) client _ _)
  | none =>
    refine Flow.holds_bind_iff.2 (Flow.Holds.mono keeping_mono
      (proper_of_breakers prompt (InMemory.reach_bounded templateService code))
      fun reached _ _ => ?_)
    cases reached with
    | error e => exact True.intro
    | ok => exact Flow.holds_bind_iff.2 (told_proper id fun _ _ => True.intro)

/-- **The clients keep to their side**: what is done for a question is proper if the question is
one that may be asked. -/
theorem play_proper (prompt : PromptBreakers server) (op : Backend.Op)
    (k : Backend.Answer op → Nat → Prop) (h : p.serving ctx op w.time k) :
    (s.play op).Holds (keeping server (Proper p s ctx)) w fun x w' => k x w'.time := by
  cases op with
  | now => exact ⟨trivial, fun _ _ hs => by cases hs; exact h⟩
  | wallClock => exact told_proper id fun x w' => h x w'.time
  | stamp =>
    refine Flow.holds_bind_iff.2 (told_proper id fun _ _ => Flow.holds_bind_iff.2 ?_)
    exact told_proper id fun _ w' => h _ w'.time
  | preferences c userId =>
    obtain ⟨rfl, hk⟩ := h
    exact (preferences_proper prompt userId).mono keeping_mono fun x w' _ => hk x w'.time
  | render c code language values =>
    obtain ⟨rfl, hk⟩ := h
    exact (render_proper prompt code language values).mono keeping_mono fun x w' _ => hk x w'.time
  | create c record =>
    obtain ⟨rfl, hk⟩ := h
    exact (overStore_proper (Store.create_bounded record (.inl rfl))).mono keeping_mono
      fun x w' _ => hk x w'.time
  | publish c channel id delivery =>
    obtain ⟨rfl, hk⟩ := h
    exact (overBroker_proper (s.publisher.send_bounded _ (.inl rfl))).mono keeping_mono
      fun x w' taken => hk x w'.time taken
  -- the two steps of the compensation run under their own deadline, which `Remedy` allows
  | update c recordId status error =>
    obtain ⟨rfl, ⟨reason, rfl⟩, ⟨since, rfl⟩, hk⟩ := h
    refine Flow.holds_bind_iff.2 (told_proper id fun time w => ?_)
    have remedy := Remedy.mark (p := p) (s := s) since recordId reason time
    exact (overStore_proper (Store.update_bounded _ _ _ _ (.inr remedy))).mono keeping_mono
      fun x w' _ => hk x w'.time
  | deadLetter c letter =>
    obtain ⟨⟨since, rfl⟩, hk⟩ := h
    refine Flow.holds_bind_iff.2 (told_proper id fun letterId w => ?_)
    have remedy := Remedy.bury (p := p) (s := s) since letterId letter
    exact (overBroker_proper (s.publisher.send_bounded _ (.inr remedy))).mono keeping_mono
      fun x w' _ => hk x w'.time
  | cacheGet c key =>
    obtain ⟨rfl, hk⟩ := h
    exact (overCache_proper (Cache.get_bounded key (.inl rfl))).mono keeping_mono
      fun x w' _ => hk x w'.time
  | cacheSet c key value ttl =>
    obtain ⟨rfl, hk⟩ := h
    exact (overCache_proper (Cache.set_bounded key value ttl (.inl rfl))).mono keeping_mono
      fun x w' _ => hk x w'.time
  | track userId timeout =>
    exact Timed.keeps_plain (fun _ => ⟨⟨userId, timeout, rfl⟩, h.1⟩) fun _ _ => h.2 _
  | find | list | probe | sign | breakers => exact absurd h id

end LiveService

/-! ## The law -/

open LiveService (play_proper)

/-- What a run begins whose context is interrupted at a time. -/
structure StopsAt (p : Pipeline) (s : LiveService) (ctx : Context) (time : Nat)
    (log : List (Nat × (Timed Wires).Op)) : Prop where
  /-- From then on nothing is begun under the context. -/
  under : ∀ t q, (t, .race ctx q) ∈ log → q.Outbound → t < time
  /-- What else is begun then puts a failed publication right. -/
  beyond : ∀ t op, (t, op) ∈ log → Outward op → time ≤ t → ∃ c q, op = .race c q ∧ Remedy p s c q

/-- A run of proper operations begins nothing for the request once its context is over. -/
theorem StopsAt.of_proper {p : Pipeline} {s : LiveService} {ctx : Context} {time : Nat}
    {log : List (Nat × (Timed Wires).Op)} (ends : ctx.Ends time)
    (proper : ∀ b ∈ log, Proper p s ctx b.1 b.2) : StopsAt p s ctx time log := by
  constructor
  case under =>
    intro t q hb ho
    exact ends.check_ok_iff.1 (proper _ hb ho).1
  case beyond =>
    intro t op hb ho late
    have running : ctx.check t ≠ .ok () := fun h => Nat.not_lt.2 late (ends.check_ok_iff.1 h)
    cases op with
    | now | pause => exact absurd ho id
    | plain q => exact absurd (proper _ hb ho).2 running
    | race c q =>
      rcases proper _ hb ho with ⟨begins, rfl | remedy⟩
      · exact absurd begins running
      · exact ⟨c, q, rfl, remedy⟩

/-- **Once its context is interrupted, nothing is begun for a request**, whatever the dependencies
do and however long they take; and for one that comes with an interrupted context nothing is begun
at all, and it is told so. -/
theorem process_stops (s : LiveService) (p : Pipeline) (ctx : Context) (request : Request)
    (server : Server Wires σ) (prompt : PromptBreakers server) {time : Nat} (ends : ctx.Ends time)
    (w : World σ) :
    let log := Timed.begun server ((p.process ctx request).interpret s.play) w
    StopsAt p s ctx time log ∧
      (time ≤ w.time → (∀ b ∈ log, ¬ Outward b.2) ∧
        ∃ why, s.run server (p.process ctx request) w = some (.error (.interrupted why), w)) := by
  intro log
  have mono : ((keeping server (Proper p s ctx)).through (S := Backend) s.play).Mono :=
    keeping_mono.through (S := Backend) s.play
  have serves : (p.process ctx request).Holds (Pipeline.serving p ctx) w.time fun _ _ => True :=
    p.process_serves request
  have served := serves.transfer mono World.time fun op w k h => play_proper prompt op k h
  have kept := Timed.keeps_iff.1 (Flow.holds_interpret_iff.2 served)
  refine ⟨.of_proper ends kept.1, fun late => ?_⟩
  cases hc : ctx.check w.time with
  | ok => exact absurd (ends.check_ok_iff.1 hc) (Nat.not_lt.2 late)
  | error why =>
    constructor
    -- an interrupted start asks the clock and nothing else
    · let I : Flow.Rule Backend (World σ) :=
        (keeping server fun _ op => ¬ Outward op).through s.play
      have silent := p.process_interrupted (J := I)
        (fun k hk => ⟨id, fun _ _ hs => by cases hs; exact hk⟩) hc request
      exact (Timed.keeps_iff.1 (Flow.holds_interpret_iff.2 silent)).1
    · let E : Flow.Rule Backend (World σ) := (Timed.ending server).through s.play
      have told := p.process_interrupted (J := E) (fun k hk => ⟨_, _, rfl, hk⟩) hc request
      obtain ⟨_, _, hr, rfl, rfl⟩ := Timed.ends_iff.1 (Flow.holds_interpret_iff.2 told)
      exact ⟨why, hr⟩

/-- Peers that take their time. What is known inside the process, breakers included, is known at
once. -/
def unhurried (delay : Nat) : Server Wires Peers where
  work now q peers :=
    let takes := match q with
      | .wallClock | .freshId | .breakers => 0
      | .users .ticket | .users (.settle _ _) | .templates .ticket | .templates (.settle _ _) => 0
      | _ => delay
    { Peers.server.work now q peers with takes := some takes }

theorem unhurried_prompt (delay : Nat) : PromptBreakers (unhurried delay) := by
  constructor <;> intro _ q _ hq <;> cases q <;> first | rfl | exact absurd hq id

/-- When the store was asked. -/
def Live.storeTimes (log : List (Nat × (Timed Wires).Op)) : List Nat :=
  log.filterMap fun
    | (t, .race _ (.store _)) => some t
    | _ => none

/-- When the broker was asked. -/
def Live.brokerTimes (log : List (Nat × (Timed Wires).Op)) : List Nat :=
  log.filterMap fun
    | (t, .race _ (.broker _)) => some t
    | _ => none

/-- The deadline of a request comes at 35, after the message was handed to the broker at 30 and
before the broker took it. What is begun from then on marks the record and buries the message. The
same request begins nothing if it comes at 40. -/
theorem process_stops_midway :
    let s : LiveService := {
      users := some (.users "http://users" {})
      templates := none
      publisher := { exchange := "notifications", deadLetterQueue := "failed", policy := {} } }
    let p : Pipeline := { replyTtl := 60000 }
    let ctx : Context := { deadline := some 35, cancelAt := some 50 }
    let request : Request := {
      userId := "u1"
      templateCode := "welcome_email"
      values := .ofList [("name", .string "Ada")] }
    let reachable := "\x7b\"user_id\":\"u1\",\"email\":\"u1@example.com\"," ++
      "\"email_enabled\":true,\"email_verified\":true,\"push_enabled\":false\x7d"
    let peer : Http.Peer := { config := {}, script := .answers (.responds ⟨200, reachable⟩) [] }
    let peers : Peers := {
      users := peer
      templates := peer
      clock := fun _ => default
      identifier := fun _ => default }
    let log := Timed.begun (unhurried 15) ((p.process ctx request).interpret s.play) ⟨0, peers⟩
    let late := Timed.begun (unhurried 15) ((p.process ctx request).interpret s.play) ⟨40, peers⟩
    PromptBreakers (unhurried 15) ∧ ctx.Ends 35 ∧
      storeTimes log = [15, 35] ∧ brokerTimes log = [30, 50] ∧
      (s.run (unhurried 15) (p.process ctx request) ⟨0, peers⟩).map (·.2.time) = some 65 ∧
      StopsAt p s ctx 35 log ∧ ∀ b ∈ late, ¬ Outward b.2 := by
  intro s p ctx request reachable peer peers log late
  -- the deadline falls into the hand-over to the broker, which begins at 30 and would last until 45
  have prompt : PromptBreakers (unhurried 15) := unhurried_prompt 15
  have ends : ctx.Ends 35 := by
    refine ⟨.inr rfl, fun t ht => ?_⟩
    rcases ht with h | h <;> cases Option.some.inj h <;> decide
  have stops := process_stops s p ctx request (unhurried 15) prompt ends
  refine ⟨prompt, ends, ?_, ?_, ?_, (stops ⟨0, peers⟩).1, ((stops ⟨40, peers⟩).2 ?_).1⟩
  · decide +kernel
  · decide +kernel
  · decide +kernel
  · decide

end Courier
