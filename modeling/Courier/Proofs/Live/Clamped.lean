import Courier.Live.Service
import Courier.Proofs.Http.Resources
import Courier.Router.Handle

/-!
# What the database takes

The database rejects a negative length or place. The router brings both into their bounds before it
asks for a list, and nothing else asks for one (`Router.handle_clamped`). What is asked of the live
clients goes over the wires as it is, so whatever a caller sends and whatever is answered, nothing
that the database would reject is sent to it (`LiveService.handle_clamps`).
-/

set_option autoImplicit false

namespace Courier

open Courier.Flow (Asks)
open Live (Wires)

/-- A page is only asked for by numbers that the database takes. -/
def Backend.Op.Clamped : Backend.Op → Prop
  | .list _ _ limit offset => 1 ≤ limit ∧ limit ≤ 100 ∧ 0 ≤ offset
  | _ => True

namespace Pipeline

open Backend.Op (Clamped)

variable {p : Pipeline} {ctx : Context} {request : Request}

theorem settle_clamped {status : Status} {error : Option String} {stage : Stage}
    {message : String} : (settle ctx request status error stage message).Asks Clamped := by
  refine .first True.intro fun stamp => .first True.intro fun created => ?_
  cases created <;> exact True.intro

theorem compensate_clamped {record : Notification} {delivery : Delivery}
    {failure : PublishFailure} : (p.compensate record delivery failure).Asks Clamped :=
  .first True.intro fun _ => .first True.intro fun _ => .first True.intro fun _ =>
    .first True.intro fun _ => True.intro

/-- On the way to the broker no page is asked for, whatever the store and the broker answer. -/
theorem dispatch_clamped {recipient : String} {rendering : Rendering} :
    (p.dispatch ctx request recipient rendering).Asks Clamped := by
  refine .first True.intro fun stamp => .first True.intro fun created => ?_
  cases created with
  | error e => exact True.intro
  | ok =>
    refine .first True.intro fun published => ?_
    cases published with
    | error e => exact compensate_clamped.bind fun _ => True.intro
    | ok =>
      dsimp only
      split
      · exact .first True.intro fun _ => True.intro
      · exact True.intro

/-- The steps ask for no page, whichever of them a request comes to. -/
theorem execute_clamped : (p.execute ctx request).Asks Clamped := by
  refine .first True.intro fun preferences => ?_
  cases preferences with
  | error e => exact True.intro
  | ok prefs =>
    dsimp only
    split
    · exact settle_clamped
    · split
      · exact settle_clamped
      · refine .first True.intro fun rendering => ?_
        cases rendering with
        | error e => exact True.intro
        | ok rendering => exact dispatch_clamped

/-- A request as a whole asks for no page out of bounds either, with its look at the cache before
and its reply kept behind. -/
theorem process_clamped : (p.process ctx request).Asks Clamped := by
  refine .first True.intro fun now => ?_
  split
  · exact True.intro
  · split
    · exact execute_clamped
    · refine Asks.bind (.first True.intro fun entry => ?_) fun found => ?_
      · split <;> exact True.intro
      · cases found with
        | some reply => exact True.intro
        | none =>
          refine execute_clamped.bind fun result => ?_
          cases result with
          | error e => exact True.intro
          | ok reply => exact Asks.bind (.first True.intro fun _ => True.intro) fun _ => True.intro

end Pipeline

namespace Router

open Backend.Op (Clamped)

theorem ListQuery.page_clamped (q : ListQuery) :
    1 ≤ q.page ∧ q.page ≤ 100 ∧ 0 ≤ q.start := by
  simp only [page, start, greatestLimit]
  omega

/-- A health check asks for no page either. -/
theorem check_clamped (timeout : Nat) : (Health.check timeout).Asks Clamped := by
  have waits (since : Nat) (d : Health.Dependency) :
      (Health.await timeout since d).Asks Clamped := .first True.intro fun _ => True.intro
  refine .first True.intro fun since => .first True.intro fun _ => ?_
  refine (waits since .database).bind fun _ => (waits since .cache).bind fun _ => ?_
  refine (waits since .broker).bind fun _ => ?_
  exact .first True.intro fun _ => .first True.intro fun _ => True.intro

/-- Of all calls only one asks for a page, with numbers that have been clamped. -/
theorem respond_clamped (s : Service) (call : Call) : (respond s call).Asks Clamped := by
  -- one case for each route
  unfold respond
  split
  · exact (check_clamped _).bind fun _ => True.intro
  · split
    · exact True.intro
    · refine Asks.bind (Asks.bind (.first True.intro fun _ => True.intro) fun ctx =>
        Pipeline.process_clamped) fun result => ?_
      cases result <;> exact True.intro
  · split
    · exact True.intro
    · refine Asks.bind (.first True.intro fun _ => True.intro) fun ctx => ?_
      refine Asks.bind (.first (ListQuery.page_clamped _) fun found => ?_) fun _ => True.intro
      cases found <;> exact True.intro
  · split
    · exact True.intro
    · refine Asks.bind (.first True.intro fun _ => True.intro) fun ctx => ?_
      refine Asks.bind (.first True.intro fun found => ?_) fun _ => True.intro
      cases found <;> exact True.intro
  · split
    · exact True.intro
    · split
      · exact True.intro
      · refine Asks.bind (.first True.intro fun _ => True.intro) fun ctx => ?_
        refine Asks.bind (.first True.intro fun updated => ?_) fun _ => True.intro
        cases updated with
        | error e => exact True.intro
        | ok =>
          refine .first True.intro fun found => ?_
          cases found <;> exact True.intro
  · exact True.intro
  · exact True.intro

theorem handle_clamped (s : Service) (call : Call) : (handle s call).Asks Clamped :=
  (respond_clamped s call).bind fun _ => True.intro

end Router

/-! ## On the wires -/

namespace Timed

variable {R Q : Signature} {α : Type}

/-- Requests of a kind are begun, alone or under a context. -/
def Begins (P : R.Op → Prop) : (Timed R).Op → Prop
  | .plain r | .race _ r => P r
  | .now | .pause _ _ _ => True

/-- Where any request may be begun there is nothing to show. -/
theorem begins_of_all {P : R.Op → Prop} (all : ∀ r, P r) (p : Flow (Timed R) α) :
    p.Asks (Begins P) := by
  induction p with
  | done a => exact True.intro
  | ask op next ih =>
    refine ⟨?_, ih⟩
    cases op with
    | now | pause => exact True.intro
    | plain r | race ctx r => exact all r

theorem begins_guarded {P : R.Op → Prop} {ctx : Context} {r : R.Op} (h : P r) :
    (guarded ctx r).Asks (Begins P) :=
  asks_ifOpen True.intro ⟨h, fun _ => True.intro⟩

/-- What is begun on one wire is begun on all of them, if each question is carried over as it should
be. -/
theorem begins_lift {P : R.Op → Prop} {P' : Q.Op → Prop}
    {alone : (r : R.Op) → Flow (Timed Q) (R.Answer r)}
    {raced : Context → (r : R.Op) → Flow (Timed Q) (Except Interruption (R.Answer r))}
    (asked : ∀ r, P r → (alone r).Asks (Begins P'))
    (begun : ∀ ctx r, P r → (raced ctx r).Asks (Begins P')) {p : Flow (Timed R) α}
    (h : p.Asks (Begins P)) : (lift alone raced p).Asks (Begins P') := by
  refine h.interpret_of fun op hp => ?_
  cases op with
  | now | pause => exact ⟨True.intro, fun _ => True.intro⟩
  | plain r => exact asked r hp
  | race ctx r => exact begun ctx r hp

end Timed

/-- A page is only asked of the database by numbers that it takes. -/
def Store.Query.Clamped : Store.Query → Prop
  | .run (.page _ limit offset) => 1 ≤ limit ∧ limit ≤ 100 ∧ 0 ≤ offset
  | _ => True

def Live.Query.Clamped : Live.Query → Prop
  | .store q => q.Clamped
  | _ => True

namespace Live

variable {α : Type}

/-- Nothing is sent to the database that it does not take. -/
abbrev Clamps (p : Act α) : Prop := p.Asks (Timed.Begins (R := Wires) Query.Clamped)

theorem clamps_ask {q : Query} (h : q.Clamped) : Clamps (ask q) := ⟨h, fun _ => True.intro⟩

theorem clamps_race {ctx : Context} {q : Query} (h : q.Clamped) :
    Clamps (Timed.race (R := Wires) ctx q) := ⟨h, fun _ => True.intro⟩

theorem clamps_overStore {p : Flow (Timed Store.Wire) α}
    (h : p.Asks (Timed.Begins (R := Store.Wire) Store.Query.Clamped)) : Clamps (overStore p) :=
  Timed.begins_lift (R := Store.Wire) (fun _ => clamps_ask)
    (fun _ q => clamps_race (q := .store q)) h

theorem clamps_lift {R : Signature} {alone : (r : R.Op) → Act (R.Answer r)}
    {raced : Context → (r : R.Op) → Act (Except Interruption (R.Answer r))}
    (asked : ∀ r, Clamps (alone r)) (begun : ∀ ctx r, Clamps (raced ctx r))
    (p : Flow (Timed R) α) : Clamps (Timed.lift alone raced p) :=
  Timed.begins_lift (P := fun _ => True) (fun r _ => asked r) (fun ctx r _ => begun ctx r)
    (Timed.begins_of_all (fun _ => True.intro) p)

theorem clamps_overUsers (p : Flow (Timed Http.Link) α) : Clamps (overUsers p) :=
  clamps_lift (R := Http.Link) (fun q => clamps_ask (q := .users q) True.intro)
    (fun _ q => clamps_race (q := .users q) True.intro) p

theorem clamps_overTemplates (p : Flow (Timed Http.Link) α) : Clamps (overTemplates p) :=
  clamps_lift (R := Http.Link) (fun q => clamps_ask (q := .templates q) True.intro)
    (fun _ q => clamps_race (q := .templates q) True.intro) p

theorem clamps_overBroker (p : Flow (Timed Broker.Wire) α) : Clamps (overBroker p) :=
  clamps_lift (R := Broker.Wire) (fun q => clamps_ask (q := .broker q) True.intro)
    (fun _ q => clamps_race (q := .broker q) True.intro) p

theorem clamps_overCache (p : Flow (Timed Cache.Wire) α) : Clamps (overCache p) :=
  clamps_lift (R := Cache.Wire) (fun q => clamps_ask (q := .cache q) True.intro)
    (fun _ q => clamps_race (q := .cache q) True.intro) p

/-- The services in memory send nothing to the database. -/
theorem clamps_reach (ctx : Context) (service key : String) :
    Clamps (InMemory.reach (R := Wires) ctx service key) := by
  refine Asks.bind (Timed.asks_ifOpen True.intro ⟨True.intro, fun _ => True.intro⟩)
    fun waited => ?_
  cases waited with
  | error => exact True.intro
  | ok =>
    dsimp only
    split <;> exact True.intro

end Live

namespace LiveService

open Live

/-- A page that is asked for by clamped numbers is asked of the database by the same. -/
theorem play_clamps (live : LiveService) {op : Backend.Op} (h : op.Clamped) :
    Clamps (live.play op) := by
  -- one case for each question, of which only the list may be a page
  cases op with
  | now => exact ⟨True.intro, fun _ => True.intro⟩
  | wallClock | track | probe | sign | breakers => exact clamps_ask True.intro
  | stamp =>
    exact Asks.bind (clamps_ask True.intro) fun _ => Asks.bind (clamps_ask True.intro) fun _ =>
      True.intro
  | preferences ctx userId =>
    show Clamps (live.preferences ctx userId)
    unfold preferences
    cases live.users with
    | some client => exact clamps_overUsers _
    | none =>
      refine Asks.bind (clamps_reach ctx userService userId) fun reached => ?_
      cases reached <;> exact True.intro
  | render ctx code language values =>
    show Clamps (live.render ctx code language values)
    unfold render
    cases live.templates with
    | some client => exact clamps_overTemplates _
    | none =>
      refine Asks.bind (clamps_reach ctx templateService code) fun reached => ?_
      cases reached with
      | error => exact True.intro
      | ok => exact Asks.bind (clamps_ask True.intro) fun _ => True.intro
  | create ctx record =>
    exact clamps_overStore (Asks.bind (Timed.begins_guarded True.intro) fun _ => True.intro)
  | find ctx id =>
    refine clamps_overStore (Asks.bind (Timed.begins_guarded True.intro) fun answer => ?_)
    split <;> exact True.intro
  | update ctx id status error =>
    refine Asks.bind (clamps_ask True.intro) fun time => clamps_overStore ?_
    refine Asks.bind (Timed.begins_guarded True.intro) fun answer => ?_
    split <;> exact True.intro
  | list ctx userId limit offset =>
    refine clamps_overStore (Asks.bind (Timed.begins_guarded h) fun answer => ?_)
    split <;> exact True.intro
  | publish => exact clamps_overBroker _
  | deadLetter => exact Asks.bind (clamps_ask True.intro) fun _ => clamps_overBroker _
  | cacheGet | cacheSet => exact clamps_overCache _

theorem handle_clamps (live : LiveService) (s : Router.Service) (call : Router.Call) :
    Clamps ((Router.handle s call).interpret (T := Timed Wires) live.play) :=
  (Router.handle_clamped s call).interpret_of fun _ => live.play_clamps

end LiveService

end Courier
