import Courier.Live.Service
import Courier.Proofs.Flow.Bounds
import Courier.Proofs.Http.Attempts

/-!
# The clients keep within their contexts

Every client is given a context with each call, and every request, statement, message or command
that it begins it begins under that context and only while that is not interrupted: at each attempt
anew, and after each wait. Its breaker is the only thing that a client asks without bounds. What a
client does on its own wire it does on all of them (`lift_bounded`).

Nothing here is about times: keeping within a context is a rule for the questions of a program
(`Timed.Bounded`), and what it means for a run is said once, where it is played.
-/

set_option autoImplicit false

namespace Courier

open Timed (Bounded Awaits bounded_mono bounded_widen bounded_ifOpen bounded_guarded bounded_pause
  bounded_retry)

variable {α : Type} {ctx : Context} {t : Nat}

theorem Timed.Awaits.trivial : Awaits ctx fun (_ : Except Interruption α) _ => True :=
  ⟨fun _ _ _ => True.intro, fun _ _ _ => True.intro⟩

namespace Http

/-- Nothing is sent: it is the breaker that is asked. -/
def Query.Inner : Query → Prop
  | .send _ => False
  | .ticket | .settle _ _ => True

/-- Only a request is sent. -/
def Query.Outer : Query → Prop
  | .send _ => True
  | .ticket | .settle _ _ => False

theorem Query.Inner.not_outer {q : Query} (h : q.Inner) : ¬ q.Outer := by
  cases q with
  | send _ => exact absurd h id
  | ticket | settle _ _ => exact id

/-- A request is sent while the context is open, and waited for no longer. -/
theorem exchange_bounded (running : ctx.check t = .ok ()) (service : String)
    (request : Option Request) (read : Response → Except ClientFailure α) :
    Bounded ctx Query.Inner Query.Outer (exchange service ctx request read) t
      fun _ _ => True := by
  cases request with
  | none => exact True.intro
  | some r =>
    cases hr : r.url.isRequestable with
    | false =>
      simp only [exchange, hr]
      exact True.intro
    | true =>
      rw [exchange_of_requestable hr]
      exact Flow.holds_bind_iff.2
        ⟨rfl, True.intro, running, fun _ _ _ => True.intro, fun _ _ _ => True.intro⟩

/-- An attempt behind a breaker. -/
theorem attempt_bounded (service : String) (request : Option Request)
    (read : Response → Except ClientFailure α) :
    Bounded ctx Query.Inner Query.Outer
      (Timed.ifOpen ctx (behindBreaker service (exchange service ctx request read))) t
      fun _ _ => True := by
  refine bounded_ifOpen (fun _ _ _ => True.intro) fun running => ?_
  refine Flow.holds_bind_iff.2 ⟨True.intro, fun ticket => ?_⟩
  cases ticket with
  | error rejection => exact True.intro
  | ok ticket =>
    refine Flow.holds_bind_iff.2
      ((exchange_bounded running service request read).mono bounded_mono fun result _ _ => ?_)
    exact Flow.holds_bind_iff.2 ⟨True.intro, fun _ => True.intro⟩

theorem Client.ask_bounded (c : Client) (request : Option Request) (decode : Decoder α) :
    Bounded ctx Query.Inner Query.Outer (c.ask ctx request decode) t fun _ _ => True := by
  refine Flow.holds_bind_iff.2 ?_
  exact bounded_retry (fun _ _ _ => True.intro) fun _ => attempt_bounded c.service request _

end Http

namespace Store

variable {inner outer : Query → Prop}

theorem create_bounded (record : Notification)
    (may : outer (.run (.insert (.ofRecord record)))) :
    Bounded ctx inner outer (create ctx record) t fun _ _ => True :=
  Flow.holds_bind_iff.2 (bounded_guarded may .trivial)

theorem update_bounded (id : Uuid) (status : Status) (error : Option String) (time : DateTime)
    (may : outer (.run (.update id status.name error time))) :
    Bounded ctx inner outer (update ctx id status error time) t fun _ _ => True := by
  refine Flow.holds_bind_iff.2 (bounded_guarded may ⟨?_, fun _ _ _ => True.intro⟩)
  rintro (reason | n) _ - <;> exact True.intro

end Store

namespace Broker

variable {inner outer : Query → Prop}

/-- A message is taken only while the context is not interrupted. -/
def TakenIn (ctx : Context) (result : Except PublishFailure Unit) (t : Nat) : Prop :=
  result = .ok () → ctx.check t = .ok ()

/-- A message is handed over within the context, attempt by attempt, and is taken only while that is
open. -/
theorem Publisher.send_bounded (p : Publisher) (m : Message) (may : outer (.publish m)) :
    Bounded ctx inner outer (p.send ctx m) t (TakenIn ctx) := by
  have attempted (t : Nat) : Bounded ctx inner outer (attempt ctx m) t
      fun result t => result = .ok (.ok ()) → ctx.check t = .ok () :=
    Flow.holds_bind_iff.2 (bounded_guarded may
      ⟨fun _ _ running _ => running, fun _ _ _ h => by cases h⟩)
  refine Flow.holds_bind_iff.2
    ((bounded_retry (fun _ _ _ h => by cases h) attempted).mono bounded_mono ?_)
  intro result t h
  rcases result with why | result
  · intro h
    cases h
  · exact fun hr => h (congrArg Except.ok hr)

end Broker

namespace Cache

variable {inner outer : Query → Prop}

theorem get_bounded (key : String) (may : outer (.run (.get key))) :
    Bounded ctx inner outer (get ctx key) t fun _ _ => True :=
  Flow.holds_bind_iff.2 (bounded_guarded may ⟨fun _ _ _ => True.intro, fun _ _ _ => True.intro⟩)

theorem set_bounded (key value : String) (ttl : Nat) (may : outer (.run (.keep key value ttl))) :
    Bounded ctx inner outer (set ctx key value ttl) t fun _ _ => True :=
  Flow.holds_bind_iff.2 (bounded_guarded may ⟨fun _ _ _ => True.intro, fun _ _ _ => True.intro⟩)

end Cache

theorem InMemory.reach_bounded {R : Signature} {inner outer : R.Op → Prop} (service key : String) :
    Bounded ctx inner outer (reach (R := R) ctx service key) t fun _ _ => True := by
  refine Flow.holds_bind_iff.2 (bounded_pause ⟨fun _ _ _ => ?_, fun _ _ _ => True.intro⟩)
  dsimp only
  split <;> exact True.intro

/-! ## On all wires -/

namespace Live

section

variable {R : Signature} {inner outer : R.Op → Prop} {inside outside : Query → Prop}
  {post : α → Nat → Prop}

/-- A program over one wire keeps within its context on all of them. -/
theorem lift_bounded {alone : (r : R.Op) → Act (R.Answer r)}
    {raced : Context → (r : R.Op) → Act (Except Interruption (R.Answer r))}
    (asked : ∀ r t (k : R.Answer r → Nat → Prop), inner r → (∀ x, k x t) →
      Bounded ctx inside outside (alone r) t k)
    (begun : ∀ r t (k : Except Interruption (R.Answer r) → Nat → Prop), outer r →
      ctx.check t = .ok () → Awaits ctx k → Bounded ctx inside outside (raced ctx r) t k)
    {program : Flow (Timed R) α} (h : Bounded ctx inner outer program t post) :
    Bounded ctx inside outside (Timed.lift alone raced program) t post := by
  refine Flow.holds_interpret_iff.2 (h.transfer (bounded_mono.through _) id ?_)
  intro op t k hk
  -- a question about the time stays as it is; what is asked and what is raced go to the wire
  cases op with
  | now => exact hk
  | plain r => exact asked r t k hk.1 hk.2
  | race c r =>
    obtain ⟨rfl, hr, running, awaits⟩ := hk
    exact begun r t k hr running awaits
  | pause c delay jitter => exact hk

theorem overUsers_bounded {program : Flow (Timed Http.Link) α}
    (h : Bounded ctx (fun q => inside (.users q)) (fun q => outside (.users q)) program t post) :
    Bounded ctx inside outside (overUsers program) t post := by
  refine lift_bounded (R := Http.Link) (fun q t k hq hk => ?_) (fun q t k hq running awaits => ?_) h
  · exact ⟨hq, hk⟩
  · exact ⟨rfl, hq, running, awaits⟩

theorem overTemplates_bounded {program : Flow (Timed Http.Link) α}
    (h : Bounded ctx (fun q => inside (.templates q)) (fun q => outside (.templates q)) program t
      post) :
    Bounded ctx inside outside (overTemplates program) t post := by
  refine lift_bounded (R := Http.Link) (fun q t k hq hk => ?_) (fun q t k hq running awaits => ?_) h
  · exact ⟨hq, hk⟩
  · exact ⟨rfl, hq, running, awaits⟩

theorem overStore_bounded {program : Flow (Timed Store.Wire) α}
    (h : Bounded ctx (fun q => inside (.store q)) (fun q => outside (.store q)) program t post) :
    Bounded ctx inside outside (overStore program) t post := by
  refine lift_bounded (R := Store.Wire) (fun q t k hq hk => ?_)
    (fun q t k hq running awaits => ?_) h
  · exact ⟨hq, hk⟩
  · exact ⟨rfl, hq, running, awaits⟩

theorem overBroker_bounded {program : Flow (Timed Broker.Wire) α}
    (h : Bounded ctx (fun q => inside (.broker q)) (fun q => outside (.broker q)) program t post) :
    Bounded ctx inside outside (overBroker program) t post := by
  refine lift_bounded (R := Broker.Wire) (fun q t k hq hk => ?_)
    (fun q t k hq running awaits => ?_) h
  · exact ⟨hq, hk⟩
  · exact ⟨rfl, hq, running, awaits⟩

theorem overCache_bounded {program : Flow (Timed Cache.Wire) α}
    (h : Bounded ctx (fun q => inside (.cache q)) (fun q => outside (.cache q)) program t post) :
    Bounded ctx inside outside (overCache program) t post := by
  refine lift_bounded (R := Cache.Wire) (fun q t k hq hk => ?_)
    (fun q t k hq running awaits => ?_) h
  · exact ⟨hq, hk⟩
  · exact ⟨rfl, hq, running, awaits⟩

theorem askTemplates_bounded (asks : ∀ q : Http.Query, q.Inner → inside (.templates q))
    (c : Http.Client) (request : Option Http.Request) (decode : Decoder α) :
    Bounded ctx inside (fun _ => True) (overTemplates (c.ask ctx request decode)) t
      fun _ _ => True :=
  overTemplates_bounded (bounded_widen asks (fun _ _ => True.intro) (c.ask_bounded request decode))

theorem askUsers_bounded (asks : ∀ q : Http.Query, q.Inner → inside (.users q))
    (c : Http.Client) (request : Option Http.Request) (decode : Decoder α) :
    Bounded ctx inside (fun _ => True) (overUsers (c.ask ctx request decode)) t fun _ _ => True :=
  overUsers_bounded (bounded_widen asks (fun _ _ => True.intro) (c.ask_bounded request decode))

end

end Live

/-- Preferences are asked for within the context, wherever they come from. -/
theorem LiveService.preferences_bounded (s : LiveService) {inside : Live.Query → Prop}
    (asks : ∀ q : Http.Query, q.Inner → inside (.users q)) (userId : String) :
    Bounded ctx inside (fun _ => True) (s.preferences ctx userId) t fun _ _ => True := by
  unfold preferences
  cases s.users with
  | some client => exact Live.askUsers_bounded asks client _ _
  | none =>
    refine Flow.holds_bind_iff.2 ((InMemory.reach_bounded userService userId).mono bounded_mono ?_)
    intro reached t _
    cases reached <;> exact True.intro

end Courier
