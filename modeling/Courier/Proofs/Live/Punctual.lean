import Courier.Live.Peers
import Courier.Proofs.Live.Clients
import Courier.Proofs.Pipeline.Punctual

/-!
# The live service answers in time

The clients of the live service do all their waiting under the contexts they are given: what each
does on its own wire keeps within its context (`Proofs.Live.Clients`), and so does the same on all
wires (`lift_bounded`). Hence they are collaborators that race all their waiting (`play_races`), and
a request is answered in time whatever is at the other ends, and even if nothing is.
-/

set_option autoImplicit false

namespace Courier

open Timed (Bounded Prompt Server World bounded_mono)

variable {α σ : Type}

namespace Live

/-- It is settled within the process: what its clocks and breakers tell, and that a report is to be
made, which is then made on its own. -/
def Query.Inner : Query → Prop
  | .wallClock | .freshId | .track _ _ => True
  | .users q | .templates q => q.Inner
  | .store _ | .broker _ | .cache _ | .probe | .sign _ _ _ | .breakers => False

/-- The program keeps within the context, and only what is settled within the process is asked
without one. -/
abbrev Within (ctx : Context) (p : Act α) (t : Nat) (post : α → Nat → Prop) : Prop :=
  Bounded (R := Wires) ctx Query.Inner (fun _ => True) p t post

theorem ask_within {ctx : Context} {t : Nat} {q : Query} {k : Wires.Answer q → Nat → Prop}
    (stays : q.Inner) (hk : ∀ x, k x t) : Within ctx (ask q) t k := ⟨stays, hk⟩

end Live

open Live

/-! ## What is done for each question

Every question of the pipeline is answered by a program that stays within the context it is given.
-/

namespace LiveService

variable {s : LiveService} {ctx : Context} {t : Nat}

/-- A text is rendered within the context, wherever the template comes from. -/
theorem render_within (code language : String) (values : Dict Json) :
    Within ctx (s.render ctx code language values) t fun _ _ => True := by
  unfold render
  cases s.templates with
  | some client => exact askTemplates_bounded (fun _ hq => hq) client _ _
  | none =>
    refine Flow.holds_bind_iff.2
      ((InMemory.reach_bounded templateService code).mono bounded_mono ?_)
    intro reached t _
    cases reached with
    | error e => exact True.intro
    | ok => exact Flow.holds_bind_iff.2 (ask_within True.intro fun _ => True.intro)

/-- What is done for a question keeps within every context that the question does. -/
theorem play_within {op : Backend.Op} (h : op.Within ctx) :
    Within ctx (s.play op) t fun _ _ => True := by
  cases op with
  | now => exact True.intro
  | wallClock => exact ask_within True.intro fun _ => True.intro
  | stamp =>
    refine Flow.holds_bind_iff.2 (ask_within True.intro fun _ => Flow.holds_bind_iff.2 ?_)
    exact ask_within True.intro fun _ => True.intro
  | preferences c userId =>
    obtain rfl : c = ctx := h
    exact s.preferences_bounded (fun _ hq => hq) userId
  | render c code language values =>
    obtain rfl : c = ctx := h
    exact render_within code language values
  | create c record =>
    obtain rfl : c = ctx := h
    exact overStore_bounded (Store.create_bounded record True.intro)
  | update c id status error =>
    obtain rfl : c = ctx := h
    refine Flow.holds_bind_iff.2 (ask_within True.intro fun time => ?_)
    exact overStore_bounded (Store.update_bounded id status error time True.intro)
  | publish c channel id delivery =>
    obtain rfl : c = ctx := h
    refine overBroker_bounded ((s.publisher.send_bounded _ True.intro).mono bounded_mono ?_)
    exact fun _ _ _ => True.intro
  -- the letter's identifier is a plain question, outside the deadline
  | deadLetter c letter =>
    obtain rfl : c = ctx := h
    refine Flow.holds_bind_iff.2 (ask_within True.intro fun id => ?_)
    refine overBroker_bounded ((s.publisher.send_bounded _ True.intro).mono bounded_mono ?_)
    exact fun _ _ _ => True.intro
  | cacheGet c key =>
    obtain rfl : c = ctx := h
    exact overCache_bounded (Cache.get_bounded key True.intro)
  | cacheSet c key value ttl =>
    obtain rfl : c = ctx := h
    exact overCache_bounded (Cache.set_bounded key value ttl True.intro)
  | track userId timeout => exact ask_within True.intro fun _ => True.intro
  | find | list | probe | sign | breakers => exact absurd h id

theorem play_races (s : LiveService) {server : Server Wires σ}
    (prompt : Prompt server Query.Inner) : Racing server Query.Inner s.play where
  prompt := prompt
  clock := rfl
  races _ _ h _ := play_within h

end LiveService

/-! ## The law -/

/-- **Every request is answered in time**: by collaborators that race all their waiting against the
contexts they are given, and by the clients of the live service, whatever is at the other ends of
their wires and however often they try. -/
theorem submit_punctual (p : Pipeline) (request : Request) :
    (∀ {R : Signature} {σ : Type} (server : Server R σ) (inner : R.Op → Prop)
      (play : (op : Backend.Op) → Flow (Timed R) (Backend.Answer op)),
      Racing server inner play → ∀ w, p.Punctual server play request w) ∧
    ∀ {σ : Type} (server : Server Wires σ) (s : LiveService), Prompt server Query.Inner →
      ∀ w, p.Punctual server s.play request w :=
  ⟨fun _ _ _ racing w => Pipeline.punctual_of_racing racing request w,
    fun _ s prompt w => Pipeline.punctual_of_racing (s.play_races prompt) request w⟩

/-- Surroundings in which nothing outside is ever answered. -/
def unanswering : Server Wires Peers where
  work now q peers :=
    let takes := match q with
      | .users (.send _) | .templates (.send _) | .store _ | .broker _ | .cache _ => none
      | .sign _ _ _ => none
      | _ => some 0
    { Peers.server.work now q peers with takes }

/-- Not even the cache answers, with which a request begins that may have been made before. -/
theorem submit_punctual_unanswered :
    let s : LiveService := {
      users := some (.users "http://users" {})
      templates := none
      publisher := { exchange := "notifications", deadLetterQueue := "failed", policy := {} } }
    let inMemory : LiveService := { s with users := none }
    let p : Pipeline := { replyTtl := 60000 }
    let request : Request := { userId := "u1", idempotencyKey := some "k1" }
    let peer : Http.Peer :=
      { config := {}, script := .answers (.responds ⟨200, "\x7b\"user_id\":\"u1\"\x7d"⟩) [] }
    let w : World Peers := ⟨7, {
      users := peer
      templates := peer
      clock := fun _ => default
      identifier := fun _ => default }⟩
    Racing unanswering Query.Inner inMemory.play ∧
      p.Punctual unanswering inMemory.play request w ∧
      Prompt unanswering Query.Inner ∧ p.Punctual unanswering s.play request w := by
  intro s inMemory p request peer w
  have prompt : Prompt unanswering Query.Inner := by
    intro now q peers stays
    cases q with
    | users q | templates q =>
      cases q with
      | send r => exact absurd stays id
      | ticket | settle => rfl
    | store | broker | cache | probe | sign | breakers => exact absurd stays id
    | wallClock | freshId | track => rfl
  have racing := inMemory.play_races prompt
  exact ⟨racing, (submit_punctual p request).1 unanswering Query.Inner inMemory.play racing w,
    prompt, (submit_punctual p request).2 unanswering s prompt w⟩

end Courier
