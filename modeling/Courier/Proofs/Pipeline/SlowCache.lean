import Courier.Proofs.Pipeline.Aside
import Courier.Proofs.Pipeline.Punctual

/-!
# A cache that is slow

The question for a reply that may be kept is asked within the time of the request, and whatever it
takes is missing afterwards. An answer that is not there in time counts as nothing found, but then
there is no time left: everyone who heeds the context declines the first step, and the request
fails. So a cache that is slow enough, or silent, does fail a request that would have been answered
without its key (`submit_slow`).

The collaborators here heed their contexts and otherwise answer at once (`heeding`). What they
answer does not depend on the time, so that a run in which nobody looks at the clock is the same run
at any time at which its context is open (`Answers.moved`).
-/

set_option autoImplicit false

namespace Courier

open Backend (Op told)
open Courier.Flow (Answers Leads Runs run_eq_some_iff)
open Timed (Server World)

variable {τ κ : Type} {act : (op : Signature.Op Backend) → τ → Signature.Answer Backend op × τ}
  {cache : Server Cache.Wire κ} {ctx : Context} {request : Request} {key : String} {p : Pipeline}
  {why : Interruption} {t t' : Nat}

namespace Backend

/-- The failure with which an interruption is told, if there is one. -/
def refusal {α : Type} (ctx : Context) (now : Nat) (failure : Interruption → α) : Option α :=
  match ctx.check now with
  | .error why => some (failure why)
  | .ok () => none

theorem refusal_of_open {α : Type} (failure : Interruption → α) (running : ctx.check t = .ok ()) :
    refusal ctx t failure = none := by
  rw [refusal, running]

theorem refusal_of_closed {α : Type} (failure : Interruption → α)
    (closed : ctx.check t = .error why) : refusal ctx t failure = some (failure why) := by
  rw [refusal, closed]

/-- How a question is declined whose context is interrupted. -/
def declined (now : Nat) : (op : Signature.Op Backend) → Option (Signature.Answer Backend op)
  | .preferences ctx _ => refusal ctx now fun why => .error (.interrupted why)
  | .render ctx _ _ _ => refusal ctx now fun why => .error (.interrupted why)
  | .create ctx _ => refusal ctx now fun why => .error (.interrupted why)
  | .find ctx _ => refusal ctx now fun why => .error (.interrupted why)
  | .update ctx _ _ _ => refusal ctx now fun why => .error (.interrupted why)
  | .list ctx _ _ _ => refusal ctx now fun why => .error (.interrupted why)
  | .publish ctx _ _ _ => refusal ctx now fun why => .error (.interrupted why)
  | .deadLetter ctx _ => refusal ctx now fun why => .error (.interrupted why)
  | _ => none

/-- Nothing is declined within a context that is open. -/
theorem declined_of_open {op : Signature.Op Backend} (within : Op.Within ctx op)
    (running : ctx.check t = .ok ()) : declined t op = none := by
  cases op with
  | preferences | render | create | update | publish | deadLetter =>
    cases within
    exact refusal_of_open _ running
  | now | wallClock | stamp | track | cacheGet | cacheSet => rfl
  | find | list | probe | sign | breakers => exact within.elim

end Backend

open Backend (declined declined_of_open)

/-- Collaborators that decline what is asked in an interrupted context, and otherwise act at
once. -/
def heeding (act : (op : Signature.Op Backend) → τ → Signature.Answer Backend op × τ) :
    Server Backend τ where
  work now op s := match declined now op with
    | some x => .immediate x s
    | none => .immediate (act op s).1 (act op s).2

/-- The question is asked within a context and is not one for the time. -/
def Backend.Op.Timeless (ctx : Context) (op : Op) : Prop := op.Within ctx ∧ op ≠ .now

/-- Whatever is asked is dealt with at once. -/
theorem alone_heeding {op : Signature.Op Backend} (other : op ≠ Op.now) (s : τ) :
    alone (heeding act) op ⟨t, s⟩ = some (match declined t op with
      | some x => (x, ⟨t, s⟩)
      | none => ((act op s).1, ⟨t, (act op s).2⟩)) := by
  have plain : Timed.step (heeding act) (.plain op) ⟨t, s⟩ = some (match declined t op with
      | some x => (x, ⟨t, s⟩)
      | none => ((act op s).1, ⟨t, (act op s).2⟩)) := by
    dsimp only [Timed.step, heeding]
    cases declined t op <;> rfl
  cases op with
  | now => exact absurd rfl other
  | _ => exact plain

theorem heeding_acts {op : Signature.Op Backend} (timeless : Op.Timeless ctx op)
    (running : ctx.check t = .ok ()) (s : τ) :
    alone (heeding act) op ⟨t, s⟩ = some ((act op s).1, ⟨t, (act op s).2⟩) := by
  rw [alone_heeding timeless.2, declined_of_open timeless.1 running]

/-- A run in an open context in which nobody looks at the clock is the same run at any such time. -/
theorem Flow.Answers.moved {log : List (Exchange Backend)} {s : τ} {u : World τ}
    (answers : Answers (alone (heeding act)) ⟨t, s⟩ log u)
    (timeless : ∀ x ∈ log, Op.Timeless ctx x.op)
    (running : ctx.check t = .ok ()) (running' : ctx.check t' = .ok ()) :
    Answers (alone (heeding act)) ⟨t', s⟩ log ⟨t', u.state⟩ := by
  -- by induction on the run, each question of which is answered at the time at which it began
  induction log generalizing s with
  | nil =>
    cases answers
    exact .nil _
  | cons x log ih =>
    obtain ⟨first, rest⟩ := List.forall_mem_cons.1 timeless
    cases answers with
    | cons answered more =>
      obtain ⟨said, rfl⟩ :=
        Prod.mk.inj (Option.some.inj (answered.symm.trans (heeding_acts first running s)))
      have acted' : alone (heeding act) x.op ⟨t', s⟩ = some (x.answer, ⟨t', (act x.op s).2⟩) := by
        rw [said]
        exact heeding_acts first running' s
      exact .cons acted' (ih more rest)

namespace Pipeline

/-- For a reply nobody looks at the clock, and everything is asked in the context of the request. -/
theorem Course.timeless {log : List (Exchange Backend)} {reply : Reply}
    (h : Course p ctx request log (.ok reply)) : ∀ x ∈ log, Op.Timeless ctx x.op := by
  cases h with
  | settled => simp [told, Op.Timeless, Op.Within]
  | queued =>
    unfold tracking
    split <;> simp [told, Op.Timeless, Op.Within, rendering]

/-- The steps come to their reply at any time at which the context is open. -/
theorem execute_moved (cache : Server Cache.Wire κ) {reply : Reply} {w : World (τ × κ)}
    {u : World τ} (v : World (τ × κ))
    (ended : (p.execute ctx request).run (alone (heeding act)) w.others = some (.ok reply, u))
    (running : ctx.check w.time = .ok ()) (later : v.state.1 = w.state.1)
    (running' : ctx.check v.time = .ok ()) :
    ∃ u', (p.execute ctx request).run (beside (heeding act) cache) v = some (.ok reply, u') := by
  obtain ⟨log, runs, answers⟩ := run_eq_some_iff.1 ended
  have moved := run_eq_some_iff.2
    ⟨log, runs, answers.moved (execute_course runs).timeless running running'⟩
  have view : v.others = ⟨v.time, w.state.1⟩ := by rw [Timed.World.others, later]
  rw [← view, ← run_view (execute_asks p ctx request)] at moved
  obtain ⟨⟨_, u'⟩, found, same⟩ := Option.map_eq_some_iff.1 moved
  obtain ⟨rfl, -⟩ := Prod.mk.inj same
  exact ⟨u', found⟩

/-- In an interrupted context the first step is declined, and the request fails. -/
theorem execute_declined {w : World (τ × κ)} (closed : ctx.check w.time = .error why) :
    (p.execute ctx request).run (beside (heeding act) cache) w =
      some (.error (.interrupted why), w) := by
  have refused : declined w.time (.preferences ctx request.userId) =
      some (.error (.interrupted why)) := Backend.refusal_of_closed _ closed
  have other : Op.preferences ctx request.userId ≠ Op.now := nofun
  have asked : beside (heeding act) cache (.preferences ctx request.userId) w =
      some (.error (.interrupted why), w) := by
    refine (congrArg (Option.map _) (alone_heeding other w.state.1)).trans ?_
    rw [refused]
    rfl
  have leads : Leads (beside (heeding act) cache) (p.execute ctx request) w [_] _ w :=
    .ask (S := Backend) asked (.refl _ _ _)
  exact leads.run

theorem submit_leads (others : Server Backend τ) (w : World (τ × κ)) :
    Leads (beside others cache) (p.submit request) w [(w, Op.now)]
      (p.process (.lasting w.time p.settings.requestTimeout) request) w := by
  have clock : beside others cache .now w = some (w.time, w) := rfl
  exact .ask (S := Backend) clock (.refl _ _ _)

/-! ## The law

The look-up is raced against the deadline of the request. An answer in time leads on, and one that
comes later has used up the time of all the rest.
-/

theorem lasting_ends (start limit : Nat) : (Context.lasting start limit).Ends (start + limit) := by
  refine ⟨.inr rfl, ?_⟩
  rintro s (⟨⟨⟩⟩ | ⟨⟨⟩⟩)
  exact Nat.le_refl _

/-- A request with a key, by what becomes of the question for its entry, where the same request
without a key would be answered. -/
structure Hinges (p : Pipeline) (request : Request) (key : String)
    (act : (op : Signature.Op Backend) → τ → Signature.Answer Backend op × τ)
    (cache : Server Cache.Wire κ) (w : World (τ × κ)) (reply : Reply) : Prop where
  /-- If the cache answers within the time of the request, the reply is the one that it remembers
  or the one that the steps come to. -/
  inTime : ∀ d, (inquiry cache key w.cache).takes = some d → d < p.settings.requestTimeout →
    ∃ v, (p.submit request).run (beside (heeding act) cache) w =
      some (.ok ((recollection cache key w.cache).getD reply), v)
  /-- If it does not, the request fails. -/
  late : (∀ d, (inquiry cache key w.cache).takes = some d → p.settings.requestTimeout ≤ d) →
    ∃ v, (p.submit request).run (beside (heeding act) cache) w =
      some (.error (.interrupted .deadlineExceeded), v)

section

variable {w : World (τ × κ)} (keyed : request.key? = some key)
  (running : (Context.lasting w.time p.settings.requestTimeout).check w.time = .ok ())
include keyed running

/-- An answer of the cache that comes in time leaves the rest of the time to the steps. -/
theorem submit_in_time {reply : Reply} {u : World τ} {d : Nat}
    (ended : (p.execute (.lasting w.time p.settings.requestTimeout) request).run
      (alone (heeding act)) w.others = some (.ok reply, u))
    (takes : (inquiry cache key w.cache).takes = some d)
    (early : d < p.settings.requestTimeout) :
    ∃ v, (p.submit request).run (beside (heeding act) cache) w =
      some (.ok ((recollection cache key w.cache).getD reply), v) := by
  let ctx : Context := .lasting w.time p.settings.requestTimeout
  have open' : ctx.check (w.time + d) = .ok () :=
    (lasting_ends _ _).check_ok_iff.2 (Nat.add_lt_add_left early _)
  have raced : ctx.race w.time (inquiry cache key w.cache).takes =
      some (.finished (w.time + d)) := Context.race_finished_iff.2 ⟨⟨d, takes, rfl⟩, open'⟩
  have leads := keyed_leads (p := p) keyed running (beside_get (heeding act) running raced)
  rw [(submit_leads (heeding act) w).run, leads.run]
  -- the lookup answers at `w.time + d`, which is still before the deadline
  cases remembered : recollection cache key w.cache with
  | some known =>
    rw [recollection] at remembered
    rw [remembered]
    exact ⟨_, rfl⟩
  | none =>
    rw [recollection] at remembered
    rw [remembered]
    dsimp only
    obtain ⟨u, executed⟩ := execute_moved cache
      ⟨w.time + d, w.state.1, (inquiry cache key w.cache).answer.2⟩ ended running rfl open'
    rw [run_keeping, executed]
    obtain ⟨stored, v', kept, -⟩ := consult_set cache (rfl : ctx.deadline = _)
      (Replies.entryName key) (Reply.codec.text reply) p.replyTtl u
    exact ⟨v', congrArg (Option.map _) kept⟩

/-- When the cache has been waited for in vain, the deadline has come. -/
theorem submit_late
    (late : ∀ d, (inquiry cache key w.cache).takes = some d → p.settings.requestTimeout ≤ d) :
    ∃ v, (p.submit request).run (beside (heeding act) cache) w =
      some (.error (.interrupted .deadlineExceeded), v) := by
  have ends := lasting_ends w.time p.settings.requestTimeout
  rcases ends.race (ends.check_ok_iff.1 running) (inquiry cache key w.cache).takes with
    ⟨d, takes, early, -⟩ | ⟨-, why, raced, closed⟩
  · exact absurd early (Nat.not_lt.2 (Nat.add_le_add_left (late d takes) _))
  · have leads := keyed_leads (p := p) keyed running (beside_get (heeding act) running raced)
    have deadline : why = .deadlineExceeded := by
      cases why with
      | cancelled => cases (ends.cancelled_iff closed).1 rfl
      | deadlineExceeded => rfl
    rw [(submit_leads (heeding act) w).run, leads.run]
    dsimp only [Replies.recalled]
    rw [run_keeping, execute_declined closed, deadline]
    exact ⟨_, rfl⟩

end

/-- **Whether a request with a key is answered hinges on the cache**, and on nothing else, if it
would be answered without its key. -/
theorem submit_slow (p : Pipeline) (request : Request) (key : String)
    (act : (op : Signature.Op Backend) → τ → Signature.Answer Backend op × τ)
    (cache : Server Cache.Wire κ) (w v : World (τ × κ)) (reply : Reply)
    (keyed : request.key? = some key)
    (bare : (p.submit request.bare).run (beside (heeding act) cache) w = some (.ok reply, v)) :
    Hinges p request key act cache w reply := by
  rw [(submit_leads (heeding act) w).run] at bare
  cases running : (Context.lasting w.time p.settings.requestTimeout).check w.time with
  | error why =>
    rw [(process_leads running).run] at bare
    cases bare
  | ok =>
    rw [(bare_leads running).run] at bare
    have ended : (p.execute (.lasting w.time p.settings.requestTimeout) request).run
        (alone (heeding act)) w.others = some (.ok reply, v.others) := by
      rw [← run_view (execute_asks p _ request), bare]
      rfl
    exact ⟨fun d takes early => submit_in_time keyed running ended takes early,
      submit_late keyed running⟩

/-- A cache whose answers never come. -/
def silentCache : Server Cache.Wire Unit where
  work _ q _ := match q with
    | .dial _ => ⟨(), none, .ok (), ()⟩
    | .run _ => ⟨(), none, .ok .nil, ()⟩

/-- A silent cache uses up the time of the request. -/
theorem submit_slow_silent :
    let p : Pipeline := { replyTtl := 60000 }
    let request : Request := { userId := "u1", idempotencyKey := some "k1" }
    let act (op : Signature.Op Backend) (_ : Unit) := (keepingCache [] op, ())
    let w : World (Unit × Unit) := ⟨0, (), ()⟩
    ∃ reply v, (p.submit request.bare).run (beside (heeding act) silentCache) w =
        some (.ok reply, v) ∧ Hinges p request "k1" act silentCache w reply := by
  intro p request act w
  exact ⟨_, _, rfl, submit_slow p request "k1" act silentCache w _ _ rfl rfl⟩

/-- Not every request that would be answered without its key is answered with it, though everyone
but the cache heeds the context and is prompt. -/
theorem submit_fails_by_cache :
    ¬ ∀ (p : Pipeline) (request : Request) (key : String)
      (act : (op : Signature.Op Backend) → Unit → Signature.Answer Backend op × Unit)
      (cache : Server Cache.Wire Unit) (w : World (Unit × Unit)), request.key? = some key →
      0 < p.settings.requestTimeout →
      (∃ reply v, (p.submit request.bare).run (beside (heeding act) cache) w =
        some (.ok reply, v)) →
      ∃ reply v, (p.submit request).run (beside (heeding act) cache) w = some (.ok reply, v) := by
  intro promise
  let p : Pipeline := { settings := { requestTimeout := 20 }, replyTtl := 60000 }
  let request : Request := { userId := "u1", idempotencyKey := some "k1" }
  let act (op : Signature.Op Backend) (_ : Unit) := (keepingCache [] op, ())
  obtain ⟨reply, v, answered⟩ := promise p request "k1" act silentCache ⟨0, (), ()⟩ rfl
    (by decide) ⟨_, _, rfl⟩
  have failed : (p.submit request).run (beside (heeding act) silentCache) ⟨0, (), ()⟩ =
      some (.error (.interrupted .deadlineExceeded), ⟨20, (), ()⟩) := rfl
  cases failed.symm.trans answered

end Pipeline

end Courier
