import Courier.Cache.Client
import Courier.Proofs.Flow.Logs
import Courier.Proofs.Flow.Served
import Courier.Proofs.Live.Clients
import Courier.Proofs.Pipeline.Replay

/-!
# A cache that is of no use

The cache stands aside from all that is done for a request. One that gives no reply, and gives none
at once, might as well not be there: `process_aside` compares the run of a request that has a key
with the run of the same request without one, in surroundings that are the same for both and do as
they like. The same is asked of everyone else at the same times, and the results are the same; only
a reply may come later, by the wait for a cache that is to keep it.

The two runs are compared through the steps between the two questions to the cache. Those ask
nothing of it (`execute_asks`), so that what it has come to hold makes no difference (`run_view`).
-/

set_option autoImplicit false

namespace Courier

open Courier.Flow (asked_bind run_bind asked_map run_map asks_of_runs Asks asked_of_asks Leads)
open Timed (Server World)

variable {σ κ α : Type}

namespace Backend

/-- Is the question one to the cache? -/
def Op.asksCache : Op → Bool
  | .cacheGet _ _ | .cacheSet _ _ _ _ => true
  | _ => false

/-- The question is one to someone else. -/
def Op.Elsewhere (op : Op) : Prop := op.asksCache = false

end Backend

open Backend (Op)

/-! ## The cache beside the others

The same collaborators, once alone and once with a cache beside them that takes time of its own. The
execution asks the cache nothing (`execute_asks`), so it runs in both alike.
-/

/-- Surroundings without a cache: whatever is asked takes its time. -/
def alone (others : Server Backend σ) : Flow.Step Backend (World σ)
  | .now, w => some (w.time, w)
  | op, w => Timed.step others (.plain op) w

/-- The part of a world that is not the cache. -/
def Timed.World.others (w : World (σ × κ)) : World σ := ⟨w.time, w.state.1⟩

/-- The part of a world that is the cache. -/
def Timed.World.cache (w : World (σ × κ)) : World κ := ⟨w.time, w.state.2⟩

/-- A client of the cache is waited for, and the others are not touched. -/
def consult (cache : Server Cache.Wire κ) (client : Flow (Timed Cache.Wire) α)
    (w : World (σ × κ)) : Option (α × World (σ × κ)) :=
  (Timed.run cache client w.cache).map fun r => (r.1, ⟨r.2.time, (w.state.1, r.2.state)⟩)

/-- Surroundings with a cache, which knows nothing of the others, nor they of it. -/
def beside (others : Server Backend σ) (cache : Server Cache.Wire κ) :
    Flow.Step Backend (World (σ × κ))
  | .cacheGet ctx name, w => consult cache (Cache.get ctx name) w
  | .cacheSet ctx name text ttl, w => consult cache (Cache.set ctx name text ttl) w
  | op, w => (alone others op w.others).map fun r => (r.1, ⟨r.2.time, (r.2.state, w.state.2)⟩)

/-- What is asked of others than the cache, and when. -/
def Backend.elsewhere (asked : List (World σ × Signature.Op Backend)) :
    List (Nat × Op) :=
  (asked.filter fun q => !q.2.asksCache).map fun q => (q.1.time, q.2)

open Backend (elsewhere)

theorem Backend.elsewhere_append (early late : List (World σ × Signature.Op Backend)) :
    elsewhere (early ++ late) = elsewhere early ++ elsewhere late := by
  rw [elsewhere, List.filter_append, List.map_append]
  rfl

theorem Backend.elsewhere_map (asked : List (World (σ × κ) × Signature.Op Backend)) :
    elsewhere (asked.map fun q => (q.1.others, q.2)) = elsewhere asked := by
  rw [elsewhere, List.filter_map, List.map_map]
  rfl

/-- What becomes of the question for the entry of a key. -/
def inquiry (cache : Server Cache.Wire κ) (key : String) (w : World κ) :
    Timed.Work κ (Except String Cache.Answer) :=
  cache.work w.time (.run (.get (Replies.entryName key))) w.state

/-- The reply that is in its answer, if one is: none is in an error, in nothing at all, and in a
text that does not read as one. -/
def recollection (cache : Server Cache.Wire κ) (key : String) (w : World κ) : Option Reply :=
  Replies.recalled (.ok (Cache.received Cache.Answer.text? (inquiry cache key w).answer.1))

/-- Asked for the entry of a key, the cache answers at once, and nothing that is a reply. -/
structure Useless (cache : Server Cache.Wire κ) (key : String) (w : World κ) : Prop where
  prompt : (inquiry cache key w).takes = some 0
  barren : recollection cache key w = none

/-- The request without its key. -/
def Request.bare (request : Request) : Request := { request with idempotencyKey := none }

variable {others : Server Backend σ} {cache : Server Cache.Wire κ} {w : World (σ × κ)}
  {ctx : Context} {request : Request} {key : String} {limit : Nat} {p : Pipeline}

/-- Where the cache is not asked, what it holds makes no difference. -/
theorem beside_alike (op : Signature.Op Backend) (w : World (σ × κ)) (h : Op.Elsewhere op) :
    alone others op w.others =
      (beside others cache op w).map fun r => (r.1, r.2.others) := by
  have same {γ : Type} (found : Option (γ × World σ)) (k : κ) :
      found = (found.map fun r => (r.1, (⟨r.2.time, (r.2.state, k)⟩ : World (σ × κ)))).map
        fun r => (r.1, r.2.others) := by
    cases found <;> rfl
  cases op with
  | cacheGet | cacheSet => cases h
  | _ => exact same _ _

theorem run_view {program : Flow Backend α} (asks : program.Asks Op.Elsewhere)
    (w : World (σ × κ)) :
    (program.run (beside others cache) w).map (fun r => (r.1, r.2.others)) =
      program.run (alone others) w.others :=
  (run_map beside_alike asks w).symm

theorem asked_view {program : Flow Backend α} (asks : program.Asks Op.Elsewhere)
    (w : World (σ × κ)) :
    elsewhere (program.asked (beside others cache) w) =
      elsewhere (program.asked (alone others) w.others) := by
  rw [asked_map beside_alike asks w]
  exact (Backend.elsewhere_map _).symm

/-- The question for the entry of a key is raced against the context. -/
theorem beside_get (others : Server Backend σ) (running : ctx.check w.time = .ok ())
    {ending : Ending}
    (raced : ctx.race w.time (inquiry cache key w.cache).takes = some ending) :
    beside others cache (.cacheGet ctx (Replies.entryName key)) w = some (match ending with
      | .finished t =>
        (.ok (Cache.received Cache.Answer.text? (inquiry cache key w.cache).answer.1),
          ⟨t, w.state.1, (inquiry cache key w.cache).answer.2⟩)
      | .interrupted why t => (.error why, ⟨t, w.state.1, (inquiry cache key w.cache).begun⟩)) := by
  have ends : Timed.Ends cache (Cache.get ctx (Replies.entryName key)) w.cache fun x v =>
      (x, v) = match ending with
        | .finished t =>
          (.ok (Cache.received Cache.Answer.text? (inquiry cache key w.cache).answer.1),
            ⟨t, (inquiry cache key w.cache).answer.2⟩)
        | .interrupted why t => (.error why, ⟨t, (inquiry cache key w.cache).begun⟩) := by
    refine Flow.holds_bind_iff.2 (Timed.ends_ifOpen (fun why closed => ?_) fun _ => ?_)
    · cases running.symm.trans closed
    · refine ⟨_, _, congrArg (Option.map _) raced, ?_⟩
      cases ending <;> rfl
  obtain ⟨_, _, run, end_eq⟩ := Timed.ends_iff.1 ends
  cases ending <;> cases end_eq <;> exact congrArg (Option.map _) run

theorem Useless.passed (h : Useless cache key w.cache) (running : ctx.check w.time = .ok ()) :
    ∃ answer k, beside others cache (.cacheGet ctx (Replies.entryName key)) w =
      some (answer, ⟨w.time, w.state.1, k⟩) ∧ Replies.recalled answer = none := by
  have raced : ctx.race w.time (inquiry cache key w.cache).takes = some (.finished w.time) :=
    Context.race_finished_iff.2 ⟨⟨0, h.prompt, rfl⟩, running⟩
  exact ⟨_, _, beside_get others running raced, h.barren⟩

/-- Whoever waits for the cache under a deadline waits no longer than that. -/
theorem consult_set (cache : Server Cache.Wire κ) (deadline : ctx.deadline = some limit)
    (name text : String) (ttl : Nat) (w : World (σ × κ)) :
    ∃ stored v, consult cache (Cache.set ctx name text ttl) w = some (stored, v) ∧
      v.state.1 = w.state.1 ∧ w.time ≤ v.time ∧ v.time ≤ max w.time limit := by
  have bounded (t : Nat) : Timed.Bounded (R := Cache.Wire) ctx (fun _ => False) (fun _ => True)
      (Cache.set ctx name text ttl) t fun _ _ => True :=
    Cache.set_bounded name text ttl trivial
  have ends : Timed.EndsBy cache (Cache.set ctx name text ttl) limit :=
    Timed.endsBy_of_bounded (fun _ _ _ h => h.elim) deadline bounded
  obtain ⟨stored, v, run, inTime⟩ := Timed.ends_iff.1 (ends w.cache)
  have later : w.cache.time ≤ v.time := Timed.run_time run
  exact ⟨stored, _, congrArg (Option.map _) run, rfl, later, inTime⟩

namespace Pipeline

/-- The steps ask nothing of the cache. -/
theorem execute_asks (p : Pipeline) (ctx : Context) (request : Request) :
    (p.execute ctx request).Asks Op.Elsewhere := by
  refine asks_of_runs deafBroker fun log result runs x hx => ?_
  obtain ⟨unkept, unasked⟩ := (execute_course runs).uncached
  obtain ⟨op, answer⟩ := x
  cases op with
  | cacheGet c name =>
    have mem : name ∈ Backend.lookups log := List.mem_filterMap.2 ⟨_, hx, rfl⟩
    rw [unasked] at mem
    cases mem
  | cacheSet c name text ttl =>
    have mem : (name, text, ttl) ∈ Backend.keepings log := List.mem_filterMap.2 ⟨_, hx, rfl⟩
    rw [unkept] at mem
    cases mem
  | _ => rfl

/-- What is done for a request with a key when no reply is found for it. -/
def executeKeeping (p : Pipeline) (ctx : Context) (request : Request) (key : String) :
    Flow Backend (Except Failure Reply) :=
  (p.execute ctx request).bind fun
    | .error e => .done (.error e)
    | .ok reply => .ask (S := Backend) (p.keeping ctx key reply) fun _ => .done (.ok reply)

/-- A request with a key asks for the time, for the entry of its key, and then whatever is asked for
it. -/
theorem process_keyed (keyed : request.key? = some key) :
    p.process ctx request = .ask (S := Backend) Op.now fun now => match ctx.check now with
      | .error i => .done (.error (.interrupted i))
      | .ok () => .ask (S := Backend) (Op.cacheGet ctx (Replies.entryName key)) fun answer =>
        match Replies.recalled answer with
        | some reply => .done (.ok reply)
        | none => p.executeKeeping ctx request key := by
  unfold process
  simp only [keyed]
  show Flow.ask (S := Backend) Op.now _ = _
  congr
  funext now
  dsimp only [Flow.bind]
  cases ctx.check now with
  | error i => rfl
  | ok =>
    show Flow.ask (S := Backend) (Op.cacheGet ctx (Replies.entryName key)) _ = _
    congr
    funext answer
    rcases answer with i | (f | (_ | text))
    · rfl
    · rfl
    · rfl
    · show Flow.bind (.done (Replies.read? text)) _ = _
      rw [Flow.bind, Replies.recalled]
      cases Replies.read? text <;> rfl

theorem process_bare :
    p.process ctx request.bare = .ask (S := Backend) Op.now fun now => match ctx.check now with
      | .error i => .done (.error (.interrupted i))
      | .ok () => p.execute ctx request := by
  have keyless : request.bare.key? = none := rfl
  unfold process
  simp only [keyless]
  rfl

/-- A request that is interrupted comes no further than to the clock. -/
theorem process_leads {why : Interruption} (closed : ctx.check w.time = .error why) :
    Leads (beside others cache) (p.process ctx request) w [(w, Op.now)]
      (.done (.error (.interrupted why))) w := by
  have clock : beside others cache .now w = some (w.time, w) := rfl
  refine .ask (S := Backend) clock ?_
  dsimp only [Flow.bind]
  rw [closed]
  exact .refl _ _ _

/-- A request that may go on goes by what the cache answers. -/
theorem keyed_leads (keyed : request.key? = some key) (running : ctx.check w.time = .ok ())
    {answer : Except Interruption (Except CacheFailure (Option String))} {v : World (σ × κ)}
    (answered : beside others cache (.cacheGet ctx (Replies.entryName key)) w = some (answer, v)) :
    Leads (beside others cache) (p.process ctx request) w
      [(w, Op.now), (w, Op.cacheGet ctx (Replies.entryName key))]
      (match Replies.recalled answer with
        | some reply => .done (.ok reply)
        | none => p.executeKeeping ctx request key) v := by
  rw [process_keyed keyed]
  refine .ask rfl ?_
  dsimp only [alone, Timed.World.others]
  rw [running]
  exact .ask answered (.refl _ _ _)

/-- Without a key it goes straight through the steps. -/
theorem bare_leads (running : ctx.check w.time = .ok ()) :
    Leads (beside others cache) (p.process ctx request.bare) w [(w, Op.now)]
      (p.execute ctx request) w := by
  rw [process_bare]
  refine .ask rfl ?_
  dsimp only [alone, Timed.World.others]
  rw [running]
  exact .refl _ _ _

/-- What is asked last is asked of the cache. -/
theorem elsewhere_keeping (v : World (σ × κ)) :
    elsewhere ((p.executeKeeping ctx request key).asked (beside others cache) v) =
      elsewhere ((p.execute ctx request).asked (beside others cache) v) := by
  rw [executeKeeping, asked_bind, Backend.elsewhere_append]
  refine (congrArg (_ ++ ·) ?_).trans (List.append_nil _)
  rcases (p.execute ctx request).run (beside others cache) v with _ | ⟨e | reply, u⟩
  · rfl
  · rfl
  · exact congrArg elsewhere (Flow.asked_last (S := Backend) _ (p.keeping ctx key reply) _ _)

/-- Only a reply is kept, and it is given whatever comes of that. -/
theorem run_keeping (v : World (σ × κ)) :
    (p.executeKeeping ctx request key).run (beside others cache) v =
      match (p.execute ctx request).run (beside others cache) v with
      | some (.ok reply, u) => (beside others cache (p.keeping ctx key reply) u).map
          fun r => (.ok reply, r.2)
      | ended => ended := by
  rw [executeKeeping, run_bind]
  rcases (p.execute ctx request).run (beside others cache) v with _ | ⟨e | reply, u⟩
  · rfl
  · rfl
  · exact Flow.run_last (S := Backend) _ (p.keeping ctx key reply) _ _

/-! ## The law

By cases on the start: the context is over already, or the look-up finds nothing of use and leads
into the execution.
-/

/-- With a key and without one a request is dealt with alike, but for the cache. -/
structure Aside (p : Pipeline) (ctx : Context) (request : Request) (key : String)
    (others : Server Backend σ) (cache : Server Cache.Wire κ) (limit : Nat)
    (w : World (σ × κ)) : Prop where
  /-- The same is asked of all others, in the same order and at the same times. -/
  asked : elsewhere ((p.process ctx request).asked (beside others cache) w) =
    elsewhere ((p.process ctx request.bare).asked (beside others cache) w)
  /-- Without a key nothing is asked of the cache. -/
  unasked : ∀ q ∈ (p.process ctx request.bare).asked (beside others cache) w, Op.Elsewhere q.2
  /-- If someone never answers, there is no end with or without a key. -/
  endless : (p.process ctx request.bare).run (beside others cache) w = none →
    (p.process ctx request).run (beside others cache) w = none
  /-- A failure is the same failure, at the same time. -/
  failed : ∀ e v, (p.process ctx request.bare).run (beside others cache) w = some (.error e, v) →
    ∃ v', (p.process ctx request).run (beside others cache) w = some (.error e, v') ∧
      v'.others = v.others
  /-- A reply is the same reply. The cache is to keep it, and only the wait for that comes on top,
  which is over by the deadline. -/
  answered : ∀ reply v,
    (p.process ctx request.bare).run (beside others cache) w = some (.ok reply, v) →
    ∃ u stored v', u.others = v.others ∧
      beside others cache (p.keeping ctx key reply) u = some (stored, v') ∧
      (p.process ctx request).run (beside others cache) w = some (.ok reply, v') ∧
      v'.state.1 = v.state.1 ∧ v.time ≤ v'.time ∧ v'.time ≤ max v.time limit

/-- In an interrupted context nobody is asked, with or without a key. -/
theorem aside_closed {why : Interruption} (closed : ctx.check w.time = .error why) :
    Aside p ctx request key others cache limit w := by
  have ended (r : Request) : Leads (beside others cache) (p.process ctx r) w [(w, Op.now)]
      (.done (.error (.interrupted why))) w := process_leads closed
  have leads := ended request
  have bare := ended request.bare
  constructor
  case asked => rw [leads.asked, bare.asked]
  case unasked => rw [bare.asked]; exact List.forall_mem_singleton.2 rfl
  case endless => rw [bare.run]; exact nofun
  case failed =>
    rw [bare.run, leads.run]
    rintro _ _ ⟨⟩
    exact ⟨w, rfl, rfl⟩
  case answered => rw [bare.run]; exact nofun

section

variable {v : World (σ × κ)} (views : v.others = w.others)
include views

theorem execute_asked_view :
    elsewhere ((p.execute ctx request).asked (beside others cache) v) =
      elsewhere ((p.execute ctx request).asked (beside others cache) w) := by
  rw [asked_view (execute_asks p ctx request), asked_view (execute_asks p ctx request), views]

theorem execute_run_view {ended : Option (Except Failure Reply × World (σ × κ))}
    (h : (p.execute ctx request).run (beside others cache) w = ended) :
    ((p.execute ctx request).run (beside others cache) v).map (fun r => (r.1, r.2.others)) =
      ended.map fun r => (r.1, r.2.others) := by
  rw [← h, run_view (execute_asks p ctx request), run_view (execute_asks p ctx request), views]

theorem execute_ends_view {result : Except Failure Reply} {u : World (σ × κ)}
    (h : (p.execute ctx request).run (beside others cache) w = some (result, u)) :
    ∃ u', (p.execute ctx request).run (beside others cache) v = some (result, u') ∧
      u'.others = u.others := by
  obtain ⟨⟨result', u'⟩, h', he⟩ := Option.map_eq_some_iff.1 (execute_run_view views h)
  obtain ⟨rfl, hu⟩ := Prod.mk.inj he
  exact ⟨u', h', hu⟩

end

/-- **A cache of no use is not noticed**: whatever the other collaborators do, and whatever becomes
of what the cache is to keep. -/
theorem process_aside (p : Pipeline) (ctx : Context) (request : Request) (key : String)
    (others : Server Backend σ) (cache : Server Cache.Wire κ) (limit : Nat) (w : World (σ × κ))
    (deadline : ctx.deadline = some limit) (keyed : request.key? = some key)
    (useless : Useless cache key w.cache) : Aside p ctx request key others cache limit w := by
  let step := beside others cache
  cases hc : ctx.check w.time with
  | error why => exact aside_closed hc
  | ok =>
    obtain ⟨answer, k, passed, missed⟩ := useless.passed hc
    have leads := keyed_leads (p := p) keyed hc passed
    rw [missed] at leads
    have bare : Leads step (p.process ctx request.bare) w [(w, Op.now)] (p.execute ctx request) w :=
      bare_leads hc
    generalize hv : (⟨w.time, (w.state.1, k)⟩ : World (σ × κ)) = v at leads
    -- the steps between the two questions to the cache begin where the others are as they were
    have views : v.others = w.others := hv ▸ rfl
    constructor
    case asked =>
      rw [leads.asked, bare.asked, Backend.elsewhere_append, Backend.elsewhere_append,
        elsewhere_keeping, execute_asked_view views]
      rfl
    case unasked =>
      rw [bare.asked]
      exact List.forall_mem_cons.2 ⟨rfl, fun q hq => asked_of_asks (execute_asks p ctx request) hq⟩
    case endless =>
      rw [bare.run, leads.run, run_keeping]
      intro h
      rw [Option.map_eq_none_iff.1 (execute_run_view views h)]
    case failed =>
      rw [bare.run, leads.run, run_keeping]
      intro e u h
      obtain ⟨u', h', hu⟩ := execute_ends_view views h
      rw [h']
      exact ⟨u', rfl, hu⟩
    case answered =>
      rw [bare.run, leads.run, run_keeping]
      intro reply u h
      obtain ⟨u', h', hu⟩ := execute_ends_view views h
      obtain ⟨stored, t, kept, state, later, inTime⟩ := consult_set cache deadline
        (Replies.entryName key) (Reply.codec.text reply) p.replyTtl u'
      obtain ⟨time, rest⟩ := World.mk.inj hu
      refine ⟨u', stored, t, hu, kept, ?_, ?_, ?_, ?_⟩
      · rw [h']
        exact congrArg (Option.map _) kept
      · exact state.trans rest
      · exact time ▸ later
      · exact time ▸ inTime

/-- Everyone answers in a millisecond, and well. -/
def obliging : Server Backend Unit where
  work _ op _ := ⟨(), some 1, keepingCache [] op, ()⟩

/-- A cache that finds broken text under every key, and never says that it keeps something. -/
def rottenCache : Server Cache.Wire Unit where
  work _ q _ := match q with
    | .dial _ => .immediate (.ok ()) ()
    | .run (.get _) => .immediate (.ok (.bulk "\x7b")) ()
    | .run (.setEx _ _ _) | .run .ping => ⟨(), none, .ok .nil, ()⟩

/-- The reply is there at the deadline, after a wait for the cache. -/
theorem process_aside_rotten :
    let p : Pipeline := { replyTtl := 60000 }
    let request : Request := { userId := "u1", idempotencyKey := some "k1" }
    let ctx : Context := .lasting 0 100
    let w : World (Unit × Unit) := ⟨0, (), ()⟩
    let step := beside obliging rottenCache
    Aside p ctx request "k1" obliging rottenCache 100 w ∧
      ∃ reply v v', (p.process ctx request.bare).run step w = some (.ok reply, v) ∧
        (p.process ctx request).run step w = some (.ok reply, v') ∧ v.time = 6 ∧ v'.time = 100 := by
  intro p request ctx w step
  have useless : Useless rottenCache "k1" w.cache := ⟨rfl, by decide⟩
  refine ⟨process_aside p ctx request "k1" obliging rottenCache 100 w rfl rfl useless, ?_⟩
  exact ⟨_, _, _, rfl, rfl, rfl, rfl⟩

end Pipeline

end Courier
