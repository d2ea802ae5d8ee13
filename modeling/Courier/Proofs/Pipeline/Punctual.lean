import Courier.Proofs.Flow.Served
import Courier.Proofs.Pipeline.Agreement

/-!
# How long a request takes

A request has a time in which it is to be answered, and no collaborator can make it take longer,
not even one that never answers: whatever is asked for it is asked in its context (`Paced`). Only
what follows on a message that the broker does not take is asked in another, which begins when that
is known and lasts as long as a compensation may take.

The collaborators are any that do all their waiting under the context they are given (`Racing`).
-/

set_option autoImplicit false

namespace Courier

open Backend (told publications)
open Timed (Bounded EndsBy Prompt Serves Server World endsBy_of_bounded run serves_append_iff)

namespace Backend

/-- How a question is asked that must be over with a context: in that context, or without
waiting. -/
def Op.Within (ctx : Context) : Op → Prop
  | .now | .wallClock | .stamp | .track _ _ => True
  | .preferences c _ | .render c _ _ _ | .create c _ | .update c _ _ _ | .publish c _ _ _
  | .deadLetter c _ | .cacheGet c _ | .cacheSet c _ _ _ => c = ctx
  | .find _ _ | .list _ _ _ _ | .probe | .sign _ _ _ | .breakers => False

end Backend

variable {R : Signature} {σ : Type} {server : Server R σ} {inner : R.Op → Prop}
  {play : (op : Backend.Op) → Flow (Timed R) (Backend.Answer op)} {ctx : Context} {limit : Nat}
  {w w' : World σ}

/-- Collaborators that race all their waiting against the context they are given. One that is given
none does not wait, since it keeps within every context. -/
structure Racing (server : Server R σ) (inner : R.Op → Prop)
    (play : (op : Backend.Op) → Flow (Timed R) (Backend.Answer op)) : Prop where
  prompt : Prompt server inner
  clock : play .now = Timed.now
  races : ∀ op ctx, op.Within ctx → ∀ t,
    Bounded ctx inner (fun _ => True) (play op) t fun _ _ => True

theorem Racing.endsBy (h : Racing server inner play) (deadline : ctx.deadline = some limit)
    {op : Backend.Op} (within : op.Within ctx) : EndsBy server (play op) limit :=
  endsBy_of_bounded h.prompt deadline (h.races op ctx within)

namespace Pipeline

variable {p : Pipeline} {request : Request} {log : List (Exchange Backend)}
  {result : Except Failure Reply} {record : Notification} {delivery : Delivery}
  {e : PublishFailure} {now : Nat} {updated : Except StoreFailure Unit} {time : DateTime}
  {buried : Except PublishFailure Unit}

/-! ## In whose context

A run keeps to the context of its request, except for a compensation at its end, which has a fresh
one.
-/

/-- Everything is asked in the context of the request, up to a message that the broker does not take
and what follows on it. -/
inductive Paced (p : Pipeline) (ctx : Context) :
    List (Exchange Backend) → Except Failure Reply → Prop
  | within {log : List (Exchange Backend)} {result : Except Failure Reply}
      (each : ∀ x ∈ log, x.op.Within ctx) : Paced p ctx log result
  | compensated {early : List (Exchange Backend)} (each : ∀ x ∈ early, x.op.Within ctx)
      (e : PublishFailure) (refused : .error e ∈ publications early) (record : Notification)
      (delivery : Delivery) (now : Nat) (updated : Except StoreFailure Unit) (time : DateTime)
      (buried : Except PublishFailure Unit) (failure : Failure) :
      Paced p ctx (early ++ p.compensation record delivery e now updated time buried)
        (.error failure)

theorem Paced.after (h : Paced p ctx log result) (opening : List (Exchange Backend))
    (each : ∀ x ∈ opening, x.op.Within ctx) : Paced p ctx (opening ++ log) result := by
  cases h with
  | within rest => exact .within (List.forall_mem_append.2 ⟨each, rest⟩)
  | compensated rest e refused record delivery now updated time buried failure =>
    rw [← List.append_assoc]
    refine .compensated (List.forall_mem_append.2 ⟨each, rest⟩) e ?_ record delivery now updated
      time buried failure
    rw [publications, List.filterMap_append]
    exact List.mem_append_right _ refused

/-- Every course is paced. Only one goes on after a failure, and that is the one with a
compensation. -/
theorem Course.paced (h : Course p ctx request log result) : Paced p ctx log result := by
  cases h with
  | unknown | settled | unsettled | unrendered | uncreated =>
    refine .within ?_
    simp [told, Backend.Op.Within, rendering]
  | unpublished prefs wanted recipient reached rendered stamp record fresh delivery made e now
      updated time buried =>
    rw [List.append_cons]
    refine .compensated ?_ e List.mem_cons_self record delivery now updated time buried _
    simp [told, Backend.Op.Within, rendering]
  | queued prefs wanted recipient reached rendered stamp record fresh delivery made =>
    refine .within ?_
    unfold tracking
    split <;> simp [told, Backend.Op.Within, rendering]

/-- A request as a whole is paced as well: the clock asks for no context, and the cache is asked in
that of the request. -/
theorem Passage.paced (h : Passage p ctx request log result) : Paced p ctx log result := by
  cases h with
  | interrupted | repeated =>
    refine .within ?_
    simp [told, Backend.Op.Within]
  | keyless now runs bare course =>
    exact course.paced.after [told .now now] (List.forall_mem_singleton.2 True.intro)
  | failed now runs key keyed answer missed e course =>
    exact course.paced.after
      [told .now now, told (.cacheGet ctx (Replies.entryName key)) answer]
      (by simp [told, Backend.Op.Within])
  | kept now runs key keyed answer missed reply course stored =>
    cases course.paced with
    | within each =>
      have last : ∀ x ∈ [told (p.keeping ctx key reply) stored], x.op.Within ctx :=
        List.forall_mem_singleton.2 rfl
      exact .within (List.forall_mem_cons.2 ⟨True.intro,
        List.forall_mem_cons.2 ⟨rfl, List.forall_mem_append.2 ⟨each, last⟩⟩⟩)

/-- A request begins with a look at the clock, from which its time is counted. -/
theorem submit_paced (h : (p.submit request).Runs log result) :
    ∃ now rest, log = told .now now :: rest ∧
      Paced p (.lasting now p.settings.requestTimeout) log result := by
  obtain ⟨ctx, early, late, rfl, hc, hp⟩ := Flow.runs_bind_iff.1 h
  obtain ⟨now, _, rfl, hn⟩ := Flow.Runs.of_call hc
  obtain ⟨rfl, rfl⟩ := Flow.runs_pure_iff.1 hn
  refine ⟨now, late, rfl, (process_passage hp).paced.after _ fun x hx => ?_⟩
  cases List.mem_singleton.1 hx
  exact True.intro

theorem compensation_within :
    ∀ x ∈ p.compensation record delivery e now updated time buried,
      x.op.Within (.lasting now p.settings.compensationTimeout) := by
  simp [compensation, told, Backend.Op.Within]

/-! ## How long it takes

If each collaborator is over by the end of the context it is given, so is the run. The two bounds
are those of the two contexts.
-/

theorem clock_shows (racing : Racing server inner play)
    (served : Serves server play w (told .now now :: log) w') : now = w.time := by
  cases served with
  | cons played rest =>
    dsimp only [told] at played
    rw [racing.clock] at played
    cases played
    rfl

/-- A compensation has its own time, counted from when it begins. -/
theorem compensation_time (racing : Racing server inner play)
    (served : Serves server play w
      (p.compensation record delivery e now updated time buried) w') :
    w'.time ≤ w.time + p.settings.compensationTimeout := by
  obtain rfl := clock_shows racing served
  have inTime := served.time_le fun x hx => racing.endsBy rfl (compensation_within x hx)
  exact Nat.le_trans inTime (Nat.max_le.2 ⟨Nat.le_add_right _ _, Nat.le_refl _⟩)

/-- Whatever is asked is answered some time. -/
theorem Paced.ends (racing : Racing server inner play) (deadline : ctx.deadline = some limit)
    (h : Paced p ctx log result) : ∀ x ∈ log, ∃ limit, EndsBy server (play x.op) limit := by
  cases h with
  | within each => exact fun x hx => ⟨limit, racing.endsBy deadline (each x hx)⟩
  | compensated each =>
    intro x hx
    rcases List.mem_append.1 hx with he | hc
    · exact ⟨limit, racing.endsBy deadline (each x he)⟩
    · exact ⟨_, racing.endsBy rfl (compensation_within x hc)⟩

/-- A request is over by its deadline, or by the end of the compensation after it. -/
theorem Paced.time_le (racing : Racing server inner play) (deadline : ctx.deadline = some limit)
    (h : Paced p ctx log result) (served : Serves server play w log w') :
    ((∀ e, .error e ∉ publications log) → w'.time ≤ max w.time limit) ∧
      w'.time ≤ max w.time limit + p.settings.compensationTimeout := by
  cases h with
  | within each =>
    have inTime := served.time_le fun x hx => racing.endsBy deadline (each x hx)
    exact ⟨fun _ => inTime, Nat.le_trans inTime (Nat.le_add_right _ _)⟩
  | compensated each e refused =>
    obtain ⟨v, before, after⟩ := serves_append_iff.1 served
    constructor
    · intro taken
      refine absurd ?_ (taken e)
      rw [publications, List.filterMap_append]
      exact List.mem_append_left _ refused
    -- the time of the compensation is counted from its own beginning
    · calc w'.time ≤ v.time + p.settings.compensationTimeout := compensation_time racing after
        _ ≤ max w.time limit + p.settings.compensationTimeout :=
          Nat.add_le_add_right
            (before.time_le fun x hx => racing.endsBy deadline (each x hx)) _

/-- A run of a request, by its questions, and what it may take. -/
structure InTime (server : Server R σ)
    (play : (op : Backend.Op) → Flow (Timed R) (Backend.Answer op)) (p : Pipeline)
    (request : Request) (w : World σ) (log : List (Exchange Backend))
    (result : Except Failure Reply) (w' : World σ) : Prop where
  ends : run server ((p.submit request).interpret (T := Timed R) play) w = some (result, w')
  asked : (p.submit request).Runs log result
  served : Serves server play w log w'
  /-- The time of a request is enough unless the broker does not take its message. -/
  taken : (∀ e, .error e ∉ publications log) → w'.time ≤ w.time + p.settings.requestTimeout
  /-- Then there is some more to put that right. -/
  always : w'.time ≤ w.time + p.settings.requestTimeout + p.settings.compensationTimeout

/-- The request is answered, and in time. -/
def Punctual (server : Server R σ)
    (play : (op : Backend.Op) → Flow (Timed R) (Backend.Answer op)) (p : Pipeline)
    (request : Request) (w : World σ) : Prop :=
  ∃ log result w', InTime server play p request w log result w'

theorem InTime.of_served (racing : Racing server inner play)
    (asked : (p.submit request).Runs log result) (served : Serves server play w log w') :
    InTime server play p request w log result w' := by
  obtain ⟨now, rest, rfl, paced⟩ := submit_paced asked
  obtain rfl := clock_shows racing served
  obtain ⟨taken, always⟩ := paced.time_le racing rfl served
  rw [Nat.max_eq_right (Nat.le_add_right _ _)] at taken always
  exact ⟨Timed.run_of_runs asked served, asked, served, taken, always⟩

/-- Collaborators that race all their waiting cannot keep a request from being answered in time. -/
theorem punctual_of_racing (racing : Racing server inner play) (request : Request)
    (w : World σ) : p.Punctual server play request w := by
  have ends (log : List (Exchange Backend)) (result : Except Failure Reply)
      (asked : (p.submit request).Runs log result) :
      ∀ x ∈ log, ∃ limit, EndsBy server (play x.op) limit := by
    obtain ⟨now, _, -, paced⟩ := submit_paced asked
    exact paced.ends racing rfl
  obtain ⟨log, result, w', asked, served⟩ :=
    Timed.exists_serves deafBroker (p.submit request) ends w
  exact ⟨log, result, w', .of_served racing asked served⟩

end Pipeline

end Courier
