import Courier.Pipeline.Process
import Courier.Proofs.Flow.Runs

/-!
# The courses a request may take

The pipeline asks up to a dozen questions, and each answer may turn it aside. `Pipeline.Course`
lists how a run through its steps may go, one case for each place where it may end: what is asked,
what is answered, and the result. `Pipeline.Passage` does the same for a request as a whole, with
the replies that are kept around it. `execute_course` and `process_passage` show that there is
nothing else; they are the only proofs that open the steps, and what holds of every run is shown by
cases on its course.

Logs are given as lists of exchanges, question and answer together. What depends on an answer is
said by the next exchange, so that no case has to be excluded afterwards.
-/

set_option autoImplicit false

namespace Courier

namespace Backend

/-- A question to the backend and its answer. -/
def told (op : Op) (answer : Answer op) : Exchange Backend := ⟨op, answer⟩

end Backend

open Backend (told)

/-- The reply that is found in what the cache answers. -/
def Replies.recalled : Except Interruption (Except CacheFailure (Option String)) → Option Reply
  | .ok (.ok (some text)) => read? text
  | .ok (.ok none) | .ok (.error _) | .error _ => none

namespace Pipeline

variable {p : Pipeline} {ctx : Context} {request : Request} {log : List (Exchange Backend)}
  {result : Except Failure Reply}

/-- Why a notification does not go out: the status and the error of its record, the stage at which
that is created, and what the caller is told. -/
inductive Verdict (prefs : Preferences) (channel : Channel) :
    Status → Option String → Stage → String → Prop
  | skip (refusal : Refusal) (refused : prefs.refusal? channel = some refusal) :
      Verdict prefs channel .skipped none .createSkipped refusal.message
  | fail (obstacle : Obstacle) (wanted : prefs.refusal? channel = none)
      (blocked : prefs.recipient channel = .error obstacle) :
      Verdict prefs channel .failed (some obstacle.message) .createFailed obstacle.message

/-- What is asked of the template service. -/
def rendering (p : Pipeline) (ctx : Context) (request : Request) (prefs : Preferences) :
    Backend.Op :=
  .render ctx request.templateCode (prefs.languageOr p.settings.defaultLanguage) request.values

/-- What follows on a message that is not handed over. -/
def compensation (p : Pipeline) (record : Notification) (delivery : Delivery)
    (failure : PublishFailure) (now : Nat) (updated : Except StoreFailure Unit) (time : DateTime)
    (buried : Except PublishFailure Unit) : List (Exchange Backend) :=
  let ctx := Context.lasting now p.settings.compensationTimeout
  let letter := DeadLetter.ofDelivery delivery failure.message publishErrorType time
    p.settings.publishAttempts
  [told .now now, told (.update ctx record.id .failed (some failure.message)) updated,
    told .wallClock time, told (.deadLetter ctx letter) buried]

/-- What follows on a message that is handed over. -/
def tracking (p : Pipeline) (userId : String) : List (Exchange Backend) :=
  if p.settings.trackLast then [told (.track userId p.settings.trackingTimeout) ()] else []

/-- What the cache is asked to keep. -/
def keeping (p : Pipeline) (ctx : Context) (key : String) (reply : Reply) : Backend.Op :=
  .cacheSet ctx (Replies.entryName key) (Reply.codec.text reply) p.replyTtl

/-- How a run through all steps may go. -/
inductive Course (p : Pipeline) (ctx : Context) (request : Request) :
    List (Exchange Backend) → Except Failure Reply → Prop
  | unknown (e : ClientFailure) :
      Course p ctx request [told (.preferences ctx request.userId) (.error e)]
        (.error (.ofClient .preferences e))
  | settled (prefs : Preferences) (status : Status) (error : Option String) (stage : Stage)
      (message : String) (verdict : Verdict prefs request.channel status error stage message)
      (stamp : Stamp) :
      Course p ctx request
        [told (.preferences ctx request.userId) (.ok prefs), told .stamp stamp,
          told (.create ctx (.ofRequest stamp request status error)) (.ok ())]
        (.ok (.about (.ofRequest stamp request status error) message))
  | unsettled (prefs : Preferences) (status : Status) (error : Option String) (stage : Stage)
      (message : String) (verdict : Verdict prefs request.channel status error stage message)
      (stamp : Stamp) (e : StoreFailure) :
      Course p ctx request
        [told (.preferences ctx request.userId) (.ok prefs), told .stamp stamp,
          told (.create ctx (.ofRequest stamp request status error)) (.error e)]
        (.error (.ofCreate stage stamp.id e))
  | unrendered (prefs : Preferences) (wanted : prefs.refusal? request.channel = none)
      (recipient : String) (reached : prefs.recipient request.channel = .ok recipient)
      (e : ClientFailure) :
      Course p ctx request
        [told (.preferences ctx request.userId) (.ok prefs),
          told (p.rendering ctx request prefs) (.error e)]
        (.error (.ofClient .rendering e))
  | uncreated (prefs : Preferences) (wanted : prefs.refusal? request.channel = none)
      (recipient : String) (reached : prefs.recipient request.channel = .ok recipient)
      (rendered : Rendering) (stamp : Stamp) (e : StoreFailure) :
      Course p ctx request
        [told (.preferences ctx request.userId) (.ok prefs),
          told (p.rendering ctx request prefs) (.ok rendered), told .stamp stamp,
          told (.create ctx (.ofRequest stamp request .pending)) (.error e)]
        (.error (.ofCreate .create stamp.id e))
  | unpublished (prefs : Preferences) (wanted : prefs.refusal? request.channel = none)
      (recipient : String) (reached : prefs.recipient request.channel = .ok recipient)
      (rendered : Rendering) (stamp : Stamp) (record : Notification)
      (fresh : record = .ofRequest stamp request .pending) (delivery : Delivery)
      (made : delivery = .ofRecord record recipient rendered) (e : PublishFailure) (now : Nat)
      (updated : Except StoreFailure Unit) (time : DateTime) (buried : Except PublishFailure Unit) :
      Course p ctx request
        ([told (.preferences ctx request.userId) (.ok prefs),
          told (p.rendering ctx request prefs) (.ok rendered), told .stamp stamp,
          told (.create ctx record) (.ok ())] ++
        told (.publish ctx record.channel record.id delivery) (.error e) ::
          p.compensation record delivery e now updated time buried)
        (.error (.ofPublish record.id e))
  | queued (prefs : Preferences) (wanted : prefs.refusal? request.channel = none)
      (recipient : String) (reached : prefs.recipient request.channel = .ok recipient)
      (rendered : Rendering) (stamp : Stamp) (record : Notification)
      (fresh : record = .ofRequest stamp request .pending) (delivery : Delivery)
      (made : delivery = .ofRecord record recipient rendered) :
      Course p ctx request
        ([told (.preferences ctx request.userId) (.ok prefs),
          told (p.rendering ctx request prefs) (.ok rendered), told .stamp stamp,
          told (.create ctx record) (.ok ())] ++
        told (.publish ctx record.channel record.id delivery) (.ok ()) ::
          p.tracking record.userId)
        (.ok (.about record queuedMessage))

theorem Course.asks (h : Course p ctx request log result) :
    ∃ answer, told (.preferences ctx request.userId) answer ∈ log := by
  cases h with
  | unknown e => exact ⟨.error e, List.mem_cons_self⟩
  | settled prefs | unsettled prefs | unrendered prefs | uncreated prefs | unpublished prefs
    | queued prefs => exact ⟨.ok prefs, List.mem_cons_self⟩

/-! ## The steps

Each step of the execution inverted once, so that no later proof opens the program.
-/

open Courier.Flow (Runs runs_pure_iff runs_bind_iff)

/-- A notification that does not go out is recorded, or the record is refused. -/
theorem settle_runs {status : Status} {error : Option String} {stage : Stage} {message : String}
    (h : Runs (settle ctx request status error stage message) log result) :
    ∃ stamp answer, log = [told .stamp stamp,
        told (.create ctx (.ofRequest stamp request status error)) answer] ∧
      result = match answer with
        | .ok () => .ok (.about (.ofRequest stamp request status error) message)
        | .error e => .error (.ofCreate stage stamp.id e) := by
  obtain ⟨stamp, _, rfl, hs⟩ := Runs.of_call h
  obtain ⟨answer, _, rfl, hc⟩ := Runs.of_call hs
  refine ⟨stamp, answer, ?_⟩
  cases answer with
  | ok =>
    obtain ⟨rfl, rfl⟩ := runs_pure_iff.1 hc
    exact ⟨rfl, rfl⟩
  | error e =>
    obtain ⟨rfl, rfl⟩ := runs_pure_iff.1 hc
    exact ⟨rfl, rfl⟩

/-- To put a refused message right, four questions are asked, whatever they are answered. -/
theorem compensate_runs {record : Notification} {delivery : Delivery} {failure : PublishFailure}
    {x : Unit} (h : Runs (p.compensate record delivery failure) log x) :
    ∃ now updated time buried,
      log = p.compensation record delivery failure now updated time buried := by
  obtain ⟨now, _, rfl, hn⟩ := Runs.of_call h
  obtain ⟨updated, _, rfl, hu⟩ := Runs.of_call hn
  obtain ⟨time, _, rfl, ht⟩ := Runs.of_call hu
  obtain ⟨buried, _, rfl, hb⟩ := Runs.of_call ht
  obtain ⟨rfl, -⟩ := runs_pure_iff.1 hb
  exact ⟨now, updated, time, buried, rfl⟩

/-- A notification that is to go out: stamp, record and message, and what follows on each. -/
theorem dispatch_course {prefs : Preferences} {recipient : String} {rendered : Rendering}
    (wanted : prefs.refusal? request.channel = none)
    (reached : prefs.recipient request.channel = .ok recipient)
    (h : Runs (p.dispatch ctx request recipient rendered) log result) :
    Course p ctx request (told (.preferences ctx request.userId) (.ok prefs) ::
      told (p.rendering ctx request prefs) (.ok rendered) :: log) result := by
  -- each question is taken off the run, and the answer decides which course it is on
  obtain ⟨stamp, _, rfl, hs⟩ := Runs.of_call h
  obtain ⟨created, _, rfl, hc⟩ := Runs.of_call hs
  cases created with
  | error e =>
    obtain ⟨rfl, rfl⟩ := runs_pure_iff.1 hc
    exact .uncreated prefs wanted recipient reached rendered stamp e
  | ok =>
    obtain ⟨published, _, rfl, hp⟩ := Runs.of_call hc
    cases published with
    | error e =>
      obtain ⟨_, _, _, rfl, hm, hd⟩ := runs_bind_iff.1 hp
      obtain ⟨now, updated, time, buried, rfl⟩ := compensate_runs hm
      obtain ⟨rfl, rfl⟩ := runs_pure_iff.1 hd
      rw [List.append_nil]
      exact .unpublished prefs wanted recipient reached rendered stamp _ rfl _ rfl e now updated
        time buried
    | ok =>
      -- whether a report is made decides how long the run is
      have m : Course p ctx request _ _ := .queued prefs wanted recipient reached rendered stamp _
        rfl _ rfl
      cases ht : p.settings.trackLast with
      | true =>
        simp only [ht, if_true] at hp
        obtain ⟨_, _, rfl, hr⟩ := Runs.of_call hp
        obtain ⟨rfl, rfl⟩ := runs_pure_iff.1 hr
        rwa [tracking, if_pos ht] at m
      | false =>
        simp only [ht, Bool.false_eq_true, if_false] at hp
        obtain ⟨rfl, rfl⟩ := runs_pure_iff.1 hp
        rwa [tracking, if_neg (by simp [ht])] at m

/-- **Every run through the steps takes one of the courses.** -/
theorem execute_course (h : Runs (p.execute ctx request) log result) :
    Course p ctx request log result := by
  obtain ⟨asked, rest, rfl, hp⟩ := Runs.of_call h
  cases asked with
  | error e =>
    obtain ⟨rfl, rfl⟩ := runs_pure_iff.1 hp
    exact .unknown e
  | ok prefs =>
    cases wanted : prefs.refusal? request.channel with
    | some refusal =>
      simp only [wanted] at hp
      obtain ⟨stamp, answer, rfl, rfl⟩ := settle_runs hp
      cases answer with
      | ok => exact .settled prefs _ _ _ _ (.skip refusal wanted) stamp
      | error e => exact .unsettled prefs _ _ _ _ (.skip refusal wanted) stamp e
    | none =>
      cases reached : prefs.recipient request.channel with
      | error obstacle =>
        simp only [wanted, reached] at hp
        obtain ⟨stamp, answer, rfl, rfl⟩ := settle_runs hp
        cases answer with
        | ok => exact .settled prefs _ _ _ _ (.fail obstacle wanted reached) stamp
        | error e => exact .unsettled prefs _ _ _ _ (.fail obstacle wanted reached) stamp e
      | ok recipient =>
        simp only [wanted, reached] at hp
        obtain ⟨rendered, _, rfl, hr⟩ := Runs.of_call hp
        cases rendered with
        | error e =>
          obtain ⟨rfl, rfl⟩ := runs_pure_iff.1 hr
          exact .unrendered prefs wanted recipient reached e
        | ok rendered => exact dispatch_course wanted reached hr

/-! ## The request as a whole

A passage is a course with what stands around it: the clock, the look-up of an earlier reply and the
storing of the new one.
-/

/-- How the run of a request may go. -/
inductive Passage (p : Pipeline) (ctx : Context) (request : Request) :
    List (Exchange Backend) → Except Failure Reply → Prop
  | interrupted (now : Nat) (why : Interruption) (ended : ctx.check now = .error why) :
      Passage p ctx request [told .now now] (.error (.interrupted why))
  | keyless (now : Nat) (runs : ctx.check now = .ok ()) (bare : request.key? = none)
      {log : List (Exchange Backend)} {result : Except Failure Reply}
      (course : Course p ctx request log result) :
      Passage p ctx request (told .now now :: log) result
  | repeated (now : Nat) (runs : ctx.check now = .ok ()) (key : String)
      (keyed : request.key? = some key)
      (answer : Except Interruption (Except CacheFailure (Option String))) (reply : Reply)
      (hit : Replies.recalled answer = some reply) :
      Passage p ctx request
        [told .now now, told (.cacheGet ctx (Replies.entryName key)) answer] (.ok reply)
  | failed (now : Nat) (runs : ctx.check now = .ok ()) (key : String)
      (keyed : request.key? = some key)
      (answer : Except Interruption (Except CacheFailure (Option String)))
      (missed : Replies.recalled answer = none) {log : List (Exchange Backend)} (e : Failure)
      (course : Course p ctx request log (.error e)) :
      Passage p ctx request
        (told .now now :: told (.cacheGet ctx (Replies.entryName key)) answer :: log) (.error e)
  | kept (now : Nat) (runs : ctx.check now = .ok ()) (key : String)
      (keyed : request.key? = some key)
      (answer : Except Interruption (Except CacheFailure (Option String)))
      (missed : Replies.recalled answer = none) {log : List (Exchange Backend)} (reply : Reply)
      (course : Course p ctx request log (.ok reply))
      (stored : Except Interruption (Except CacheFailure Unit)) :
      Passage p ctx request
        (told .now now :: told (.cacheGet ctx (Replies.entryName key)) answer ::
          (log ++ [told (p.keeping ctx key reply) stored]))
        (.ok reply)

theorem lookup_runs {key : String} {found : Option Reply}
    (h : Runs (Replies.lookup ctx key) log found) :
    ∃ answer, log = [told (.cacheGet ctx (Replies.entryName key)) answer] ∧
      found = Replies.recalled answer := by
  obtain ⟨answer, _, rfl, ha⟩ := Runs.of_call h
  refine ⟨answer, ?_⟩
  rcases answer with i | (f | (_ | text))
  all_goals
    obtain ⟨rfl, rfl⟩ := runs_pure_iff.1 ha
    exact ⟨rfl, rfl⟩

theorem keep_runs {key : String} {reply : Reply} {x : Unit}
    (h : Runs (Replies.keep ctx key reply p.replyTtl) log x) :
    ∃ stored, log = [told (p.keeping ctx key reply) stored] := by
  obtain ⟨stored, _, rfl, hs⟩ := Runs.of_call h
  obtain ⟨rfl, -⟩ := runs_pure_iff.1 hs
  exact ⟨stored, rfl⟩

/-- **Every run of a request is one of the passages.** -/
theorem process_passage (h : Runs (p.process ctx request) log result) :
    Passage p ctx request log result := by
  obtain ⟨now, _, rfl, hn⟩ := Runs.of_call h
  cases hc : ctx.check now with
  | error why =>
    simp only [hc] at hn
    obtain ⟨rfl, rfl⟩ := runs_pure_iff.1 hn
    exact .interrupted now why hc
  | ok =>
    cases hk : request.key? with
    | none =>
      simp only [hc, hk] at hn
      exact .keyless now hc hk (execute_course hn)
    | some key =>
      simp only [hc, hk] at hn
      obtain ⟨found, _, _, rfl, hl, hf⟩ := runs_bind_iff.1 hn
      obtain ⟨answer, rfl, rfl⟩ := lookup_runs hl
      cases ha : Replies.recalled answer with
      | some reply =>
        simp only [ha] at hf
        obtain ⟨rfl, rfl⟩ := runs_pure_iff.1 hf
        exact .repeated now hc key hk answer reply ha
      | none =>
        -- nothing found: the steps are gone through, and a reply is kept only if they come to one
        simp only [ha] at hf
        obtain ⟨executed, _, _, rfl, he, hr⟩ := runs_bind_iff.1 hf
        have course := execute_course he
        cases executed with
        | error e =>
          obtain ⟨rfl, rfl⟩ := runs_pure_iff.1 hr
          rw [List.append_nil]
          exact .failed now hc key hk answer ha e course
        | ok reply =>
          obtain ⟨_, _, _, rfl, hs, hd⟩ := runs_bind_iff.1 hr
          obtain ⟨stored, rfl⟩ := keep_runs hs
          obtain ⟨rfl, rfl⟩ := runs_pure_iff.1 hd
          exact .kept now hc key hk answer ha reply course stored

end Pipeline

end Courier
