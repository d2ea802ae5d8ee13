import Courier.Proofs.Pipeline.Agreement

/-!
# When the broker does not take the message

A record that waits for delivery must not wait for ever. Whatever the broker's failure is, whatever
has become of the request's context by then and whatever the two steps come to, the record is marked
as failed and its message becomes a dead letter: once each, in this order, and in a context of their
own. `Compensated` says so of a run, and `process_compensates` that it holds of every run in which
a message was refused.

That the steps are made once and in this order is read off the log; in which context they are made
is known only from the clock, which is looked at right after the failure.
-/

set_option autoImplicit false

namespace Courier

open Backend (told stored publications keepings)

/-- A step of putting things right. -/
inductive Repair where
  | mark (bounds : Context) (id : Uuid) (status : Status) (error : Option String)
  | bury (bounds : Context) (letter : DeadLetter)
  deriving DecidableEq

/-- The repair that a question asks for. -/
def Exchange.repair? : Exchange Backend → Option Repair
  | ⟨.update bounds id status error, _⟩ => some (.mark bounds id status error)
  | ⟨.deadLetter bounds letter, _⟩ => some (.bury bounds letter)
  | _ => none

def Backend.repairs (log : List (Exchange Backend)) : List Repair :=
  log.filterMap Exchange.repair?

open Backend (repairs)

/-- The dead letter keeps the delivery as it was handed to the broker, with the reason. -/
structure DeadLetter.Keeps (letter : DeadLetter) (delivery : Delivery) (reason : String)
    (attempts : UInt32) : Prop where
  message : letter.message = (Delivery.codec.encode delivery).sorted
  error : letter.error = reason
  sourceTopic : letter.sourceTopic = delivery.channel.routingKey
  retryCount : letter.retryCount = attempts

theorem DeadLetter.ofDelivery_keeps (delivery : Delivery) (reason errorType : String)
    (failedAt : DateTime) (attempts : UInt32) :
    (ofDelivery delivery reason errorType failedAt attempts).Keeps delivery reason attempts :=
  ⟨rfl, rfl, rfl, rfl⟩

namespace Pipeline

variable {p : Pipeline} {ctx bounds : Context} {request : Request}
  {log before after : List (Exchange Backend)} {result : Except Failure Reply} {channel : Channel}
  {id : Uuid} {delivery : Delivery} {e : PublishFailure}

/-- How a run goes around a message that the broker refuses. -/
structure Refused (p : Pipeline) (before after : List (Exchange Backend)) (channel : Channel)
    (id : Uuid) (delivery : Delivery) (e : PublishFailure) (result : Except Failure Reply) :
    Prop where
  waiting : ∃ record ∈ stored before, record.status = .pending ∧ record.id = id ∧
    record.channel = channel ∧ delivery.Carries record ∧
    ∃ now updated time buried,
      after = p.compensation record delivery e now updated time buried
  unrepaired : repairs before = []
  unkept : keepings before = []
  answered : result = .error (.ofPublish id e)

/-- What is asked before, besides records and messages, does not matter. -/
theorem Refused.within {opening : List (Exchange Backend)} (hr : repairs opening = [])
    (hk : keepings opening = []) (h : Refused p before after channel id delivery e result) :
    Refused p (opening ++ before) after channel id delivery e result := by
  constructor
  case waiting =>
    obtain ⟨record, hs, hw⟩ := h.waiting
    refine ⟨record, ?_, hw⟩
    rw [stored, List.filterMap_append]
    exact List.mem_append_right _ hs
  case unrepaired =>
    rw [repairs, List.filterMap_append]
    exact List.append_eq_nil_iff.2 ⟨hr, h.unrepaired⟩
  case unkept =>
    rw [keepings, List.filterMap_append]
    exact List.append_eq_nil_iff.2 ⟨hk, h.unkept⟩
  case answered => exact h.answered

/-- Only one course has a message that is refused. -/
theorem Course.refused (h : Course p ctx request log result)
    (hl : log = before ++ told (.publish bounds channel id delivery) (.error e) :: after) :
    Refused p before after channel id delivery e result := by
  have hy : (told (.publish bounds channel id delivery) (.error e)).publication? ≠ none :=
    Option.some_ne_none _
  cases h with
  | unknown | unsettled | settled | unrendered | uncreated =>
    exact absurd hl (split_none (List.filterMap_eq_nil_iff.1 rfl) hy)
  | unpublished prefs wanted recipient reached rendered stamp record fresh sent made e' now
      updated time buried =>
    have hc : ∀ x ∈ p.compensation record sent e' now updated time buried,
        x.publication? = none := List.filterMap_eq_nil_iff.1 rfl
    obtain ⟨rfl, hx⟩ := split_at (List.filterMap_eq_nil_iff.1 rfl) hc hy hl
    cases hx
    obtain ⟨-, rfl⟩ := List.cons.inj (List.append_cancel_left hl)
    have waits : record.status = .pending := by rw [fresh]; rfl
    have carries : delivery.Carries record := by
      rw [made]
      exact Delivery.ofRecord_carries record recipient rendered
    refine ⟨⟨record, List.mem_singleton.2 rfl, waits, rfl, rfl, carries, ?_⟩, rfl, rfl, rfl⟩
    exact ⟨now, updated, time, buried, rfl⟩
  | queued prefs wanted recipient reached rendered stamp record fresh sent made =>
    -- the one message of this course is taken
    have hc : ∀ x ∈ p.tracking record.userId, x.publication? = none := by
      intro x hx
      unfold tracking at hx
      split at hx
      · rw [List.mem_singleton.1 hx]
        rfl
      · cases hx
    obtain ⟨-, hx⟩ := split_at (List.filterMap_eq_nil_iff.1 rfl) hc hy hl
    cases hx

/-- A message that is refused is refused in the course of the steps, whatever is asked before. -/
theorem Course.refused_after (opening : List (Exchange Backend))
    (ho : publications opening = []) (hr : repairs opening = []) (hk : keepings opening = [])
    (course : Course p ctx request log result)
    (hl : opening ++ log =
      before ++ told (.publish bounds channel id delivery) (.error e) :: after) :
    Refused p before after channel id delivery e result := by
  have hy : (told (.publish bounds channel id delivery) (.error e)).publication? ≠ none :=
    Option.some_ne_none _
  have hi : opening ++ (log ++ []) =
      before ++ told (.publish bounds channel id delivery) (.error e) :: after := by
    rw [List.append_nil]
    exact hl
  obtain ⟨first, last, rfl, rfl⟩ := split_inside (List.filterMap_eq_nil_iff.1 ho)
    (fun _ hx => absurd hx List.not_mem_nil) hy hi
  rw [List.append_assoc] at hl
  obtain ⟨-, rfl⟩ := List.cons.inj (List.append_cancel_left (List.append_cancel_left hl))
  exact (course.refused rfl).within hr hk

/-- In a request as a whole a message is refused in its course. -/
theorem Passage.refused (h : Passage p ctx request log result)
    (hl : log = before ++ told (.publish bounds channel id delivery) (.error e) :: after) :
    Refused p before after channel id delivery e result := by
  have hy : (told (.publish bounds channel id delivery) (.error e)).publication? ≠ none :=
    Option.some_ne_none _
  cases h with
  | interrupted | repeated => exact absurd hl (split_none (List.filterMap_eq_nil_iff.1 rfl) hy)
  | keyless now runs bare course =>
    exact course.refused_after [told .now now] rfl rfl rfl hl
  | failed now runs key keyed answer missed e' course =>
    exact course.refused_after
      [told .now now, told (.cacheGet ctx (Replies.entryName key)) answer] rfl rfl rfl hl
  | kept now runs key keyed answer missed reply course stored =>
    -- a run that comes to a reply has no such message
    have ho : ∀ x ∈ [told .now now, told (.cacheGet ctx (Replies.entryName key)) answer],
        x.publication? = none := List.filterMap_eq_nil_iff.1 rfl
    obtain ⟨first, last, rfl, rfl⟩ := split_inside ho (List.filterMap_eq_nil_iff.1 rfl) hy hl
    cases (course.refused rfl).answered

/-- What becomes of a message that the broker refuses at a time. -/
structure Compensated (p : Pipeline) (failedAt : Nat) (before log : List (Exchange Backend))
    (channel : Channel) (id : Uuid) (delivery : Delivery) (e : PublishFailure)
    (result : Except Failure Reply) : Prop where
  /-- Its record has been acknowledged and waits to be delivered. -/
  waiting : ∃ record ∈ stored before, record.status = .pending ∧ record.id = id ∧
    record.channel = channel ∧ delivery.Carries record
  /-- The record is marked and the message kept: once each, in this order, after the failure, and in
  one context, which nobody has cancelled and which lasts from the failure on. -/
  repaired : ∃ bounds letter, repairs log = [.mark bounds id .failed (some e.message),
      .bury bounds letter] ∧ repairs before = [] ∧ bounds.cancelAt = none ∧
    bounds.deadline = some (failedAt + p.settings.compensationTimeout) ∧
    letter.Keeps delivery e.message p.settings.publishAttempts
  /-- An interruption is told as it is. -/
  interrupted : ∀ why, e = .interrupted why → result = .error (.interrupted why)
  /-- Any other failure is told with the record it is about. -/
  unpublished : (∀ why, e ≠ .interrupted why) → result = .error (.publish id e)
  unkept : keepings log = []

/-- What follows on a refusal is a compensation that begins with the time of the failure. -/
theorem Refused.compensated {failedAt : Nat}
    (h : Refused p before after channel id delivery e result)
    (shown : ∀ x rest, after = told .now x :: rest → x = failedAt) :
    Compensated p failedAt before
      (before ++ told (.publish bounds channel id delivery) (.error e) :: after)
      channel id delivery e result := by
  obtain ⟨record, hs, hw, rfl, rfl, carries, now, updated, time, buried, rfl⟩ := h.waiting
  -- the first thing asked after the refusal is the clock
  have hn : now = failedAt := shown now _ rfl
  constructor
  case waiting => exact ⟨record, hs, hw, rfl, rfl, carries⟩
  case repaired =>
    refine ⟨.lasting now p.settings.compensationTimeout, _, ?_, h.unrepaired, rfl, ?_,
      DeadLetter.ofDelivery_keeps delivery e.message publishErrorType time _⟩
    · rw [repairs, List.filterMap_append]
      exact congrArg (· ++ _) h.unrepaired
    · rw [← hn]
      rfl
  case interrupted =>
    rintro why rfl
    exact h.answered
  case unpublished =>
    intro hne
    rw [h.answered]
    cases e with
    | interrupted why => exact absurd rfl (hne why)
    | _ => rfl
  case unkept =>
    rw [keepings, List.filterMap_append]
    exact congrArg (· ++ _) h.unkept

/-- **A message that the broker does not take is made up for**, whatever the failure and whatever
the two steps come to, in whatever surroundings and at whatever time. -/
theorem process_compensates (p : Pipeline) (ctx : Context) (request : Request)
    (w : Surroundings Backend) (line : Timeline w) {past before after : List (Exchange Backend)}
    {bounds : Context} {channel : Channel} {id : Uuid} {delivery : Delivery} {e : PublishFailure}
    (refused : ((p.process ctx request).play w past).1 =
      before ++ told (.publish bounds channel id delivery) (.error e) :: after) :
    Compensated p
      (line.time (past ++ (before ++ [told (.publish bounds channel id delivery) (.error e)])))
      before ((p.process ctx request).play w past).1 channel id delivery e
      ((p.process ctx request).play w past).2 := by
  have h := (process_passage (Flow.play_runs w (p.process ctx request) past)).refused refused
  rw [refused]
  refine h.compensated fun x rest ha => ?_
  -- the clock is looked at next
  have hl : ((p.process ctx request).play w past).1 =
      (before ++ [told (.publish bounds channel id delivery) (.error e)]) ++
        told .now x :: rest := by
    rw [refused, ha, List.append_assoc]
    rfl
  exact (Flow.play_answer hl).trans (line.shown _)

/-- Every question takes a millisecond, and the request is cancelled while the broker is asked. -/
def cancelledMidway : Surroundings Backend := fun past op =>
  match op with
  | .now => past.length
  | .publish _ _ _ _ => .error (.interrupted .cancelled)
  | op => deafBroker past op

def cancelledMidway.line : Timeline cancelledMidway where
  time past := past.length
  mono past more := by rw [List.length_append]; exact Nat.le_add_right _ _
  shown _ := rfl

/-- A request is cancelled while the broker is asked, and its record is marked all the same. -/
theorem process_compensates_cancelled :
    let p : Pipeline := { replyTtl := 60000 }
    let ctx : Context := { cancelAt := some 6 }
    let request : Request := { userId := "u1" }
    let delivery : Delivery :=
      .ofRecord (.ofRequest default request .pending) "a@example.org" default
    let refusal := told (.publish ctx .email default delivery) (.error (.interrupted .cancelled))
    let run := (p.process ctx request).play cancelledMidway []
    run.1 = run.1.take 5 ++ refusal :: run.1.drop 6 ∧
      Compensated p 6 (run.1.take 5) run.1 .email default delivery (.interrupted .cancelled)
        run.2 := by
  intro p ctx request delivery refusal run
  have refused : run.1 = run.1.take 5 ++ refusal :: run.1.drop 6 := rfl
  exact ⟨refused, process_compensates p ctx request cancelledMidway cancelledMidway.line refused⟩

end Pipeline

end Courier
