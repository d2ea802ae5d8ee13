import Courier.Proofs.Pipeline.Log

/-!
# One notification for one request

A request that is not answered from the cache leaves traces in four places: a record in the store,
a message with the broker, a report to the user service, and the reply. `Agreement` says that there
is at most one of each, in which order they come about, and that they tell of the same
notification. It holds of every run, whatever the dependencies answer.

The traces are views of the log (`Shows`), and views do not see what is asked of clock and cache. So
the agreement is shown for each course, and then carried over to the request as a whole.
-/

set_option autoImplicit false

namespace Courier

open Backend (told creations stored publications trackings hits accepted Shows)

/-- The record says what the request asks for. -/
structure Notification.Tells (record : Notification) (request : Request) : Prop where
  userId : record.userId = request.userId
  templateCode : record.templateCode = request.templateCode
  channel : record.channel = request.channel
  priority : record.priority = .ofLevel request.level
  values : record.values = request.values
  metadata : record.metadata = request.metadata
  scheduledFor : record.scheduledFor = request.scheduledFor

/-- The message is about the record. -/
structure Delivery.Carries (delivery : Delivery) (record : Notification) : Prop where
  notificationId : delivery.notificationId = record.id
  channel : delivery.channel = record.channel
  userId : delivery.userId = record.userId
  templateCode : delivery.templateCode = record.templateCode
  priority : delivery.priority = record.priority.name
  metadata : delivery.metadata = record.metadata
  createdAt : delivery.createdAt = record.createdAt

/-- The reply is about the record. -/
structure Reply.Reports (reply : Reply) (record : Notification) : Prop where
  notificationId : reply.notificationId = record.id
  status : reply.status = record.status
  error : reply.error = record.error
  createdAt : reply.createdAt = record.createdAt

theorem Notification.ofRequest_tells (stamp : Stamp) (request : Request) (status : Status)
    (error : Option String) : (ofRequest stamp request status error).Tells request :=
  ⟨rfl, rfl, rfl, rfl, rfl, rfl, rfl⟩

theorem Delivery.ofRecord_carries (record : Notification) (recipient : String)
    (rendering : Rendering) : (ofRecord record recipient rendering).Carries record :=
  ⟨rfl, rfl, rfl, rfl, rfl, rfl, rfl⟩

theorem Reply.about_reports (record : Notification) (message : String) :
    (about record message).Reports record := ⟨rfl, rfl, rfl, rfl⟩

namespace Pipeline

variable {p : Pipeline} {ctx : Context} {request : Request} {log : List (Exchange Backend)}
  {result : Except Failure Reply}

/-- The store is asked for one record at most, and that tells of the request. -/
structure Created (request : Request) (log : List (Exchange Backend)) : Prop where
  created_once : (creations log).length ≤ 1
  tells : ∀ record ∈ creations log, record.Tells request
  stamped : ∀ record ∈ creations log, ∃ stamp : Stamp,
    told .stamp stamp ∈ log ∧ record.id = stamp.id ∧ record.createdAt = stamp.time

/-- Before a message is given to the broker, the store has acknowledged its record, which waits to
be delivered. -/
def Published (ctx : Context) (request : Request) (log : List (Exchange Backend)) : Prop :=
  ∀ before later bounds channel id delivery answer,
    log = before ++ told (.publish bounds channel id delivery) answer :: later →
      bounds = ctx ∧ ∃ record ∈ stored before, record.status = .pending ∧ record.Tells request ∧
        channel = record.channel ∧ id = record.id ∧ delivery.Carries record

/-- The traces of a request agree. -/
structure Agreement (p : Pipeline) (ctx : Context) (request : Request)
    (log : List (Exchange Backend)) (result : Except Failure Reply) : Prop
    extends Created request log where
  published_once : (publications log).length ≤ 1
  published : Published ctx request log
  /-- The caller gets a reply if there is a record and nothing is left to be done for it. -/
  answered_iff : (∃ reply, result = .ok reply) ↔ ∃ record ∈ stored log,
    record.status = .skipped ∨ record.status = .failed ∨ accepted log = true
  answered : ∀ reply, result = .ok reply → ∀ record ∈ stored log, reply.Reports record
  /-- A failure before the broker was asked leaves no record. -/
  failed : ∀ failure, result = .error failure → publications log = [] → stored log = []
  /-- The user service is told once of a message that the broker has taken, if it is to be told. -/
  tracked : trackings log =
    if p.settings.trackLast = true ∧ accepted log = true then
      [(request.userId, p.settings.trackingTimeout)]
    else []
  tracked_after : ∀ before later userId timeout x,
    log = before ++ told (.track userId timeout) x :: later → accepted before = true

/-! ## The traces of each course

What a course leaves behind, put together from two shapes. A silent one hands nothing to the broker
(`Agreement.silent`); any other creates its record and hands one message over (`Agreement.handed`).
-/

theorem Created.of_none (h : creations log = []) : Created request log := by
  constructor
  all_goals rw [h]
  · exact Nat.zero_le _
  · exact fun _ hr => absurd hr List.not_mem_nil
  · exact fun _ hr => absurd hr List.not_mem_nil

/-- A record that is created is made of the request and a stamp. -/
theorem Created.of_one (stamp : Stamp) (status : Status) (error : Option String)
    (h : creations log = [.ofRequest stamp request status error]) (hs : told .stamp stamp ∈ log) :
    Created request log := by
  constructor
  all_goals rw [h]
  · exact Nat.le_refl _
  · intro record hr
    rw [List.mem_singleton.1 hr]
    exact Notification.ofRequest_tells stamp request status error
  · intro record hr
    rw [List.mem_singleton.1 hr]
    exact ⟨stamp, hs, rfl, rfl⟩

/-- A message is given to the broker in one place. -/
theorem Published.at {opening closing : List (Exchange Backend)} {record : Notification}
    {delivery : Delivery} {answer : Except PublishFailure Unit} (ho : publications opening = [])
    (hc : publications closing = []) (hs : record ∈ stored opening)
    (waits : record.status = .pending) (tells : record.Tells request)
    (carries : delivery.Carries record) :
    Published ctx request
      (opening ++ told (.publish ctx record.channel record.id delivery) answer :: closing) := by
  intro before later bounds channel id sent said h
  obtain ⟨rfl, hx⟩ := split_at (List.filterMap_eq_nil_iff.1 ho) (List.filterMap_eq_nil_iff.1 hc)
    (by nofun) h
  cases hx
  exact ⟨rfl, record, hs, waits, tells, rfl, rfl, carries⟩

/-- A run that comes to a record at most: nothing is given to the broker, and nothing reported. -/
theorem Agreement.silent {asked kept : List Notification} (hs : Shows log asked kept [] [])
    (hc : Created request log)
    (ok : ∀ reply, result = .ok reply → ∃ record, kept = [record] ∧ reply.Reports record ∧
      (record.status = .skipped ∨ record.status = .failed))
    (error : ∀ failure, result = .error failure → kept = []) :
    Agreement p ctx request log result where
  toCreated := hc
  published_once := by rw [hs.publications]; exact Nat.zero_le _
  published before later bounds channel id delivery answer h :=
    absurd h (split_none (List.filterMap_eq_nil_iff.1 hs.publications) nofun)
  answered_iff := by
    rw [hs.stored]
    constructor
    · rintro ⟨reply, hr⟩
      obtain ⟨record, rfl, -, hk⟩ := ok reply hr
      exact ⟨record, List.mem_singleton.2 rfl, hk.imp_right .inl⟩
    · rintro ⟨record, hk, -⟩
      cases hr : result with
      | ok reply => exact ⟨reply, rfl⟩
      | error failure =>
        rw [error failure hr] at hk
        cases hk
  answered reply hr record hk := by
    obtain ⟨one, ho, hk', -⟩ := ok reply hr
    rw [hs.stored, ho] at hk
    rw [List.mem_singleton.1 hk]
    exact hk'
  failed failure hr _ := hs.stored.trans (error failure hr)
  tracked := by rw [hs.trackings, if_neg (by simp [accepted, hs.publications])]
  tracked_after before later userId timeout x h :=
    absurd h (split_none (List.filterMap_eq_nil_iff.1 hs.trackings) nofun)

/-- What is reported is reported at the end, when the broker has taken the message. -/
theorem accepted_before {opening closing before later : List (Exchange Backend)} {userId : String}
    {timeout : Nat} {x : Unit} (ho : trackings opening = [])
    (taken : trackings closing ≠ [] → accepted opening = true)
    (h : opening ++ closing = before ++ told (.track userId timeout) x :: later) :
    accepted before = true := by
  have hi : opening ++ (closing ++ []) = before ++ told (.track userId timeout) x :: later := by
    rw [List.append_nil]
    exact h
  have hy : (told (.track userId timeout) x).tracking? ≠ none := Option.some_ne_none _
  obtain ⟨first, last, rfl, rfl⟩ := split_inside (List.filterMap_eq_nil_iff.1 ho)
    (fun _ hz => absurd hz List.not_mem_nil) hy hi
  have hm : (userId, timeout) ∈ trackings (first ++ told (.track userId timeout) x :: last) :=
    List.mem_filterMap.2 ⟨_, List.mem_append_right _ List.mem_cons_self, rfl⟩
  rw [Backend.accepted_append, taken (List.ne_nil_of_mem hm), Bool.true_or]

/-- A run that gives a message to the broker, with what comes before and after. -/
theorem Agreement.handed {opening closing : List (Exchange Backend)} {stamp : Stamp}
    {delivery : Delivery} {answer : Except PublishFailure Unit} {noted : List (String × Nat)}
    (record : Notification) (fresh : record = .ofRequest stamp request .pending)
    (carries : delivery.Carries record) (stamped : told .stamp stamp ∈ opening)
    (ho : Shows opening [record] [record] [] []) (hc : Shows closing [] [] [] noted)
    (hr : noted = if p.settings.trackLast = true ∧ answer.toOption.isSome = true then
      [(request.userId, p.settings.trackingTimeout)] else [])
    (ok : (∃ reply, result = .ok reply) ↔ answer.toOption.isSome = true)
    (reports : ∀ reply, result = .ok reply → reply.Reports record) :
    Agreement p ctx request
      (opening ++ told (.publish ctx record.channel record.id delivery) answer :: closing)
      result := by
  have hp : Shows [told (.publish ctx record.channel record.id delivery) answer] [] []
      [answer] [] := ⟨rfl, rfl, rfl, rfl⟩
  have hn := ho.append hp
  have hs : Shows (opening ++ told (.publish ctx record.channel record.id delivery) answer ::
      closing) [record] [record] [answer] noted := ho.append (hp.append hc)
  have ha : accepted (opening ++ told (.publish ctx record.channel record.id delivery) answer ::
      closing) = answer.toOption.isSome := by
    rw [accepted, hs.publications]
    exact Bool.or_false _
  have waits : record.status = .pending := by rw [fresh]; rfl
  constructor
  case toCreated =>
    refine .of_one stamp .pending none (hs.creations.trans ?_) (List.mem_append_left _ stamped)
    rw [fresh]
  case published_once => rw [hs.publications]; exact Nat.le_refl _
  case published =>
    refine .at ho.publications hc.publications ?_ waits ?_ carries
    · rw [ho.stored]; exact List.mem_singleton.2 rfl
    · rw [fresh]; exact Notification.ofRequest_tells stamp request .pending none
  case answered_iff =>
    -- a record that waits is answered for only by the broker
    rw [ok, hs.stored, ha]
    simp [waits]
  case answered =>
    intro reply he record' hk
    rw [hs.stored] at hk
    rw [List.mem_singleton.1 hk]
    exact reports reply he
  case failed =>
    intro failure _ hz
    rw [hs.publications] at hz
    cases hz
  case tracked => rw [hs.trackings, ha, hr]
  case tracked_after =>
    intro before later userId timeout x h
    refine accepted_before hn.trackings (fun hne => ?_) ((List.append_assoc ..).trans h)
    have taken : answer.toOption.isSome = true := by
      by_cases hk : p.settings.trackLast = true ∧ answer.toOption.isSome = true
      · exact hk.2
      · rw [hc.trackings, hr, if_neg hk] at hne
        exact absurd rfl hne
    rw [accepted, hn.publications]
    exact (Bool.or_false _).trans taken

/-- Each course leaves traces that agree. -/
theorem Course.agrees (h : Course p ctx request log result) :
    Agreement p ctx request log result := by
  cases h with
  | unknown e => exact .silent ⟨rfl, rfl, rfl, rfl⟩ (.of_none rfl) nofun fun _ _ => rfl
  | settled prefs status error stage message verdict stamp =>
    have hs : (Notification.ofRequest stamp request status error).status = .skipped ∨
        (Notification.ofRequest stamp request status error).status = .failed := by
      cases verdict with
      | skip => exact .inl rfl
      | fail => exact .inr rfl
    refine .silent ⟨rfl, rfl, rfl, rfl⟩ (.of_one stamp status error rfl (by simp)) ?_ nofun
    intro reply hr
    cases hr
    exact ⟨.ofRequest stamp request status error, rfl, Reply.about_reports _ message, hs⟩
  | unsettled prefs status error stage message verdict stamp e =>
    exact .silent ⟨rfl, rfl, rfl, rfl⟩ (.of_one stamp status error rfl (by simp)) nofun
      fun _ _ => rfl
  | unrendered prefs wanted recipient reached e =>
    exact .silent ⟨rfl, rfl, rfl, rfl⟩ (.of_none rfl) nofun fun _ _ => rfl
  | uncreated prefs wanted recipient reached rendered stamp e =>
    exact .silent ⟨rfl, rfl, rfl, rfl⟩ (.of_one stamp .pending none rfl (by simp)) nofun
      fun _ _ => rfl
  -- created and handed to the broker once, then repaired: the compensation shows nothing of its own
  | unpublished prefs wanted recipient reached rendered stamp record fresh delivery made e now
      updated time buried =>
    have carries : delivery.Carries record := by
      rw [made]
      exact Delivery.ofRecord_carries record recipient rendered
    have hc : Shows (p.compensation record delivery e now updated time buried) [] [] [] [] :=
      ⟨rfl, rfl, rfl, rfl⟩
    refine .handed record fresh carries (by simp) ⟨rfl, rfl, rfl, rfl⟩ hc ?_ ?_ nofun
    · exact (if_neg fun hk => Bool.noConfusion hk.2).symm
    · exact ⟨nofun, nofun⟩
  | queued prefs wanted recipient reached rendered stamp record fresh delivery made =>
    have carries : delivery.Carries record := by
      rw [made]
      exact Delivery.ofRecord_carries record recipient rendered
    -- tracking is the one step that depends on a setting
    have ht : Shows (p.tracking record.userId) [] [] [] (if p.settings.trackLast = true then
        [(record.userId, p.settings.trackingTimeout)] else []) := by
      rw [tracking]
      split <;> exact ⟨rfl, rfl, rfl, rfl⟩
    refine .handed record fresh carries (by simp) ⟨rfl, rfl, rfl, rfl⟩ ht ?_ ?_ ?_
    · rw [fresh]
      simp [Except.toOption, Notification.ofRequest]
    · exact ⟨fun _ => rfl, fun _ => ⟨_, rfl⟩⟩
    · intro reply hr
      cases hr
      exact Reply.about_reports record queuedMessage

/-! ## The request as a whole

The clock, the look-up of a reply and its storing stand around the course and leave none of these
traces.
-/

/-- What is asked besides leaves the traces as they are. -/
theorem Agreement.within {opening closing : List (Exchange Backend)}
    (ho : Shows opening [] [] [] []) (hc : Shows closing [] [] [] [])
    (h : Agreement p ctx request log result) :
    Agreement p ctx request (opening ++ (log ++ closing)) result := by
  have hl : Shows log (creations log) (stored log) (publications log) (trackings log) :=
    ⟨rfl, rfl, rfl, rfl⟩
  have hs := ho.append (hl.append hc)
  simp only [List.nil_append, List.append_nil] at hs
  have ha : accepted (opening ++ (log ++ closing)) = accepted log := by
    rw [accepted, accepted, hs.publications]
  -- the views see nothing around: every count is that of the inside, and every split falls there
  constructor
  case toCreated =>
    constructor
    all_goals rw [hs.creations]
    · exact h.created_once
    · exact h.tells
    · intro record hr
      obtain ⟨stamp, hm, he⟩ := h.stamped record hr
      exact ⟨stamp, List.mem_append_right _ (List.mem_append_left _ hm), he⟩
  case published_once => rw [hs.publications]; exact h.published_once
  case published =>
    intro before later bounds channel id delivery answer hp
    have hy : (told (.publish bounds channel id delivery) answer).publication? ≠ none :=
      Option.some_ne_none _
    obtain ⟨first, last, hf, rfl⟩ := split_inside (List.filterMap_eq_nil_iff.1 ho.publications)
      (List.filterMap_eq_nil_iff.1 hc.publications) hy hp
    obtain ⟨hb, record, hk, hr⟩ := h.published first last bounds channel id delivery answer hf
    refine ⟨hb, record, ?_, hr⟩
    rw [stored, List.filterMap_append]
    exact List.mem_append_right _ hk
  case answered_iff => rw [hs.stored, ha]; exact h.answered_iff
  case answered => rw [hs.stored]; exact h.answered
  case failed => rw [hs.stored, hs.publications]; exact h.failed
  case tracked => rw [hs.trackings, ha]; exact h.tracked
  case tracked_after =>
    intro before later userId timeout x ht
    have hy : (told (.track userId timeout) x).tracking? ≠ none := Option.some_ne_none _
    obtain ⟨first, last, hf, rfl⟩ := split_inside (List.filterMap_eq_nil_iff.1 ho.trackings)
      (List.filterMap_eq_nil_iff.1 hc.trackings) hy ht
    rw [Backend.accepted_append, h.tracked_after first last userId timeout x hf, Bool.or_true]

theorem Agreement.after {opening : List (Exchange Backend)} (ho : Shows opening [] [] [] [])
    (h : Agreement p ctx request log result) : Agreement p ctx request (opening ++ log) result := by
  have hn : Shows [] [] [] [] [] := ⟨rfl, rfl, rfl, rfl⟩
  have hw := h.within ho hn
  rwa [List.append_nil] at hw

/-- A request without a hit in the cache goes by its course. -/
theorem Passage.agrees (h : Passage p ctx request log result) (fresh : hits log = []) :
    Agreement p ctx request log result := by
  cases h with
  | interrupted now why ended =>
    have ho : Shows [told .now now] [] [] [] [] := ⟨rfl, rfl, rfl, rfl⟩
    exact .silent ho (.of_none ho.creations) nofun fun _ _ => rfl
  | keyless now runs bare course =>
    have ho : Shows [told .now now] [] [] [] [] := ⟨rfl, rfl, rfl, rfl⟩
    exact course.agrees.after ho
  | repeated now runs key keyed answer reply hit =>
    -- a repeated reply is a hit, which the hypothesis excludes
    have hh : told (.cacheGet ctx (Replies.entryName key)) answer ∈
        [told .now now, told (.cacheGet ctx (Replies.entryName key)) answer] := by simp
    have hn : Replies.recalled answer = none := List.filterMap_eq_nil_iff.1 fresh _ hh
    rw [hn] at hit
    cases hit
  | failed now runs key keyed answer missed e course =>
    have ho : Shows [told .now now, told (.cacheGet ctx (Replies.entryName key)) answer]
      [] [] [] [] := ⟨rfl, rfl, rfl, rfl⟩
    exact course.agrees.after ho
  | kept now runs key keyed answer missed reply course stored =>
    have ho : Shows [told .now now, told (.cacheGet ctx (Replies.entryName key)) answer]
      [] [] [] [] := ⟨rfl, rfl, rfl, rfl⟩
    exact course.agrees.within ho ⟨rfl, rfl, rfl, rfl⟩

/-- **A request that is not answered from the cache comes to one notification**, in whatever
surroundings it runs and whatever they answer. -/
theorem process_agreement (p : Pipeline) (ctx : Context) (request : Request)
    (w : Surroundings Backend) (fresh : hits ((p.process ctx request).play w []).1 = []) :
    Agreement p ctx request ((p.process ctx request).play w []).1
      ((p.process ctx request).play w []).2 :=
  (process_passage (Flow.play_runs w _ _)).agrees fresh

/-- Surroundings in which nothing is kept and everything succeeds but what the broker is asked. -/
def deafBroker : Surroundings Backend := fun _ op =>
  match op with
  | .now => (0 : Nat)
  | .wallClock => (default : DateTime)
  | .stamp => (default : Stamp)
  | .preferences _ userId => .ok { userId, emailEnabled := true, email := some "a@example.org" }
  | .render _ _ _ _ => .ok default
  | .create _ _ => .ok ()
  | .find _ id => .error (.notFound id)
  | .update _ _ _ _ => .ok ()
  | .list _ _ _ _ => .ok []
  | .publish _ channel _ _ => .error (.nacked channel.routingKey)
  | .deadLetter _ _ => .error (.unavailable "no connection")
  | .cacheGet _ _ => .ok (.ok none)
  | .cacheSet _ _ _ _ => .ok (.ok ())
  | .track _ _ => ()
  | .probe => ()
  | .sign _ _ _ => none
  | .breakers => []

theorem process_agreement_deafBroker :
    let p : Pipeline := { replyTtl := 60000 }
    let request : Request := { userId := "u1", idempotencyKey := some "k1" }
    let run := (p.process .background request).play deafBroker []
    hits run.1 = [] ∧ (stored run.1).length = 1 ∧ (publications run.1).length = 1 ∧
      Agreement p .background request run.1 run.2 :=
  ⟨rfl, rfl, rfl, process_agreement _ _ _ _ rfl⟩

end Pipeline

end Courier
