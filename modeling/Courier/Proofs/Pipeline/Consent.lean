import Courier.Proofs.Notification.Consent
import Courier.Proofs.Pipeline.Agreement

/-!
# Nobody is notified against their will

Whether a text is rendered for a user, and to whom a message goes, is decided by the preferences
that the user service has given, and by nothing else. `Consented` says so of a run: a text is
rendered exactly for a user who wants the notification and can be reached, a message goes to where
the user is reached, and everybody else gets one record that says why there is none.

The law speaks of five views of the log. What the pipeline asks of clock and cache is in none of
them (`Consented.congr`), so that it is enough to look at the courses. Nor can the user service be
passed over: it is asked in every course, and a run that takes none has found a reply or has come
with an interrupted context (`Consented.asked`).
-/

set_option autoImplicit false

namespace Courier

namespace Exchange

/-- The user whose preferences are asked for. -/
def inquiry? : Exchange Backend → Option String
  | ⟨.preferences _ userId, _⟩ => some userId
  | _ => none

/-- The preferences that the user service gives. -/
def obtained? : Exchange Backend → Option Preferences
  | ⟨.preferences _ _, .ok prefs⟩ => some prefs
  | _ => none

/-- What is to be rendered. -/
def rendering? : Exchange Backend → Option Backend.Op
  | ⟨.render ctx code language values, _⟩ => some (.render ctx code language values)
  | _ => none

/-- The message that is given to the broker, and the channel it goes through. -/
def delivery? : Exchange Backend → Option (Channel × Delivery)
  | ⟨.publish _ channel _ delivery, _⟩ => some (channel, delivery)
  | _ => none

end Exchange

namespace Backend

def inquiries (log : List (Exchange Backend)) : List String := log.filterMap Exchange.inquiry?

def obtained (log : List (Exchange Backend)) : List Preferences := log.filterMap Exchange.obtained?

def renderings (log : List (Exchange Backend)) : List Op := log.filterMap Exchange.rendering?

def deliveries (log : List (Exchange Backend)) : List (Channel × Delivery) :=
  log.filterMap Exchange.delivery?

end Backend

open Backend (told inquiries obtained renderings deliveries creations hits)

namespace Pipeline

variable {p : Pipeline} {ctx : Context} {request : Request} {log : List (Exchange Backend)}
  {result : Except Failure Reply} {prefs : Preferences}

/-- The user wants to be notified through the channel and is reached there. -/
def Agrees (prefs : Preferences) (channel : Channel) : Prop :=
  prefs.Wants channel ∧ ∃ address, prefs.Reaches channel address

/-- What becomes of a notification that does not go out: the status and the error of its record, and
what the caller is told. That the user has switched notifications off goes before an opt-out, and
both before what is wrong with the channel. -/
inductive Withheld (prefs : Preferences) (channel : Channel) :
    Status → Option String → String → Prop
  | disabled (off : prefs.enabled = false) :
      Withheld prefs channel .skipped none "User has disabled notifications"
  | optedOut (on : prefs.enabled = true)
      (out : prefs.optedOut = true ∨ prefs.optedOutChannels.get? channel.name = some true) :
      Withheld prefs channel .skipped none "User has opted out"
  | blocked (wants : prefs.Wants channel) (obstacle : Obstacle)
      (first : prefs.FirstBlocked channel obstacle) :
      Withheld prefs channel .failed (some obstacle.message) obstacle.message

/-- The preferences of the user decide what is rendered and where it goes. -/
structure Consented (p : Pipeline) (ctx : Context) (request : Request)
    (log : List (Exchange Backend)) (result : Except Failure Reply) : Prop where
  /-- It is the user of the request who is asked about, and once at most. -/
  inquired : inquiries log = [] ∨ inquiries log = [request.userId]
  /-- Nobody is asked only if a reply is found, or if the request has come too late for anything. -/
  asked : inquiries log ≠ [] ∨ hits log ≠ [] ∨
    ∃ now why, ctx.check now = .error why ∧ log = [told .now now] ∧
      result = .error (.interrupted why)
  /-- A text is rendered exactly for those who agree. -/
  rendered_iff : renderings log ≠ [] ↔ ∃ prefs ∈ obtained log, Agrees prefs request.channel
  /-- It is rendered once, in the user's language. -/
  rendered : renderings log = [] ∨ ∃ prefs ∈ obtained log, ∃ language,
    prefs.Speaks p.settings.defaultLanguage language ∧
      renderings log = [.render ctx request.templateCode language request.values]
  /-- A message goes out only if a text has been rendered, and goes where the user is reached. -/
  delivered : ∀ sent ∈ deliveries log, renderings log ≠ [] ∧ sent.1 = request.channel ∧
    ∃ prefs ∈ obtained log, prefs.Reaches request.channel sent.2.recipient
  /-- For everybody else there is one record that says why. -/
  withheld : ∀ prefs ∈ obtained log, ¬ Agrees prefs request.channel →
    renderings log = [] ∧ deliveries log = [] ∧ ∃ record message, creations log = [record] ∧
      Withheld prefs request.channel record.status record.error message ∧
      ∀ reply, result = .ok reply → reply.message = message

/-- Nothing but these views of the log plays a part once the user service has been asked. -/
theorem Consented.congr {log' : List (Exchange Backend)} (h : Consented p ctx request log result)
    (asks : inquiries log ≠ []) (hi : inquiries log' = inquiries log)
    (ho : obtained log' = obtained log) (hr : renderings log' = renderings log)
    (hd : deliveries log' = deliveries log) (hc : creations log' = creations log) :
    Consented p ctx request log' result := by
  obtain ⟨inquired, -, rendered_iff, rendered, delivered, withheld⟩ := h
  constructor
  · rw [hi]
    exact inquired
  · rw [hi]
    exact .inl asks
  · rw [hr, ho]
    exact rendered_iff
  · rw [hr, ho]
    exact rendered
  · rw [hd, hr, ho]
    exact delivered
  · rw [ho, hr, hd, hc]
    exact withheld

/-- A run in which no preferences come to be known. -/
theorem Consented.of_unknown (hi : inquiries log = [] ∨ inquiries log = [request.userId])
    (ha : inquiries log ≠ [] ∨ hits log ≠ [] ∨ ∃ now why, ctx.check now = .error why ∧
      log = [told .now now] ∧ result = .error (.interrupted why))
    (ho : obtained log = []) (hr : renderings log = []) (hd : deliveries log = []) :
    Consented p ctx request log result := by
  constructor
  · exact hi
  · exact ha
  · simp [hr, ho]
  · exact .inl hr
  · simp [hd]
  · simp [ho]

theorem agrees_of_recipient {channel : Channel} {recipient : String}
    (wanted : prefs.refusal? channel = none) (reached : prefs.recipient channel = .ok recipient) :
    Agrees prefs channel :=
  ⟨Preferences.refusal?_eq_none_iff.1 wanted, recipient, Preferences.recipient_eq_ok_iff.1 reached⟩

/-- A run for a user who agrees. -/
theorem Consented.of_agreed {recipient : String}
    (hi : inquiries log = [request.userId]) (ho : obtained log = [prefs])
    (hr : renderings log = [p.rendering ctx request prefs])
    (wanted : prefs.refusal? request.channel = none)
    (reached : prefs.recipient request.channel = .ok recipient)
    (hd : ∀ sent ∈ deliveries log, sent.1 = request.channel ∧ sent.2.recipient = recipient) :
    Consented p ctx request log result := by
  have agrees := agrees_of_recipient wanted reached
  constructor
  · exact .inr hi
  · simp [hi]
  · rw [hr, ho]
    simpa using agrees
  · refine .inr ⟨prefs, by simp [ho], _, prefs.languageOr_speaks _, hr⟩
  · intro sent mem
    obtain ⟨channel, address⟩ := hd sent mem
    refine ⟨by simp [hr], channel, prefs, by simp [ho], ?_⟩
    rw [address]
    exact Preferences.recipient_eq_ok_iff.1 reached
  · intro other mem disagrees
    rw [ho, List.mem_singleton] at mem
    subst mem
    exact absurd agrees disagrees

/-- What the pipeline makes of the preferences is what the rules say. -/
theorem Verdict.withheld {channel : Channel} {status : Status} {error : Option String}
    {stage : Stage} {message : String} (h : Verdict prefs channel status error stage message) :
    Withheld prefs channel status error message ∧ ¬ Agrees prefs channel := by
  cases h with
  | skip refusal refused =>
    have unwanted : ¬ prefs.Wants channel := by
      intro wants
      rw [Preferences.refusal?_eq_none_iff.2 wants] at refused
      cases refused
    refine ⟨?_, fun agrees => unwanted agrees.1⟩
    cases refusal with
    | disabled => exact .disabled (Preferences.refusal?_eq_disabled_iff.1 refused)
    | optedOut =>
      obtain ⟨on, out⟩ := Preferences.refusal?_eq_optedOut_iff.1 refused
      exact .optedOut on out
  | fail obstacle wanted blocked =>
    refine ⟨.blocked (Preferences.refusal?_eq_none_iff.1 wanted) obstacle
      (Preferences.firstBlocked_of_recipient blocked), ?_⟩
    rintro ⟨-, address, reaches⟩
    rw [Preferences.recipient_eq_ok_iff.2 reaches] at blocked
    cases blocked

/-- A run for a user who does not agree. -/
theorem Consented.of_withheld {status : Status} {error : Option String} {stage : Stage}
    {message : String} {stamp : Stamp}
    (verdict : Verdict prefs request.channel status error stage message)
    (hi : inquiries log = [request.userId]) (ho : obtained log = [prefs])
    (hr : renderings log = []) (hd : deliveries log = [])
    (hc : creations log = [.ofRequest stamp request status error])
    (tells : ∀ reply, result = .ok reply → reply.message = message) :
    Consented p ctx request log result := by
  obtain ⟨withheld, disagrees⟩ := verdict.withheld
  constructor
  · exact .inr hi
  · simp [hi]
  · rw [hr, ho]
    simpa using disagrees
  · exact .inl hr
  · simp [hd]
  · intro other mem _
    rw [ho, List.mem_singleton] at mem
    subst mem
    exact ⟨hr, hd, _, message, hc, withheld, tells⟩

/-- The steps heed the preferences of the user, one course after the other. -/
theorem Course.consented (h : Course p ctx request log result) :
    Consented p ctx request log result := by
  cases h with
  | unknown e => exact .of_unknown (.inr rfl) (.inl (List.cons_ne_nil _ _)) rfl rfl rfl
  | settled prefs status error stage message verdict stamp =>
    refine .of_withheld verdict rfl rfl rfl rfl rfl ?_
    intro reply hr
    cases hr
    rfl
  | unsettled prefs status error stage message verdict stamp e =>
    refine .of_withheld verdict rfl rfl rfl rfl rfl ?_
    intro reply hr
    cases hr
  | unrendered prefs wanted recipient reached e =>
    apply Consented.of_agreed rfl rfl rfl wanted reached
    intro sent mem
    cases mem
  | uncreated prefs wanted recipient reached rendered stamp e =>
    apply Consented.of_agreed rfl rfl rfl wanted reached
    intro sent mem
    cases mem
  | unpublished prefs wanted recipient reached rendered stamp record fresh delivery made e now
      updated time buried =>
    apply Consented.of_agreed rfl rfl rfl wanted reached
    intro sent mem
    obtain rfl := List.mem_singleton.1 mem
    subst fresh made
    exact ⟨rfl, rfl⟩
  | queued prefs wanted recipient reached rendered stamp record fresh delivery made =>
    -- whether a report is made changes nothing
    unfold tracking
    split
    all_goals
      apply Consented.of_agreed rfl rfl rfl wanted reached
      intro sent mem
      obtain rfl := List.mem_singleton.1 mem
      subst fresh made
      exact ⟨rfl, rfl⟩

theorem Course.inquires (h : Course p ctx request log result) : inquiries log ≠ [] := by
  obtain ⟨answer, mem⟩ := h.asks
  exact List.ne_nil_of_mem (List.mem_filterMap.2 ⟨_, mem, rfl⟩)

/-- A request as a whole heeds the preferences as its course does: neither clock nor cache makes a
difference. -/
theorem Passage.consented (h : Passage p ctx request log result) :
    Consented p ctx request log result := by
  cases h with
  | interrupted now why ended =>
    exact .of_unknown (.inl rfl) (.inr (.inr ⟨now, why, ended, rfl, rfl⟩)) rfl rfl rfl
  | repeated now runs key keyed answer reply hit =>
    refine .of_unknown (.inl rfl) (.inr (.inl fun missed => ?_)) rfl rfl rfl
    have found : Replies.recalled answer = none :=
      List.filterMap_eq_nil_iff.1 missed _ (List.mem_cons_of_mem _ List.mem_cons_self)
    rw [found] at hit
    cases hit
  | keyless now runs bare course => exact course.consented.congr course.inquires rfl rfl rfl rfl rfl
  | failed now runs key keyed answer missed e course =>
    exact course.consented.congr course.inquires rfl rfl rfl rfl rfl
  | @kept now runs key keyed answer missed log reply course stored =>
    -- the reply is kept at the end, where none of the views looks
    have last {α : Type} (f : Exchange Backend → Option α)
        (hn : f (told .now now) = none)
        (hg : f (told (.cacheGet ctx (Replies.entryName key)) answer) = none)
        (hs : f (told (p.keeping ctx key reply) stored) = none) :
        (told .now now :: told (.cacheGet ctx (Replies.entryName key)) answer ::
          (log ++ [told (p.keeping ctx key reply) stored])).filterMap f = log.filterMap f := by
      simp [hn, hg, hs]
    exact course.consented.congr course.inquires (last _ rfl rfl rfl) (last _ rfl rfl rfl)
      (last _ rfl rfl rfl) (last _ rfl rfl rfl) (last _ rfl rfl rfl)

/-- **Nobody is notified against their will**, whatever their preferences are, however the pipeline
is set up and whatever the other dependencies answer. A request that is answered from the cache asks
for no preferences, renders nothing and sends nothing. -/
theorem process_consented (p : Pipeline) (ctx : Context) (request : Request)
    (w : Surroundings Backend) (past : List (Exchange Backend)) :
    Consented p ctx request ((p.process ctx request).play w past).1
      ((p.process ctx request).play w past).2 :=
  (process_passage (Flow.play_runs w _ _)).consented

/-- Surroundings in which the preferences of a user are known. -/
def preferring (prefs : Preferences) : Surroundings Backend := fun past op =>
  match op with
  | .preferences _ _ => .ok prefs
  | op => deafBroker past op

/-- One user has an address and does not object. Another has opted out of the channel, and has it
switched off as well, but the opt-out comes first. -/
theorem process_consented_optedOut :
    let p : Pipeline := { replyTtl := 60000 }
    let request : Request := { userId := "u1", templateCode := "welcome_email" }
    let willing : Preferences :=
      { userId := "u1", emailEnabled := true, email := some "u1@example.org" }
    let unwilling : Preferences :=
      { userId := "u1", optedOutChannels := .ofList [("email", true)] }
    let sent := (p.process .background request).play (preferring willing) []
    let kept := (p.process .background request).play (preferring unwilling) []
    Agrees willing .email ∧ ¬ Agrees unwilling .email ∧
      ((renderings sent.1).length = 1 ∧
        (deliveries sent.1).map (·.2.recipient) = ["u1@example.org"] ∧
        Consented p .background request sent.1 sent.2) ∧
      renderings kept.1 = [] ∧ deliveries kept.1 = [] ∧
        (creations kept.1).map (fun r => (r.status, r.error)) = [(.skipped, none)] ∧
        Consented p .background request kept.1 kept.2 := by
  intro p request willing unwilling sent kept
  have reached : willing.recipient .email = .ok "u1@example.org" := rfl
  have agrees : Agrees willing .email := agrees_of_recipient rfl reached
  have law := process_consented p .background request (preferring unwilling) []
  have silent : renderings kept.1 = [] := rfl
  refine ⟨agrees, fun agree => ?_, ⟨rfl, rfl, process_consented _ _ _ _ _⟩, silent, rfl, rfl, law⟩
  exact law.rendered_iff.2 ⟨unwilling, List.mem_singleton_self _, agree⟩ silent

end Pipeline

end Courier
