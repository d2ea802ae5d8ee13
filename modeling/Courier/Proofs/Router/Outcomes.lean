import Courier.Proofs.Notification.Codecs
import Courier.Proofs.Pipeline.Agreement
import Courier.Proofs.Pipeline.Reports
import Courier.Proofs.Router.Calls

/-!
# Which answer a call gets

Whatever the collaborators do, the answer to a request tells what became of it, and what was
reported on the way if it failed (`SubmitLaw`). The answer to a call about a record tells whether
the store knows the record (`RecordLaw`). An answer says that all went well if and only if its
status does, it holds either what was asked for or an error, and an interruption is always told as
one.

What was reported on the way is known from the pipeline (`submit_blames`, `find_blames`,
`report_blames`). What is added here is the status of each kind of failure, and how an answer is
made of it.
-/

set_option autoImplicit false

namespace Courier

namespace Router

open Backend (reports told)

/-! ## Answers -/

/-- An envelope tells success from failure, and holds what there is or what went wrong. -/
structure Answer.Enveloped (a : Answer) : Prop where
  body : ∃ v, a.payload = .json v ∧
    v.get? "success" = some (.bool (decide (200 ≤ a.status ∧ a.status < 300))) ∧
    ((v.get? "data").isSome ↔ (v.get? "error").isNone)

/-- The kind of the error in an envelope. -/
def Answer.errorKind? (a : Answer) : Option Json :=
  match a.payload with
  | .json v => (v.get? "error").bind fun e => e.get? "kind"
  | _ => none

variable {f : Failure} {message : String}

theorem status_503 : failureStatus f = 503 ↔ f.kind = .circuitOpen ∨ f.kind = .tooManyRequests := by
  unfold failureStatus
  cases f.kind <;> simp

theorem status_404 : failureStatus f = 404 ↔ f.kind = .notFound := by
  unfold failureStatus
  cases f.kind <;> simp

theorem status_504 : failureStatus f = 504 ↔ f.kind = Interruption.deadlineExceeded.kind := by
  unfold failureStatus
  cases f.kind <;> simp [Interruption.kind]

theorem failureStatus_mem (f : Failure) : failureStatus f ∈ [503, 404, 504, 500] := by
  unfold failureStatus
  cases f.kind <;> simp

theorem failed_enveloped (f : Failure) (message : String) : (failed f message).Enveloped := by
  refine ⟨_, rfl, ?_, iff_of_false nofun nofun⟩
  have outside : ¬ (200 ≤ failureStatus f ∧ failureStatus f < 300) := by
    have := failureStatus_mem f
    simp only [List.mem_cons, List.not_mem_nil, or_false] at this
    omega
  show _ = some (Json.bool (decide (200 ≤ failureStatus f ∧ failureStatus f < 300)))
  rw [decide_eq_false outside]
  rfl

theorem replied_status (reply : Reply) :
    (replied reply).status = if reply.status = .pending then 201 else 200 := rfl

theorem replied_enveloped (reply : Reply) : (replied reply).Enveloped := by
  refine ⟨_, rfl, ?_, iff_of_true rfl rfl⟩
  have inside : 200 ≤ (replied reply).status ∧ (replied reply).status < 300 := by
    rw [replied_status]
    split <;> simp
  rw [decide_eq_true inside]
  rfl

theorem recordAnswer_enveloped (found : Except Failure Notification) (done failure : String) :
    (recordAnswer found done failure).Enveloped := by
  cases found with
  | ok record => exact ⟨_, rfl, rfl, iff_of_true rfl rfl⟩
  | error f => exact failed_enveloped f failure

theorem failed_errorKind? : (failed f message).errorKind? = some (.string f.kind.name) := rfl

/-! ## The laws

Each law speaks of the log of a run: which of the collaborators' reports there are, and the status
that answers them.
-/

open Pipeline (Interrupted)

/-- The answer to a request, by its result and by what was reported on the way. -/
structure SubmitLaw (p : Pipeline) (log : List (Exchange Backend)) (result : Except Failure Reply)
    (answer : Answer) : Prop where
  created : answer.status = 201 ↔ ∃ reply, result = .ok reply ∧ reply.status = .pending
  settled : answer.status = 200 ↔ ∃ reply, result = .ok reply ∧ reply.status ≠ .pending
  unavailable : answer.status = 503 ↔ ∃ r ∈ reports log, r.Rejected
  late : answer.status = 504 ↔ Interrupted p log .deadlineExceeded
  otherwise : answer.status ∈ [201, 200, 503, 504, 500]
  enveloped : answer.Enveloped
  interrupted : ∀ why, Interrupted p log why → answer.errorKind? = some (.string why.kind.name)

/-- The answer to a request, by its result. -/
theorem submitLaw {p : Pipeline} {request : Request} {log : List (Exchange Backend)}
    {result : Except Failure Reply}
    (h : Flow.Runs (p.submit request) log result) :
    SubmitLaw p log result (submitAnswer result) := by
  cases result with
  | ok reply =>
    obtain ⟨quiet, going⟩ := Pipeline.submit_success h
    have status := replied_status reply
    constructor
    case enveloped => exact replied_enveloped reply
    case interrupted => exact fun why interrupted => absurd interrupted (going why)
    all_goals
      rw [submitAnswer, status]
      split <;> simp_all
  | error f =>
    obtain ⟨rejected, known, interrupted⟩ := Pipeline.submit_failure h
    have status : (submitAnswer (.error f)).status = failureStatus f := rfl
    -- no step of a request looks for a record that may be missing
    have found : failureStatus f ≠ 404 := fun missing => known (status_404.1 missing)
    have others := failureStatus_mem f
    simp only [List.mem_cons, found, List.not_mem_nil, or_false, false_or] at others
    constructor
    case created | settled => exact iff_of_false (by omega) (by simp)
    case unavailable => exact status_503.trans rejected
    case late => exact status_504.trans (interrupted _)
    case otherwise => simp [status, others]
    case enveloped => exact failed_enveloped f _
    case interrupted =>
      intro why h
      rw [submitAnswer, failed_errorKind?, (interrupted why).2 h]

/-- The store is asked about one record only. -/
def About (id : Uuid) : Backend.Op → Prop
  | .now => True
  | .find _ other | .update _ other _ _ => other = id
  | _ => False

/-- The store is asked first of all, in a context that lasts as long as a request may take. -/
def Opens (p : Pipeline) (ask : Context → Backend.Op) (log : List (Exchange Backend)) : Prop :=
  ∃ (now : Nat) (answer : Backend.Answer (ask (.lasting now p.settings.requestTimeout)))
    (more : List (Exchange Backend)), log = told .now now :: told _ answer :: more

/-- The answer to a call about a record, by what the store reports. -/
structure RecordLaw (log : List (Exchange Backend)) (answer : Answer) : Prop where
  missing : answer.status = 404 ↔ ∃ r ∈ reports log, r.Unknown
  enveloped : answer.Enveloped
  interrupted : ∀ r ∈ reports log, ∀ why, r.interruption? = some why →
    answer.errorKind? = some (.string why.kind.name)

/-- The answer to a call about a record, by the report it fails by. -/
theorem recordLaw {log : List (Exchange Backend)} {found : Except Failure Notification}
    (h : Pipeline.BlamesOnly (reports log) found) (done failure : String) :
    RecordLaw log (recordAnswer found done failure) := by
  cases found with
  | ok record =>
    have quiet : reports log = [] := h
    refine ⟨?_, recordAnswer_enveloped _ _ _, by simp [quiet]⟩
    simp [quiet, recordAnswer, Answer.json]
  | error f =>
    obtain ⟨r, listed, brings⟩ := h
    have told := brings.told
    refine ⟨?_, recordAnswer_enveloped _ _ _, ?_⟩
    · rw [listed]
      exact status_404.trans (told.unknown.trans (by simp))
    · rw [listed]
      intro x hx why interrupted
      rw [List.mem_singleton.1 hx] at interrupted
      rw [recordAnswer, failed_errorKind?, (told.interrupted why).2 interrupted]

variable {p : Pipeline} {id : Uuid} {log : List (Exchange Backend)}
  {found : Except Failure Notification}

theorem lookUp_law (h : (lookUp p id).Runs log found) (done failure : String) :
    Opens p (.find · id) log ∧ (∀ x ∈ log, About id x.op) ∧
      RecordLaw log (recordAnswer found done failure) := by
  obtain ⟨ctx, early, late, rfl, hc, hf⟩ := Flow.runs_bind_iff.1 h
  obtain ⟨now, _, rfl, hn⟩ := Flow.Runs.of_call hc
  obtain ⟨rfl, rfl⟩ := Flow.runs_pure_iff.1 hn
  obtain ⟨answer, rfl, blames⟩ := Pipeline.find_blames hf
  refine ⟨⟨now, answer, [], rfl⟩, by simp [told, About], recordLaw ?_ done failure⟩
  exact blames

/-- Taking a worker's word begins with an update, and asks about no other record. -/
theorem word_law {word : StatusReport} (h : (takeWord p id word).Runs log found)
    (done failure : String) :
    Opens p (.update · id word.status word.error) log ∧ (∀ x ∈ log, About id x.op) ∧
      RecordLaw log (recordAnswer found done failure) := by
  obtain ⟨ctx, early, late, rfl, hc, hr⟩ := Flow.runs_bind_iff.1 h
  obtain ⟨now, _, rfl, hn⟩ := Flow.Runs.of_call hc
  obtain ⟨rfl, rfl⟩ := Flow.runs_pure_iff.1 hn
  obtain ⟨answer, more, rfl, then_, blames⟩ := Pipeline.report_blames hr
  refine ⟨⟨now, answer, more, rfl⟩, ?_, recordLaw ?_ done failure⟩
  · simp only [List.cons_append, List.nil_append, List.forall_mem_cons]
    refine ⟨trivial, rfl, fun x hx => ?_⟩
    obtain ⟨answer, rfl⟩ := then_ x hx
    rfl
  · exact blames

theorem BadRequest.status_ne (e : BadRequest) : e.status ≠ 404 := by
  cases e <;> simp [status]

/-- The call that submits a request. -/
def submission (request : Request) : Call where
  method := "POST"
  path := "/api/v1/notifications"
  contentType := some "application/json"
  body := Request.codec.text request

/-- A request that can be written submits itself, if it is not too deep or too long. -/
theorem submission_submits {request : Request} (formed : request.Formed)
    (free : request.Free Json.Legible)
    (shallow : (Request.codec.encode request).nesting ≤ 127)
    (short : (Request.codec.text request).utf8ByteSize ≤ greatestBody) :
    (submission request).Submits request := by
  have json : (some "application/json").any Http.MediaType.isJson = true := by decide
  refine ⟨rfl, rfl, ?_⟩
  rw [readBody, submission, if_pos json, if_pos short,
    Request.lawful.ofText_text formed free shallow]

/-- Surroundings in which nothing fails but the broker, because its time is over. -/
def lateBroker : Surroundings Backend := fun past op =>
  match op with
  | .publish _ _ _ _ => .error (.interrupted .deadlineExceeded)
  | op => Pipeline.deafBroker past op

/-- **The answers to calls, whatever the collaborators do.** -/
theorem handle_answers (s : Service) (w : Surroundings Backend) (past : List (Exchange Backend))
    (call : Call) :
    let run := (handle s call).play w past
    (∀ request, call.Submits request → ∃ result,
      (s.pipeline.submit request).play w past = (run.1, result) ∧
        SubmitLaw s.pipeline run.1 result run.2) ∧
    (∀ id, call.LooksUp id → Opens s.pipeline (.find · id) run.1 ∧
      (∀ x ∈ run.1, About id x.op) ∧ RecordLaw run.1 run.2) ∧
    ∀ id, call.BringsWord id → (∀ x ∈ run.1, About id x.op) ∧
      (run.2.status = 404 ↔ ∃ r ∈ reports run.1, r.Unknown) ∧
      ∀ word, readBody StatusReport.codec.decode call.contentType call.body = .ok word →
        Opens s.pipeline (.update · id word.status word.error) run.1 ∧
          RecordLaw run.1 run.2 := by
  refine ⟨fun request submits => ?_, fun id looksUp => ?_, fun id brings => ?_⟩
  · rw [handle_submit submits, Flow.play_map]
    exact ⟨_, rfl, submitLaw (Flow.play_runs w _ past)⟩
  · rw [handle_lookUp looksUp, Flow.play_map]
    exact lookUp_law (Flow.play_runs w _ past) _ _
  · cases read : readBody StatusReport.codec.decode call.contentType call.body with
    | error e =>
      have refused : (handle s call).play w past = ([], .bad e) := by
        rw [handle_bringsWord brings, read]
        rfl
      rw [refused]
      exact ⟨by simp, iff_of_false e.status_ne (by simp [reports]), by simp⟩
    | ok word =>
      rw [handle_bringsWord brings, read, Flow.play_map]
      obtain ⟨opens, about, law⟩ := word_law (Flow.play_runs w (takeWord s.pipeline id word) past)
        "Status updated" "Failed to update notification status"
      refine ⟨about, law.missing, fun word' same => ?_⟩
      cases same
      exact ⟨opens, law⟩

/-- There is no time left for the broker, so a submission is late. The record that a call asks
about, and that a worker has word of, is not there. -/
theorem handle_answers_late :
    let s : Service := ⟨{ replyTtl := 60000 }, 1000⟩
    let request : Request := { userId := "u1" }
    let encoded := "00000000-0000-0000-0000-000000000000".toList
    let inquiry : Call := {
      method := "GET"
      path := "/api/v1/notifications/" ++ String.ofList encoded }
    let word : Call := {
      method := "POST"
      path := "/api/v1/notifications/" ++ String.ofList (encoded ++ "/status".toList)
      contentType := some "application/json"
      body := StatusReport.codec.text { status := .delivered } }
    let run := (handle s (submission request)).play lateBroker []
    let found := (handle s inquiry).play lateBroker []
    let taken := (handle s word).play lateBroker []
    (submission request).Submits request ∧ inquiry.LooksUp default ∧ word.BringsWord default ∧
      (run.2.status = 504 ∧ ∃ result, SubmitLaw s.pipeline run.1 result run.2) ∧
      (found.2.status = 404 ∧ RecordLaw found.1 found.2) ∧
      taken.2.status = 404 ∧ RecordLaw taken.1 taken.2 := by
  intro s request encoded inquiry word
  have part : '/' ∉ encoded := by decide
  have read : readId encoded = .ok default := by decide +kernel
  have submits : (submission request).Submits request :=
    submission_submits ⟨⟨nofun, nofun⟩, nofun⟩ ⟨nofun, nofun⟩ (by decide) (by decide +kernel)
  have looksUp : inquiry.LooksUp default := ⟨rfl, encoded, part, read, rfl⟩
  have brings : word.BringsWord default := ⟨rfl, encoded, part, read, rfl⟩
  have readable : readBody StatusReport.codec.decode word.contentType word.body =
      .ok { status := .delivered } := by decide +kernel
  have reported : reports ((s.pipeline.submit request).play lateBroker []).1 =
      [.publication (.interrupted .deadlineExceeded)] := rfl
  obtain ⟨result, played, law⟩ := (handle_answers s lateBroker [] _).1 request submits
  rw [played] at reported
  obtain ⟨-, -, missing⟩ := (handle_answers s lateBroker [] inquiry).2.1 default looksUp
  obtain ⟨-, -, words⟩ := (handle_answers s lateBroker [] word).2.2 default brings
  refine ⟨submits, looksUp, brings, ⟨?_, result, law⟩, ⟨by decide +kernel, missing⟩,
    by decide +kernel, (words _ readable).2⟩
  refine law.late.2 (.inr ⟨.publication (.interrupted .deadlineExceeded), ?_, trivial, rfl⟩)
  exact reported ▸ List.mem_singleton_self _

end Router

end Courier
