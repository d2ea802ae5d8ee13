import Courier.Proofs.Desk.Answers
import Courier.Proofs.Pipeline.Replay

/-!
# What a question rests on

A call does not ask at random. It creates a record once, with the stamp it was given before; it has
a reply kept only about a record that the store has acknowledged; and an update is either all that a
report begins with, or marks as failed the record that the same call has created to wait. What a
question rests on is in the log of its call by then (`Call.Grounded`), and so is the source of every
notification that the caller is told of (`Call.Source`).

These are facts about single calls. They use the passages and courses of the pipeline, one case for
each, and know nothing of other calls or of the desk.
-/

set_option autoImplicit false

namespace Courier

open Backend (told stored)
open Courier.Flow (Runs runs_pure_iff runs_bind_iff)

/-! ## Along a log

A property of each exchange and what was exchanged before it. The ground of a creation is the stamp
and the request it was made from, that of an update the call's own record or a report.
-/

/-- Each exchange is as it should be after those before it. -/
def Along {S : Signature} (P : List (Exchange S) → Exchange S → Prop) :
    List (Exchange S) → List (Exchange S) → Prop
  | _, [] => True
  | past, x :: rest => P past x ∧ Along P (past ++ [x]) rest

section

variable {S : Signature} {P : List (Exchange S) → Exchange S → Prop}
  {past early late before later : List (Exchange S)} {x : Exchange S}

theorem along_append_iff :
    Along P past (early ++ late) ↔ Along P past early ∧ Along P (past ++ early) late := by
  induction early generalizing past with
  | nil => simp [Along]
  | cons x early ih => simp [Along, ih, and_assoc]

theorem Along.at (h : Along P past (before ++ x :: later)) : P (past ++ before) x :=
  (along_append_iff.1 h).2.1

end

/-- The identifier whose record is to be updated. -/
def Exchange.update? : Exchange Backend → Option Uuid
  | ⟨.update _ id _ _, _⟩ => some id
  | _ => none

def Backend.updates (log : List (Exchange Backend)) : List Uuid := log.filterMap Exchange.update?

open Backend (updates)

/-- What a question of a call rests on. -/
def Call.Grounded (c : Call) (past : List (Exchange Backend)) : Exchange Backend → Prop
  | ⟨.create _ record, _⟩ => stored past = [] ∧ ∃ stamp request status error,
      told .stamp stamp ∈ past ∧ record = .ofRequest stamp request status error ∧
        (status = .pending ∨ status = .skipped ∨ status = .failed)
  | ⟨.update ctx id status error, _⟩ =>
      (past = [] ∧ ∃ word, c = .report ctx id word ∧ status = word.status ∧ error = word.error) ∨
        (status = .failed ∧ updates past = [] ∧
          ∃ record ∈ stored past, record.id = id ∧ record.status = .pending)
  | ⟨.cacheSet _ _ text _, _⟩ => ∃ record ∈ stored past, ∃ message,
      text = Reply.codec.text (.about record message) ∧
        ∃ stamp, told .stamp stamp ∈ past ∧ record.createdAt = stamp.time
  | _ => True

/-- Where a call has a notification from that it tells its caller of. -/
inductive Call.Source (log : List (Exchange Backend)) (id : Uuid) : Prop
  | created (record : Notification) (mem : record ∈ stored log) (same : record.id = id)
  | kept (ctx : Context) (name text : String) (reply : Reply)
      (mem : told (.cacheGet ctx name) (.ok (.ok (some text))) ∈ log)
      (read : Replies.read? text = some reply) (same : reply.notificationId = id)
  | found (ctx : Context) (asked : Uuid) (record : Notification)
      (mem : told (.find ctx asked) (.ok record) ∈ log) (same : record.id = id)
  | listed (ctx : Context) (userId : String) (limit offset : Int) (records : List Notification)
      (mem : told (.list ctx userId limit offset) (.ok records) ∈ log)
      (among : ∃ record ∈ records, record.id = id)

namespace Pipeline

variable {p : Pipeline} {ctx : Context} {request : Request} {log past : List (Exchange Backend)}
  {result : Except Failure Reply} {c : Call} {reply : Reply}

/-- Nothing is stored or updated yet. -/
def Untouched (past : List (Exchange Backend)) : Prop :=
  stored past = [] ∧ updates past = []

/-- A record is created with the stamp that was given before it. -/
theorem grounded_create {stamp : Stamp} {status : Status} {error : Option String}
    (early : List (Exchange Backend)) (answer : Except StoreFailure Unit)
    (untouched : Untouched past) (quiet : stored early = [])
    (outcome : status = .pending ∨ status = .skipped ∨ status = .failed) :
    c.Grounded (past ++ early ++ [told .stamp stamp])
      (told (.create ctx (.ofRequest stamp request status error)) answer) := by
  refine ⟨?_, stamp, request, status, error, ?_, rfl, outcome⟩
  · rw [stored, List.filterMap_append, List.filterMap_append]
    exact List.append_eq_nil_iff.2 ⟨List.append_eq_nil_iff.2 ⟨untouched.1, quiet⟩, rfl⟩
  · exact List.mem_append_right _ List.mem_cons_self

theorem Verdict.outcome {prefs : Preferences} {channel : Channel} {status : Status}
    {error : Option String} {stage : Stage} {message : String}
    (h : Verdict prefs channel status error stage message) :
    status = .pending ∨ status = .skipped ∨ status = .failed := by
  cases h with
  | skip => exact .inr (.inl rfl)
  | fail => exact .inr (.inr rfl)

/-- What is asked on the way of a notification rests on the log. -/
theorem Course.grounded (h : Course p ctx request log result) (untouched : Untouched past) :
    Along c.Grounded past log := by
  cases h with
  -- only creations and updates have a ground to show
  | unknown e => exact ⟨trivial, trivial⟩
  | settled prefs status error stage message verdict stamp =>
    refine ⟨trivial, trivial, ?_, trivial⟩
    exact grounded_create [_] _ untouched rfl verdict.outcome
  | unsettled prefs status error stage message verdict stamp e =>
    refine ⟨trivial, trivial, ?_, trivial⟩
    exact grounded_create [_] _ untouched rfl verdict.outcome
  | unrendered prefs wanted recipient reached e => exact ⟨trivial, trivial, trivial⟩
  | uncreated prefs wanted recipient reached rendered stamp e =>
    refine ⟨trivial, trivial, trivial, ?_, trivial⟩
    rw [List.append_assoc past]
    exact grounded_create [_, _] _ untouched rfl (.inl rfl)
  | unpublished prefs wanted recipient reached rendered stamp record fresh delivery made e now
      updated time buried =>
    subst fresh
    refine ⟨trivial, trivial, trivial, ?_, trivial, trivial, ?_, trivial, trivial, trivial⟩
    · rw [List.append_assoc past]
      exact grounded_create [_, _] _ untouched rfl (.inl rfl)
    · -- the record was created four questions ago
      refine .inr ⟨rfl, ?_, _, List.mem_filterMap.2 ⟨told (.create ctx _) (.ok ()), ?_, rfl⟩, rfl,
        rfl⟩
      · simpa [updates, told, Exchange.update?, rendering] using untouched.2
      · simp
  | queued prefs wanted recipient reached rendered stamp record fresh delivery made =>
    subst fresh
    refine ⟨trivial, trivial, trivial, ?_, trivial, ?_⟩
    · rw [List.append_assoc past]
      exact grounded_create [_, _] _ untouched rfl (.inl rfl)
    · unfold tracking
      split <;> simp [Along, told, Call.Grounded]

/-- A reply is about a record that the store has acknowledged. -/
theorem Course.replies (h : Course p ctx request log (.ok reply)) :
    ∃ record ∈ stored log, ∃ message, reply = .about record message ∧
      ∃ stamp, told .stamp stamp ∈ log ∧ record.createdAt = stamp.time := by
  cases h with
  | settled prefs status error stage message verdict stamp =>
    exact ⟨_, List.mem_singleton.2 rfl, message, rfl, stamp, by simp, rfl⟩
  | queued prefs wanted recipient reached rendered stamp record fresh delivery made =>
    refine ⟨record, ?_, queuedMessage, rfl, stamp, by simp, by rw [fresh]; rfl⟩
    exact List.mem_filterMap.2 ⟨told (.create ctx record) (.ok ()), by simp, rfl⟩

/-- Questions that store and update nothing leave it so. -/
theorem Untouched.more {x : Exchange Backend} (h : Untouched past) (unstored : x.stored? = none)
    (unchanged : x.update? = none) : Untouched (past ++ [x]) := by
  constructor
  · rw [stored, List.filterMap_append, List.filterMap_cons_none unstored, List.filterMap_nil,
      List.append_nil]
    exact h.1
  · rw [updates, List.filterMap_append, List.filterMap_cons_none unchanged, List.filterMap_nil,
      List.append_nil]
    exact h.2

theorem mem_stored {late : List (Exchange Backend)} {record : Notification}
    (sub : log ⊆ late) (h : record ∈ stored log) : record ∈ stored late := by
  obtain ⟨x, mem, made⟩ := List.mem_filterMap.1 h
  exact List.mem_filterMap.2 ⟨x, sub mem, made⟩

/-- What is asked for a request rests on the log, if the call has stored nothing before. Around the
course only a reply is kept, behind everything else. -/
theorem Passage.grounded (h : Passage p ctx request log result) (untouched : Untouched past) :
    Along c.Grounded past log := by
  cases h with
  | interrupted now why ended => exact ⟨trivial, trivial⟩
  | keyless now runs bare course => exact ⟨trivial, course.grounded (untouched.more rfl rfl)⟩
  | repeated now runs key keyed answer reply hit => exact ⟨trivial, trivial, trivial⟩
  | failed now runs key keyed answer missed e course =>
    exact ⟨trivial, trivial, course.grounded ((untouched.more rfl rfl).more rfl rfl)⟩
  | kept now runs key keyed answer missed reply course stored =>
    refine ⟨trivial, trivial, along_append_iff.2
      ⟨course.grounded ((untouched.more rfl rfl).more rfl rfl), ?_, trivial⟩⟩
    obtain ⟨record, mem, message, rfl, stamp, given, time⟩ := course.replies
    exact ⟨record, mem_stored (List.subset_append_right _ _) mem, message, rfl, stamp,
      List.mem_append_right _ given, time⟩

/-- The caller of a request is told of what was stored for it, or of what a reply that was kept is
about. -/
theorem Passage.source (h : Passage p ctx request log (.ok reply)) :
    Call.Source log reply.notificationId := by
  cases h with
  | keyless now runs bare course =>
    obtain ⟨record, mem, message, rfl, -⟩ := course.replies
    exact .created record (mem_stored (List.subset_cons_self _ _) mem) rfl
  | repeated now runs key keyed answer reply hit =>
    obtain ⟨text, rfl⟩ := Replies.text_of_recalled hit
    exact .kept ctx _ text reply (List.mem_cons_of_mem _ List.mem_cons_self) hit rfl
  | kept now runs key keyed answer missed reply course answer' =>
    obtain ⟨record, mem, message, rfl, -⟩ := course.replies
    refine .created record (mem_stored (fun x hx => ?_) mem) rfl
    exact List.mem_cons_of_mem _ (List.mem_cons_of_mem _ (List.mem_append_left _ hx))

end Pipeline

/-! ## Calls

The programs of the calls, one by one. Interleaving does not matter here: the desk's jobs keep logs
of their own, and each is the beginning of a run.
-/

namespace Call

open Pipeline (Untouched Passage)

variable {p : Pipeline} {ctx : Context} {c : Call} {id : Uuid} {log : List (Exchange Backend)}
  {response : Response}

/-- A source is not lost by what comes later. -/
theorem Source.mono {late : List (Exchange Backend)} (h : Source log id) (sub : log ⊆ late) :
    Source late id := by
  cases h with
  | created record mem same => exact .created record (Pipeline.mem_stored sub mem) same
  | kept ctx name text reply mem read same =>
    exact .kept ctx name text reply (sub mem) read same
  | found ctx asked record mem same => exact .found ctx asked record (sub mem) same
  | listed ctx userId limit offset records mem among =>
    exact .listed ctx userId limit offset records (sub mem) among

/-- A call of the pipeline is put to it, and its result is the response. -/
theorem runs_wrapped {α : Type} {program : Flow Backend α} {wrap : α → Response}
    (h : Runs (do return wrap (← program)) log response) :
    ∃ a, Runs program log a ∧ response = wrap a := by
  obtain ⟨a, early, late, rfl, runs, rest⟩ := runs_bind_iff.1 h
  obtain ⟨rfl, rfl⟩ := runs_pure_iff.1 rest
  rw [List.append_nil]
  exact ⟨a, runs, rfl⟩

/-- Looking for a record is one question. -/
theorem find_runs {result : Except Failure Notification}
    (h : Runs (Pipeline.find ctx id) log result) :
    ∃ answer, log = [told (.find ctx id) answer] ∧
      result = answer.mapError (.ofStore .get (some id)) := by
  obtain ⟨answer, _, rfl, rest⟩ := Flow.Runs.of_call h
  refine ⟨answer, ?_⟩
  cases answer with
  | error e | ok record =>
    obtain ⟨rfl, rfl⟩ := runs_pure_iff.1 rest
    exact ⟨rfl, rfl⟩

/-- A report is an update, and a look at the record if the update is not refused. -/
theorem report_runs {word : StatusReport} {result : Except Failure Notification}
    (h : Runs (Pipeline.report ctx id word) log result) :
    (∃ e, log = [told (.update ctx id word.status word.error) (.error e)] ∧
      result = .error (.ofStore .updateStatus (some id) e)) ∨
    ∃ answer, log = [told (.update ctx id word.status word.error) (.ok ()),
        told (.find ctx id) answer] ∧ result = answer.mapError (.ofStore .get (some id)) := by
  obtain ⟨updated, _, rfl, rest⟩ := Flow.Runs.of_call h
  cases updated with
  | error e =>
    obtain ⟨rfl, rfl⟩ := runs_pure_iff.1 rest
    exact .inl ⟨e, rfl, rfl⟩
  | ok =>
    obtain ⟨answer, rfl, rfl⟩ := find_runs rest
    exact .inr ⟨answer, rfl, rfl⟩

/-- A list is one question, too. -/
theorem list_runs {userId : String} {limit offset : Int}
    {result : Except Failure (List Notification)}
    (h : Runs (Pipeline.list ctx userId limit offset) log result) :
    ∃ answer, log = [told (.list ctx userId limit offset) answer] ∧
      result = answer.mapError (.ofStore .list none) := by
  obtain ⟨answer, _, rfl, rest⟩ := Flow.Runs.of_call h
  refine ⟨answer, ?_⟩
  cases answer with
  | error e | ok records =>
    obtain ⟨rfl, rfl⟩ := runs_pure_iff.1 rest
    exact ⟨rfl, rfl⟩

/-- A request under the context of the pipeline is one under some context, one question later. -/
theorem submit_runs {request : Request} {result : Except Failure Reply}
    (h : Runs (p.submit request) log result) :
    ∃ now ctx rest, log = [told .now now] ++ rest ∧ Passage p ctx request rest result := by
  obtain ⟨ctx, early, rest, rfl, opened, runs⟩ := runs_bind_iff.1 h
  obtain ⟨now, _, rfl, done⟩ := Flow.Runs.of_call opened
  obtain ⟨rfl, -⟩ := runs_pure_iff.1 done
  exact ⟨now, ctx, rest, rfl, Pipeline.process_passage runs⟩

/-- **Each question of a call rests on what was asked before.** -/
theorem grounded (h : Runs (c.program p) log response) : Along c.Grounded [] log := by
  cases c with
  | submit request =>
    obtain ⟨result, runs, -⟩ := runs_wrapped h
    obtain ⟨now, ctx, rest, rfl, passage⟩ := submit_runs runs
    exact ⟨trivial, passage.grounded ⟨rfl, rfl⟩⟩
  | process ctx request =>
    obtain ⟨result, runs, -⟩ := runs_wrapped h
    exact (Pipeline.process_passage runs).grounded ⟨rfl, rfl⟩
  | report ctx id word =>
    obtain ⟨result, runs, -⟩ := runs_wrapped h
    obtain ⟨e, rfl, -⟩ | ⟨answer, rfl, -⟩ := report_runs runs
    · exact ⟨.inl ⟨rfl, word, rfl, rfl, rfl⟩, trivial⟩
    · exact ⟨.inl ⟨rfl, word, rfl, rfl, rfl⟩, trivial, trivial⟩
  | find ctx id =>
    obtain ⟨result, runs, -⟩ := runs_wrapped h
    obtain ⟨answer, rfl, -⟩ := find_runs runs
    exact ⟨trivial, trivial⟩
  | list ctx userId limit offset =>
    obtain ⟨result, runs, -⟩ := runs_wrapped h
    obtain ⟨answer, rfl, -⟩ := list_runs runs
    exact ⟨trivial, trivial⟩

theorem source_of_find {asked : Uuid} {answer : Except StoreFailure Notification}
    {wrap : StoreFailure → Failure} (h : id ∈ (Response.record (answer.mapError wrap)).ids) :
    Source [told (.find ctx asked) answer] id := by
  cases answer with
  | error e => cases h
  | ok record => exact .found ctx asked record List.mem_cons_self (List.mem_singleton.1 h).symm

/-- **The caller is told of no notification that was not in an answer.** -/
theorem source (h : Runs (c.program p) log response) (told : id ∈ response.ids) :
    Source log id := by
  cases c with
  | submit request =>
    obtain ⟨result, runs, rfl⟩ := runs_wrapped h
    obtain ⟨now, ctx, rest, rfl, passage⟩ := submit_runs runs
    cases result with
    | error e => cases told
    | ok reply =>
      cases List.mem_singleton.1 told
      exact passage.source.mono (List.subset_append_right _ _)
  | process ctx request =>
    obtain ⟨result, runs, rfl⟩ := runs_wrapped h
    cases result with
    | error e => cases told
    | ok reply =>
      cases List.mem_singleton.1 told
      exact (Pipeline.process_passage runs).source
  | report ctx id word =>
    obtain ⟨result, runs, rfl⟩ := runs_wrapped h
    obtain ⟨e, rfl, rfl⟩ | ⟨answer, rfl, rfl⟩ := report_runs runs
    · cases told
    · exact (source_of_find told).mono (List.subset_cons_self _ _)
  | find ctx id =>
    obtain ⟨result, runs, rfl⟩ := runs_wrapped h
    obtain ⟨answer, rfl, rfl⟩ := find_runs runs
    exact source_of_find told
  | list ctx userId limit offset =>
    obtain ⟨result, runs, rfl⟩ := runs_wrapped h
    obtain ⟨answer, rfl, rfl⟩ := list_runs runs
    cases answer with
    | error e => cases told
    | ok records =>
      exact .listed ctx userId limit offset records List.mem_cons_self (List.mem_map.1 told)

theorem grounded_next {op : Signature.Op Backend}
    {next : Signature.Answer Backend op → Flow Backend Response}
    (h : Flow.Reaches (c.program p) log (.ask op next)) (x : Signature.Answer Backend op) :
    c.Grounded log ⟨op, x⟩ := by
  obtain ⟨later, a, runs⟩ := h.runs_on Pipeline.deafBroker x
  exact (grounded runs).at

theorem source_done (h : Flow.Reaches (c.program p) log (.done response))
    (told : id ∈ response.ids) : Source log id := by
  have runs := h.runs (.done response)
  rw [List.append_nil] at runs
  exact source runs told

/-- The call of an update is a report, or it has created the record to wait and not marked it. -/
theorem writer {x : Exchange Backend} (grounded : c.Grounded log x)
    (its : x.update? = some id) :
    (log = [] ∧ ∃ ctx word, c = .report ctx id word) ∨
      updates log = [] ∧ ∃ r ∈ stored log, r.id = id ∧ r.status = .pending := by
  rcases x with ⟨op, answer⟩
  cases op with
  | update ctx target status error =>
    cases its
    obtain ⟨first, word, its, -, -⟩ | ⟨-, once, mine⟩ := grounded
    · exact .inl ⟨first, ctx, word, its⟩
    · exact .inr ⟨once, mine⟩
  | _ => cases its

end Call

end Courier
