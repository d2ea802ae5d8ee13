import Courier.Proofs.Pipeline.Course

/-!
# The report that a request fails by

What a collaborator reports when it fails (`Report`) is turned into a failure (`Report.Brings`), and
what callers tell failures apart by is its kind. As far as they can tell, the kind says what was
reported: a rejection by a breaker, a record that is not known, an interruption (`Brings.told`).

A request gets at most one report of a step of its own, and fails by that one (`submit_blames`).
What is reported while a failed publication is put right does not count, nor does anything from the
cache.

A kind of failure may stand for several reports, but a rejection, an unknown record and an
interruption each have kinds of their own. That this is so is checked once for each kind of report
(`told_client`, `Brings.told`), and everything else is about which report counts.
-/

set_option autoImplicit false

namespace Courier

open Backend (told)

theorem Interruption.kind_inj {a b : Interruption} (h : a.kind = b.kind) : a = b := by
  revert h
  cases a <;> cases b <;> simp [kind]

/-! ## Reports

The answers of collaborators that are no success, and the failure the pipeline makes of each
(`Brings`).
-/

/-- What a collaborator reports when it fails: the user or the template service, the store when a
record is created, the broker, and the store when a record is looked up or changed. -/
inductive Report where
  | client (e : ClientFailure)
  | creation (e : StoreFailure)
  | publication (e : PublishFailure)
  | record (e : StoreFailure)

def Exchange.report? : Exchange Backend → Option Report
  | ⟨.preferences _ _, .error e⟩ | ⟨.render _ _ _ _, .error e⟩ => some (.client e)
  | ⟨.create _ _, .error e⟩ => some (.creation e)
  | ⟨.publish _ _ _ _, .error e⟩ => some (.publication e)
  | ⟨.find _ _, .error e⟩ | ⟨.update _ _ _ _, .error e⟩ => some (.record e)
  | _ => none

def Backend.reports (log : List (Exchange Backend)) : List Report :=
  log.filterMap Exchange.report?

namespace Report

/-- A breaker has rejected the call: it is open, or its quota while half-open is used up. -/
def Rejected (r : Report) : Prop :=
  ∃ service, r = .client (.circuitOpen service) ∨ r = .client (.tooManyRequests service)

/-- The store does not know the record. -/
def Unknown (r : Report) : Prop := ∃ id, r = .record (.notFound id)

/-- It is about a step of a request, and not about a record that was there before. -/
def OfStep : Report → Prop
  | .client _ | .creation _ | .publication _ => True
  | .record _ => False

def interruption? : Report → Option Interruption
  | .client (.interrupted why) | .creation (.interrupted why) | .publication (.interrupted why)
  | .record (.interrupted why) => some why
  | _ => none

theorem Rejected.ofStep {r : Report} (h : r.Rejected) : r.OfStep := by
  obtain ⟨service, rfl | rfl⟩ := h <;> trivial

theorem Unknown.not_ofStep {r : Report} (h : r.Unknown) : ¬ r.OfStep := by
  obtain ⟨id, rfl⟩ := h
  exact fun step => step

/-- The failure that a report is turned into. -/
inductive Brings : Report → Failure → Prop
  | preferences (e : ClientFailure) : Brings (.client e) (.ofClient .preferences e)
  | rendering (e : ClientFailure) : Brings (.client e) (.ofClient .rendering e)
  | creation (stage : Stage) (id : Uuid) (e : StoreFailure) :
      Brings (.creation e) (.ofCreate stage id e)
  | publication (id : Uuid) (e : PublishFailure) : Brings (.publication e) (.ofPublish id e)
  | record (stage : Stage) (id : Uuid) (e : StoreFailure) :
      Brings (.record e) (.ofStore stage (some id) e)

variable {r : Report} {f : Failure}

/-- What callers tell failures apart by, as far as it depends on the report. -/
structure Told (r : Report) (kind : FailureKind) : Prop where
  rejected : kind = .circuitOpen ∨ kind = .tooManyRequests ↔ r.Rejected
  unknown : kind = .notFound ↔ r.Unknown
  interrupted : ∀ why, kind = why.kind ↔ r.interruption? = some why

theorem told_of_interruption {why : Interruption} (h : r.interruption? = some why)
    (accepted : ¬ r.Rejected) (known : ¬ r.Unknown) : r.Told why.kind := by
  constructor
  · cases why <;> simp [Interruption.kind, accepted]
  · cases why <;> simp [Interruption.kind, known]
  · intro other
    rw [h]
    cases why <;> cases other <;> simp [Interruption.kind]

/-- All other reports are told by where they come from. -/
theorem told_of_other {kind : FailureKind} (accepted : ¬ r.Rejected) (known : ¬ r.Unknown)
    (going : r.interruption? = none)
    (other : kind ∈ [.dependencyUnavailable, .dependencyRejected, .persistence, .publish]) :
    r.Told kind := by
  constructor
  · rw [iff_false_right accepted]
    rintro (rfl | rfl) <;> simp at other
  · rw [iff_false_right known]
    rintro rfl
    simp at other
  · intro why
    rw [going]
    refine iff_of_false ?_ nofun
    rintro rfl
    cases why <;> simp [Interruption.kind] at other

/-- The kind of a failed call of a service tells what has happened to it: that a breaker has
rejected it, that it was interrupted, or something else. -/
theorem told_client (e : ClientFailure) : (client e).Told e.kind := by
  cases e with
  | circuitOpen service | tooManyRequests service =>
    constructor
    · simp [ClientFailure.kind, Rejected]
    · simp [ClientFailure.kind, Unknown]
    · intro why
      cases why <;> simp [ClientFailure.kind, interruption?, Interruption.kind]
  | interrupted why => exact told_of_interruption rfl (by simp [Rejected]) (by simp [Unknown])
  | transport | unreadable =>
    exact told_of_other (by simp [Rejected]) (by simp [Unknown]) rfl (by simp [ClientFailure.kind])
  | status service code body =>
    refine told_of_other (by simp [Rejected]) (by simp [Unknown]) rfl ?_
    simp only [ClientFailure.kind]
    split <;> simp

/-- The kind of a failure tells what was reported, wherever in a request that was. -/
theorem Brings.told (h : r.Brings f) : r.Told f.kind := by
  cases h with
  | preferences e | rendering e =>
    have same := told_client e
    cases e <;> exact same
  | creation stage id e | publication id e =>
    cases e with
    | interrupted why => exact told_of_interruption rfl (by simp [Rejected]) (by simp [Unknown])
    | _ =>
      refine told_of_other (by simp [Rejected]) (by simp [Unknown]) rfl ?_
      simp [Failure.ofCreate, Failure.ofPublish, Failure.kind]
  | record stage id e =>
    cases e with
    | interrupted why => exact told_of_interruption rfl (by simp [Rejected]) (by simp [Unknown])
    | notFound id =>
      constructor
      · simp [Failure.ofStore, Failure.kind, Rejected]
      · simp [Failure.ofStore, Failure.kind, Unknown]
      · intro why
        cases why <;> simp [Failure.ofStore, Failure.kind, interruption?, Interruption.kind]
    | _ =>
      refine told_of_other (by simp [Rejected]) (by simp [Unknown]) rfl ?_
      simp [Failure.ofStore, Failure.kind]

end Report

/-! ## The report that a request fails by

A request that fails in time does so by the first report about a step of its own. What is reported
afterwards concerns the compensation and changes nothing.
-/

namespace Pipeline

open Backend (reports)
open Courier.Flow (Runs runs_pure_iff runs_bind_iff)

variable {p : Pipeline} {ctx : Context} {request : Request} {log : List (Exchange Backend)}
  {result : Except Failure Reply}

/-- A request without a report has a reply. One that fails has a report of one of its steps, which
brings the failure about; others are about records. -/
def Blames (reports : List Report) : Except Failure Reply → Prop
  | .ok _ => reports = []
  | .error f => ∃ r more, reports = r :: more ∧ r.OfStep ∧ r.Brings f ∧ ∀ x ∈ more, ¬ x.OfStep

/-- A course that fails has one report of a step, and it is the first. -/
theorem Course.blames (h : Course p ctx request log result) : Blames (reports log) result := by
  cases h with
  | unknown e => exact ⟨_, [], rfl, trivial, .preferences e, nofun⟩
  | unrendered prefs wanted recipient reached e => exact ⟨_, [], rfl, trivial, .rendering e, nofun⟩
  | settled => rfl
  | unsettled prefs status error stage message verdict stamp e =>
    exact ⟨_, [], rfl, trivial, .creation stage stamp.id e, nofun⟩
  | uncreated prefs wanted recipient reached rendered stamp e =>
    exact ⟨_, [], rfl, trivial, .creation .create stamp.id e, nofun⟩
  | unpublished prefs wanted recipient reached rendered stamp record fresh delivery made e now
      updated time buried =>
    refine ⟨_, reports (p.compensation record delivery e now updated time buried), rfl, trivial,
      .publication record.id e, ?_⟩
    -- what is reported while it is put right is about a record
    cases updated <;> simp [reports, compensation, told, Exchange.report?, Report.OfStep]
  | queued =>
    unfold tracking
    split <;> rfl

/-- A request as a whole may also fail because its time is over before it begins. -/
theorem Passage.blames (h : Passage p ctx request log result) :
    ∃ now rest, log = told .now now :: rest ∧ match ctx.check now with
      | .error why => reports log = [] ∧ result = .error (.interrupted why)
      | .ok () => Blames (reports log) result := by
  cases h with
  | interrupted now why ended =>
    refine ⟨now, [], rfl, ?_⟩
    rw [ended]
    exact ⟨rfl, rfl⟩
  | keyless now runs bare course =>
    refine ⟨now, _, rfl, ?_⟩
    rw [runs]
    exact course.blames
  | repeated now runs key keyed answer reply hit =>
    refine ⟨now, _, rfl, ?_⟩
    rw [runs]
    rfl
  | failed now runs key keyed answer missed e course =>
    refine ⟨now, _, rfl, ?_⟩
    rw [runs]
    exact course.blames
  | kept now runs key keyed answer missed reply course stored =>
    refine ⟨now, _, rfl, ?_⟩
    rw [runs]
    -- a reply that is written away comes from an execution without a report
    have silent : reports _ = [] := course.blames
    show reports (_ ++ [told (p.keeping ctx key reply) stored]) = []
    rw [reports, List.filterMap_append]
    exact List.append_eq_nil_iff.2 ⟨silent, rfl⟩

/-- The time of the request was over before it began. -/
def Expired (p : Pipeline) (log : List (Exchange Backend)) (why : Interruption) : Prop :=
  ∃ begun now rest, log = told .now begun :: told .now now :: rest ∧
    (Context.lasting begun p.settings.requestTimeout).check now = .error why

theorem Expired.unique {a b : Interruption} (ha : Expired p log a) (hb : Expired p log b) :
    a = b := by
  obtain ⟨begun, now, rest, rfl, ended⟩ := ha
  obtain ⟨_, _, _, same, ended'⟩ := hb
  cases same
  exact Except.error.inj (ended.symm.trans ended')

/-- A request fails because it has expired, or by a report. -/
theorem submit_blames (h : Runs (p.submit request) log result) :
    (∃ why, Expired p log why ∧ reports log = [] ∧ result = .error (.interrupted why)) ∨
      (∀ why, ¬ Expired p log why) ∧ Blames (reports log) result := by
  obtain ⟨ctx, early, late, rfl, hc, hp⟩ := runs_bind_iff.1 h
  obtain ⟨begun, _, rfl, hn⟩ := Runs.of_call hc
  obtain ⟨rfl, rfl⟩ := runs_pure_iff.1 hn
  obtain ⟨now, rest, rfl, blames⟩ := (process_passage hp).blames
  cases hc : (Context.lasting begun p.settings.requestTimeout).check now with
  | error why =>
    rw [hc] at blames
    exact .inl ⟨why, ⟨begun, now, rest, rfl, hc⟩, blames⟩
  | ok =>
    rw [hc] at blames
    refine .inr ⟨?_, blames⟩
    rintro why ⟨begun', now', rest', same, ended⟩
    cases same
    rw [hc] at ended
    cases ended

/-- The request was interrupted, before its first step or in one of them. -/
def Interrupted (p : Pipeline) (log : List (Exchange Backend)) (why : Interruption) : Prop :=
  Expired p log why ∨ ∃ r ∈ reports log, r.OfStep ∧ r.interruption? = some why

theorem submit_success {reply : Reply} (h : Runs (p.submit request) log (.ok reply)) :
    reports log = [] ∧ ∀ why, ¬ Interrupted p log why := by
  rcases submit_blames h with ⟨_, -, -, ⟨⟩⟩ | ⟨inTime, silent⟩
  have quiet : reports log = [] := silent
  refine ⟨quiet, fun why => ?_⟩
  simp [Interrupted, inTime, quiet]

/-- What a caller is told of a request that fails is what has happened to it. -/
theorem submit_failure {f : Failure} (h : Runs (p.submit request) log (.error f)) :
    (f.kind = .circuitOpen ∨ f.kind = .tooManyRequests ↔ ∃ r ∈ reports log, r.Rejected) ∧
      f.kind ≠ .notFound ∧ ∀ why, f.kind = why.kind ↔ Interrupted p log why := by
  rcases submit_blames h with ⟨why, expired, quiet, same⟩ |
    ⟨inTime, r, more, listed, step, brings, rest⟩
  · obtain rfl := Except.error.inj same
    refine ⟨?_, ?_, fun other => ?_⟩
    · cases why <;> simp [Failure.kind, Interruption.kind, quiet]
    · cases why <;> simp [Failure.kind, Interruption.kind]
    · simp only [Interrupted, quiet, List.not_mem_nil, false_and, exists_false, or_false]
      constructor
      · intro same
        rwa [← Interruption.kind_inj same]
      · intro other
        rw [expired.unique other]
        rfl
  · -- of all reports only the first is about a step
    have told := brings.told
    have only {P : Report → Prop} (about : ∀ x, P x → x.OfStep) : P r ↔ ∃ x ∈ reports log, P x := by
      rw [listed]
      constructor
      · exact fun hr => ⟨r, List.mem_cons_self, hr⟩
      · rintro ⟨x, mem, hx⟩
        rcases List.mem_cons.1 mem with rfl | later
        · exact hx
        · exact absurd (about x hx) (rest x later)
    refine ⟨told.rejected.trans (only fun _ => Report.Rejected.ofStep), ?_, fun why => ?_⟩
    · exact fun missing => (told.unknown.1 missing).not_ofStep step
    · rw [told.interrupted, Interrupted, or_iff_right (inTime why), ← only fun _ => And.left]
      exact (and_iff_right step).symm

/-! ## Work on records

A look-up and a status report fail by the one report there is.
-/

/-- Work on a record fails by the only report there is. -/
def BlamesOnly (reports : List Report) : Except Failure Notification → Prop
  | .ok _ => reports = []
  | .error f => ∃ r, reports = [r] ∧ r.Brings f

variable {id : Uuid} {found : Except Failure Notification}

/-- Looking for a record is one question to the store, and fails by what is reported of it. -/
theorem find_blames (h : Runs (find ctx id) log found) :
    ∃ answer, log = [told (.find ctx id) answer] ∧ BlamesOnly (reports log) found := by
  obtain ⟨answer, _, rfl, ha⟩ := Runs.of_call h
  refine ⟨answer, ?_⟩
  cases answer with
  | error e =>
    obtain ⟨rfl, rfl⟩ := runs_pure_iff.1 ha
    exact ⟨rfl, _, rfl, .record .get id e⟩
  | ok record =>
    obtain ⟨rfl, rfl⟩ := runs_pure_iff.1 ha
    exact ⟨rfl, rfl⟩

/-- A report is one update, followed by a look at the record if that succeeds, and fails by
either. -/
theorem report_blames {word : StatusReport} (h : Runs (report ctx id word) log found) :
    ∃ answer more, log = told (.update ctx id word.status word.error) answer :: more ∧
      (∀ x ∈ more, ∃ answer, x = told (.find ctx id) answer) ∧
      BlamesOnly (reports log) found := by
  obtain ⟨answer, _, rfl, ha⟩ := Runs.of_call h
  refine ⟨answer, _, rfl, ?_⟩
  cases answer with
  | error e =>
    obtain ⟨rfl, rfl⟩ := runs_pure_iff.1 ha
    refine ⟨fun x hx => absurd hx List.not_mem_nil, ?_⟩
    exact ⟨_, rfl, .record .updateStatus id e⟩
  | ok =>
    obtain ⟨answer, rfl, blames⟩ := find_blames ha
    refine ⟨?_, ?_⟩
    · intro x hx
      exact ⟨answer, List.mem_singleton.1 hx⟩
    · exact blames

end Pipeline

end Courier
