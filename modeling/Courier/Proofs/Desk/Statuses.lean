import Courier.Proofs.Desk.Records

/-!
# What statuses become

A status moves from `pending` on, and `queued` ones may still become `delivered` or `failed`
(`Status.mayBecome`). Nothing holds the callers to that. An update is not refused, whatever the
status was before, and there are two who ask for it: a worker that reports what became of a
notification, and the call that has created the record, if the broker does not take the message
(`Desk.Writes`). Workers may report anything at any time, and a call that has to mark its record as
failed does so even if a worker has been faster (`statuses_go_back`).

What does hold is that there is nobody else, and that calls mark only what is theirs (`StatusLaw`).
No two calls can have created the same record (`Apart`), and a record that is still to be marked by
its call waits unless a worker has reported on it (`Waiting`). So a record that is not reported on
only ever moves from `pending` to `failed`.

The two invariants are needed for each other's sake only in one case: an update of a record that is
not the caller's own. Then the record was created by two calls, which `Apart` excludes, or the
update is a report.
-/

set_option autoImplicit false

namespace Courier

open Backend (told stored updates)

/-- May a notification of one status come to have another? -/
def Status.mayBecome (old new : Status) : Bool :=
  old == new || match old with
    | .pending => true
    | .queued => new == .delivered || new == .failed
    | .delivered | .skipped | .failed => false

theorem Status.mayBecome_of_marking {old new : Status}
    (h : new = old ∨ old = .pending ∧ new = .failed) : old.mayBecome new = true := by
  obtain rfl | ⟨rfl, rfl⟩ := h
  · simp [mayBecome]
  · rfl

namespace Desk

variable {p : Pipeline} {d d' : Desk} {e : DeskEvent} {id : Uuid} {x : Exchange Backend} {i : Nat}

/-! ## Who writes -/

/-- A report on a notification has been put to the store. -/
def Reported (d : Desk) (id : Uuid) : Prop :=
  ∃ job ∈ d.jobs, ∃ ctx word, job.call = .report ctx id word ∧ job.log ≠ []

/-- The call writes the status of a record. -/
inductive Writes (d : Desk) (job : Job) (id : Uuid) (old : Status) : Status → Prop
  /-- It is what a worker reports. -/
  | report (ctx : Context) (word : StatusReport) (its : job.call = .report ctx id word)
      (first : job.log = []) : Writes d job id old word.status
  /-- The call marks the record that it has created to wait. It has not done so before. -/
  | marking (record : Notification) (made : record ∈ stored job.log) (own : record.id = id)
      (waits : record.status = .pending) (once : updates job.log = [])
      (undisturbed : old = .pending ∨ d.Reported id) : Writes d job id old .failed

/-! ## Whose record it is

Each record is made by one call, so a call that marks its record marks nobody else's. For this the
identifiers of new records have to differ, which the table itself sees to: it refuses a second row
of one identifier.
-/

/-- The record of an identifier is to be sent. -/
def Waits (d : Desk) (id : Uuid) : Prop :=
  ∃ row, d.table.row id = some row ∧ row.status = some Status.pending.name

/-- No record was created for two calls. -/
def Apart (d : Desk) : Prop :=
  ∀ (i j : Nat) (a b : Job), d.jobs[i]? = some a → d.jobs[j]? = some b →
    ∀ r ∈ stored a.log, ∀ s ∈ stored b.log, r.id = s.id → i = j

/-- What a call has created to wait is waiting until the call marks it, or until a worker reports
on it. -/
def Waiting (d : Desk) : Prop :=
  ∀ (i : Nat) (job : Job), d.jobs[i]? = some job → ∀ r ∈ stored job.log, r.status = .pending →
    updates job.log = [] → d.Waits r.id ∨ d.Reported r.id

section

variable {record : Notification} {log : List (Exchange Backend)} {j : Nat} {job job' : Job}

/-- A row stays as it is unless it is updated. -/
theorem Answers.frame {row : Row} (h : d.Answers x d') (other : x.update? ≠ some id)
    (there : d.table.row id = some row) : d'.table.row id = some row := by
  obtain ⟨row', there'⟩ := Option.ne_none_iff_exists'.1
    (h.grows.rows id (there ▸ Option.some_ne_none row))
  obtain old | ⟨-, -, -, -, absent, -, -⟩ | ⟨ctx, status, error, answer, -, same, -, -⟩ :=
    h.row_cases there'
  · exact there'.trans (old.symm.trans there)
  · cases absent.symm.trans there
  · rw [same] at other
    exact absurd rfl other

/-- A call at a desk is the one whose turn it was, or another one. -/
theorem job_of_set {jobs : List Job} (h : (jobs.set i job')[j]? = some job) :
    i = j ∧ job = job' ∨ i ≠ j ∧ jobs[j]? = some job := by
  rw [List.getElem?_set] at h
  split at h
  · rename_i same
    split at h
    · cases h
      exact .inl ⟨same, rfl⟩
    · cases h
  · rename_i other
    exact .inr ⟨other, h⟩

theorem job_of_snoc {jobs : List Job} (h : (jobs ++ [job'])[j]? = some job) :
    jobs[j]? = some job ∨ job = job' := by
  rw [List.getElem?_append] at h
  split at h
  · exact .inl h
  · exact .inr (List.mem_singleton.1 (List.mem_of_getElem? h))

theorem mem_stored_snoc :
    record ∈ stored (log ++ [x]) ↔ record ∈ stored log ∨ x.stored? = some record := by
  simp [stored, List.filterMap_append]

theorem updates_snoc (h : updates (log ++ [x]) = []) : updates log = [] ∧ x.update? = none := by
  simpa [updates, List.filterMap_append] using h

end

/-! ## What an event does to them

The invariant `Waiting`: as long as its call has not marked it and nobody has reported on it, a
pending record is pending in the table.
-/

section

variable {call : Call} {log : List (Exchange Backend)} {left left' : Flow Backend Response}
  {j : Nat} {job : Job} {record : Notification}

/-- A report that was put to the store has been put to it for ever. -/
theorem Reported.moves (h : d.Reported id) (moves : d.Moves p e d') : d'.Reported id := by
  obtain ⟨job, mem, ctx, word, its, asked⟩ := h
  cases moves with
  | calls c => exact ⟨job, List.mem_append_left _ mem, ctx, word, its, asked⟩
  | passes | waits => exact ⟨job, mem, ctx, word, its, asked⟩
  | turns i luck call log op next turn x d' answers =>
    obtain ⟨j, there⟩ := List.mem_iff_getElem?.1 mem
    by_cases same : i = j
    · subst same
      cases turn.symm.trans there
      have inside : i < d.jobs.length := (List.getElem?_eq_some_iff.1 turn).1
      exact ⟨_, List.mem_set inside _, ctx, word, its, by simp⟩
    · refine ⟨job, List.mem_of_getElem? (i := j) ?_, ctx, word, its, asked⟩
      exact (List.getElem?_set_ne same).trans there

/-- What a call has created after its turn, it had created before, or it is the answer. -/
theorem stored_of_set {jobs : List Job} (its : jobs[i]? = some ⟨call, log, left⟩)
    (h : (jobs.set i ⟨call, log ++ [x], left'⟩)[j]? = some job) (made : record ∈ stored job.log) :
    (∃ a, jobs[j]? = some a ∧ record ∈ stored a.log) ∨ i = j ∧ x.stored? = some record := by
  rcases job_of_set h with ⟨rfl, rfl⟩ | ⟨-, h⟩
  · rcases mem_stored_snoc.1 made with made | made
    · exact .inl ⟨_, its, made⟩
    · exact .inr ⟨rfl, made⟩
  · exact .inl ⟨job, h, made⟩

/-- No event makes two calls have created the same record: a creation is acknowledged only where
there is no row, and every record that was created before has one. -/
theorem Apart.moves (apart : d.Apart) (sound : Sound p d) (moves : d.Moves p e d') :
    d'.Apart := by
  cases moves with
  | calls c =>
    intro j k a b ha hb r hr s hs same
    rcases job_of_snoc ha with ha | rfl
    · rcases job_of_snoc hb with hb | rfl
      · exact apart j k a b ha hb r hr s hs same
      · exact absurd hs List.not_mem_nil
    · exact absurd hr List.not_mem_nil
  | passes | waits => exact apart
  | turns i luck call log op next its x d' answers =>
    intro j k a b ha hb r hr s hs same
    -- a record is created only where there is no row, and all that were created before have one
    have clash {r s : Notification} {l : Nat} {c : Job} (old : d.jobs[l]? = some c)
        (before : s ∈ stored c.log) (made : Exchange.stored? ⟨op, x⟩ = some r) : r.id ≠ s.id :=
      fun same => sound.row_of_stored (List.mem_of_getElem? old) before
        (same ▸ (answers.fresh made).1)
    rcases stored_of_set its ha hr with ⟨a, ha, hr⟩ | ⟨rfl, hr⟩
    · rcases stored_of_set its hb hs with ⟨b, hb, hs⟩ | ⟨-, hs⟩
      · exact apart j k a b ha hb r hr s hs same
      · exact absurd same.symm (clash ha hr hs)
    · rcases stored_of_set its hb hs with ⟨b, hb, hs⟩ | ⟨rfl, -⟩
      · exact absurd same (clash hb hs hr)
      · rfl

/-- A record that its call has still to mark goes on to wait, whatever happens, unless a worker
reports on it. -/
theorem Waiting.moves (waiting : d.Waiting) (apart : d.Apart) (sound : Sound p d)
    (moves : d.Moves p e d') : d'.Waiting := by
  -- once reported stays reported, which settles most of the cases
  have reported {id : Uuid} (h : d.Reported id) : d'.Reported id := h.moves moves
  cases moves with
  | calls c =>
    intro j a ha r hr pending quiet
    rcases job_of_snoc ha with ha | rfl
    · exact (waiting j a ha r hr pending quiet).imp id reported
    · exact absurd hr List.not_mem_nil
  | passes | waits =>
    exact fun j a ha r hr pending quiet => (waiting j a ha r hr pending quiet).imp id reported
  | turns i luck call log op next its x d' answers =>
    intro j a ha r hr pending quiet
    rcases job_of_set ha with ⟨rfl, rfl⟩ | ⟨other, ha⟩
    · -- the call whose turn it is has not asked for an update
      obtain ⟨quiet, unchanged⟩ := updates_snoc quiet
      rcases mem_stored_snoc.1 hr with hr | made
      · rcases waiting i _ its r hr pending quiet with ⟨row, there, waits⟩ | h
        · refine .inl ⟨row, answers.frame ?_ there, waits⟩
          rw [unchanged]
          exact nofun
        · exact .inr (reported h)
      · exact .inl ⟨_, (answers.fresh made).2, congrArg (fun s : Status => some s.name) pending⟩
    · -- the record is another call's, and whoever else updates it makes a report
      rcases waiting j a ha r hr pending quiet with ⟨row, there, waits⟩ | h
      · by_cases own : Exchange.update? ⟨op, x⟩ = some r.id
        · have reaches := (sound.jobs _ (List.mem_of_getElem? its)).1
          rcases Call.writer (call.grounded_next reaches x) own with
            ⟨-, ctx, word, rfl⟩ | ⟨-, s, hs, same, -⟩
          · have inside : i < d.jobs.length := (List.getElem?_eq_some_iff.1 its).1
            exact .inr ⟨_, List.mem_set inside _, ctx, word, rfl, by simp⟩
          · exact absurd (apart i j _ a its ha s hs r hr same) other
        · exact .inl ⟨row, answers.frame own there, waits⟩
      · exact .inr (reported h)

end

/-! ## The law -/

section

variable {r r' : Notification}

/-- A record is created with one of three statuses. -/
theorem Moves.starts (moves : d.Moves p e d') (sound : Sound p d) (absent : d.table.row id = none)
    (h : d'.Stores id r) : r.status = .pending ∨ r.status = .skipped ∨ r.status = .failed := by
  obtain ⟨row, there, read⟩ := h
  obtain ⟨i, luck, ctx, record, -, ⟨job, next, its, asks⟩, -, rfl⟩ := moves.created absent there
  have reaches := (sound.jobs job (List.mem_of_getElem? its)).1
  rw [asks] at reaches
  obtain ⟨-, stamp, request, status, error, -, rfl, start⟩ :=
    job.call.grounded_next reaches (.ok ())
  obtain ⟨r', stands, -, same, -, -⟩ :=
    Row.standsFor_kept (.ofRequest stamp request status error)
  cases read.symm.trans stands.record
  rw [same]
  exact start

/-- A record stays as it is, or one of the two writes its status. -/
theorem Moves.written (moves : d.Moves p e d') (sound : Sound p d) (waiting : d.Waiting)
    (h : d.Stores id r) (h' : d'.Stores id r') :
    r' = r ∨ ∃ i luck job, e = .turn i luck ∧ d.jobs[i]? = some job ∧
      d.Writes job id r.status r'.status := by
  obtain ⟨r'', stored, changed⟩ := moves.stores sound h
  cases Stores.unique h' stored
  refine changed.imp_right ?_
  rintro ⟨i, luck, ctx, status, error, rfl, ⟨job, next, its, asks⟩, rfl⟩
  refine ⟨i, luck, job, rfl, its, ?_⟩
  have reaches := (sound.jobs job (List.mem_of_getElem? its)).1
  rw [asks] at reaches
  obtain ⟨first, word, call, rfl, -⟩ | ⟨rfl, once, record, made, rfl, pending⟩ :=
    job.call.grounded_next reaches (.ok ())
  · exact .report ctx word call first
  · refine .marking record made rfl pending once ?_
    refine (waiting i job its record made pending once).imp_left ?_
    rintro ⟨row, there, waits⟩
    obtain ⟨row', there', stands⟩ := sound.stores_iff.1 h
    cases there.symm.trans there'
    exact Label.label_inj (α := Status) (Option.some.inj (stands.status.symm.trans waits))

/-- A report that changes something has been put to the store. -/
theorem Moves.reported {luck : Luck} {job : Job} {ctx : Context} {word : StatusReport}
    (moves : d.Moves p (.turn i luck) d') (its : d.jobs[i]? = some job)
    (call : job.call = .report ctx id word) (changed : d' ≠ d) : d'.Reported id := by
  cases moves with
  | waits => exact absurd rfl changed
  | turns i luck call' log op next turn x d' answers =>
    cases its.symm.trans turn
    have inside : i < d.jobs.length := (List.getElem?_eq_some_iff.1 turn).1
    exact ⟨_, List.mem_set inside _, ctx, word, call, by simp⟩

/-- Only its own call writes the status of a record that nobody has reported on. -/
theorem Moves.unreported (moves : d.Moves p e d') (sound : Sound p d) (waiting : d.Waiting)
    (h : d.Stores id r) (h' : d'.Stores id r') (unreported : ¬ d'.Reported id) :
    r'.status = r.status ∨ r.status = .pending ∧ r'.status = .failed := by
  by_cases same : d' = d
  · subst same
    exact .inl (congrArg _ (h.unique h'))
  · obtain rfl | ⟨i, luck, job, rfl, its, writes⟩ := moves.written sound waiting h h'
    · exact .inl rfl
    · generalize r'.status = new at writes
      cases writes with
      | report ctx word call => exact absurd (moves.reported its call same) unreported
      | marking record made own waits once undisturbed =>
        refine undisturbed.elim (fun old => .inr ⟨old, rfl⟩) fun reported => ?_
        exact absurd (reported.moves moves) unreported

end

/-- What becomes of the statuses at a desk. -/
structure StatusLaw (p : Pipeline) (d : Desk) : Prop where
  /-- A record begins as one that is to be sent, or with its outcome settled. -/
  starts : ∀ e id r, d.table.row id = none → (d.step p e).Stores id r →
    r.status = .pending ∨ r.status = .skipped ∨ r.status = .failed
  /-- An event leaves it as it is, unless it is the turn of a call that writes its status: that
  of a report, or that of the call which has created it to wait. -/
  written : ∀ e id r r', d.Stores id r → (d.step p e).Stores id r' →
    r' = r ∨ ∃ i luck job, e = .turn i luck ∧ d.jobs[i]? = some job ∧
      d.Writes job id r.status r'.status
  /-- A report is obeyed, whatever the status is and whatever is reported. -/
  obeyed : ∀ luck ctx id r (word : StatusReport), d.Stores id r → ¬ d.Late luck ctx →
    ∃ d' r', ask luck (.update ctx id word.status word.error) d = some (.ok (), d') ∧
      d'.Stores id r' ∧ r'.status = word.status
  /-- It changes to what it may become, unless somebody has reported on the record. -/
  along : ∀ e id r r', d.Stores id r → (d.step p e).Stores id r' →
    r.status.mayBecome r'.status = true ∨ (d.step p e).Reported id
  /-- As long as nobody has, it only changes from `pending` to `failed`. -/
  unreported : ∀ e id r r', d.Stores id r → (d.step p e).Stores id r' →
    ¬ (d.step p e).Reported id →
      r'.status = r.status ∨ r.status = .pending ∧ r'.status = .failed

/-- Both invariants hold after any events. -/
theorem waiting_after (p : Pipeline) (events : List DeskEvent) :
    (({} : Desk).after p events).Waiting := by
  have idle {i : Nat} {job : Job} : ({} : Desk).jobs[i]? ≠ some job :=
    fun h => absurd (List.mem_of_getElem? h) List.not_mem_nil
  refine (after_induction (P := fun d => Sound p d ∧ d.Apart ∧ d.Waiting)
    ⟨sound_empty p, fun i j a b ha => absurd ha idle, fun i job h => absurd h idle⟩
    (fun d e holds => ?_) events).2.2
  obtain ⟨sound, apart, waiting⟩ := holds
  have moves := step_moves p d e
  exact ⟨sound.moves moves, apart.moves sound moves, waiting.moves apart sound moves⟩

/-- **A status is only written by reports and by the call of its record**, after any events. -/
theorem statuses_written (p : Pipeline) (past : List DeskEvent) :
    StatusLaw p (({} : Desk).after p past) := by
  have sound := sound_after p past
  have waiting := waiting_after p past
  generalize ({} : Desk).after p past = d at sound waiting
  refine {
    obeyed := ?obeyed
    along := ?along
    starts := fun e id r => (step_moves p d e).starts sound
    written := fun e id r r' => (step_moves p d e).written sound waiting
    unreported := fun e id r r' => (step_moves p d e).unreported sound waiting }
  case obeyed =>
    intro luck ctx id r word h inTime
    obtain ⟨d', answered, stored⟩ := update_stored sound h inTime word.status word.error
    exact ⟨d', _, answered, stored, rfl⟩
  case along =>
    intro e id r r' h h'
    by_cases reported : (d.step p e).Reported id
    · exact .inr reported
    · refine .inl (Status.mayBecome_of_marking ?_)
      exact (step_moves p d e).unreported sound waiting h h' reported

/-! ## Against the order -/

/-- The status of a stored record. -/
def status? (d : Desk) (id : Uuid) : Option Status :=
  (d.table.row id).bind fun row => row.record.toOption.map (·.status)

/-- A status is that of a stored record. -/
theorem stores_of_status {s : Status} (h : d.status? id = some s) :
    ∃ r, d.Stores id r ∧ r.status = s := by
  obtain ⟨row, there, h⟩ := Option.bind_eq_some_iff.1 h
  obtain ⟨r, read, same⟩ := Option.map_eq_some_iff.1 h
  refine ⟨r, ⟨row, there, ?_⟩, same⟩
  cases hr : row.record with
  | error e =>
    rw [hr] at read
    cases read
  | ok r' =>
    rw [hr] at read
    cases read
    rfl

/-- At an event, the status of a record changes from one to another. -/
def Goes (p : Pipeline) (d : Desk) (e : DeskEvent) (id : Uuid) (old new : Status) : Prop :=
  ∃ r r', d.Stores id r ∧ (d.step p e).Stores id r' ∧ r.status = old ∧ r'.status = new

theorem goes_of_statuses {old new : Status} (h : d.status? id = some old)
    (h' : (d.step p e).status? id = some new) : d.Goes p e id old new := by
  obtain ⟨r, stored, same⟩ := stores_of_status h
  obtain ⟨r', stored', same'⟩ := stores_of_status h'
  exact ⟨r, r', stored, stored', same, same'⟩

/-- A record that was delivered is to be sent again if a worker says so, and it has failed if the
call that has created it learns that the broker did not take its message. -/
theorem statuses_go_back :
    let p : Pipeline := { replyTtl := 60000 }
    let luck : Luck := { others := Pipeline.deafBroker [] }
    let id : Uuid := default
    let submission :=
      .call (.process .background { userId := "u1" }) :: List.replicate 7 (.turn 0 luck)
    let delivered := submission ++
      [.call (.report .background id { status := .delivered }), .turn 1 luck]
    let d := ({} : Desk).after p delivered
    let d' := d.after p [.call (.report .background id { status := .pending })]
    d'.Goes p (.turn 2 luck) id .delivered .pending ∧
      d.Goes p (.turn 0 luck) id .delivered .failed ∧
      Status.mayBecome .delivered .pending = false ∧
        Status.mayBecome .delivered .failed = false := by
  intro p luck id submission delivered d d'
  refine ⟨goes_of_statuses ?_ ?_, goes_of_statuses ?_ ?_, rfl, rfl⟩
  all_goals decide +kernel

end Desk

end Courier
