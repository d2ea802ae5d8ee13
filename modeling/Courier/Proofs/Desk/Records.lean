import Courier.Proofs.Desk.Sound

/-!
# Records keep their identity

Whatever calls there are and however they take turns, the store treats its records alike
(`RecordLaw`). A record comes into the store once, by its creation, and stays there. What it says of
its status, its error and its last change is what the last update of it has set, and everything else
is as it was created. An update of an identifier that has no record changes nothing and says so. And
whoever has been told of a notification can fetch its record for ever after.

What holds after one event (`Moves.stores`) carries over to all later ones by induction.

That a record can be read again after an update is known from its row, which stands for one
(`Sound.rows`); that it is not set back in time is known from the clock, which has not run
backwards.
-/

set_option autoImplicit false

namespace Courier

open Backend (told)

namespace Notification

/-- The record after an update. The store keeps times to the microsecond. -/
def updated (r : Notification) (status : Status) (error : Option String) (time : DateTime) :
    Notification :=
  { r with status := status, error := error, updatedAt := time.cutToMicros }

/-- A record and what has become of it: only its status, its error and the time of its last change
may be other than they were, and that time is not before the one it was. -/
structure Continues (r r' : Notification) : Prop where
  same : r' = { r with status := r'.status, error := r'.error, updatedAt := r'.updatedAt }
  order : DateTime.le r.updatedAt r'.updatedAt = true

variable {r r' r'' : Notification}

theorem Continues.refl (r : Notification) : r.Continues r := ⟨rfl, DateTime.le_refl _⟩

theorem Continues.trans (h : r.Continues r') (h' : r'.Continues r'') : r.Continues r'' := by
  refine ⟨?_, DateTime.le_trans h.order h'.order⟩
  rw [h'.same, h.same]

end Notification

namespace Desk

variable {p : Pipeline} {d d' : Desk} {e : DeskEvent} {id : Uuid} {luck : Luck} {ctx : Context}
  {r : Notification}

/-! ## One event

What the rows of the table owe to one event.
-/

/-- A row comes into the table when its record is created. -/
theorem Moves.created {row : Row} (moves : d.Moves p e d') (absent : d.table.row id = none)
    (there : d'.table.row id = some row) :
    ∃ i luck ctx record, e = .turn i luck ∧ d.Asks i (.create ctx record) ∧ record.id = id ∧
      row = (Row.ofRecord record).kept := by
  cases moves with
  | calls | passes | waits => cases absent.symm.trans there
  | turns i luck call log op next its x d' answers =>
    obtain there | ⟨ctx, record, answer, same, -, own, kept⟩ |
      ⟨-, -, -, -, old, -, there, -⟩ := answers.row_cases there
    · cases absent.symm.trans there
    · cases same
      exact ⟨i, luck, ctx, record, rfl, ⟨_, next, its, rfl⟩, own, kept⟩
    · cases absent.symm.trans there

/-- A record stays, and it changes only by an update of its identifier, to what that sets. -/
theorem Moves.stores (moves : d.Moves p e d') (sound : Sound p d) (h : d.Stores id r) :
    ∃ r', d'.Stores id r' ∧ (r' = r ∨ ∃ i luck ctx status error, e = .turn i luck ∧
      d.Asks i (.update ctx id status error) ∧ r' = r.updated status error d.clock.time) := by
  obtain ⟨row, there, stands⟩ := sound.stores_iff.1 h
  cases moves with
  | calls | passes | waits => exact ⟨r, h, .inl rfl⟩
  | turns i luck call log op next its x d' answers =>
    obtain ⟨row', there'⟩ := Option.ne_none_iff_exists'.1
      (answers.grows.rows id (there ▸ Option.some_ne_none row))
    obtain old | ⟨-, -, -, -, absent, -, -⟩ |
        ⟨ctx, status, error, answer, old, same, there'', rfl⟩ := answers.row_cases there'
    · cases there.symm.trans old
      exact ⟨r, ⟨row, there', stands.record⟩, .inl rfl⟩
    · cases absent.symm.trans there
    · cases same
      cases there.symm.trans there''
      exact ⟨_, ⟨_, there', (stands.amend status error d.clock.time).record⟩,
        .inr ⟨i, luck, ctx, status, error, rfl, ⟨_, next, its, rfl⟩, rfl⟩⟩

theorem Sound.continues (sound : Sound p d) (h : d.Stores id r) (status : Status)
    (error : Option String) : r.Continues (r.updated status error d.clock.time) := by
  obtain ⟨row, there, read⟩ := h
  obtain ⟨r', stored, -, -, bound⟩ := sound.stores_of_row there
  cases Stores.unique ⟨row, there, read⟩ stored
  exact ⟨rfl, bound⟩

/-! ## All events

The same for any number of events, by induction on the list with soundness as the invariant.
-/

theorem Sound.after (sound : Sound p d) (events : List DeskEvent) : Sound p (d.after p events) :=
  after_induction sound (fun d e sound => sound.moves (step_moves p d e)) events

/-- A record that is stored is stored for ever, and what it is then continues what it was. -/
theorem Sound.lasting (sound : Sound p d) (h : d.Stores id r) (events : List DeskEvent) :
    ∃ r', (d.after p events).Stores id r' ∧ r.Continues r' := by
  -- soundness is carried along: it says that the time of a record is none after the clock's
  refine (after_induction (P := fun d' => Sound p d' ∧ ∃ r', d'.Stores id r' ∧ r.Continues r')
    ⟨sound, r, h, .refl r⟩ (fun d' e holds => ?_) events).2
  obtain ⟨sound, r', stored, continues⟩ := holds
  have moves := step_moves p d' e
  refine ⟨sound.moves moves, ?_⟩
  obtain ⟨r'', stored', rfl | ⟨-, -, -, status, error, -, -, rfl⟩⟩ := moves.stores sound stored
  · exact ⟨_, stored', continues⟩
  · exact ⟨_, stored', continues.trans (sound.continues stored status error)⟩

/-! ## What the store answers

An update and a look-up on a sound desk, with the interrupted ones set apart.
-/

/-- An update of a record is not refused. -/
theorem update_stored (sound : Sound p d) (h : d.Stores id r) (inTime : ¬ d.Late luck ctx)
    (status : Status) (error : Option String) :
    ∃ d', ask luck (.update ctx id status error) d = some (.ok (), d') ∧
      d'.Stores id (r.updated status error d.clock.time) := by
  obtain ⟨row, there, stands⟩ := sound.stores_iff.1 h
  obtain ⟨sent, t, ran, answered⟩ := d.consult_ran luck ctx
    (.update id status.name error d.clock.time) (Store.update_reads ..)
  cases ran with
  | unsent why late | unseen why late => exact absurd late inTime
  | seen =>
    obtain ⟨n, count, none⟩ := d.table.update_count id status.name error d.clock.time
    have hit : n ≠ 0 := fun zero => by cases there.symm.trans (none.1 zero)
    have done : Store.changed id (.ok (d.table.run
        (.update id status.name error d.clock.time)).1) = .ok () := by
      rw [count]
      exact if_neg hit
    refine ⟨_, answered.trans (congrArg (fun x => some (x, _)) done), _, ?_,
      (stands.amend status error d.clock.time).record⟩
    show (d.updating id status error).table.row id = _
    rw [row_updating, there, Option.map_some, if_pos rfl]

/-- Every notification that a caller is told of has a row. -/
theorem Sound.told {job : Job} {response : Response} (sound : Sound p d) (mem : job ∈ d.jobs)
    (done : job.left = .done response) (told : id ∈ response.ids) : d.table.row id ≠ none := by
  obtain ⟨reaches, vouched⟩ := sound.jobs job mem
  rw [done] at reaches
  cases Call.source_done reaches told with
  | created record made same => exact same ▸ sound.row_of_stored mem made
  | kept ctx name text reply mem read same =>
    obtain ⟨reply', read', there⟩ := sound.kept text (vouched _ mem)
    cases read.symm.trans read'
    exact same ▸ there
  | found ctx asked record mem same => exact same ▸ vouched _ mem
  | listed ctx userId limit offset records mem among =>
    obtain ⟨record, among, same⟩ := among
    exact same ▸ vouched _ mem record among

/-! ## The law -/

/-- How the store of a desk treats its records. -/
structure RecordLaw (p : Pipeline) (d : Desk) : Prop where
  /-- Every row is read as a record with its identifier, that has not been changed before it was
  created. -/
  read : ∀ id row, d.table.row id = some row →
    ∃ r, row.record = .ok r ∧ r.id = id ∧ DateTime.le r.createdAt r.updatedAt = true
  /-- A row is there because its record was created. -/
  created : ∀ e id row, d.table.row id = none → (d.step p e).table.row id = some row →
    ∃ i luck ctx record, e = .turn i luck ∧ d.Asks i (.create ctx record) ∧ record.id = id ∧
      row = (Row.ofRecord record).kept
  /-- An event leaves a record as it is, unless it is an update of that identifier: then it sets
  the status and the error that are given, and the time. -/
  changed : ∀ e id r, d.Stores id r → ∃ r', (d.step p e).Stores id r' ∧
    (r' = r ∨ ∃ i luck ctx status error, e = .turn i luck ∧
      d.Asks i (.update ctx id status error) ∧ r' = r.updated status error d.clock.time)
  /-- A record is there for ever, and all of it that is not changed by updates stays the same. -/
  lasting : ∀ id r, d.Stores id r → ∀ later, ∃ r', (d.after p later).Stores id r' ∧ r.Continues r'
  /-- An update of a record comes to what it says. -/
  obeyed : ∀ luck ctx id r status error, d.Stores id r → ¬ d.Late luck ctx →
    ∃ d', ask luck (.update ctx id status error) d = some (.ok (), d') ∧
      d'.Stores id (r.updated status error d.clock.time)
  /-- An update without a record changes nothing, and is answered so if it is answered in time. -/
  absent : ∀ luck ctx id status error, d.table.row id = none →
    ∃ x, ask luck (.update ctx id status error) d = some (x, d) ∧
      (x = .error (.notFound id) ∨ d.Late luck ctx ∧ ∃ why, x = .error (.interrupted why))
  /-- Whatever a caller has been told of can be fetched for ever after. -/
  fetched : ∀ job ∈ d.jobs, ∀ response, job.left = .done response → ∀ id ∈ response.ids,
    ∀ later luck ctx, ¬ (d.after p later).Late luck ctx →
      ∃ r, r.id = id ∧ (Pipeline.find ctx id).run (ask luck) (d.after p later) =
        some (.ok r, d.after p later)

end Desk

end Courier
