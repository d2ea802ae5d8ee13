import Courier.Proofs.Desk.Grounds
import Courier.Proofs.Pipeline.Replies

/-!
# Desks are sound

What a desk has is in order after any events: every row is read as a record, whose times are in
order; every text that the cache was asked to keep is read as a reply about a notification that has
a row; and each call has come to where it is by answers that the desk bears out (`sound_after`). The
three go together. A reply is kept only about a record whose creation the store has acknowledged,
with the time of a stamp; and a row changes its times only to what the clock shows.

Soundness is what an induction over events carries. Its parts could not be shown one by one: that
rows are in order needs the answers a call was given, and that those are borne out needs the rows.
-/

set_option autoImplicit false

namespace Courier.Desk

open Backend (told stored)

variable {p : Pipeline} {d d' : Desk} {e : DeskEvent} {id : Uuid} {x : Exchange Backend}

/-- The row stands for a record that is not later than the clock, and whose times are in order. -/
def Orderly (clock : Reading) (row : Row) : Prop :=
  ∃ r, row.StandsFor r ∧ DateTime.le r.createdAt r.updatedAt = true ∧
    DateTime.le r.updatedAt clock.time.cutToMicros = true

/-- The text is read as a reply about a notification that has a row. -/
def Founded (d : Desk) (text : String) : Prop :=
  ∃ reply, Replies.read? text = some reply ∧ d.table.row reply.notificationId ≠ none

/-- The call has come to where it is by answers that the desk bears out. -/
def Fair (p : Pipeline) (d : Desk) (job : Job) : Prop :=
  Flow.Reaches (job.call.program p) job.log job.left ∧ ∀ x ∈ job.log, d.Vouches x

/-- What the desk has is in order. -/
structure Sound (p : Pipeline) (d : Desk) : Prop where
  rows : ∀ id row, d.table.row id = some row → Orderly d.clock row
  kept : ∀ text ∈ d.kept, d.Founded text
  jobs : ∀ job ∈ d.jobs, Fair p d job

theorem Orderly.later {clock clock' : Reading} {row : Row} (h : Orderly clock row)
    (later : clock.Before clock') : Orderly clock' row := by
  obtain ⟨r, stands, order, bound⟩ := h
  exact ⟨r, stands, order,
    DateTime.le_trans bound (DateTime.cutToMicros_le later clock.plain clock'.plain)⟩

theorem Founded.grows {text : String} (h : d.Founded text) (g : d.Grows d') : d'.Founded text := by
  obtain ⟨reply, read, there⟩ := h
  exact ⟨reply, read, g.rows _ there⟩

theorem Fair.grows {job : Job} (h : Fair p d job) (g : d.Grows d') : Fair p d' job :=
  ⟨h.1, fun x hx => (h.2 x hx).grows g⟩

/-! ## What a question leaves

A row is orderly where its times are in order and not ahead of the clock. A new row is so by the
ground of its creation, a changed one because the clock is the latest time of all.
-/

/-- A record whose creation was acknowledged has a row. -/
theorem Vouches.row {record : Notification} (h : d.Vouches x)
    (made : x.stored? = some record) : d.table.row record.id ≠ none := by
  rcases x with ⟨op, answer⟩
  cases op with
  | create ctx r =>
    cases answer with
    | error e => cases made
    | ok =>
      cases made
      exact h
  | _ => cases made

/-- A record is put there with the stamp that was given. -/
theorem orderly_kept {call : Call} {past : List (Exchange Backend)} {ctx : Context}
    {record : Notification} {answer : Except StoreFailure Unit}
    (grounded : call.Grounded past (told (.create ctx record) answer))
    (vouched : ∀ x ∈ past, d.Vouches x) : Orderly d.clock (Row.ofRecord record).kept := by
  obtain ⟨-, stamp, request, status, error, given, rfl, -⟩ := grounded
  obtain ⟨reading, same, earlier⟩ := vouched _ given
  obtain ⟨r, stands, -, -, created, updated⟩ :=
    Row.standsFor_kept (.ofRequest stamp request status error)
  refine ⟨r, stands, ?_, ?_⟩
  · rw [created, updated]
    exact DateTime.le_refl _
  · rw [updated]
    show DateTime.le stamp.time.cutToMicros d.clock.time.cutToMicros = true
    rw [same]
    exact DateTime.cutToMicros_le earlier reading.plain d.clock.plain

/-- A reply is kept about a record that has a row, and read with the time of its stamp. -/
theorem founded_kept {call : Call} {past : List (Exchange Backend)} {ctx : Context}
    {name text : String} {ttl : Nat} {answer : Except Interruption (Except CacheFailure Unit)}
    (grounded : call.Grounded past (told (.cacheSet ctx name text ttl) answer))
    (vouched : ∀ x ∈ past, d.Vouches x) : d.Founded text := by
  obtain ⟨record, mem, message, rfl, stamp, given, time⟩ := grounded
  obtain ⟨reading, same, -⟩ := vouched _ given
  have datable : record.createdAt.Datable := by
    rw [time, same]
    exact reading.datable
  obtain ⟨x, among, made⟩ := List.mem_filterMap.1 mem
  exact ⟨_, Replies.read?_text datable, (vouched x among).row made⟩

theorem Orderly.amend {clock : Reading} {row : Row} (h : Orderly clock row) (status : Status)
    (error : Option String) :
    Orderly clock (Store.Table.amend status.name error clock.time row) := by
  obtain ⟨r, stands, order, bound⟩ := h
  exact ⟨_, stands.amend status error clock.time, DateTime.le_trans order bound,
    DateTime.le_refl _⟩

/-- What a question leaves is in order, if the question rests on a log that is borne out. -/
theorem Sound.answered {call : Call} {past : List (Exchange Backend)} (sound : Sound p d)
    (answers : d.Answers x d') (grounded : call.Grounded past x)
    (vouched : ∀ x ∈ past, d.Vouches x) :
    (∀ id row, d'.table.row id = some row → Orderly d.clock row) ∧
      ∀ text ∈ d'.kept, d'.Founded text := by
  constructor
  · intro id row there
    obtain there | ⟨ctx, record, answer, rfl, -, -, rfl⟩ |
      ⟨ctx, status, error, answer, old, rfl, before, rfl⟩ := answers.row_cases there
    · exact sound.rows id row there
    · exact orderly_kept grounded vouched
    · exact (sound.rows id old before).amend status error
  · intro text mem
    have grows := answers.grows
    cases answers with
    | still | creates | updates => exact (sound.kept text mem).grows grows
    | keeps ctx name new =>
      rcases List.mem_cons.1 mem with rfl | mem
      · exact (founded_kept grounded vouched).grows grows
      · exact (sound.kept text mem).grows grows

/-! ## Every run

The invariant at the beginning and after every event.
-/

theorem sound_empty (p : Pipeline) : Sound p {} where
  rows _ _ there := by cases there
  kept _ mem := by cases mem
  jobs _ mem := by cases mem

/-- No event makes a desk unsound. A call only asks what rests on its log (`Call.grounded_next`),
and the desk bears that log out. -/
theorem Sound.moves (sound : Sound p d) (moves : d.Moves p e d') : Sound p d' := by
  have grows := moves.grows
  cases moves with
  | calls c =>
    refine ⟨sound.rows, sound.kept, fun job mem => ?_⟩
    rcases List.mem_append.1 mem with mem | mem
    · exact (sound.jobs job mem).grows grows
    · rw [List.mem_singleton.1 mem]
      exact ⟨.start _, fun y hy => absurd hy List.not_mem_nil⟩
  | passes duration shown clock later =>
    exact ⟨fun id row there => (sound.rows id row there).later later,
      fun text mem => (sound.kept text mem).grows grows,
      fun job mem => (sound.jobs job mem).grows grows⟩
  | waits => exact sound
  | turns i luck call log op next its x d' answers =>
    -- what is asked rests on the log, and the desk bears the log out
    obtain ⟨reaches, vouched⟩ := sound.jobs _ (List.mem_of_getElem? its)
    obtain ⟨rows, kept⟩ := sound.answered answers (call.grounded_next reaches x) vouched
    refine ⟨fun id row there => (rows id row there).later answers.grows.clock, kept,
      fun job mem => ?_⟩
    rcases List.mem_or_eq_of_mem_set mem with mem | rfl
    · exact (sound.jobs job mem).grows grows
    · refine ⟨reaches.more x, fun y hy => ?_⟩
      rcases List.mem_append.1 hy with hy | hy
      · exact (vouched y hy).grows grows
      · rw [List.mem_singleton.1 hy]
        exact answers.vouched

/-- **A desk is sound after any events.** -/
theorem sound_after (p : Pipeline) (events : List DeskEvent) :
    Sound p (({} : Desk).after p events) :=
  after_induction (sound_empty p) (fun d e sound => sound.moves (step_moves p d e)) events

theorem Sound.row_of_stored {job : Job} {record : Notification} (sound : Sound p d)
    (mem : job ∈ d.jobs) (made : record ∈ stored job.log) : d.table.row record.id ≠ none := by
  obtain ⟨x, among, made⟩ := List.mem_filterMap.1 made
  exact ((sound.jobs job mem).2 x among).row made

/-! ## What the store has -/

/-- The store has a record under an identifier: the row is read as that. -/
def Stores (d : Desk) (id : Uuid) (r : Notification) : Prop :=
  ∃ row, d.table.row id = some row ∧ row.record = .ok r

/-- A record that is stored is the one its row stands for. -/
theorem Sound.stores_iff {r : Notification} (sound : Sound p d) :
    d.Stores id r ↔ ∃ row, d.table.row id = some row ∧ row.StandsFor r := by
  constructor
  · rintro ⟨row, there, read⟩
    obtain ⟨r', stands, -, -⟩ := sound.rows id row there
    cases read.symm.trans stands.record
    exact ⟨row, there, stands⟩
  · rintro ⟨row, there, stands⟩
    exact ⟨row, there, stands.record⟩

theorem Sound.stores_of_row {row : Row} (sound : Sound p d) (there : d.table.row id = some row) :
    ∃ r, d.Stores id r ∧ r.id = id ∧ DateTime.le r.createdAt r.updatedAt = true ∧
      DateTime.le r.updatedAt d.clock.time.cutToMicros = true := by
  obtain ⟨r, stands, order, bound⟩ := sound.rows id row there
  refine ⟨r, ⟨row, there, stands.record⟩, ?_, order, bound⟩
  exact Option.some.inj (stands.id.symm.trans (Store.Table.id_of_row there))

theorem Stores.unique {r r' : Notification} (h : d.Stores id r) (h' : d.Stores id r') : r' = r := by
  obtain ⟨row, there, read⟩ := h
  obtain ⟨row', there', read'⟩ := h'
  cases there.symm.trans there'
  cases read.symm.trans read'
  rfl

end Courier.Desk
