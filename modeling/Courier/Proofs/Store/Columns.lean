import Courier.Proofs.Flow.Layers
import Courier.Proofs.Notification.Codecs
import Courier.Proofs.Store.Rows

/-!
# Columns by their places and by their names

An insertion binds its values by their places to a list of columns; a selection lists the columns
once more, and its rows are read by the names of the columns. Nothing but the order of the lists
keeps a text from becoming another one's. `Row.ofColumns_bound` says that the row of a record is
what is bound for it, read by names from what is selected, and `rows_give_back` that it is read as
the record, as far as the table keeps times.

A label that is read is the one that was written. A row with a text that is no label is rejected
with the first such text, and never read as some other record (`LabelLaw`).

The lists of columns are the ones of the two statements, word for word: were two of them exchanged
in one list only, `ofColumns_bound` would be false.
-/

set_option autoImplicit false

namespace Courier

open Codec (free lawful_values)

/-! ## What is bound, selected and read

Four lists that have to fit: the columns of the insertion, the parameters bound to them, the columns
selected and the names a row is read by. Mixing up two of them would show in `ofColumns_bound`.
-/

/-- What a row has in a column. -/
inductive Cell where
  | null
  | uuid (id : Uuid)
  | text (s : String)
  | json (v : Json)
  | time (t : DateTime)
  deriving DecidableEq

namespace Cell

def orNull {α : Type} (cell : α → Cell) : Option α → Cell
  | some x => cell x
  | none => .null

def uuid? : Cell → Option Uuid
  | .uuid id => some id
  | _ => none

def text? : Cell → Option String
  | .text s => some s
  | _ => none

def json? : Cell → Option Json
  | .json v => some v
  | _ => none

def time? : Cell → Option DateTime
  | .time t => some t
  | _ => none

/-- A value as the table keeps it. -/
def kept : Cell → Cell
  | .time t => .time t.cutToMicros
  | cell => cell

end Cell

namespace Store

/-- The columns that an insertion names. -/
def insertColumns : List String := ["id", "user_id", "template_code", "notification_type", "status",
  "priority", "variables", "metadata", "error_message", "created_at", "updated_at", "scheduled_for"]

/-- The values of an insertion, by their places. -/
def parameters (r : Notification) : List Cell := [.uuid r.id, .text r.userId, .text r.templateCode,
  .text r.channel.name, .text r.status.name, .text r.priority.name, .json (.ofDict r.values),
  .orNull .json (r.metadata.map Json.ofDict), .orNull .text r.error, .time r.createdAt,
  .time r.updatedAt, .orNull .time r.scheduledFor]

def selectColumns : List String := ["id", "user_id", "template_code", "notification_type", "status",
  "priority", "variables", "metadata", "error_message", "created_at", "updated_at", "scheduled_for"]

/-- A row as an insertion makes it: each value in the column of its place. -/
def bound (r : Notification) : List (String × Cell) := insertColumns.zip (parameters r)

/-- A row as the table keeps it. -/
def stored (row : List (String × Cell)) : List (String × Cell) := row.map fun e => (e.1, e.2.kept)

/-- What a query returns of a row. -/
def returned (row : List (String × Cell)) : List (String × Cell) :=
  selectColumns.map fun name => (name, (row.lookup name).getD .null)

end Store

open Store

namespace Row

/-- What is read of a row by the names of its columns. -/
def ofColumns (row : List (String × Cell)) : Row where
  id := (row.lookup "id").bind Cell.uuid?
  userId := (row.lookup "user_id").bind Cell.text?
  templateCode := (row.lookup "template_code").bind Cell.text?
  channel := (row.lookup "notification_type").bind Cell.text?
  status := (row.lookup "status").bind Cell.text?
  priority := (row.lookup "priority").bind Cell.text?
  values := (row.lookup "variables").bind Cell.json?
  metadata := (row.lookup "metadata").bind Cell.json?
  error := (row.lookup "error_message").bind Cell.text?
  createdAt := (row.lookup "created_at").bind Cell.time?
  updatedAt := (row.lookup "updated_at").bind Cell.time?
  scheduledFor := (row.lookup "scheduled_for").bind Cell.time?

theorem ofColumns_bound (r : Notification) : ofColumns (returned (bound r)) = ofRecord r := by
  obtain ⟨id, userId, templateCode, channel, status, priority, values, metadata, error, createdAt,
    updatedAt, scheduledFor⟩ := r
  cases metadata <;> cases error <;> cases scheduledFor <;> rfl

theorem ofColumns_stored (r : Notification) :
    ofColumns (returned (stored (bound r))) = (ofRecord r).kept := by
  obtain ⟨id, userId, templateCode, channel, status, priority, values, metadata, error, createdAt,
    updatedAt, scheduledFor⟩ := r
  cases metadata <;> cases error <;> cases scheduledFor <;> rfl

/-! ## A row of a record -/

/-- A map is read as it was written, its free values being as values in memory are. -/
theorem map_ofDict_free {d : Dict Json} (h : d.Free Json.Ordered) : map (.ofDict d) = .ok d := by
  have back : Decoder.ofJson (Decoder.dict Decoder.free) (.ofDict d) = .ok d := by
    have lawful : (Codec.dict Codec.free).Lawful 1 _ _ := lawful_values
    have restored : (Codec.dict Codec.free).Restores .held d := lawful.back h trivial
    have taken := restored.takesBack
    have same : (Codec.dict free).encode d = .ofDict d := by
      show Json.object (d.entries.map fun e => (e.1, e.2)) = _
      rw [List.map_id']
      rfl
    rwa [Codec.TakesBack, same] at taken
  rw [map, back]

theorem mapOrNull_ofDict {m : Option (Dict Json)} (h : ∀ d ∈ m, d.Free Json.Ordered) :
    mapOrNull (m.map Json.ofDict) = .ok m := by
  cases m with
  | none => rfl
  | some d =>
    rw [Option.map_some, mapOrNull, map_ofDict_free (h d rfl)]
    rfl

/-! ## Labels

A row that holds a record otherwise, with any text for the three labels.
-/

/-- The columns of the row other than those of its labels are what is needed for a record. -/
structure Fills (row : Row) (r : Notification) : Prop where
  id : row.id = some r.id
  userId : row.userId = some r.userId
  templateCode : row.templateCode = some r.templateCode
  values : ∃ v, row.values = some v ∧ map v = .ok r.values
  metadata : mapOrNull row.metadata = .ok r.metadata
  error : row.error = r.error
  createdAt : row.createdAt = some r.createdAt
  updatedAt : row.updatedAt = some r.updatedAt
  scheduledFor : row.scheduledFor = r.scheduledFor

structure Labels where
  channel : String
  status : String
  priority : String

structure Labelled (row : Row) (texts : Labels) : Prop where
  channel : row.channel = some texts.channel
  status : row.status = some texts.status
  priority : row.priority = some texts.priority

/-- The first of the texts that is no label. -/
inductive Labels.Unknown : Labels → UnknownLabel → Prop
  | channel {texts : Labels} (unknown : ∀ c : Channel, texts.channel ≠ c.name) :
      Unknown texts ⟨"notification type", texts.channel⟩
  | status {texts : Labels} (c : Channel) (channel : texts.channel = c.name)
      (unknown : ∀ s : Status, texts.status ≠ s.name) :
      Unknown texts ⟨"notification status", texts.status⟩
  | priority {texts : Labels} (c : Channel) (channel : texts.channel = c.name) (s : Status)
      (status : texts.status = s.name) (unknown : ∀ p : Priority, texts.priority ≠ p.name) :
      Unknown texts ⟨"priority", texts.priority⟩

/-- What becomes of a row with such labels, whose other columns fill a record. -/
structure LabelLaw (row : Row) (r : Notification) (texts : Labels) : Prop where
  /-- A row is read with the labels of its texts. -/
  labels : ∀ c s p, texts = ⟨Channel.name c, Status.name s, Priority.name p⟩ →
    row.record = .ok { r with channel := c, status := s, priority := p }
  /-- It is rejected with the first text that is no label. -/
  unknown : ∀ u, texts.Unknown u → row.record = .error (.invalidRow u.message)
  /-- There is such a text where one of the three is no label. -/
  rejected : ((∀ c : Channel, texts.channel ≠ c.name) ∨ (∀ s : Status, texts.status ≠ s.name) ∨
    ∀ p : Priority, texts.priority ≠ p.name) → ∃ u, texts.Unknown u

section

variable {row : Row} {r : Notification} {texts : Labels}

/-- What is left to do is to read the three labels. -/
theorem Fills.record_eq (h : row.Fills r) (l : row.Labelled texts) : row.record = do
    let c ← labelled Channel.read texts.channel
    let s ← labelled Status.read texts.status
    let p ← labelled Priority.read texts.priority
    return { r with channel := c, status := s, priority := p } := by
  obtain ⟨v, values, read⟩ := h.values
  simp only [record, l.channel, l.status, l.priority, values, h.id, h.userId, h.templateCode,
    h.createdAt, h.updatedAt, h.error, h.scheduledFor, column, read, h.metadata, bind, Except.bind,
    pure, Except.pure]

theorem labelled_label {α : Type} [Label α] (kind : String) (a : α) :
    labelled (UnknownLabel.read kind) (Label.label a) = .ok a := by
  rw [labelled, UnknownLabel.read, Label.parse?_label]
  rfl

theorem labelled_unknown {α : Type} [Label α] (kind : String) {text : String}
    (unknown : ∀ a : α, text ≠ Label.label a) :
    labelled (UnknownLabel.read (α := α) kind) text =
      .error (.invalidRow (UnknownLabel.mk kind text).message) := by
  have none_such : Label.parse? (α := α) text = none :=
    Option.eq_none_iff_forall_ne_some.2 fun a found => unknown a (Label.parse?_eq_some_iff.1 found)
  rw [labelled, UnknownLabel.read, none_such]
  rfl

theorem labelled_channel (c : Channel) : labelled Channel.read c.name = .ok c :=
  labelled_label "notification type" c

theorem labelled_status (s : Status) : labelled Status.read s.name = .ok s :=
  labelled_label "notification status" s

theorem labelled_priority (p : Priority) : labelled Priority.read p.name = .ok p :=
  labelled_label "priority" p

/-- Whatever the texts are, the row is read by its labels or rejected for one of them. -/
theorem Fills.labelLaw (h : row.Fills r) (l : row.Labelled texts) : row.LabelLaw r texts := by
  constructor
  case labels =>
    rintro c s p rfl
    rw [h.record_eq l, labelled_channel, labelled_status, labelled_priority]
    rfl
  case unknown =>
    intro u unknown
    rw [h.record_eq l]
    -- the labels are read in this order, so all before the one that is told are known
    cases unknown with
    | channel unknown =>
      have told : labelled Channel.read texts.channel = .error _ := labelled_unknown _ unknown
      rw [told]
      rfl
    | status c channel unknown =>
      have told : labelled Status.read texts.status = .error _ := labelled_unknown _ unknown
      rw [channel, labelled_channel, told]
      rfl
    | priority c channel s status unknown =>
      have told : labelled Priority.read texts.priority = .error _ := labelled_unknown _ unknown
      rw [channel, labelled_channel, status, labelled_status, told]
      rfl
  case rejected =>
    intro some_unknown
    by_cases channel : ∃ c : Channel, texts.channel = c.name
    · obtain ⟨c, channel⟩ := channel
      by_cases status : ∃ s : Status, texts.status = s.name
      · obtain ⟨s, status⟩ := status
        refine ⟨_, .priority c channel s status ?_⟩
        rcases some_unknown with unknown | unknown | unknown
        · exact absurd channel (unknown c)
        · exact absurd status (unknown s)
        · exact unknown
      · exact ⟨_, .status c channel (not_exists.1 status)⟩
    · exact ⟨_, .channel (not_exists.1 channel)⟩

end

end Row

/-! ## The law -/

/-- The record as far as the table keeps its times. -/
def Notification.cut (r : Notification) : Notification :=
  { r with
    createdAt := r.createdAt.cutToMicros
    updatedAt := r.updatedAt.cutToMicros
    scheduledFor := r.scheduledFor.map DateTime.cutToMicros }

/-- The row that the table keeps of a record fills the record, cut to whole microseconds. -/
theorem Row.kept_fills {r : Notification} (h : r.Free Json.Ordered) :
    (Row.ofRecord r).kept.Fills r.cut where
  id := rfl
  userId := rfl
  templateCode := rfl
  values := ⟨_, rfl, Row.map_ofDict_free h.1⟩
  metadata := Row.mapOrNull_ofDict h.2
  error := rfl
  createdAt := rfl
  updatedAt := rfl
  scheduledFor := rfl

/-- A record is inserted with what is bound for it, and read again. -/
structure GivenBack (r : Notification) : Prop where
  /-- Nothing but the insertion is asked of the database. -/
  inserted : ∀ ctx, (Store.create ctx r).Asks fun op : Timed.Op Store.Wire =>
    op = .now ∨ op = .race ctx (.run (.insert (.ofColumns (returned (bound r)))))
  /-- The insertion is asked, unless the context is interrupted when the clock is looked at. -/
  begun : ∀ (ctx : Context) (now : Nat), ctx.check now = .ok () → ∃ next,
    Flow.Reaches (S := Timed Store.Wire) (Store.create ctx r) [⟨.now, now⟩]
      (.ask (.race ctx (.run (.insert (.ofColumns (returned (bound r)))))) next)
  read : (Row.ofColumns (returned (stored (bound r)))).record = .ok r.cut

/-- Every record is given back whose free values are as values in memory are. -/
theorem givenBack {r : Notification} (h : r.Free Json.Ordered) : GivenBack r := by
  constructor
  case inserted =>
    intro ctx
    rw [Row.ofColumns_bound]
    refine Flow.Asks.bind ?_ fun _ => True.intro
    refine Flow.Asks.bind ⟨.inl rfl, fun _ => True.intro⟩ fun checked => ?_
    cases checked with
    | error => exact True.intro
    | ok => exact ⟨.inr rfl, fun _ => True.intro⟩
  case begun =>
    intro ctx now opened
    rw [Row.ofColumns_bound]
    refine ⟨fun sent => pure (Store.received sent), .ask (S := Timed Store.Wire) .now _ now ?_⟩
    dsimp only [Flow.bind]
    rw [opened]
    exact .start _
  case read =>
    rw [Row.ofColumns_stored]
    have own : (Row.ofRecord r).kept.Labelled ⟨r.channel.name, r.status.name, r.priority.name⟩ :=
      ⟨rfl, rfl, rfl⟩
    exact ((Row.kept_fills h).labelLaw own).labels r.channel r.status r.priority rfl

/-- **Rows give back their records**, and no label is taken for another one. -/
theorem rows_give_back :
    (∀ r : Notification, r.Free Json.Ordered → GivenBack r) ∧
      ∀ (row : Row) (r : Notification) (texts : Row.Labels),
        row.Fills r → row.Labelled texts → row.LabelLaw r texts :=
  ⟨fun _ => givenBack, fun _ _ _ => Row.Fills.labelLaw⟩

/-- A record with free values is given back, and its row is rejected once a label has a capital. -/
theorem rows_give_back_capital :
    let r : Notification := {
      userId := "u1"
      status := .failed
      metadata := some (Dict.empty.insert "m" (.object [("a", .null), ("b", Json.nat 1)]))
      error := some "no address" }
    let row : Row := { Row.ofRecord r with status := some "Failed" }
    GivenBack r ∧ row.record = .error (.invalidRow "unknown notification status 'Failed'") := by
  intro r row
  have ordered : Json.Ordered (.object [("a", .null), ("b", Json.nat 1)]) := by
    have above : KeysAbove "a" [("b", Json.nat 1)] := by
      intro e mem
      rw [List.mem_singleton.1 mem]
      decide
    exact ⟨⟨above, nofun, trivial⟩, trivial, trivial, trivial⟩
  have free : r.Free Json.Ordered := by
    refine ⟨nofun, ?_⟩
    rintro m ⟨⟩ e mem
    rw [List.mem_singleton.1 mem]
    exact ordered
  have fills : row.Fills r :=
    ⟨rfl, rfl, rfl, ⟨_, rfl, Row.map_ofDict_free free.1⟩, Row.mapOrNull_ofDict free.2, rfl, rfl,
      rfl, rfl⟩
  have law := rows_give_back.2 row r ⟨"email", "Failed", "normal"⟩ fills ⟨rfl, rfl, rfl⟩
  refine ⟨rows_give_back.1 r free, law.unknown _ (.status .email rfl ?_)⟩
  intro s
  cases s <;> decide

end Courier
