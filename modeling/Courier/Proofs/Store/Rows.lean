import Courier.Store.Table

/-!
# Rows and the records they stand for

The table is looked at through `Table.row`: the row of an identifier, as a select finds it. What a
statement does to the table is what it does to each of these (`row_insert`, `row_update`); no other
statement changes anything.

A row that was made of a record stands for one (`Row.StandsFor`), and goes on to do so when it is
updated: it can be read at any time.

That a row is read as a record (`Row.record`) would not be enough as an invariant: an update sets a
status and must be known to leave a row that is still readable. Standing for a record is kept by it.
-/

set_option autoImplicit false

namespace Courier

/-! ## Reading maps -/

namespace Decoder

mutual

/-- A value in memory is always read as some value. -/
theorem free_held : ∀ v : Json, ∃ w, free .held (.ofJson v) = .ok w
  | .null => ⟨_, rfl⟩
  | .bool _ => ⟨_, rfl⟩
  | .number _ => ⟨_, rfl⟩
  | .string _ => ⟨_, rfl⟩
  | .array items => by
    obtain ⟨xs, h⟩ := freeItems_held items
    refine ⟨.array xs, ?_⟩
    simp only [Document.ofJson, free, Source.enter, h, if_true]
  | .object fields => by
    obtain ⟨entries, h⟩ := freeFields_held fields .empty
    refine ⟨.ofDict entries, ?_⟩
    simp only [Document.ofJson, free, Source.enter, h, if_true]

theorem freeItems_held :
    ∀ items : List Json, ∃ xs, freeItems .held (Document.ofItems items) = .ok xs
  | [] => ⟨_, rfl⟩
  | v :: rest => by
    obtain ⟨x, hx⟩ := free_held v
    obtain ⟨xs, hxs⟩ := freeItems_held rest
    exact ⟨x :: xs, by simp only [Document.ofItems, freeItems, hx, hxs]⟩

theorem freeFields_held : ∀ (fields : List (String × Json)) (acc : Dict Json),
    ∃ entries, freeFields .held acc (Document.ofFields fields) = .ok entries
  | [], acc => ⟨acc, rfl⟩
  | (k, v) :: rest, acc => by
    obtain ⟨x, hx⟩ := free_held v
    obtain ⟨entries, h⟩ := freeFields_held rest (acc.insert k x)
    exact ⟨entries, by simp only [Document.ofFields, freeFields, hx, h]⟩

end

/-- The entries of a map in memory are always read, one after the other. -/
theorem dictEntries_held (fields : List (String × Json)) (acc : Dict Json) :
    ∃ entries, dictEntries free .held acc (Document.ofFields fields) = .ok entries := by
  induction fields generalizing acc with
  | nil => exact ⟨acc, rfl⟩
  | cons e rest ih =>
    obtain ⟨k, v⟩ := e
    obtain ⟨x, hx⟩ := free_held v
    obtain ⟨entries, h⟩ := ih (acc.insert k x)
    have read : (free .held (.ofJson v)).mapError (Fault.below (.field k)) = .ok x := by
      rw [hx]
      rfl
    exact ⟨entries, by simp only [Document.ofFields, dictEntries, read, bind, Except.bind, h]⟩

end Decoder

namespace Row

theorem map_ofDict (d : Dict Json) : ∃ d', map (.ofDict d) = .ok d' := by
  obtain ⟨entries, h⟩ := Decoder.dictEntries_held d.entries .empty
  refine ⟨entries, ?_⟩
  simp only [map, Decoder.ofJson, Json.ofDict, Document.ofJson, Decoder.dict, Source.enter, bind,
    Except.bind, h, if_true]
  rfl

/-! ## Rows that stand for records

A row stands for a record where each of its columns holds the field. Reading it is then bound to
succeed, which is what the desk builds upon.
-/

/-- The row stands for a record. -/
structure StandsFor (row : Row) (r : Notification) : Prop where
  id : row.id = some r.id
  userId : row.userId = some r.userId
  templateCode : row.templateCode = some r.templateCode
  channel : row.channel = some r.channel.name
  status : row.status = some r.status.name
  priority : row.priority = some r.priority.name
  values : ∃ v, row.values = some v ∧ map v = .ok r.values
  metadata : mapOrNull row.metadata = .ok r.metadata
  error : row.error = r.error
  createdAt : row.createdAt = some r.createdAt
  updatedAt : row.updatedAt = some r.updatedAt
  scheduledFor : row.scheduledFor = r.scheduledFor

variable {row : Row} {r : Notification}

/-- It is read as that. -/
theorem StandsFor.record (h : row.StandsFor r) : row.record = .ok r := by
  obtain ⟨v, values, read⟩ := h.values
  have channel : labelled Channel.read r.channel.name = .ok r.channel := by cases r.channel <;> rfl
  have status : labelled Status.read r.status.name = .ok r.status := by cases r.status <;> rfl
  have priority : labelled Priority.read r.priority.name = .ok r.priority := by
    cases r.priority <;> rfl
  simp only [Row.record, h.id, h.userId, h.templateCode, h.channel, h.status, h.priority, values,
    h.createdAt, h.updatedAt, h.error, h.scheduledFor, column, channel, status, priority, read,
    h.metadata, bind, Except.bind, pure, Except.pure]

theorem bind_ok_iff {α β : Type} {x : Except StoreFailure α} {f : α → Except StoreFailure β}
    {b : β} : x >>= f = .ok b ↔ ∃ a, x = .ok a ∧ f a = .ok b := by
  cases x with
  | error e => exact ⟨nofun, nofun⟩
  | ok a => exact ⟨fun h => ⟨a, rfl, h⟩, fun ⟨_, ha, h⟩ => Except.ok.inj ha ▸ h⟩

/-- A row that is read has the identifier of the record. -/
theorem id_of_record (h : row.record = .ok r) : row.id = some r.id := by
  simp only [Row.record, bind_ok_iff] at h
  obtain ⟨_, -, _, -, _, -, _, -, id, there, _, -, _, -, _, -, _, -, _, -, _, -, _, -, _, -, _, -,
    h⟩ := h
  cases h
  cases hi : row.id with
  | none =>
    rw [hi] at there
    cases there
  | some own =>
    rw [hi] at there
    cases there
    rfl

/-- Every record that is read of several rows is read of one of them. -/
theorem mem_of_mapM {rows : List Row} {records : List Notification}
    (h : rows.mapM record = .ok records) {r : Notification} (mem : r ∈ records) :
    ∃ row ∈ rows, row.record = .ok r := by
  -- by induction on the rows, in the order in which they are read
  induction rows generalizing records with
  | nil =>
    cases h
    cases mem
  | cons row rows ih =>
    rw [List.mapM_cons, bind_ok_iff] at h
    obtain ⟨first, read, h⟩ := h
    obtain ⟨more, rest, h⟩ := bind_ok_iff.1 h
    cases h
    rcases List.mem_cons.1 mem with rfl | mem
    · exact ⟨row, List.mem_cons_self, read⟩
    · obtain ⟨row', among, read'⟩ := ih rest mem
      exact ⟨row', List.mem_cons_of_mem _ among, read'⟩

/-- A record that is kept has a row that stands for one with its identifier, its status and the
times of its stamp, as far as the table keeps them. -/
theorem standsFor_kept (r : Notification) : ∃ r', (ofRecord r).kept.StandsFor r' ∧ r'.id = r.id ∧
    r'.status = r.status ∧ r'.createdAt = r.createdAt.cutToMicros ∧
    r'.updatedAt = r.updatedAt.cutToMicros := by
  obtain ⟨values, hv⟩ := map_ofDict r.values
  obtain ⟨metadata, hm⟩ : ∃ m, mapOrNull (r.metadata.map Json.ofDict) = .ok m := by
    cases r.metadata with
    | none => exact ⟨none, rfl⟩
    | some d =>
      obtain ⟨d', hd⟩ := map_ofDict d
      exact ⟨some d', by rw [Option.map_some, mapOrNull, hd]; rfl⟩
  refine ⟨{ r with
    values := values, metadata := metadata, createdAt := r.createdAt.cutToMicros,
    updatedAt := r.updatedAt.cutToMicros,
    scheduledFor := r.scheduledFor.map DateTime.cutToMicros }, ?_, rfl, rfl, rfl, rfl⟩
  exact ⟨rfl, rfl, rfl, rfl, rfl, rfl, ⟨_, rfl, hv⟩, hm, rfl, rfl, rfl, rfl⟩

theorem StandsFor.amend (h : row.StandsFor r) (status : Status) (error : Option String)
    (time : DateTime) :
    (Store.Table.amend status.name error time row).StandsFor
      { r with status := status, error := error, updatedAt := time.cutToMicros } :=
  ⟨h.id, h.userId, h.templateCode, h.channel, rfl, h.priority, h.values, h.metadata, rfl,
    h.createdAt, rfl, h.scheduledFor⟩

end Row

namespace Store

/-! ## The table by its identifiers

What each statement does to the row of an identifier. The order of the rows does not matter here.
-/

namespace Table

variable {t : Table} {id : Uuid} {r : Row}

/-- The row of an identifier. -/
def row (t : Table) (id : Uuid) : Option Row := t.rows.find? fun r => r.id == some id

theorem id_of_row (h : t.row id = some r) : r.id = some id := by
  have := List.find?_some (p := fun r : Row => r.id == some id) h
  exact eq_of_beq this

theorem has_iff : t.has id = true ↔ t.row id ≠ none := by
  rw [has, row, ← Option.isSome_iff_ne_none, List.find?_isSome, List.any_eq_true]

theorem row_ne_none (mem : r ∈ t.rows) (h : r.id = some id) : t.row id ≠ none := by
  intro absent
  have := List.find?_eq_none.1 absent r mem
  exact this (beq_iff_eq.2 h)

/-- A row is put there once, where its identifier has none. -/
theorem row_insert (t : Table) (new : Row) (id : Uuid) :
    (t.run (.insert new)).2.row id =
      (t.row id).or (if new.id = some id then some new.kept else none) := by
  cases hn : new.id with
  | none =>
    simp only [run, hn, reduceCtorEq, if_false, Option.or_none]
  | some own =>
    -- a row is refused where its identifier has one, and else it is the last one
    by_cases taken : t.has own = true
    · have same : (t.run (.insert new)).2 = t := by simp only [run, hn, taken, if_true]
      rw [same]
      by_cases h : own = id
      · subst h
        obtain ⟨r, hr⟩ := Option.ne_none_iff_exists'.1 (has_iff.1 taken)
        rw [hr, Option.some_or]
      · rw [if_neg fun he => h (Option.some.inj he), Option.or_none]
    · have more : (t.run (.insert new)).2.rows = t.rows ++ [new.kept] := by
        simp only [run, hn, taken]
        rfl
      have id_kept : new.kept.id = some own := hn
      rw [row, more, List.find?_append]
      refine congrArg _ ?_
      by_cases h : own = id
      · rw [if_pos (congrArg some h), List.find?_cons_of_pos]
        rw [id_kept, h, beq_self_eq_true]
      · rw [if_neg fun he => h (Option.some.inj he), List.find?_cons_of_neg, List.find?_nil]
        rw [id_kept, beq_iff_eq]
        exact fun he => h (Option.some.inj he)

/-- A row is only put there where its identifier has none. -/
theorem row_of_insert {new : Row} (own : new.id = some id)
    (done : (t.run (.insert new)).1 = .ok ()) : t.row id = none := by
  cases hr : t.row id with
  | none => rfl
  | some r =>
    have taken : t.has id = true := has_iff.2 (hr ▸ Option.some_ne_none r)
    simp only [run, own, taken, if_true] at done
    cases done

/-- An update changes the row of its identifier. -/
theorem row_update (t : Table) (target id : Uuid) (status : String) (error : Option String)
    (time : DateTime) :
    (t.run (.update target status error time)).2.row id =
      (t.row id).map fun r => if target = id then amend status error time r else r := by
  have kept (r : Row) : ((if r.id == some target then amend status error time r else r).id ==
      some id) = (r.id == some id) := by split <;> rfl
  have found : (t.run (.update target status error time)).2.row id =
      (t.row id).map fun r => if r.id == some target then amend status error time r else r := by
    rw [row, run, List.find?_map]
    exact congrArg _ (congrArg (t.rows.find? ·) (funext kept))
  rw [found]
  cases hr : t.row id with
  | none => rfl
  | some r =>
    rw [Option.map_some, Option.map_some, id_of_row hr]
    by_cases h : target = id
    · rw [if_pos h, if_pos (beq_iff_eq.2 (congrArg some h.symm))]
    · rw [if_neg h, if_neg fun he => h (Option.some.inj (beq_iff_eq.1 he)).symm]

theorem update_count (t : Table) (target : Uuid) (status : String) (error : Option String)
    (time : DateTime) :
    ∃ n : Nat, (t.run (.update target status error time)).1 = .ok n ∧
      (n = 0 ↔ t.row target = none) := by
  refine ⟨_, rfl, ?_⟩
  rw [List.countP_eq_zero, row, List.find?_eq_none]

theorem run_page (t : Table) (userId : String) (limit offset : Int) :
    (t.run (.page userId limit offset)).2 = t := by
  simp only [run]
  split
  · rfl
  · split <;> rfl

/-- The rows of a page are rows of the table. -/
theorem mem_of_page {userId : String} {limit offset : Int} {page : List Row}
    (h : (t.run (.page userId limit offset)).1 = .ok page) (mem : r ∈ page) : r ∈ t.rows := by
  simp only [run] at h
  split at h
  · cases h
  · split at h
    · cases h
    · cases h
      have sorted := List.mem_of_mem_drop (List.mem_of_mem_take mem)
      exact (List.mem_filter.1 (List.mem_mergeSort.1 sorted)).1

end Table

end Store

end Courier
