import Courier.Proofs.Desk.Basic
import Courier.Proofs.Flow.Rules
import Courier.Proofs.Pipeline.Log
import Courier.Proofs.Store.Rows

/-!
# What happens at a desk

`Desk.Answers` says what a question may come to, and `ask_answers` that there is nothing else: the
answer leaves everything as it is, a record is put into the table, a row is updated, or a text is
kept. `Desk.Moves` says the same of an event (`step_moves`), and what holds of every run is shown
along its cases.

Answers are borne out by what the desk has (`Desk.Vouches`), and since that only grows
(`Desk.Grows`), they are so for ever.

Whether a statement that was given up has been run is left open. An answer can therefore say less
than has happened, but never more: an acknowledged creation is in the table, while one that failed
may be.
-/

set_option autoImplicit false

namespace Courier

open Backend (told)

/-! ## Statements

The desk runs the store's own program against the table. A statement either reaches the database or
the caller is interrupted first, and in that case it may have reached the database all the same.
-/

namespace Store

/-- What becomes of a statement. It is given up only if its answer would have come too late. -/
inductive Ran (t : Table) (s : Statement) (late : Prop) :
    Except Interruption (Except String s.Result) → Table → Prop
  | unsent (why : Interruption) (h : late) : Ran t s late (.error why) t
  | unseen (why : Interruption) (h : late) : Ran t s late (.error why) (t.run s).2
  | seen : Ran t s late (.ok (t.run s).1) (t.run s).2

/-- A statement is not sent, is run unseen, or is answered. -/
theorem ends_guarded (ctx : Context) (takes : Nat) (runs : Bool) (s : Statement)
    (w : Timed.World Table) :
    Timed.Ends (Table.server takes runs) (Timed.guarded (R := Wire) ctx (.run s)) w fun sent v =>
      Ran w.state s (ctx.check (w.time + takes) ≠ .ok ()) sent v.state := by
  refine Timed.ends_ifOpen (fun why closed => ?_) fun _ => ?_
  · refine .unsent why fun inTime => ?_
    cases (Context.check_mono inTime (Nat.le_add_right _ _)).symm.trans closed
  · refine Timed.ends_race (d := takes) rfl (fun why t _ _ late => ?_) fun _ => .seen
    cases runs with
    | true => exact .unseen why late
    | false => exact .unsent why late

/-- What is made of an update that was sent, of a row that was selected, and of a page. -/
def changed (id : Uuid) (sent : Except Interruption (Except String Nat)) :
    Except StoreFailure Unit :=
  match received sent with
  | .error e => .error e
  | .ok n => if n = 0 then .error (.notFound id) else .ok ()

def selected (id : Uuid) (sent : Except Interruption (Except String (Option Row))) :
    Except StoreFailure Notification :=
  match received sent with
  | .error e => .error e
  | .ok none => .error (.notFound id)
  | .ok (some row) => row.record

def paged (sent : Except Interruption (Except String (List Row))) :
    Except StoreFailure (List Notification) :=
  match received sent with
  | .error e => .error e
  | .ok rows => rows.mapM Row.record

theorem update_reads (ctx : Context) (id : Uuid) (status : Status) (error : Option String)
    (time : DateTime) :
    update ctx id status error time =
      (Timed.guarded (R := Wire) ctx (.run (.update id status.name error time))).bind fun sent =>
        .done (changed id sent) := by
  refine congrArg (Flow.bind _) (funext fun sent => ?_)
  rcases sent with why | reason | n <;> rfl

theorem find_reads (ctx : Context) (id : Uuid) :
    find ctx id = (Timed.guarded (R := Wire) ctx (.run (.select id))).bind fun sent =>
      .done (selected id sent) := by
  refine congrArg (Flow.bind _) (funext fun sent => ?_)
  rcases sent with why | reason | _ | row <;> rfl

theorem list_reads (ctx : Context) (userId : String) (limit offset : Int) :
    list ctx userId limit offset =
      (Timed.guarded (R := Wire) ctx (.run (.page userId limit offset))).bind fun sent =>
        .done (paged sent) := by
  refine congrArg (Flow.bind _) (funext fun sent => ?_)
  rcases sent with why | reason | rows <;> rfl

end Store

namespace Desk

variable {d d' : Desk} {luck : Luck} {ctx : Context} {id : Uuid}

/-- Is it too late for an answer of the store? -/
def Late (d : Desk) (luck : Luck) (ctx : Context) : Prop :=
  ctx.check (d.time + luck.takes) ≠ .ok ()

/-- A statement is run, or it is given up. -/
theorem consult_ran {α : Type} (d : Desk) (luck : Luck) (ctx : Context) (s : Store.Statement)
    {read : Except Interruption (Except String s.Result) → α}
    {client : Flow (Timed Store.Wire) α}
    (reads : client = (Timed.guarded (R := Store.Wire) ctx (.run s)).bind fun sent =>
      .done (read sent)) :
    ∃ sent t, Store.Ran d.table s (d.Late luck ctx) sent t ∧
      d.consult luck client = some (read sent, { d with table := t }) := by
  have ends : Timed.Ends (Store.Table.server luck.takes luck.runs) client ⟨d.time, d.table⟩
      fun x v => ∃ sent, Store.Ran d.table s (d.Late luck ctx) sent v.state ∧ x = read sent := by
    rw [reads]
    refine Flow.holds_bind_iff.2 ((Store.ends_guarded ctx luck.takes luck.runs s _).mono
      Timed.ending_mono fun sent v ran => ⟨sent, ran, rfl⟩)
  obtain ⟨a, w, run, sent, ran, rfl⟩ := Timed.ends_iff.1 ends
  refine ⟨sent, w.state, ran, ?_⟩
  rw [consult, run]
  rfl

/-! ## What it leaves

All that a question can do to the desk, with one constructor for each kind of change; everything
else leaves it as it is. The invariants of the desk are shown by cases on `Answers`.
-/

/-- The desk bears an answer out. It will do so for ever. -/
def Vouches (d : Desk) : Exchange Backend → Prop
  | ⟨.stamp, (stamp : Stamp)⟩ => ∃ r : Reading, stamp.time = r.time ∧ r.Before d.clock
  | ⟨.create _ record, .ok ()⟩ => d.table.row record.id ≠ none
  | ⟨.find _ _, .ok (record : Notification)⟩ => d.table.row record.id ≠ none
  | ⟨.list _ _ _ _, .ok records⟩ => ∀ record ∈ records, d.table.row record.id ≠ none
  | ⟨.cacheGet _ _, .ok (.ok (some text))⟩ => text ∈ d.kept
  | _ => True

/-- The record has been put into the table, if its identifier had no row. -/
def inserting (d : Desk) (record : Notification) : Desk :=
  { d with table := (d.table.run (.insert (.ofRecord record))).2 }

/-- The row of an identifier has been updated, if there is one. -/
def updating (d : Desk) (id : Uuid) (status : Status) (error : Option String) : Desk :=
  { d with table := (d.table.run (.update id status.name error d.clock.time)).2 }

theorem row_inserting (d : Desk) (record : Notification) (id : Uuid) :
    (d.inserting record).table.row id =
      (d.table.row id).or (if record.id = id then some (Row.ofRecord record).kept else none) := by
  have same : ((Row.ofRecord record).id = some id) = (record.id = id) :=
    propext ⟨Option.some.inj, congrArg some⟩
  rw [inserting, Store.Table.row_insert]
  simp only [same]

theorem row_updating (d : Desk) (target : Uuid) (status : Status) (error : Option String)
    (id : Uuid) :
    (d.updating target status error).table.row id = (d.table.row id).map fun row =>
      if target = id then Store.Table.amend status.name error d.clock.time row else row :=
  Store.Table.row_update ..

/-- What a question comes to: its answer, and the desk after it. -/
inductive Answers (d : Desk) : Exchange Backend → Desk → Prop
  /-- Nothing changes. -/
  | still {x : Exchange Backend} (unstored : x.stored? = none) (vouched : d.Vouches x) :
      Answers d x d
  | creates (ctx : Context) (record : Notification) (answer : Except StoreFailure Unit)
      (new : answer = .ok () → d.table.row record.id = none) :
      Answers d (told (.create ctx record) answer) (d.inserting record)
  | updates (ctx : Context) (id : Uuid) (status : Status) (error : Option String)
      (answer : Except StoreFailure Unit) :
      Answers d (told (.update ctx id status error) answer) (d.updating id status error)
  | keeps (ctx : Context) (name text : String) (ttl : Nat)
      (answer : Except Interruption (Except CacheFailure Unit)) :
      Answers d (told (.cacheSet ctx name text ttl) answer) { d with kept := text :: d.kept }

/-- A creation puts its record into the table if it is acknowledged, and may do so if it is not. -/
theorem create_answers {record : Notification} {x : Except StoreFailure Unit}
    (h : d.consult luck (Store.create ctx record) = some (x, d')) :
    d.Answers (told (.create ctx record) x) d' := by
  obtain ⟨sent, t, ran, answered⟩ := d.consult_ran luck ctx (.insert (.ofRecord record)) rfl
  cases h.symm.trans answered
  cases ran with
  | unsent why => exact .still rfl trivial
  -- the record may be there though its creation was given up
  | unseen why => exact .creates ctx record _ nofun
  | seen =>
    refine .creates ctx record _ fun done => ?_
    have own : (Row.ofRecord record).id = some record.id := rfl
    refine Store.Table.row_of_insert own ?_
    cases hr : (d.table.run (.insert (.ofRecord record))).1 with
    | error reason =>
      rw [hr] at done
      cases done
    | ok => rfl

theorem update_answers {status : Status} {error : Option String} {x : Except StoreFailure Unit}
    (h : d.consult luck (Store.update ctx id status error d.clock.time) = some (x, d')) :
    d.Answers (told (.update ctx id status error) x) d' := by
  obtain ⟨sent, t, ran, answered⟩ := d.consult_ran luck ctx
    (.update id status.name error d.clock.time) (Store.update_reads ..)
  cases h.symm.trans answered
  -- what is not run, and what is not waited for, is an error in the answer
  cases ran with
  | unsent why => exact .still rfl trivial
  | unseen why | seen => exact .updates ctx id status error _

/-- A look at a record changes nothing. What is found is the record of a row, and has its
identifier. -/
theorem find_answers {x : Except StoreFailure Notification}
    (h : d.consult luck (Store.find ctx id) = some (x, d')) :
    d.Answers (told (.find ctx id) x) d' := by
  obtain ⟨sent, t, ran, answered⟩ := d.consult_ran luck ctx (.select id) (Store.find_reads ..)
  cases h.symm.trans answered
  -- the record decoded has the identifier of its row
  have vouched (found : Option Row) (there : d.table.row id = found) :
      d.Vouches (told (.find ctx id) (Store.selected id (.ok (.ok found)))) := by
    cases found with
    | none => trivial
    | some row =>
      show d.Vouches (told (.find ctx id) row.record)
      cases read : row.record with
      | error e => trivial
      | ok record =>
        have same := (Store.Table.id_of_row there).symm.trans (Row.id_of_record read)
        show d.table.row record.id ≠ none
        rw [← Option.some.inj same, there]
        exact Option.some_ne_none row
  cases ran with
  | unsent why | unseen why => exact .still rfl trivial
  | seen => exact .still rfl (vouched _ rfl)

/-- A page changes nothing either, and all its records have rows. -/
theorem list_answers {userId : String} {limit offset : Int}
    {x : Except StoreFailure (List Notification)}
    (h : d.consult luck (Store.list ctx userId limit offset) = some (x, d')) :
    d.Answers (told (.list ctx userId limit offset) x) d' := by
  obtain ⟨sent, t, ran, answered⟩ :=
    d.consult_ran luck ctx (.page userId limit offset) (Store.list_reads ..)
  cases h.symm.trans answered
  have same := d.table.run_page userId limit offset
  -- a record on the page is one of the table's rows, decoded
  have vouched (page : Except String (List Row))
      (ran : (d.table.run (.page userId limit offset)).1 = page) :
      d.Vouches (told (.list ctx userId limit offset) (Store.paged (.ok page))) := by
    cases page with
    | error reason => trivial
    | ok rows =>
      show d.Vouches (told (.list ctx userId limit offset) (rows.mapM Row.record))
      cases read : rows.mapM Row.record with
      | error e => trivial
      | ok records =>
        intro record mem
        obtain ⟨row, among, read⟩ := Row.mem_of_mapM read mem
        exact Store.Table.row_ne_none (Store.Table.mem_of_page ran among) (Row.id_of_record read)
  cases ran with
  | unsent why => exact .still rfl trivial
  | unseen why =>
    rw [same]
    exact .still rfl trivial
  | seen =>
    rw [same]
    exact .still rfl (vouched _ rfl)

/-- The cache finds only what it was asked to keep. -/
theorem recollects_vouched (d : Desk) (ctx : Context) (name : String)
    (said : Except Interruption (Except CacheFailure (Option String))) :
    d.Vouches (told (.cacheGet ctx name) (d.recollects said)) := by
  rcases said with why | e | _ | text
  · trivial
  · trivial
  · trivial
  · by_cases kept : text ∈ d.kept
    · rw [recollects, if_pos kept]
      exact kept
    · rw [recollects, if_neg kept]
      trivial

/-- **A question comes to one of the four.** -/
theorem ask_answers {op : Signature.Op Backend} {x : Signature.Answer Backend op}
    (h : ask luck op d = some (x, d')) : d.Answers ⟨op, x⟩ d' := by
  cases op with
  | create ctx record => exact create_answers h
  | find ctx id => exact find_answers h
  | update ctx id status error => exact update_answers h
  | list ctx userId limit offset => exact list_answers h
  | stamp =>
    cases h
    exact .still rfl ⟨d.clock, rfl, DateTime.le_refl _⟩
  | cacheGet ctx name =>
    cases h
    exact .still rfl (d.recollects_vouched ctx name _)
  | cacheSet ctx name text ttl =>
    cases h
    exact .keeps ctx name text ttl _
  | _ =>
    cases h
    exact .still rfl trivial

/-! ## What happens

The same for the events: a call comes in, a call takes its turn, time passes.
-/

/-- What an event comes to. -/
inductive Moves (p : Pipeline) (d : Desk) : DeskEvent → Desk → Prop
  | calls (c : Call) : Moves p d (.call c) { d with jobs := d.jobs ++ [⟨c, [], c.program p⟩] }
  | passes (duration : Nat) (shown clock : Reading) (later : d.clock.Before clock) :
      Moves p d (.passes duration shown) { d with time := d.time + duration, clock := clock }
  | waits (i : Nat) (luck : Luck) : Moves p d (.turn i luck) d
  | turns (i : Nat) (luck : Luck) (call : Call) (log : List (Exchange Backend))
      (op : Signature.Op Backend) (next : Signature.Answer Backend op → Flow Backend Response)
      (its : d.jobs[i]? = some ⟨call, log, .ask op next⟩) (x : Signature.Answer Backend op)
      (d' : Desk) (answers : d.Answers ⟨op, x⟩ d') :
      Moves p d (.turn i luck) { d' with jobs := d.jobs.set i ⟨call, log ++ [⟨op, x⟩], next x⟩ }

/-- **An event comes to one of these.** -/
theorem step_moves (p : Pipeline) (d : Desk) (e : DeskEvent) : d.Moves p e (d.step p e) := by
  cases e with
  | call c => exact .calls c
  | passes duration shown =>
    refine .passes duration shown _ ?_
    split
    · assumption
    · exact DateTime.le_refl _
  | turn i luck =>
    rw [step]
    split
    · rename_i call log op next its
      split
      · rename_i x d' answered
        exact .turns i luck call log op next its x d' (ask_answers answered)
      · exact .waits i luck
    · exact .waits i luck
    · exact .waits i luck

/-! ## Growth

Rows are never deleted, kept replies are never forgotten, the clock never goes back. What a log
vouches for therefore stays true.
-/

/-- One desk has all that another has, and it is not earlier there. -/
structure Grows (d d' : Desk) : Prop where
  rows : ∀ id, d.table.row id ≠ none → d'.table.row id ≠ none
  kept : ∀ text ∈ d.kept, text ∈ d'.kept
  clock : d.clock.Before d'.clock

theorem Grows.refl (d : Desk) : d.Grows d := ⟨fun _ h => h, fun _ h => h, DateTime.le_refl _⟩

theorem Grows.trans {d'' : Desk} (h : d.Grows d') (h' : d'.Grows d'') : d.Grows d'' :=
  ⟨fun id there => h'.rows id (h.rows id there), fun text mem => h'.kept text (h.kept text mem),
    DateTime.le_trans h.clock h'.clock⟩

variable {x : Exchange Backend}

/-- No answer takes anything away. -/
theorem Answers.grows (h : d.Answers x d') : d.Grows d' := by
  cases h with
  | still => exact .refl d
  | creates ctx record =>
    refine ⟨fun id there => ?_, fun _ h => h, DateTime.le_refl _⟩
    obtain ⟨row, hr⟩ := Option.ne_none_iff_exists'.1 there
    rw [row_inserting, hr]
    exact Option.some_ne_none row
  | updates ctx target status error =>
    refine ⟨fun id there => ?_, fun _ h => h, DateTime.le_refl _⟩
    rw [row_updating, Ne, Option.map_eq_none_iff]
    exact there
  | keeps => exact ⟨fun _ h => h, fun _ => List.mem_cons_of_mem _, DateTime.le_refl _⟩

theorem Moves.grows {p : Pipeline} {e : DeskEvent} (h : d.Moves p e d') : d.Grows d' := by
  cases h with
  | calls => exact ⟨fun _ h => h, fun _ h => h, DateTime.le_refl _⟩
  | waits => exact .refl d
  | passes duration shown clock later => exact ⟨fun _ h => h, fun _ h => h, later⟩
  | turns i luck call log op next its x d' answers =>
    exact ⟨answers.grows.rows, answers.grows.kept, answers.grows.clock⟩

/-- What is borne out by a desk is borne out by one that has more. -/
theorem Vouches.grows (h : d.Vouches x) (g : d.Grows d') : d'.Vouches x := by
  rcases x with ⟨op, x⟩
  cases op with
  | stamp =>
    obtain ⟨r, same, earlier⟩ := h
    exact ⟨r, same, DateTime.le_trans earlier g.clock⟩
  | create ctx record =>
    cases x with
    | error e => trivial
    | ok => exact g.rows _ h
  | find ctx id =>
    cases x with
    | error e => trivial
    | ok record => exact g.rows _ h
  | list ctx userId limit offset =>
    cases x with
    | error e => trivial
    | ok records => exact fun record mem => g.rows _ (h record mem)
  | cacheGet ctx name =>
    rcases x with why | e | _ | text
    · trivial
    · trivial
    · trivial
    · exact g.kept _ h
  | _ => trivial

/-- Where a row is from: it was there, its record is created, or it is updated. -/
theorem Answers.row_cases {row : Row} (h : d.Answers x d') (there : d'.table.row id = some row) :
    d.table.row id = some row ∨
      (∃ ctx record answer, x = told (.create ctx record) answer ∧ d.table.row id = none ∧
        record.id = id ∧ row = (Row.ofRecord record).kept) ∨
      ∃ ctx status error answer old, x = told (.update ctx id status error) answer ∧
        d.table.row id = some old ∧
          row = Store.Table.amend status.name error d.clock.time old := by
  cases h with
  | still | keeps => exact .inl there
  | creates ctx record answer =>
    rw [row_inserting, Option.or_eq_some_iff] at there
    rcases there with there | ⟨absent, there⟩
    · exact .inl there
    · split at there
      · cases there
        exact .inr (.inl ⟨ctx, record, answer, rfl, absent, ‹_›, rfl⟩)
      · cases there
  | updates ctx target status error answer =>
    rw [row_updating, Option.map_eq_some_iff] at there
    obtain ⟨old, there, rfl⟩ := there
    split
    · rename_i same
      subst same
      exact .inr (.inr ⟨ctx, status, error, answer, old, rfl, there, rfl⟩)
    · exact .inl there

/-- A record is created where there is no row. -/
theorem Answers.fresh {record : Notification} (h : d.Answers x d')
    (made : x.stored? = some record) : d.table.row record.id = none ∧
      d'.table.row record.id = some (Row.ofRecord record).kept := by
  cases h with
  | still unstored => cases unstored.symm.trans made
  | creates ctx r answer new =>
    cases answer with
    | error e => cases made
    | ok =>
      cases made
      refine ⟨new rfl, ?_⟩
      rw [row_inserting, new rfl, Option.none_or, if_pos rfl]
  | updates | keeps => cases made

/-- The desk bears out what it has answered. -/
theorem Answers.vouched (h : d.Answers x d') : d'.Vouches x := by
  cases h with
  | still unstored vouched => exact vouched
  | creates ctx record answer new =>
    cases answer with
    | error e => trivial
    | ok =>
      have made : d.Answers (told (.create ctx record) (.ok ())) (d.inserting record) :=
        .creates ctx record _ new
      show (d.inserting record).table.row record.id ≠ none
      rw [(made.fresh rfl).2]
      exact Option.some_ne_none _
  | updates | keeps => trivial

end Desk

end Courier
