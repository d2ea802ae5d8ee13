import Courier.Live.Peers
import Courier.Proofs.Flow.Rules
import Courier.Proofs.Live.Clamped
import Courier.Proofs.Router.Listings
import Courier.Proofs.Store.Pages

/-!
# Page after page

A caller who asks for a user's notifications is given a piece of one list, whatever the numbers in
the call (`Answers`): the router clamps them, the pipeline passes them on, and the database shows
that piece. So a caller who browses the list (`Browses`), by pages of any length that is allowed and
until one is empty, has all of it in the end, each record once and the newest first
(`paging_law`).
-/

set_option autoImplicit false

namespace Courier

open Timed (Ends)

namespace Router

variable {α : Type}

/-- The piece of a list that a query is for. -/
def ListQuery.slice (q : ListQuery) (all : List α) : List α :=
  (all.drop (max q.offset 0).toNat).take (min (max q.limit 1) 100).toNat

theorem ListQuery.slice_eq (q : ListQuery) (all : List α) :
    (all.drop q.start.toNat).take q.page.toNat = q.slice all := by
  have page : q.page = min (max q.limit 1) 100 := by
    simp only [ListQuery.page, greatestLimit]
    omega
  rw [page]
  rfl

/-- What a caller is given of a list. -/
def Answer.items? (a : Answer) : Option (List Json) :=
  match a.status, a.payload with
  | 200, .json v =>
    match v.get? "data" with
    | some (.array items) => some items
    | _ => none
  | _, _ => none

theorem items_listAnswer (records : List Notification) :
    (listAnswer (.ok records)).items? = some (records.map Notification.codec.encode) := rfl

end Router

open Router (Service ListQuery listAnswer handle)

namespace Live

/-! ## One page

A database that answers in time gives the rows of the page, and the service reads them.
-/

section

variable {σ : Type} {server : Timed.Server Wires σ} {w : Timed.World σ} {ctx : Context}

/-- What becomes of a page that is asked for. -/
abbrev pageWork (server : Timed.Server Wires σ) (w : Timed.World σ) (userId : String)
    (limit offset : Int) : Timed.Work σ (Except String (List Row)) :=
  server.work w.time (.store (.run (.page userId limit offset))) w.state

/-- A page that comes in time is what a caller is given of the list. -/
theorem list_ends {userId : String} {limit offset : Int} {d : Nat} {page : List Row}
    {post : Except StoreFailure (List Notification) → Timed.World σ → Prop}
    (going : ctx.check w.time = .ok ()) (inTime : ctx.check (w.time + d) = .ok ())
    (takes : (pageWork server w userId limit offset).takes = some d)
    (told : (pageWork server w userId limit offset).answer.1 = .ok page)
    (h : post (page.mapM Row.record)
      ⟨w.time + d, (pageWork server w userId limit offset).answer.2⟩) :
    Ends server (overStore (Store.list ctx userId limit offset)) w post := by
  refine Flow.holds_interpret_iff.2 (Flow.holds_bind_iff.2 ?_)
  unfold Timed.guarded Timed.ifOpen Timed.check
  rw [Flow.holds_bind_iff, Flow.holds_bind_iff]
  refine ⟨_, w, rfl, ?_⟩
  simp only [Flow.Holds, going]
  refine Timed.ends_race takes ?_ ?_
  · exact fun why t _ _ late => absurd inTime late
  · intro _
    unfold pageWork at told
    generalize Prod.fst (Timed.Work.answer _) = answer at told ⊢
    subst told
    exact h

end

/-- The database shows whatever pages of a table are asked for, each within a time, and goes on to
do so. -/
structure Browsable {σ : Type} (server : Timed.Server Wires σ) (t : Store.Table) (timeout : Nat)
    (ready : σ → Prop) : Prop where
  shows : ∀ (w : Timed.World σ) (userId : String) (limit offset : Int),
    ready w.state → 0 ≤ limit → 0 ≤ offset →
      ∃ d page, (pageWork server w userId limit offset).takes = some d ∧ d < timeout ∧
        (pageWork server w userId limit offset).answer.1 = .ok page ∧
        t.Shows userId limit.toNat offset.toNat page ∧
        ready (pageWork server w userId limit offset).answer.2

section

variable {σ : Type} {server : Timed.Server Wires σ} {w w' : Timed.World σ} {t : Store.Table}
  {ready : σ → Prop} {s : Service} {live : LiveService} {call : Router.Call} {q : ListQuery}
  {userId : String} {records listing : List Notification}

/-- A call for a list is answered by its piece, if the database can be browsed. -/
theorem Browsable.answers (db : Browsable server t s.pipeline.settings.requestTimeout ready)
    (content : (t.rows.filter fun r => r.userId == some q.userId).mapM Row.record = .ok records)
    (apart : (records.map (·.createdAt)).Nodup) (perm : listing.Perm records)
    (sorted : listing.Pairwise Store.Table.NotOlder) (h : call.Lists q) (hw : ready w.state) :
    ∃ w', live.run server (handle s call) w = some (listAnswer (.ok (q.slice listing)), w') ∧
      ready w'.state := by
  obtain ⟨limit, -, offset⟩ := q.page_clamped
  obtain ⟨d, page, takes, inTime, told, shown, again⟩ :=
    db.shows w q.userId q.page q.start hw (by omega) offset
  have read := shown.records content apart perm sorted
  rw [q.slice_eq] at read
  -- the database answers within the timeout, so the context is open throughout
  have going (later : Nat) (before : later < s.pipeline.settings.requestTimeout) :
      (Context.lasting w.time s.pipeline.settings.requestTimeout).check (w.time + later) =
        .ok () := by
    simp [Context.check, Context.lasting, Context.reached]
    omega
  have answered : Ends server ((handle s call).interpret (T := Timed Wires) live.play) w
      fun answer w' => answer = listAnswer (.ok (q.slice listing)) ∧ ready w'.state := by
    rw [Router.handle_lists h]
    refine Flow.holds_interpret_iff.2 (Flow.holds_bind_iff.2 (Flow.holds_bind_iff.2 ?_))
    refine Flow.holds_bind_iff.2 ⟨w.time, w, rfl, ?_⟩
    refine Flow.holds_bind_iff.2 (list_ends (going 0 (by omega)) (going d inTime) takes told ?_)
    rw [read]
    exact ⟨rfl, again⟩
  obtain ⟨answer, w', ran, rfl, after⟩ := Timed.ends_iff.1 answered
  exact ⟨w', ran, after⟩

/-! ## Page after page

Browsing asks page after page until one is empty. That it ends is an induction on what is left of
the list, that it gives the whole list an induction on the pages.
-/

/-- A caller asks for the pages of a list from a place on, one after the other, until one is empty,
and has these items then. -/
inductive Browses (server : Timed.Server Wires σ) (s : Service) (live : LiveService)
    (userId : String) (length : Nat) : Nat → Timed.World σ → List Json → Timed.World σ → Prop
  | ended {start : Nat} {w w' : Timed.World σ} {call : Router.Call} {answer : Router.Answer}
    (asked : call.Lists ⟨userId, length, start⟩)
    (got : live.run server (handle s call) w = some (answer, w'))
    (empty : answer.items? = some []) : Browses server s live userId length start w [] w'
  | more {start : Nat} {w w' w'' : Timed.World σ} {call : Router.Call} {answer : Router.Answer}
    {page later : List Json} (asked : call.Lists ⟨userId, length, start⟩)
    (got : live.run server (handle s call) w = some (answer, w'))
    (filled : answer.items? = some page) (some : page ≠ [])
    (rest : Browses server s live userId length (start + length) w' later w'') :
    Browses server s live userId length start w (page ++ later) w''

variable {length start : Nat} {items : List Json}

theorem slice_page {α : Type} (low : 1 ≤ length) (high : length ≤ 100) (start : Nat)
    (all : List α) :
    ListQuery.slice ⟨userId, length, start⟩ all = (all.drop start).take length := by
  have page : (min (max (length : Int) 1) 100).toNat = length := by omega
  have place : (max (start : Int) 0).toNat = start := by omega
  rw [ListQuery.slice, page, place]

/-- The service answers every call for a list of the user by a piece of it. -/
def Answers (server : Timed.Server Wires σ) (s : Service) (live : LiveService)
    (ready : σ → Prop) (userId : String) (listing : List Notification) : Prop :=
  ∀ (call : Router.Call) (q : ListQuery) (w : Timed.World σ), call.Lists q → q.userId = userId →
    ready w.state →
      ∃ w', live.run server (handle s call) w = some (listAnswer (.ok (q.slice listing)), w') ∧
        ready w'.state

/-- Whoever browses has the list in the end, from where the browsing began. -/
theorem Browses.items_eq (answers : Answers server s live ready userId listing)
    (low : 1 ≤ length) (high : length ≤ 100) (hw : ready w.state)
    (h : Browses server s live userId length start w items w') :
    items = (listing.drop start).map Notification.codec.encode ∧ ready w'.state := by
  -- by induction on the pages, each of which is a piece that the next one follows on
  induction h with
  | ended asked got empty =>
    obtain ⟨_, ran, after⟩ := answers _ _ _ asked rfl hw
    rw [slice_page low high] at ran
    obtain ⟨rfl, rfl⟩ := Prod.mk.inj (Option.some.inj (got.symm.trans ran))
    have none := List.map_eq_nil_iff.1 (Option.some.inj empty)
    have past := (List.take_eq_nil_iff.1 none).resolve_left (by omega)
    exact ⟨by rw [past, List.map_nil], after⟩
  | more asked got filled some rest ih =>
    obtain ⟨_, ran, after⟩ := answers _ _ _ asked rfl hw
    rw [slice_page low high] at ran
    obtain ⟨rfl, rfl⟩ := Prod.mk.inj (Option.some.inj (got.symm.trans ran))
    obtain ⟨rfl, last⟩ := ih after
    rw [Router.items_listAnswer] at filled
    obtain rfl := Option.some.inj filled
    refine ⟨?_, last⟩
    rw [← List.map_append, ← List.drop_drop, List.take_append_drop]

/-- Browsing comes to an end: each page that is not empty brings the place nearer to the end of the
list. -/
theorem exists_browses (answers : Answers server s live ready userId listing)
    (low : 1 ≤ length) (high : length ≤ 100) (room : listing.length + length ≤ 9223372036854775808)
    (hw : ready w.state) (near : start < listing.length + length) :
    ∃ items w', Browses server s live userId length start w items w' := by
  induction left : listing.length + length - start using Nat.strongRecOn generalizing start w with
  | ind left ih =>
    have asked : (Router.listing ⟨userId, length, start⟩).Lists ⟨userId, length, start⟩ := by
      refine Router.listing_lists ⟨?_, ?_⟩ ⟨?_, ?_⟩ <;> dsimp only <;> omega
    obtain ⟨w₁, got, after⟩ := answers _ _ w asked rfl hw
    rw [slice_page low high] at got
    have given := Router.items_listAnswer ((listing.drop start).take length)
    -- an empty page ends the browsing; any other brings the start nearer to the end
    by_cases none : (listing.drop start).take length = []
    · rw [none] at given
      rw [none] at got
      exact ⟨_, _, .ended asked got given⟩
    · have inside : start < listing.length := by
        by_contra past
        exact none (by rw [List.drop_eq_nil_of_le (by omega), List.take_nil])
      obtain ⟨later, w'', rest⟩ := ih (listing.length + length - (start + length)) (by omega)
        after (by omega) rfl
      exact ⟨_, _, .more asked got given (by simpa using none) rest⟩

/-- What the service shows of the list of a user. -/
structure ShowsList (server : Timed.Server Wires σ) (s : Service) (live : LiveService)
    (ready : σ → Prop) (userId : String) (listing : List Notification) : Prop where
  answers : Answers server s live ready userId listing
  /-- What is browsed is the list, whatever the length of the pages. -/
  browsed : ∀ length w items w', 1 ≤ length → length ≤ 100 → ready w.state →
    Browses server s live userId length 0 w items w' →
      items = listing.map Notification.codec.encode
  /-- It can be browsed, as long as the places are numbers of 64 bits. -/
  ends : ∀ length w, 1 ≤ length → length ≤ 100 → ready w.state →
    listing.length + length ≤ 9223372036854775808 →
      ∃ items w', Browses server s live userId length 0 w items w'

/-- **Paging loses and repeats nothing.** A user's records have an order, and every page is a piece
of it. Nor is the database ever asked for what it would reject. -/
theorem paging_law (live : LiveService)
    (db : Browsable server t s.pipeline.settings.requestTimeout ready)
    (content : (t.rows.filter fun r => r.userId == some userId).mapM Row.record = .ok records)
    (apart : (records.map (·.createdAt)).Nodup) :
    (∃ listing : List Notification, listing.Perm records ∧ (∀ r ∈ listing, r.userId = userId) ∧
      (listing.Pairwise fun a b => DateTime.lt b.createdAt a.createdAt = true) ∧
      ShowsList server s live ready userId listing) ∧
    (∀ q : ListQuery, Router.Whole q.limit → Router.Whole q.offset →
      (Router.listing q).Lists q) ∧
    ∀ call, Clamps ((handle s call).interpret (T := Timed Wires) live.play) := by
  obtain ⟨listing, perm, sorted, newest⟩ := Store.Table.exists_sorted apart
  have answers : Answers server s live ready userId listing := by
    rintro call q w asked rfl hw
    exact db.answers content apart perm sorted asked hw
  refine ⟨⟨listing, perm, ?_, newest, ?_⟩, fun q => Router.listing_lists, live.handle_clamps s⟩
  · intro r mem
    obtain ⟨row, among, read⟩ := Row.mem_of_mapM content (perm.subset mem)
    have own := eq_of_beq (List.mem_filter.1 among).2
    exact Option.some.inj ((Row.columns_of_record read).1.symm.trans own)
  · constructor
    case answers => exact answers
    case browsed => exact fun _ _ _ _ low high hw h => (h.items_eq answers low high hw).1
    case ends =>
      exact fun _ _ low high hw room => exists_browses answers low high room hw (by omega)

end

/-! ## A table that is played

The hypotheses on the database hold of a table that runs the statements.
-/

/-- A database that is played can be browsed while nothing is wrong with it. -/
theorem browsable_peers (t : Store.Table) {timeout : Nat} (pos : 0 < timeout) :
    Browsable Peers.server t timeout fun p =>
      p.store.connected = true ∧ p.store.stumbles = false ∧ p.store.refused = [] ∧
        p.store.table = t := by
  constructor
  rintro w userId limit offset ⟨whole, sound, free, rfl⟩ hl ho
  obtain ⟨page, found, shown⟩ := w.state.store.table.shows_run userId hl ho
  refine ⟨0, page, rfl, pos, ?_, shown, ?_⟩
  · simp [pageWork, Peers.server, Peers.answer, Store.Peer.answer, Store.Peer.run, whole,
      sound, free, Timed.Work.immediate, found]
    rfl
  · simp [pageWork, Peers.server, Peers.answer, Store.Peer.answer, Store.Peer.run, whole,
      sound, free, Timed.Work.immediate, Store.Table.run_page]

end Live

/-- A record of a user, made so many microseconds after 2000 began. -/
def Notification.made (userId : String) (micros : Int) : Notification :=
  { userId := userId, createdAt := .ofMicrosSinceMillennium micros }

namespace Live

/-- Peers whose database has two records of a user, and one of another between them. -/
def Peers.keeping : Peers where
  users := { config := {}, script := .answers .hangsUp [] }
  templates := { config := {}, script := .answers .hangsUp [] }
  store := { table := ⟨[.ofRecord (.made "u1" 1), .ofRecord (.made "u2" 2),
    .ofRecord (.made "u1" 3)]⟩ }
  clock := fun _ => default
  identifier := fun _ => default

/-- The services in memory, and a publisher that is not asked. -/
def inMemory : LiveService := ⟨none, none, ⟨"notifications.direct", "failed.queue", {}⟩⟩

theorem paging_law_two :
    ∃ items w', Browses Peers.server ⟨⟨{}, 0⟩, 0⟩ inMemory "u1" 1 0 ⟨0, Peers.keeping⟩ items w' ∧
      items = [Notification.made "u1" 3, Notification.made "u1" 1].map
        Notification.codec.encode := by
  have content : (Peers.keeping.store.table.rows.filter fun r =>
      r.userId == some "u1").mapM Row.record =
        .ok [Notification.made "u1" 1, Notification.made "u1" 3] := by
    rfl
  obtain ⟨⟨listing, perm, -, newest, shows⟩, -⟩ := paging_law inMemory (s := ⟨⟨{}, 0⟩, 0⟩)
    (browsable_peers Peers.keeping.store.table (by decide)) content (by decide)
  have order : listing = [.made "u1" 3, .made "u1" 1] := by
    refine List.Perm.eq_of_pairwise ?_ newest (by decide) (perm.trans (.swap _ _ _))
    intro a b _ _ later earlier
    simp only [DateTime.lt, Bool.or_eq_true, Bool.and_eq_true, decide_eq_true_eq] at later earlier
    omega
  obtain ⟨items, w', browsed⟩ := shows.ends 1 ⟨0, Peers.keeping⟩ (by decide) (by decide)
    ⟨rfl, rfl, rfl, rfl⟩ (by rw [order]; decide)
  have all := shows.browsed _ _ _ _ (by decide) (by decide) ⟨rfl, rfl, rfl, rfl⟩ browsed
  rw [order] at all
  exact ⟨items, w', browsed, all⟩

end Live

end Courier
