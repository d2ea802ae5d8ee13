import Courier.Proofs.Store.Rows
import Courier.Proofs.Time.Order
import Mathlib.Data.List.Nodup
import Mathlib.Data.List.Perm.Basic

/-!
# Pages of a user's records

A database is free in the order of rows of the same time, and need not keep to one from page to page
(`Table.Shows`). Where all times are different it has no choice: the records of a user have one
order from the newest on, and a page is a piece of that (`Shows.records`).
-/

set_option autoImplicit false

namespace Courier

namespace Row

/-- Rows are read if each of them is. -/
theorem mapM_record_iff {rows : List Row} {records : List Notification} :
    rows.mapM record = .ok records ↔
      List.Forall₂ (fun (row : Row) r => row.record = .ok r) rows records := by
  induction rows generalizing records with
  | nil =>
    rw [List.forall₂_nil_left_iff]
    exact ⟨fun h => by cases h; rfl, fun h => by subst h; rfl⟩
  | cons row rows ih =>
    rw [List.mapM_cons, bind_ok_iff, List.forall₂_cons_left_iff]
    constructor
    · rintro ⟨r, read, h⟩
      obtain ⟨more, rest, h⟩ := bind_ok_iff.1 h
      cases h
      exact ⟨r, more, read, ih.1 rest, rfl⟩
    · rintro ⟨r, more, read, rest, rfl⟩
      exact ⟨r, read, bind_ok_iff.2 ⟨more, ih.2 rest, rfl⟩⟩

/-- A row that is read has the user and the time of the record. -/
theorem columns_of_record {row : Row} {r : Notification} (h : row.record = .ok r) :
    row.userId = some r.userId ∧ row.createdAt = some r.createdAt := by
  have held {α : Type} {name : String} {c : Option α} {x : α} (h : column name c = .ok x) :
      c = some x := by
    cases c with
    | none => cases h
    | some y => exact congrArg some (Except.ok.inj h)
  simp only [Row.record, bind_ok_iff] at h
  obtain ⟨_, -, _, -, _, -, _, -, _, -, user, hu, _, -, _, -, _, -, _, -, _, -, _, -, time, ht, _,
    -, h⟩ := h
  cases h
  exact ⟨held hu, held ht⟩

end Row

namespace Store.Table

variable {t : Table} {userId : String} {a b c : Row}

theorem newer_trans (a b c : Row) (h : newer a b = true) (h' : newer b c = true) :
    newer a c = true := by
  unfold newer at *
  cases ha : a.createdAt <;> cases hb : b.createdAt <;> cases hc : c.createdAt <;>
    simp_all
  exact DateTime.le_trans h' h

theorem newer_total (a b : Row) : (newer a b || newer b a) = true := by
  unfold newer
  cases a.createdAt <;> cases b.createdAt <;> simp [DateTime.le_total]

/-- The page is of rows of the user, in an order in which none stands before a newer one. Rows of
the same time may come in any order, and in another one the next time. -/
def Shows (t : Table) (userId : String) (limit offset : Nat) (page : List Row) : Prop :=
  ∃ order : List Row, order.Perm (t.rows.filter fun r => r.userId == some userId) ∧
    order.Pairwise (fun a b => newer a b = true) ∧ page = (order.drop offset).take limit

/-- A table that is played shows pages. -/
theorem shows_run (t : Table) (userId : String) {limit offset : Int} (hl : 0 ≤ limit)
    (ho : 0 ≤ offset) : ∃ page : List Row,
      (t.run (.page userId limit offset)).1 = .ok page ∧
        t.Shows userId limit.toNat offset.toNat page := by
  refine ⟨((t.ofUser userId).drop offset.toNat).take limit.toNat, ?_, t.ofUser userId,
    List.mergeSort_perm _ _, List.pairwise_mergeSort newer_trans newer_total _, rfl⟩
  rw [run, if_neg (by omega), if_neg (by omega)]

/-- The first of two records was not made before the second. -/
def NotOlder (a b : Notification) : Prop := DateTime.le b.createdAt a.createdAt = true

/-- In the order of a page, no record stands before a newer one. -/
theorem pairwise_notOlder {order : List Row} {records : List Notification}
    (read : List.Forall₂ (fun (row : Row) r => row.record = .ok r) order records)
    (sorted : order.Pairwise (fun a b => newer a b = true)) : records.Pairwise NotOlder := by
  -- by induction on the rows along with the records that they are read as
  induction read with
  | nil => exact .nil
  | @cons row r order records here rest ih =>
    obtain ⟨first, sorted⟩ := List.pairwise_cons.1 sorted
    refine List.pairwise_cons.2 ⟨fun r' mem => ?_, ih sorted⟩
    obtain ⟨row', among, read'⟩ := Row.mem_of_mapM (Row.mapM_record_iff.2 rest) mem
    have order := first row' among
    simp only [newer, (Row.columns_of_record here).2, (Row.columns_of_record read').2] at order
    exact order

/-- **A page is a piece of the list**: records of different times have one order only. -/
theorem Shows.records {records listing : List Notification} {limit offset : Nat} {page : List Row}
    (h : t.Shows userId limit offset page)
    (content : (t.rows.filter fun r => r.userId == some userId).mapM Row.record = .ok records)
    (apart : (records.map (·.createdAt)).Nodup) (perm : listing.Perm records)
    (sorted : listing.Pairwise NotOlder) :
    page.mapM Row.record = .ok ((listing.drop offset).take limit) := by
  obtain ⟨order, same, newest, rfl⟩ := h
  obtain ⟨shown, read, among⟩ := List.perm_comp_forall₂ same (Row.mapM_record_iff.1 content)
  have unique : shown = listing := by
    refine List.Perm.eq_of_pairwise ?_ (pairwise_notOlder read newest) sorted
      (among.trans perm.symm)
    intro a b ha hb le le'
    exact List.inj_on_of_nodup_map apart (among.subset ha) (perm.subset hb)
      (DateTime.le_antisymm le' le)
  subst unique
  exact Row.mapM_record_iff.2 (List.forall₂_take _ (List.forall₂_drop _ read))

/-- Records of different times have such an order. -/
theorem exists_sorted {records : List Notification} (apart : (records.map (·.createdAt)).Nodup) :
    ∃ listing : List Notification, listing.Perm records ∧ listing.Pairwise NotOlder ∧
      listing.Pairwise fun a b => DateTime.lt b.createdAt a.createdAt = true := by
  let notOlder (a b : Notification) : Bool := DateTime.le b.createdAt a.createdAt
  have perm : (records.mergeSort notOlder).Perm records := List.mergeSort_perm _ _
  have sorted : (records.mergeSort notOlder).Pairwise NotOlder :=
    List.pairwise_mergeSort (fun a b c (h : notOlder a b = true) h' => DateTime.le_trans h' h)
      (fun a b => Bool.or_eq_true_iff.2 (DateTime.le_total b.createdAt a.createdAt)) records
  refine ⟨_, perm, sorted, ?_⟩
  have different := List.pairwise_map.1 ((perm.map (·.createdAt)).nodup_iff.2 apart)
  refine (sorted.and different).imp fun ⟨le, ne⟩ => ?_
  by_contra later
  refine ne (DateTime.le_antisymm ?_ le)
  rw [DateTime.le, Bool.not_eq_true', Bool.eq_false_iff]
  exact later

end Store.Table

end Courier
