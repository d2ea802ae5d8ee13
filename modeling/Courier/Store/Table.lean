import Courier.Store.Client

/-!
# The table

What the statements mean: the rows of the table, in the order in which they were put there. No two
rows have the same identifier. A page is in decreasing order of the times of creation, rows without
one first and rows of the same time in the order of the table.
-/

set_option autoImplicit false

namespace Courier.Store

/-- The rows there are. -/
structure Table where
  rows : List Row := []
  deriving DecidableEq

namespace Table

/-- Is there a row with this identifier? -/
def has (t : Table) (id : Uuid) : Bool := t.rows.any fun r => r.id == some id

/-- May one row stand before another in a page? -/
def newer (a b : Row) : Bool :=
  match a.createdAt, b.createdAt with
  | none, _ => true
  | some _, none => false
  | some s, some t => DateTime.le t s

/-- The rows of a user, newest first. -/
def ofUser (t : Table) (userId : String) : List Row :=
  (t.rows.filter fun r => r.userId == some userId).mergeSort newer

/-- Sets the three columns of an update. -/
def amend (status : String) (error : Option String) (time : DateTime) (r : Row) : Row :=
  { r with status := some status, error := error, updatedAt := some time.cutToMicros }

/-- Runs a statement. -/
def run (t : Table) : (s : Statement) → Except String s.Result × Table
  | .schema => (.ok (), t)
  | .ping => (.ok (), t)
  | .insert row =>
    match row.id with
    | none => (.error "null value in column", t)
    | some id =>
      if t.has id then (.error "duplicate key value", t)
      else (.ok (), { t with rows := t.rows ++ [row.kept] })
  | .select id => (.ok (t.rows.find? fun r => r.id == some id), t)
  | .update id status error time =>
    let hit (r : Row) : Bool := r.id == some id
    (.ok (t.rows.countP hit),
      { t with rows := t.rows.map fun r => if hit r then amend status error time r else r })
  | .page userId limit offset =>
    if limit < 0 then (.error "LIMIT must not be negative", t)
    else if offset < 0 then (.error "OFFSET must not be negative", t)
    else (.ok (((t.ofUser userId).drop offset.toNat).take limit.toNat), t)

end Table

end Courier.Store
