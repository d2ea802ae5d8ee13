import Courier.Store.Table

/-!
# A database that is played

The other end of the client's wire: a table, and what is to go wrong. A statement takes no time. One
that is to fail arrives and has no effect; when the wire is cut, statements no longer arrive.
-/

set_option autoImplicit false

namespace Courier.Store

/-- A played database. -/
structure Peer where
  /-- Is anyone there to be dialled? -/
  listening : Bool := true
  /-- Is the wire whole? -/
  connected : Bool := true
  /-- Does the next statement fail? -/
  stumbles : Bool := false
  /-- The names of statements that are always refused. -/
  refused : List String := []
  table : Table := {}
  /-- The names of the statements that arrived, the latest first. -/
  statements : List String := []

namespace Peer

/-- A statement that arrives is noted before it fails or has its effect. -/
def run (p : Peer) (s : Statement) : Except String s.Result × Peer :=
  if p.connected then
    let p := { p with statements := s.name :: p.statements }
    if p.stumbles then (.error "statement failed", { p with stumbles := false })
    else if p.refused.contains s.name then (.error "statement refused", p)
    else
      let found := p.table.run s
      (found.1, { p with table := found.2 })
  else (.error "connection closed", p)

/-- What comes over the wire. -/
def answer (p : Peer) : (q : Query) → Wire.Answer q × Peer
  | .dial _ => (if p.listening then .ok () else .error "connection refused", p)
  | .run s => p.run s
  | .isClosed => (!p.connected, p)

def server : Timed.Server Wire Peer where
  work _ q p :=
    let found := p.answer q
    Timed.Work.immediate found.1 found.2

end Peer

end Courier.Store
