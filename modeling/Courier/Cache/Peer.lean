import Courier.Cache.Client

/-!
# A cache that is played

The other end of the client's wire: entries with the times at which they are forgotten, and answers
that are laid ready to be given in place of the usual ones. A command takes no time. When the wire
is cut, commands no longer arrive.
-/

set_option autoImplicit false

namespace Courier.Cache

/-- What is kept under a key. -/
structure Entry where
  value : String
  /-- When it is forgotten; without a time it never is. -/
  until? : Option Nat
  deriving DecidableEq, Repr

/-- The state of a played cache. -/
structure Peer where
  /-- Is anyone there to be dialled? -/
  listening : Bool := true
  /-- Is the wire whole? -/
  connected : Bool := true
  /-- Are entries forgotten when their time is over? -/
  forgets : Bool := true
  entries : Dict Entry := Dict.empty
  /-- Answers to the next commands of a name. -/
  ready : List (String × Answer) := []
  /-- The commands that arrived, the latest first. -/
  commands : List Command := []

namespace Peer

/-- What is kept under a key at a time. -/
def find (p : Peer) (now : Nat) (key : String) : Option String :=
  (p.entries.get? key).bind fun e =>
    match e.until? with
    | some t => if now < t then some e.value else none
    | none => some e.value

/-- The answer that lies ready for a command of a name, and those that are left. -/
def takeReady (name : String) : List (String × Answer) → Option (Answer × List (String × Answer))
  | [] => none
  | r :: rest =>
    if r.1 = name then some (r.2, rest)
    else (takeReady name rest).map fun found => (found.1, r :: found.2)

/-- What a command does by itself. -/
def usual (p : Peer) (now : Nat) : Command → Answer × Peer
  | .get key =>
    (match p.find now key with
      | some value => .bulk value
      | none => .nil, p)
  | .setEx key seconds value =>
    let entry : Entry := ⟨value, if p.forgets then some (now + 1000 * seconds) else none⟩
    (.simple "OK", { p with entries := p.entries.insert key entry })
  | .ping => (.simple "PONG", p)

/-- A command that arrives is noted, whatever it is answered. -/
def run (p : Peer) (now : Nat) (command : Command) : Except String Answer × Peer :=
  if p.connected then
    let p := { p with commands := command :: p.commands }
    match takeReady command.name p.ready with
    | some (answer, rest) => (.ok answer, { p with ready := rest })
    | none =>
      let found := p.usual now command
      (.ok found.1, found.2)
  else (.error "connection closed", p)

/-- What comes over the wire. -/
def answer (now : Nat) (p : Peer) : (q : Query) → Wire.Answer q × Peer
  | .dial _ => (if p.listening then .ok () else .error "connection refused", p)
  | .run command => p.run now command

def server : Timed.Server Wire Peer where
  work now q p :=
    let found := p.answer now q
    Timed.Work.immediate found.1 found.2

end Peer

end Courier.Cache
