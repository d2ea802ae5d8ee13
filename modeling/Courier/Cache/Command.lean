import Courier.Failure

/-!
# Commands of the cache

The three commands that the cache is sent, the kinds of answer there are, and what is made of an
answer: a text where one is due, and nothing where nothing is kept.
-/

set_option autoImplicit false

namespace Courier.Cache

/-- A command. Times are whole seconds here, however a caller tells them. -/
inductive Command where
  | get (key : String)
  /-- Keeps a value for a number of seconds. -/
  | setEx (key : String) (seconds : Nat) (value : String)
  | ping
  deriving DecidableEq, Repr

namespace Command

/-- The word that a command begins with. -/
def name : Command → String
  | .get _ => "GET"
  | .setEx _ _ _ => "SETEX"
  | .ping => "PING"

/-- A command as it is sent, word by word. -/
def words : Command → List String
  | .get key => ["GET", key]
  | .setEx key seconds value => ["SETEX", key, toString seconds, value]
  | .ping => ["PING"]

/-- Keeps a value for a time in milliseconds: as many whole seconds, and at least one. -/
def keep (key value : String) (ttl : Nat) : Command := .setEx key (max (ttl / 1000) 1) value

end Command

/-- What a command is answered. -/
inductive Answer where
  | simple (s : String)
  | bulk (s : String)
  | integer (i : Int)
  | nil
  | array
  | error (s : String)
  deriving DecidableEq, Repr

namespace Answer

/-- The text of an answer; nothing where nothing is kept. A list of answers is no text. -/
def text? : Answer → Except CacheFailure (Option String)
  | .simple s | .bulk s => .ok (some s)
  | .integer i => .ok (some (toString i))
  | .nil => .ok none
  | .array => .error (.redis "answer is no text")
  | .error s => .error (.redis s)

/-- Any answer but an error will do. -/
def done : Answer → Except CacheFailure Unit
  | .error s => .error (.redis s)
  | _ => .ok ()

/-- The answer to a sign of life. -/
def pong (a : Answer) : Except CacheFailure Unit :=
  match a.text? with
  | .error e => .error e
  | .ok none => .error (.redis "answer is no text")
  | .ok (some s) =>
    if s = "PONG" then .ok () else .error (.unavailable ("unexpected PING reply: " ++ s))

end Answer

end Courier.Cache
