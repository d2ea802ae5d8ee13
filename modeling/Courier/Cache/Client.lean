import Courier.Cache.Command
import Courier.Flow.Timed

/-!
# The client of the cache

A connection is dialled once; after that every call is one command. The client knows no contexts:
who waits for it under a context bounds it from outside (`Cache.get` and `Cache.set` are bounded
so).

The calls are those of the service: `get`, `set_ex` and `ping`.
-/

set_option autoImplicit false

namespace Courier.Cache

/-- What goes over the wire. -/
inductive Query where
  | dial (url : String)
  | run (command : Command)
  deriving DecidableEq, Repr

/-- A wire gives an answer, or the reason why there is none. -/
def Wire : Signature where
  Op := Query
  Answer
    | .dial _ => Except String Unit
    | .run _ => Except String Answer

/-- Whatever goes wrong on the wire is told as an error of the cache. -/
def failed (reason : String) : CacheFailure := .redis reason

/-- What is made of what came over the wire. -/
def received {α : Type} (read : Answer → Except CacheFailure α) :
    Except String Answer → Except CacheFailure α
  | .error reason => .error (failed reason)
  | .ok answer => read answer

/-- Dials the cache. -/
def connect (url : String) : Flow (Timed Wire) (Except CacheFailure Unit) := do
  match ← Timed.plain (R := Wire) (.dial url) with
  | .error reason => return .error (failed reason)
  | .ok () => return .ok ()

/-- What is kept under a key, if anything. -/
def get (ctx : Context) (key : String) :
    Flow (Timed Wire) (Except Interruption (Except CacheFailure (Option String))) := do
  match ← Timed.guarded (R := Wire) ctx (.run (.get key)) with
  | .error i => return .error i
  | .ok answer => return .ok (received Answer.text? answer)

/-- Keeps a value for a time in milliseconds. -/
def set (ctx : Context) (key value : String) (ttl : Nat) :
    Flow (Timed Wire) (Except Interruption (Except CacheFailure Unit)) := do
  match ← Timed.guarded (R := Wire) ctx (.run (.keep key value ttl)) with
  | .error i => return .error i
  | .ok answer => return .ok (received Answer.done answer)

/-- Asks for a sign of life, and for the right one. -/
def ping : Flow (Timed Wire) (Except CacheFailure Unit) := do
  return received Answer.pong (← Timed.plain (R := Wire) (.run .ping))

end Courier.Cache
