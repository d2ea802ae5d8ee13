import Courier.Pipeline.Backend

/-!
# Replies kept for repeated requests

A reply is kept in the cache under the key of its request, so that a repetition of the request gets
it again. The cache never fails a request: an error, an interruption or an entry that does not read
as a reply counts as nothing found, and a reply that cannot be kept is not kept.
-/

set_option autoImplicit false

namespace Courier

namespace Replies

/-- The name of an entry of the cache (`cache_key`). -/
def entryName (key : String) : String := "idempotency:" ++ key

/-- Reads an entry of the cache. -/
def read? (text : String) : Option Reply := (Decoder.ofText Reply.codec.decode text).toOption

/-- The reply that is kept under a key, if there is one and it can be had (`lookup`). The question
is bound to the context of the request and takes its time from it: when it ends with nothing found
because the time is up, the steps that follow have none left. -/
def lookup (ctx : Context) (key : String) : Flow Backend (Option Reply) := do
  match ← Backend.cacheGet ctx (entryName key) with
  | .ok (.ok (some text)) => return read? text
  | .ok (.ok none) | .ok (.error _) | .error _ => return none

/-- Keeps a reply under a key for a time in milliseconds, if that can be done (`store`). -/
def keep (ctx : Context) (key : String) (reply : Reply) (ttl : Nat) : Flow Backend Unit := do
  let _ ← Backend.cacheSet ctx (entryName key) (Reply.codec.text reply) ttl

end Replies

end Courier
