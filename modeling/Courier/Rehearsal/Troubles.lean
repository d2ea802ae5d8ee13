import Courier.Failure

/-!
# Troubles

What can be made to go wrong in a rehearsal: for each call of a dependency, how long it takes, what
it fails with, and for how many calls this lasts.
-/

set_option autoImplicit false

namespace Courier.Rehearsal

/-- The calls that can be troubled. -/
inductive Method where
  | storeCreate
  | storeGet
  | storeUpdate
  | storeList
  | storeHealth
  | publish
  | deadLetter
  | publisherHealth
  | cacheGet
  | cacheSet
  | cachePing
  | usersGet
  | usersRecordSent
  | templatesRender
  deriving DecidableEq, Repr

namespace Method

/-- How a call fails. -/
abbrev Failure : Method → Type
  | storeCreate | storeGet | storeUpdate | storeList | storeHealth => StoreFailure
  | publish | deadLetter | publisherHealth => PublishFailure
  | cacheGet | cacheSet | cachePing => CacheFailure
  | usersGet | usersRecordSent | templatesRender => ClientFailure

def name : Method → String
  | storeCreate => "store.create"
  | storeGet => "store.get"
  | storeUpdate => "store.update"
  | storeList => "store.list"
  | storeHealth => "store.health"
  | publish => "publish"
  | deadLetter => "dlq"
  | publisherHealth => "publisher.health"
  | cacheGet => "cache.get"
  | cacheSet => "cache.set"
  | cachePing => "cache.ping"
  | usersGet => "users.get"
  | usersRecordSent => "users.record_sent"
  | templatesRender => "templates.render"

end Method

/-- Trouble with calls that fail in a given way. -/
structure Trouble (ε : Type) where
  /-- How long a call takes, in milliseconds. -/
  takes : Nat := 0
  failure : Option ε := none
  /-- How many calls it lasts; without a number it does not end. -/
  times : Option Nat := none
  deriving DecidableEq, Repr

/-- The troubles of all calls. -/
def Troubles : Type := (m : Method) → Option (Trouble m.Failure)

namespace Troubles

def none : Troubles := fun _ => Option.none

/-- Sets or ends the trouble of one call. -/
def set (t : Troubles) (m : Method) (trouble : Option (Trouble m.Failure)) : Troubles := fun n =>
  if h : m = n then h ▸ trouble else t n

/-- A call begins: how long it takes, whether it fails, and the troubles from then on. -/
def begin (t : Troubles) (m : Method) : Nat × Except m.Failure Unit × Troubles :=
  let result (failure : Option m.Failure) : Except m.Failure Unit :=
    match failure with
    | some e => .error e
    | Option.none => .ok ()
  match t m with
  | Option.none => (0, .ok (), t)
  | some trouble =>
    match trouble.times with
    | Option.none => (trouble.takes, result trouble.failure, t)
    | some 0 => (0, .ok (), t)
    | some (n + 1) =>
      (trouble.takes, result trouble.failure, t.set m (some { trouble with times := some n }))

end Troubles

end Courier.Rehearsal
