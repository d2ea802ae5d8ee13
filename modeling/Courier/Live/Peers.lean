import Courier.Broker.Peer
import Courier.Cache.Peer
import Courier.Http.Peer
import Courier.Live.Service
import Courier.Store.Peer

/-!
# Surroundings that are played

The other ends of all wires together, with a clock that shows a time of day for every instant and
identifiers by their numbers. No command, statement, message or request takes time.
-/

set_option autoImplicit false

namespace Courier.Live

/-- The state of everything at the other end. -/
structure Peers where
  users : Http.Peer
  templates : Http.Peer
  store : Store.Peer := {}
  broker : Broker.Peer := {}
  cache : Cache.Peer := {}
  /-- The time of day at an instant. -/
  clock : Nat → DateTime
  /-- The identifier that is given out under a number. -/
  identifier : Nat → Uuid
  /-- How many identifiers have been given out. -/
  given : Nat := 0
  /-- The reports that are still to be made: users, each with the time for it. -/
  tracked : List (String × Nat) := []
  /-- What the dependencies do that have been asked for a sign of life. -/
  probing : Health.Probes := ⟨⟨none, none⟩, ⟨none, none⟩, ⟨none, none⟩⟩

namespace Peers

/-- What a dependency that answers at once tells of itself. -/
def sign {ε : Type} (message : ε → String) : Except ε Unit → Health.Probe
  | .ok () => ⟨some 0, none⟩
  | .error e => ⟨some 0, some (message e)⟩

/-- The sign of life of a dependency, and what it is like afterwards. -/
def signOf {R : Signature} {σ ε : Type} (message : ε → String) (server : Timed.Server R σ)
    (health : Flow (Timed R) (Except ε Unit)) (now : Nat) (s : σ) : Health.Probe × σ :=
  match Timed.run server health ⟨now, s⟩ with
  | some (r, w) => (sign message r, w.state)
  | none => (⟨none, none⟩, s)

/-- Store, cache and broker are asked at once. A played dependency answers at once or, when it
cannot be reached, fails at once. -/
def probes (p : Peers) (now : Nat) : Health.Probes × Peers :=
  let store := signOf StoreFailure.message Store.Peer.server Store.health now p.store
  let cache := signOf CacheFailure.message Cache.Peer.server Cache.ping now p.cache
  let broker :=
    signOf PublishFailure.message Broker.Peer.server Broker.Publisher.health now p.broker
  (⟨store.1, cache.1, broker.1⟩,
    { p with store := store.2, cache := cache.2, broker := broker.2 })

/-- What comes over the wires. The breakers are looked at one after the other, in the order in which
the service lists them. -/
def answer (now : Nat) (p : Peers) : (q : Query) → Wires.Answer q × Peers
  | .wallClock => (p.clock now, p)
  | .freshId => (p.identifier (p.given + 1), { p with given := p.given + 1 })
  | .users q => let found := p.users.answer now q; (found.1, { p with users := found.2 })
  | .templates q =>
    let found := p.templates.answer now q
    (found.1, { p with templates := found.2 })
  | .store q => let found := p.store.answer q; (found.1, { p with store := found.2 })
  | .broker q => let found := p.broker.answer q; (found.1, { p with broker := found.2 })
  | .cache q => let found := p.cache.answer now q; (found.1, { p with cache := found.2 })
  | .track userId timeout => ((), { p with tracked := p.tracked ++ [(userId, timeout)] })
  | .probe => let found := p.probes now; ((), { found.2 with probing := found.1 })
  | .sign dependency since limit => ((p.probing.of dependency).sign? since limit, p)
  | .breakers =>
    let p := { p with users := p.users.look now, templates := p.templates.look now }
    ([p.users.view userService now, p.templates.view templateService now], p)

def server : Timed.Server Wires Peers where
  work now q p :=
    let found := p.answer now q
    Timed.Work.immediate found.1 found.2

end Peers

end Courier.Live
