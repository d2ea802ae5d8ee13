import Courier.Pipeline.Backend

/-!
# Checking health

One check (`check_all`): store, cache and broker are asked side by side, then each is waited for,
and when all three waits are over come the breakers and the time of day. The waits end at the same
time however they are ordered, since every dependency has been asked before the first of them.

`Scene` gives what there is to be found by a check and when, which is all that a check depends on.
-/

set_option autoImplicit false

namespace Courier

namespace Health

/-- Waits for a dependency that has been asked at an instant, for no longer than the timeout from
then on (`probe`). -/
def await (timeout since : Nat) (dependency : Dependency) : Flow Backend Probe := do
  return Probe.seen since (← Backend.sign dependency since (since + timeout))

/-- The report on everything, with as long a wait for every dependency as the timeout
(`check_all`). -/
def check (timeout : Nat) : Flow Backend HealthReport := do
  let since ← Backend.now
  Backend.probe
  let database ← await timeout since .database
  let cache ← await timeout since .cache
  let broker ← await timeout since .broker
  let breakers ← Backend.breakers
  return report timeout ⟨database, cache, broker⟩ breakers (← Backend.wallClock)

/-! ## Scenes -/

/-- A breaker in front of a service. It may be in any state at any time. -/
structure Guard where
  service : String
  config : BreakerConfig
  breaker : Nat → Breaker

/-- What a look at the breaker finds. -/
def Guard.look (g : Guard) (now : Nat) : BreakerView :=
  ((g.breaker now).refresh g.config now).view g.service now

/-- What there is to be found by a health check, and when: what the dependencies do that are asked
at an instant, the breakers, and the time of day. -/
structure Scene where
  probes : Nat → Probes
  guards : List Guard
  clock : Nat → DateTime

/-- Nothing but a health check is answered. -/
def Scene.step (scene : Scene) :
    (op : Signature.Op Backend) → Nat → Option (Signature.Answer Backend op × Nat)
  | .now, now => some (now, now)
  | .probe, now => some ((), now)
  | .sign dependency since limit, now =>
    let probe := (scene.probes since).of dependency
    some (probe.sign? since limit, max now (probe.overAt since limit))
  | .breakers, now => some (scene.guards.map (·.look now), now)
  | .wallClock, now => some (scene.clock now, now)
  | _, _ => none

end Health

end Courier
