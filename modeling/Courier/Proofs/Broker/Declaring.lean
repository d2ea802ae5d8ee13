import Courier.Broker.Publisher
import Courier.Proofs.Flow.Layers
import Mathlib.Algebra.Group.Int.Defs
import Mathlib.Algebra.Group.Nat.Defs

/-!
# What is declared

A publisher declares the topology of its configuration from the first declaration on and never
skips one: where the broker refuses, it stops (`connect_declares`). It is connected once all have
been granted, and a broker may grant them all (`exists_connects`). What becomes of a time on the way
is said by `timeToLive_toInt`: the number that is sent has a sign.
-/

set_option autoImplicit false

namespace Courier

open Courier.Flow (Runs runs_bind_iff runs_call_iff runs_pure_iff)

/-! ## Times with a sign

The cast keeps the bits, so it changes the number exactly from `2 ^ 63` on.
-/

/-- What is read as a number with a sign: the same below half the range of 64 bits, else one that
is too small by all of it. -/
def signed (n : UInt64) : Int := if n.toNat < 2 ^ 63 then n.toNat else n.toNat - 2 ^ 64

theorem signed_eq_iff {n : UInt64} : signed n = n.toNat ↔ n.toNat < 2 ^ 63 := by
  unfold signed
  split <;> omega

theorem signed_neg_iff {n : UInt64} : signed n < 0 ↔ 2 ^ 63 ≤ n.toNat := by
  have small := n.toNat_lt
  unfold signed
  split <;> omega

theorem Config.timeToLive_toInt (ms : UInt64) : (Config.timeToLive ms).toInt = signed ms := by
  have bits : ms.toBitVec.toNat = ms.toNat := rfl
  show ms.toBitVec.toInt = _
  rw [BitVec.toInt_eq_toNat_cond, bits, signed]
  split <;> split <;> omega

namespace Broker

variable {ds : List Declaration} {c : Config} {log : List (Exchange (Timed Wire))}

/-- The declaration that an operation makes. -/
def declaration? : (Timed Wire).Op → Option Declaration
  | .plain (.declare d) => some d
  | _ => none

/-- All that was declared, in its order. -/
def declarations (log : List (Exchange (Timed Wire))) : List Declaration :=
  log.filterMap fun x => declaration? x.op

/-- The queue that a declaration makes, and the time after which it drops messages. -/
def Declaration.queue? : Declaration → Option (String × Int)
  | .queue name ttl => some (name, ttl.toInt)
  | _ => none

/-- The queues that were declared, in their order. -/
def queues (log : List (Exchange (Timed Wire))) : List (String × Int) :=
  (declarations log).filterMap Declaration.queue?

/-- Declarations are made in their order, up to the first one that is refused. -/
theorem declareAll_declares {result : Except PublishFailure Unit}
    (h : Runs (declareAll ds) log result) :
    declarations log <+: ds ∧ (result = .ok () → declarations log = ds) := by
  -- by induction on the declarations to come
  induction ds generalizing log with
  | nil =>
    obtain ⟨rfl, -⟩ := runs_pure_iff.1 h
    exact ⟨List.nil_prefix, fun _ => rfl⟩
  | cons d rest ih =>
    obtain ⟨word, early, late, rfl, asked, goesOn⟩ := runs_bind_iff.1 h
    obtain rfl := runs_call_iff.1 asked
    cases word with
    | error reason =>
      obtain ⟨rfl, rfl⟩ := runs_pure_iff.1 goesOn
      exact ⟨List.prefix_append [d] rest, nofun⟩
    | ok =>
      obtain ⟨begun, all⟩ := ih goesOn
      exact ⟨List.cons_prefix_cons.2 ⟨rfl, begun⟩, fun ok => congrArg (d :: ·) (all ok)⟩

theorem exists_declareAll (ds : List Declaration) : ∃ log, Runs (declareAll ds) log (.ok ()) := by
  induction ds with
  | nil => exact ⟨[], .done _⟩
  | cons d rest ih =>
    obtain ⟨log, granted⟩ := ih
    let word : Except String Unit := .ok ()
    exact ⟨_, runs_bind_iff.2 ⟨word, _, log, rfl, runs_call_iff.2 rfl, granted⟩⟩

namespace Publisher

/-- **What is declared** on the way to a connection. -/
theorem connect_declares {result : Except PublishFailure Publisher}
    (h : Runs (connect c) log result) :
    declarations log <+: c.topology ∧
      ∀ p, result = .ok p → p = ofConfig c ∧ declarations log = c.topology := by
  obtain ⟨word, early, late, rfl, dialled, goesOn⟩ := runs_bind_iff.1 h
  obtain rfl := runs_call_iff.1 dialled
  cases word with
  | error reason =>
    obtain ⟨rfl, rfl⟩ := runs_pure_iff.1 goesOn
    exact ⟨List.nil_prefix, nofun⟩
  | ok =>
    obtain ⟨done, own, last, rfl, declared, told⟩ := runs_bind_iff.1 goesOn
    obtain ⟨begun, all⟩ := declareAll_declares declared
    cases done with
    | error e =>
      obtain ⟨rfl, rfl⟩ := runs_pure_iff.1 told
      rw [List.append_nil]
      exact ⟨begun, nofun⟩
    | ok =>
      obtain ⟨rfl, rfl⟩ := runs_pure_iff.1 told
      rw [List.append_nil]
      exact ⟨begun, fun p connected => ⟨(Except.ok.inj connected).symm, all rfl⟩⟩

theorem exists_connects (c : Config) : ∃ log, Runs (connect c) log (.ok (ofConfig c)) := by
  obtain ⟨log, granted⟩ := exists_declareAll c.topology
  let word : Except String Unit := .ok ()
  refine ⟨_, runs_bind_iff.2 ⟨word, _, log, rfl, runs_call_iff.2 rfl, runs_bind_iff.2 ?_⟩⟩
  exact ⟨_, log, [], (List.append_nil log).symm, granted, .done _⟩

end Publisher

end Broker

end Courier
