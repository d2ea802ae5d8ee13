/-!
# Programs that ask

A `Flow` is a program that asks its surroundings for things and goes on with the answers. What it
may ask, and what an answer looks like, is its `Signature`; what an answer is, how long it takes
and what it changes is left to those who run it. A program of one signature becomes one of another
when every question of the first is answered by a program of the second (`Flow.interpret`).

Why programs and not functions: what a request comes to depends on clocks, other services and
chance, and most of what is claimed of the service is claimed whatever these do. A program leaves
them open. The pipeline is one program (`Courier.Pipeline`), each client is another one below it,
and the server that a proof puts under them may be anything.

A program is a tree with a branch for every answer, so it holds every run it may have. Proofs go by
recursion on it, and `bind` is where one step of the service follows another.
-/

set_option autoImplicit false

namespace Courier

/-- Questions, and the answers each may get. -/
structure Signature where
  Op : Type
  Answer : Op → Type

/-- A program that asks questions of a signature and ends with a result. -/
inductive Flow (S : Signature) (α : Type) where
  | done (a : α)
  | ask (op : S.Op) (next : S.Answer op → Flow S α)

namespace Flow

variable {S T : Signature} {α β γ σ : Type}

/-- Goes on with the result. -/
def bind : Flow S α → (α → Flow S β) → Flow S β
  | .done a, f => f a
  | .ask op next, f => .ask op fun x => (next x).bind f

instance : Monad (Flow S) where
  pure := .done
  bind := Flow.bind

/-- Asks one question. -/
def call (op : S.Op) : Flow S (S.Answer op) := .ask op .done

theorem pure_def (a : α) : (pure a : Flow S α) = .done a := rfl

theorem bind_def (p : Flow S α) (f : α → Flow S β) : p >>= f = p.bind f := rfl

theorem bind_done (p : Flow S α) : p.bind .done = p := by
  induction p with
  | done a => rfl
  | ask op next ih => simp only [bind]; congr; funext x; exact ih x

/-- Steps may be grouped in any way. With `bind_done` this makes `Flow S` a lawful monad, though
only the equations are used. -/
theorem bind_assoc (p : Flow S α) (f : α → Flow S β) (g : β → Flow S γ) :
    (p.bind f).bind g = p.bind fun a => (f a).bind g := by
  induction p with
  | done a => rfl
  | ask op next ih => simp only [bind]; congr; funext x; exact ih x

/-- Answers every question of a program by another program. What the second asks is asked where the
first would have been answered, so that nothing gets lost between the layers. -/
def interpret (handle : (op : S.Op) → Flow T (S.Answer op)) : Flow S α → Flow T α
  | .done a => .done a
  | .ask op next => (handle op).bind fun x => (next x).interpret handle

/-- Runs a program in surroundings with a state. A question without an answer ends the run without a
result. -/
def run (step : (op : S.Op) → σ → Option (S.Answer op × σ)) : Flow S α → σ → Option (α × σ)
  | .done a, s => some (a, s)
  | .ask op next, s =>
    match step op s with
    | some (x, s') => (next x).run step s'
    | none => none

/-- What is done after something else runs in the state in which that has left the surroundings. -/
theorem run_bind (step : (op : S.Op) → σ → Option (S.Answer op × σ)) (p : Flow S α)
    (f : α → Flow S β) (s : σ) :
    (p.bind f).run step s = (p.run step s).bind fun r => (f r.1).run step r.2 := by
  induction p generalizing s with
  | done a => rfl
  | ask op next ih =>
    -- both sides put the same question to the same state
    simp only [bind, run]
    cases step op s with
    | none => rfl
    | some r => exact ih r.1 r.2

end Flow

end Courier
