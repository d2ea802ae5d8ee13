import Courier.Flow.Basic

/-!
# What a program asks

Seen from outside, a run of a program is what it asked and what it was told, in order, and the
result. `Flow.Runs` says which of these are possible, whatever the answers are; a sequence of
programs runs as its parts do one after the other (`runs_bind_iff`).

`Surroundings` answer as they like, and may go by everything that has happened before; `Flow.play`
is the run of a program in them. That it ends is no assumption: a program asks finitely often.

Nothing in this module knows of time or of state. What is true of all runs of a program here is true
of it under every clock and with every server.
-/

set_option autoImplicit false

namespace Courier

/-- A question and its answer. -/
structure Exchange (S : Signature) where
  op : S.Op
  answer : S.Answer op

/-- A way to answer, given all that has been asked and answered so far. -/
def Surroundings (S : Signature) : Type := List (Exchange S) → (op : S.Op) → S.Answer op

namespace Flow

variable {S : Signature} {α β : Type}

/-- With some answers the program asks these questions and ends with this result. -/
inductive Runs : Flow S α → List (Exchange S) → α → Prop
  | done (a : α) : Runs (.done a) [] a
  | ask (op : S.Op) (next : S.Answer op → Flow S α) (x : S.Answer op) {log : List (Exchange S)}
      {a : α} (h : Runs (next x) log a) : Runs (.ask op next) (⟨op, x⟩ :: log) a

/-- A program that is done asks nothing. -/
theorem runs_pure_iff {a b : α} {log : List (Exchange S)} :
    Runs (pure a : Flow S α) log b ↔ log = [] ∧ b = a := by
  constructor
  · intro h
    cases h
    exact ⟨rfl, rfl⟩
  · rintro ⟨rfl, rfl⟩
    exact .done b

theorem runs_ask_iff {op : S.Op} {next : S.Answer op → Flow S α} {log : List (Exchange S)} {a : α} :
    Runs (.ask op next) log a ↔ ∃ x rest, log = ⟨op, x⟩ :: rest ∧ Runs (next x) rest a := by
  constructor
  · intro h
    cases h with
    | ask _ _ x h => exact ⟨x, _, rfl, h⟩
  · rintro ⟨x, rest, rfl, h⟩
    exact .ask op next x h

/-- A run of one program after another is a run of the first and then one of the second, which may
depend on the result of the first. -/
theorem runs_bind_iff {p : Flow S α} {f : α → Flow S β} {log : List (Exchange S)} {b : β} :
    Runs (p >>= f) log b ↔
      ∃ a early late, log = early ++ late ∧ Runs p early a ∧ Runs (f a) late b := by
  -- the questions are those of the first program until it is done
  rw [bind_def]
  induction p generalizing log with
  | done a =>
    constructor
    · exact fun h => ⟨a, [], log, rfl, .done a, h⟩
    · rintro ⟨_, _, _, rfl, ⟨⟩, h⟩
      exact h
  | ask op next ih =>
    rw [bind, runs_ask_iff]
    constructor
    · rintro ⟨x, rest, rfl, h⟩
      obtain ⟨a, early, late, rfl, hp, hf⟩ := (ih x).1 h
      exact ⟨a, _, late, rfl, .ask op next x hp, hf⟩
    · rintro ⟨a, early, late, rfl, hp, hf⟩
      obtain ⟨x, rest, rfl, hn⟩ := runs_ask_iff.1 hp
      exact ⟨x, rest ++ late, rfl, (ih x).2 ⟨a, rest, late, rfl, hn, hf⟩⟩

theorem Runs.of_call {op : S.Op} {f : S.Answer op → Flow S α} {log : List (Exchange S)} {a : α}
    (h : Runs (call op >>= f) log a) : ∃ x rest, log = ⟨op, x⟩ :: rest ∧ Runs (f x) rest a :=
  runs_ask_iff.1 h

/-- The run of a program in its surroundings, after what has happened before: what it asks, and its
result. -/
def play (w : Surroundings S) : Flow S α → List (Exchange S) → List (Exchange S) × α
  | .done a, _ => ([], a)
  | .ask op next, past =>
    let said : Exchange S := ⟨op, w past op⟩
    let more := (next said.answer).play w (past ++ [said])
    (said :: more.1, more.2)

/-- Every answer in the run of a program is the one that its surroundings give at that point. -/
theorem play_answer {w : Surroundings S} {p : Flow S α} {past before later : List (Exchange S)}
    {x : Exchange S} (h : (p.play w past).1 = before ++ x :: later) :
    x.answer = w (past ++ before) x.op := by
  induction p generalizing past before with
  | done a => cases before <;> cases h
  | ask op next ih =>
    cases before with
    | nil =>
      obtain ⟨rfl, -⟩ := List.cons.inj h
      rw [List.append_nil]
    | cons y before =>
      obtain ⟨rfl, hr⟩ := List.cons.inj h
      have hx := ih _ hr
      rwa [List.append_assoc] at hx

theorem play_runs (w : Surroundings S) (p : Flow S α) (past : List (Exchange S)) :
    Runs p (p.play w past).1 (p.play w past).2 := by
  induction p generalizing past with
  | done a => exact .done a
  | ask op next ih => exact .ask op next _ (ih _ _)

/-- What is made of the result does not matter to what is asked. -/
theorem play_map (w : Surroundings S) (p : Flow S α) (f : α → β) (past : List (Exchange S)) :
    (p >>= fun a => pure (f a)).play w past = ((p.play w past).1, f (p.play w past).2) := by
  rw [bind_def]
  induction p generalizing past with
  | done a => rfl
  | ask op next ih =>
    simp only [bind, play]
    rw [ih]

end Flow

end Courier
