import Courier.Proofs.Flow.Runs

/-!
# Runs by their logs

`Flow.run` takes a program through surroundings with a state. What it asks on the way, and in which
state each time, is `Flow.asked`, which says something also of a run that never ends. A run that
does end is known by its log, and `Flow.Answers` is the way of the state along it
(`run_eq_some_iff`).

Two kinds of surroundings make for the same run if they answer alike whatever a program may ask
(`run_map`, `asked_map`); what it may ask (`Flow.Asks`) is known by its runs (`asks_of_runs`).

A run that has not ended yet has a log too, and a rest of the program that is still to be gone
through (`Flow.Reaches`). It is the beginning of a run that ends (`Reaches.runs`).
-/

set_option autoImplicit false

namespace Courier.Flow

variable {S : Signature} {α β σ τ : Type} {a : α} {p : Flow S α} {s s' : σ}
  {log early late : List (Exchange S)}

/-- How questions are answered in a state, and what they make of it; nothing if they never are. -/
abbrev Step (S : Signature) (σ : Type) := (op : S.Op) → σ → Option (S.Answer op × σ)

/-! ## What is asked -/

/-- What a run asks, each time with the state, as far as it goes. -/
def asked (step : Step S σ) : Flow S α → σ → List (σ × S.Op)
  | .done _, _ => []
  | .ask op next, s => (s, op) :: match step op s with
    | some (x, s') => (next x).asked step s'
    | none => []

/-- One program after another asks what the first asks, and what the second asks if the first
ends. -/
theorem asked_bind (step : Step S σ) (p : Flow S α)
    (f : α → Flow S β) (s : σ) :
    (p.bind f).asked step s = p.asked step s ++ match p.run step s with
      | some (a, s') => (f a).asked step s'
      | none => [] := by
  induction p generalizing s with
  | done a => rfl
  | ask op next ih =>
    simp only [bind, asked, run, List.cons_append]
    cases step op s with
    | none => rfl
    | some found => exact congrArg _ (ih found.1 found.2)

theorem run_last (step : Step S σ) (op : S.Op) (a : α) (s : σ) :
    (Flow.ask op fun _ => .done a).run step s = (step op s).map fun r => (a, r.2) := by
  rw [run]
  cases step op s <;> rfl

theorem asked_last (step : Step S σ) (op : S.Op) (a : α) (s : σ) :
    (Flow.ask op fun _ => .done a).asked step s = [(s, op)] := by
  rw [asked]
  cases step op s <;> rfl

/-- From one state a program goes on as another does from another, and asks this on the way. -/
structure Leads (step : Step S σ) (p : Flow S α) (s : σ)
    (early : List (σ × S.Op)) (q : Flow S α) (t : σ) : Prop where
  run : p.run step s = q.run step t
  asked : p.asked step s = early ++ q.asked step t

theorem Leads.refl (step : Step S σ) (p : Flow S α) (s : σ) :
    Leads step p s [] p s := ⟨rfl, rfl⟩

/-- An answer leads on. -/
theorem Leads.ask {step : Step S σ} {op : S.Op}
    {next : S.Answer op → Flow S α} {x : S.Answer op} {q : Flow S α} {t : σ}
    {early : List (σ × S.Op)} (answered : step op s = some (x, s'))
    (rest : Leads step (next x) s' early q t) :
    Leads step (.ask op next) s ((s, op) :: early) q t := by
  constructor
  · rw [Flow.run, answered]
    exact rest.run
  · rw [Flow.asked, answered]
    exact congrArg _ rest.asked

/-- Whatever it is answered, the program asks only questions of a kind. -/
def Asks (P : S.Op → Prop) : Flow S α → Prop
  | .done _ => True
  | .ask op next => P op ∧ ∀ x, (next x).Asks P

/-- What a program may ask is seen in its runs. -/
theorem asks_of_runs {P : S.Op → Prop} (answers : Surroundings S)
    (h : ∀ log a, Runs p log a → ∀ x ∈ log, P x.op) : p.Asks P := by
  induction p with
  | done a => exact True.intro
  | ask op next ih =>
    constructor
    · have runs := Runs.ask op next _ (play_runs answers (next (answers [] op)) [])
      exact h _ _ runs _ List.mem_cons_self
    · intro x
      refine ih x fun log a runs y hy => ?_
      exact h _ a (.ask op next x runs) y (List.mem_cons_of_mem _ hy)

/-! ## Surroundings that answer alike

A program that asks only what both sides answer alike runs alike on both.
-/

section

variable {P : S.Op → Prop} {step : Step S σ}
  {step' : Step S τ} {view : σ → τ}

/-- A view of the state is enough to run a program by, if the answers can be told from it. -/
theorem run_map
    (alike : ∀ op s, P op → step' op (view s) = (step op s).map fun r => (r.1, view r.2))
    (asks : p.Asks P) (s : σ) :
    p.run step' (view s) = (p.run step s).map fun r => (r.1, view r.2) := by
  induction p generalizing s with
  | done a => rfl
  | ask op next ih =>
    rw [run, run, alike op s asks.1]
    cases step op s with
    | none => rfl
    | some found => exact ih found.1 (asks.2 found.1) found.2

/-- A program that runs alike in two worlds asks the same questions in both, in the states as they
are seen. -/
theorem asked_map
    (alike : ∀ op s, P op → step' op (view s) = (step op s).map fun r => (r.1, view r.2))
    (asks : p.Asks P) (s : σ) :
    p.asked step' (view s) = (p.asked step s).map fun q => (view q.1, q.2) := by
  induction p generalizing s with
  | done a => rfl
  | ask op next ih =>
    rw [asked, asked, alike op s asks.1, List.map_cons]
    cases step op s with
    | none => rfl
    | some found => exact congrArg _ (ih found.1 (asks.2 found.1) found.2)

/-- What is asked in a run is of a kind that the program may ask. -/
theorem asked_of_asks (asks : p.Asks P) {s : σ} {q : σ × S.Op} (mem : q ∈ p.asked step s) :
    P q.2 := by
  induction p generalizing s with
  | done a => cases mem
  | ask op next ih =>
    rw [asked] at mem
    rcases List.mem_cons.1 mem with rfl | mem
    · exact asks.1
    · cases hs : step op s with
      | none =>
        rw [hs] at mem
        cases mem
      | some found =>
        rw [hs] at mem
        exact ih found.1 (asks.2 found.1) mem

end

/-! ## The way of the state -/

section

variable (step : Step S σ)

/-- The questions are answered like this one after the other, and the state is then another. -/
inductive Answers : σ → List (Exchange S) → σ → Prop
  | nil (s : σ) : Answers s [] s
  | cons {s s₁ s₂ : σ} {x : Exchange S} {log : List (Exchange S)}
      (answered : step x.op s = some (x.answer, s₁)) (rest : Answers s₁ log s₂) :
      Answers s (x :: log) s₂

end

variable {step : Step S σ}

/-- A run that ends is one of the program's, with the answers that its surroundings give. -/
theorem run_eq_some_iff :
    p.run step s = some (a, s') ↔ ∃ log, Runs p log a ∧ Answers step s log s' := by
  -- the program and its run end together, so the induction is on the program with any state to
  -- begin in
  induction p generalizing s with
  | done b =>
    constructor
    · rintro ⟨⟩
      exact ⟨[], .done _, .nil _⟩
    · rintro ⟨_, ⟨⟩, ⟨⟩⟩
      rfl
  | ask op next ih =>
    rw [run]
    constructor
    · intro h
      cases hs : step op s with
      | none =>
        rw [hs] at h
        cases h
      | some found =>
        rw [hs] at h
        obtain ⟨log, runs, rest⟩ := (ih found.1).1 h
        exact ⟨⟨op, found.1⟩ :: log, .ask op next found.1 runs, .cons hs rest⟩
    · rintro ⟨_, runs, answers⟩
      obtain ⟨x, rest, rfl, more⟩ := runs_ask_iff.1 runs
      cases answers with
      | cons answered answers =>
        dsimp only at answered
        rw [answered]
        exact (ih x).2 ⟨rest, more, answers⟩

/-! ## Runs that have not ended yet

What is left of a program after a log. Whatever is said of all its runs can be said of their
beginnings, as every beginning goes on to an end.
-/

/-- With these answers to what it has asked, the program has come so far. -/
inductive Reaches : Flow S α → List (Exchange S) → Flow S α → Prop
  | start (p : Flow S α) : Reaches p [] p
  | ask (op : S.Op) (next : S.Answer op → Flow S α) (x : S.Answer op) {log : List (Exchange S)}
      {left : Flow S α} (h : Reaches (next x) log left) :
      Reaches (.ask op next) (⟨op, x⟩ :: log) left

theorem Reaches.runs {left : Flow S α} (h : Reaches p early left) (rest : Runs left late a) :
    Runs p (early ++ late) a := by
  induction h with
  | start p => exact rest
  | ask op next x h ih => exact .ask op next x (ih rest)

/-- One answer more. -/
theorem Reaches.more {op : S.Op} {next : S.Answer op → Flow S α}
    (h : Reaches p log (.ask op next)) (x : S.Answer op) :
    Reaches p (log ++ [⟨op, x⟩]) (next x) := by
  generalize hl : Flow.ask op next = left at h
  induction h with
  | start p =>
    subst hl
    exact .ask op next x (.start _)
  | ask op' next' x' h ih => exact .ask op' next' x' (ih hl)

theorem Reaches.runs_on {op : S.Op} {next : S.Answer op → Flow S α} (answers : Surroundings S)
    (h : Reaches p log (.ask op next)) (x : S.Answer op) :
    ∃ later a, Runs p (log ++ ⟨op, x⟩ :: later) a := by
  have runs := (h.more x).runs (play_runs answers (next x) [])
  rw [List.append_assoc] at runs
  exact ⟨_, _, runs⟩

end Courier.Flow
