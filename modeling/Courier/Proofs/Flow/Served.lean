import Courier.Proofs.Flow.Bounds
import Courier.Proofs.Flow.Runs

/-!
# Programs that end in time

Work under a context with a deadline ends by that deadline, whatever is outside and even if nothing
there is ever answered: it is given up then. So a program that keeps within such a context ends by
then, however often it tries (`endsBy_of_bounded`).

A program whose questions are answered by programs goes from one question to the next, and the
world with it. `Timed.Serves` is the way of the world along what is asked, so that a run is known by
its questions (`run_of_runs`) and its time by theirs (`Serves.time_le`).

The two halves meet in the claims on time: `endsBy_of_bounded` bounds each question of the pipeline
by the client that does it, and `Serves.time_le` puts the questions of a run together.
-/

set_option autoImplicit false

namespace Courier.Timed

variable {R S : Signature} {α σ : Type} {server : Server R σ} {w w' : World σ} {ctx : Context}
  {inner outer : R.Op → Prop} {limit : Nat}

/-- What stays inside is answered at once. -/
def Prompt (server : Server R σ) (inner : R.Op → Prop) : Prop :=
  ∀ now r s, inner r → (server.work now r s).takes = some 0

/-- Begun at any time, the program ends by a limit, or at once where that lies in the past. -/
def EndsBy (server : Server R σ) (p : Flow (Timed R) α) (limit : Nat) : Prop :=
  ∀ w, Ends server p w fun _ w' => w'.time ≤ max w.time limit

/-- Under a deadline a wait ends by then, one way or the other. -/
theorem Awaits.ends {k : Except Interruption α → Nat → Prop} (awaits : Awaits ctx k)
    (deadline : ctx.deadline = some limit) (now : Nat) (takes : Option Nat) :
    ∃ ending, ctx.race now takes = some ending ∧ ending.time ≤ max now limit ∧
      match ending with
      | .finished t => ∀ x, k (.ok x) t
      | .interrupted why t => k (.error why) t := by
  obtain ⟨ending, he⟩ := Option.ne_none_iff_exists'.1 (Context.race_ends (.inr deadline))
  refine ⟨ending, he, Context.race_le he (.inr deadline), ?_⟩
  cases ending with
  | finished t => exact fun x => awaits.answered x t (Context.race_finished_iff.1 he).2
  | interrupted why t => exact awaits.interrupted why t (Context.check_of_race he).2

/-- One operation that is within bounds ends, as wanted and by the limit. -/
theorem step_bounded (prompt : Prompt server inner) (deadline : ctx.deadline = some limit)
    {op : (Timed R).Op} {k : (Timed R).Answer op → Nat → Prop}
    (h : bounded ctx inner outer op w.time k) :
    ∃ x w', step server op w = some (x, w') ∧ k x w'.time ∧ w'.time ≤ max w.time limit := by
  -- four kinds of operation: only the last two can be interrupted
  cases op with
  | now => exact ⟨w.time, w, rfl, h, Nat.le_max_left _ _⟩
  | plain r =>
    have takes := prompt w.time r w.state h.1
    exact ⟨_, _, congrArg (Option.map _) takes, h.2 _, Nat.le_max_left _ _⟩
  | race c r =>
    obtain ⟨rfl, -, -, awaits⟩ := h
    obtain ⟨ending, he, inTime, hk⟩ := awaits.ends deadline w.time _
    refine ⟨_, _, congrArg (Option.map _) he, ?_⟩
    cases ending with
    | finished t => exact ⟨hk _, inTime⟩
    | interrupted why t => exact ⟨hk, inTime⟩
  | pause c delay jitter =>
    obtain ⟨rfl, awaits⟩ := h
    obtain ⟨ending, he, inTime, hk⟩ := awaits.ends deadline w.time _
    refine ⟨_, _, congrArg (Option.map _) he, ?_⟩
    cases ending with
    | finished t => exact ⟨hk _, inTime⟩
    | interrupted why t => exact ⟨hk, inTime⟩

/-- A program within bounds ends, as wanted and by the limit. -/
theorem ends_of_bounded (prompt : Prompt server inner) (deadline : ctx.deadline = some limit)
    {p : Flow (Timed R) α} {post : α → Nat → Prop}
    (h : Bounded ctx inner outer p w.time post) :
    Ends server p w fun a w' => post a w'.time ∧ w'.time ≤ max w.time limit := by
  induction p generalizing w with
  | done a => exact ⟨h, Nat.le_max_left _ _⟩
  | ask op next ih =>
    obtain ⟨x, w₁, hs, hn, h₁⟩ := step_bounded prompt deadline h
    refine ⟨x, w₁, hs, (ih x hn).mono ending_mono fun a w₂ h₂ => ⟨h₂.1, ?_⟩⟩
    calc w₂.time ≤ max w₁.time limit := h₂.2
      _ ≤ max w.time limit := Nat.max_le.2 ⟨h₁, Nat.le_max_right _ _⟩

theorem endsBy_of_bounded (prompt : Prompt server inner) (deadline : ctx.deadline = some limit)
    {p : Flow (Timed R) α}
    (h : ∀ t, Bounded ctx inner outer p t fun _ _ => True) : EndsBy server p limit :=
  fun w => (ends_of_bounded prompt deadline (h w.time)).mono ending_mono fun _ _ hp => hp.2

/-! ## From question to question

A run on the wires seen from above: each question is played by its program, which starts where the
last one ended.
-/

section

variable (server : Server R σ) (play : (op : S.Op) → Flow (Timed R) (S.Answer op))

/-- The questions are answered like this one after the other, and the world is then another. -/
inductive Serves : World σ → List (Exchange S) → World σ → Prop
  | nil (w : World σ) : Serves w [] w
  | cons {w w₁ w₂ : World σ} {x : Exchange S} {log : List (Exchange S)}
      (played : run server (play x.op) w = some (x.answer, w₁)) (rest : Serves w₁ log w₂) :
      Serves w (x :: log) w₂

end

variable {play : (op : S.Op) → Flow (Timed R) (S.Answer op)} {early late log : List (Exchange S)}

/-- The way of the world goes through every point between two questions. -/
theorem serves_append_iff :
    Serves server play w (early ++ late) w' ↔
      ∃ v, Serves server play w early v ∧ Serves server play v late w' := by
  induction early generalizing w with
  | nil =>
    constructor
    · exact fun h => ⟨w, .nil w, h⟩
    · rintro ⟨_, ⟨⟩, h⟩
      exact h
  | cons x early ih =>
    constructor
    · intro h
      cases h with
      | cons played rest =>
        obtain ⟨v, he, hl⟩ := ih.1 rest
        exact ⟨v, .cons played he, hl⟩
    · rintro ⟨v, he, hl⟩
      cases he with
      | cons played rest => exact .cons played (ih.2 ⟨v, rest, hl⟩)

/-- A run of the upper program whose questions are served is what happens when it is run. -/
theorem run_of_runs {p : Flow S α} {a : α} (h : p.Runs log a)
    (served : Serves server play w log w') :
    run server (p.interpret play) w = some (a, w') := by
  induction h generalizing w with
  | done a =>
    cases served
    rfl
  | ask op next x h ih =>
    cases served with
    | cons played rest =>
      rw [Flow.interpret, ← Flow.bind_def, run_bind_of_run played]
      exact ih rest

/-- A program runs to its end if all that it may ask is answered some time. -/
theorem exists_serves (answers : Surroundings S) (p : Flow S α)
    (ends : ∀ log a, p.Runs log a → ∀ x ∈ log, ∃ limit, EndsBy server (play x.op) limit)
    (w : World σ) : ∃ log a w', p.Runs log a ∧ Serves server play w log w' := by
  -- by induction on the program: its first question ends, and the rest is begun where that has left
  -- the world
  induction p generalizing w with
  | done a => exact ⟨[], a, w, .done a, .nil w⟩
  | ask op next ih =>
    have runs := Flow.Runs.ask op next _ (Flow.play_runs answers (next (answers [] op)) [])
    obtain ⟨limit, hl⟩ := ends _ _ runs _ List.mem_cons_self
    obtain ⟨x, w₁, played, -⟩ := ends_iff.1 (hl w)
    obtain ⟨log, a, w', hr, hs⟩ := ih x
      (fun log a h y hy => ends _ a (.ask op next x h) y (List.mem_cons_of_mem _ hy)) w₁
    exact ⟨_, a, w', .ask op next x hr, .cons played hs⟩

/-- All is over by a limit if each question is. -/
theorem Serves.time_le (served : Serves server play w log w')
    (each : ∀ x ∈ log, EndsBy server (play x.op) limit) : w'.time ≤ max w.time limit := by
  induction served with
  | nil w => exact Nat.le_max_left _ _
  | @cons w w₁ w₂ x log played rest ih =>
    obtain ⟨_, _, hr, h₁⟩ := ends_iff.1 (each x List.mem_cons_self w)
    cases played.symm.trans hr
    calc w₂.time ≤ max w₁.time limit := ih fun y hy => each y (List.mem_cons_of_mem _ hy)
      _ ≤ max w.time limit := Nat.max_le.2 ⟨h₁, Nat.le_max_right _ _⟩

end Courier.Timed
