import Courier.Proofs.Flow.Logs

/-!
# Programs that are done by programs

When every question of a program is answered by a program of another signature, a run shows on two
layers: what the upper program asks and is told, and what is asked below for each of its questions.
`Carried` is a question of the upper layer with all that belongs to it. The runs of the whole are
the runs of the upper program whose steps are carried (`runs_interpret_iff`), and `carry` is the one
in given surroundings.

The pipeline asks its backend, the backend's questions are programs of the clients, and the clients
ask their wires: claims about what goes over a wire are proved on the lower layer and read off the
upper one, by way of these steps.
-/

set_option autoImplicit false

namespace Courier.Flow

variable {S T : Signature} {α β : Type} {a : α} {p : Flow S α}
  {handle : (op : S.Op) → Flow T (S.Answer op)} {log : List (Exchange T)}

/-- A single question is one exchange and no more. -/
theorem runs_call_iff {op : T.Op} {x : T.Answer op} :
    Runs (call op) log x ↔ log = [⟨op, x⟩] := by
  rw [call, runs_ask_iff]
  constructor
  · rintro ⟨y, rest, rfl, h⟩
    cases h
    rfl
  · rintro rfl
    exact ⟨x, [], rfl, .done x⟩

/-- A question and its answer, with what has been asked to find it. -/
structure Carried (handle : (op : S.Op) → Flow T (S.Answer op)) where
  exchange : Exchange S
  log : List (Exchange T)
  runs : Runs (handle exchange.op) log exchange.answer

/-- The runs of a program that is done by programs: those of the upper one, each of whose questions
is carried by a run below. -/
theorem runs_interpret_iff :
    Runs (p.interpret handle) log a ↔ ∃ steps : List (Carried handle),
      Runs p (steps.map (·.exchange)) a ∧ steps.flatMap (·.log) = log := by
  -- by induction on the upper program: its first question takes a piece off the front of the log
  -- below
  induction p generalizing log with
  | done b =>
    constructor
    · rintro ⟨⟩
      exact ⟨[], .done _, rfl⟩
    · rintro ⟨_ | ⟨step, steps⟩, h, rfl⟩ <;> cases h
      exact .done _
  | ask op next ih =>
    rw [interpret, ← bind_def, runs_bind_iff]
    constructor
    · rintro ⟨x, early, late, rfl, here, h⟩
      obtain ⟨steps, more, rfl⟩ := (ih x).1 h
      exact ⟨⟨⟨op, x⟩, early, here⟩ :: steps, .ask op next x more, rfl⟩
    · rintro ⟨_ | ⟨step, steps⟩, h, rfl⟩
      · cases h
      · obtain ⟨x, rest, split, more⟩ := runs_ask_iff.1 h
        obtain ⟨here, rfl⟩ := List.cons.inj split
        obtain ⟨_, early, runs⟩ := step
        cases here
        exact ⟨x, early, _, rfl, runs, (ih x).2 ⟨steps, more, rfl⟩⟩

/-- The steps of a run in surroundings of the lower layer, and its result. -/
def carry (handle : (op : S.Op) → Flow T (S.Answer op)) (w : Surroundings T) :
    Flow S α → List (Exchange T) → List (Carried handle) × α
  | .done a, _ => ([], a)
  | .ask op next, past =>
    let inner := (handle op).play w past
    let more := (next inner.2).carry handle w (past ++ inner.1)
    (⟨⟨op, inner.2⟩, inner.1, play_runs w (handle op) past⟩ :: more.1, more.2)

theorem carry_runs (w : Surroundings T) (p : Flow S α) (past : List (Exchange T)) :
    Runs p ((p.carry handle w past).1.map (·.exchange)) (p.carry handle w past).2 := by
  induction p generalizing past with
  | done a => exact .done a
  | ask op next ih => exact .ask op next _ (ih _ _)

/-! ## What may be asked -/

variable {P : T.Op → Prop}

theorem Asks.bind {q : Flow T α} {f : α → Flow T β} (h : q.Asks P) (hf : ∀ a, (f a).Asks P) :
    (q >>= f).Asks P := by
  rw [bind_def]
  induction q with
  | done a => exact hf a
  | ask op next ih => exact ⟨h.1, fun x => ih x (h.2 x)⟩

theorem Asks.first {op : S.Op} {Q : S.Op → Prop} {f : S.Answer op → Flow S α} (hq : Q op)
    (hf : ∀ x, (f x).Asks Q) : (call op >>= f).Asks Q :=
  Asks.bind ⟨hq, fun _ => True.intro⟩ hf

theorem Asks.interpret_of {Q : S.Op → Prop} (h : p.Asks Q)
    (done : ∀ op, Q op → (handle op).Asks P) : (p.interpret handle).Asks P := by
  induction p with
  | done a => exact True.intro
  | ask op next ih => exact (done op h.1).bind fun x => ih x (h.2 x)

theorem Asks.interpret (h : ∀ op, (handle op).Asks P) : (p.interpret handle).Asks P := by
  induction p with
  | done a => exact True.intro
  | ask op next ih => exact (h op).bind ih

theorem Asks.of_runs {q : Flow T α} (h : q.Asks P) (runs : Runs q log a) : ∀ x ∈ log, P x.op := by
  induction runs with
  | done a => exact fun x hx => absurd hx List.not_mem_nil
  | ask op next x runs ih => exact List.forall_mem_cons.2 ⟨h.1, ih (h.2 x)⟩

end Courier.Flow
