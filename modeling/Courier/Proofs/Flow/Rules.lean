import Courier.Flow.Timed
import Courier.Proofs.Resilience.Race

/-!
# Reasoning along the text of a program

A `Flow.Rule` says of each operation what must hold where it is asked, for something to hold of its
answer and of the state after it. `Flow.Holds` carries a rule along a whole program, so that a
program is reasoned about step by step and is never run; a program whose questions are answered by
programs is judged by what those do (`holds_interpret_iff`).

For programs in time there are two rules. `Timed.Ends`: the program ends, and its end is as wanted.
`Timed.Keeps`: whatever it begins, it begins as wanted, and so is its end if it has one; what it
begins, and when, is `Timed.begun`.

The lemmas for single operations come in pairs, one for each rule, and say the same of what follows:
an interruption is told together with the instant at which the context is found interrupted, an
answer with one at which it is still open.
-/

set_option autoImplicit false

namespace Courier

namespace Flow

variable {S T : Signature} {α β τ : Type}

/-- What an operation takes, for what is wanted after it. -/
abbrev Rule (S : Signature) (τ : Type) := (op : S.Op) → τ → (S.Answer op → τ → Prop) → Prop

/-- A rule by which one may want less. -/
def Rule.Mono (J : Rule S τ) : Prop :=
  ∀ op s (k k' : S.Answer op → τ → Prop), (∀ x s', k x s' → k' x s') → J op s k → J op s k'

/-- By the rule, the end of the program is as wanted. -/
def Holds (J : Rule S τ) : Flow S α → τ → (α → τ → Prop) → Prop
  | .done a, s, post => post a s
  | .ask op next, s, post => J op s fun x s' => (next x).Holds J s' post

variable {J : Rule S τ} {p : Flow S α} {s : τ} {post post' : α → τ → Prop}

/-- What holds at the end of the first program is where the second one is reasoned about. -/
theorem holds_bind_iff {f : α → Flow S β} {post : β → τ → Prop} :
    (p >>= f).Holds J s post ↔ p.Holds J s fun a s' => (f a).Holds J s' post := by
  rw [bind_def]
  induction p generalizing s with
  | done a => rfl
  | ask op next ih =>
    simp only [bind, Holds]
    exact iff_of_eq (congrArg (J op s) (funext fun x => funext fun s' => propext (ih x)))

theorem holds_call_bind_iff {op : S.Op} {f : S.Answer op → Flow S β} {post : β → τ → Prop} :
    (call op >>= f).Holds J s post ↔ J op s fun x s' => (f x).Holds J s' post := .rfl

theorem Holds.mono (hJ : J.Mono) (h : p.Holds J s post) (hp : ∀ a s', post a s' → post' a s') :
    p.Holds J s post' := by
  induction p generalizing s with
  | done a => exact hp a s h
  | ask op next ih => exact hJ op s _ _ (fun x s' hx => ih x hx) h

theorem Holds.transfer {σ : Type} {K : Rule S σ} (hK : K.Mono) (view : σ → τ)
    (enough : ∀ op s k, J op (view s) k → K op s fun x s' => k x (view s')) {s : σ}
    (h : p.Holds J (view s) post) : p.Holds K s fun a s' => post a (view s') := by
  induction p generalizing s with
  | done a => exact h
  | ask op next ih => exact hK op s _ _ (fun x s' hx => ih x hx) (enough op s _ h)

/-- The rule of a program whose questions are answered by programs. -/
def Rule.through (K : Rule T τ) (handle : (op : S.Op) → Flow T (S.Answer op)) : Rule S τ :=
  fun op s k => (handle op).Holds K s k

theorem Rule.Mono.through {K : Rule T τ} (hK : K.Mono)
    (handle : (op : S.Op) → Flow T (S.Answer op)) : (K.through handle).Mono :=
  fun _ _ _ _ hk h => Holds.mono hK h hk

/-- A program that is done by other programs is judged by theirs. -/
theorem holds_interpret_iff {K : Rule T τ} {handle : (op : S.Op) → Flow T (S.Answer op)} :
    (p.interpret handle).Holds K s post ↔ p.Holds (K.through handle) s post := by
  induction p generalizing s with
  | done a => rfl
  | ask op next ih =>
    rw [interpret, ← bind_def, holds_bind_iff]
    simp only [Holds, Rule.through, ih]

end Flow

namespace Timed

variable {R : Signature} {α β σ : Type} {server : Server R σ} {w : World σ} {ctx : Context}
  {r : R.Op}

/-! ## Coming to an end

The rule under which a program comes to an end in a world. `ends_iff` ties it to running; the others
are what it takes of each question.
-/

/-- The operation ends. -/
def ending (server : Server R σ) : Flow.Rule (Timed R) (World σ) := fun op w k =>
  ∃ x w', step server op w = some (x, w') ∧ k x w'

/-- The program ends, and its end is as wanted. -/
abbrev Ends (server : Server R σ) (p : Flow (Timed R) α) (w : World σ)
    (post : α → World σ → Prop) : Prop := p.Holds (ending server) w post

theorem ending_mono : (ending server).Mono :=
  fun _ _ _ _ hk ⟨x, w', hs, h⟩ => ⟨x, w', hs, hk x w' h⟩

/-- That a program ends as wanted is the same as that its run comes to such an end. -/
theorem ends_iff {p : Flow (Timed R) α} {w : World σ} {post : α → World σ → Prop} :
    Ends server p w post ↔ ∃ a w', run server p w = some (a, w') ∧ post a w' := by
  induction p generalizing w with
  | done a =>
    constructor
    · exact fun h => ⟨a, w, rfl, h⟩
    · rintro ⟨_, _, ⟨⟩, h⟩
      exact h
  | ask op next ih =>
    rw [run, Flow.run]
    constructor
    · rintro ⟨x, w', hs, h⟩
      obtain ⟨a, w'', hr, ha⟩ := (ih x).1 h
      rw [hs]
      exact ⟨a, w'', hr, ha⟩
    · rintro ⟨a, w'', hr, ha⟩
      cases hs : step server op w with
      | none =>
        rw [hs] at hr
        cases hr
      | some found =>
        obtain ⟨x, w'⟩ := found
        rw [hs] at hr
        exact ⟨x, w', hs, (ih x).2 ⟨a, w'', hr, ha⟩⟩

section

variable {post : Except Interruption α → World σ → Prop}
  {work : Flow (Timed R) (Except Interruption α)}

theorem ends_now_iff {post : Nat → World σ → Prop} : Ends server now w post ↔ post w.time w := by
  constructor
  · rintro ⟨_, _, ⟨⟩, h⟩
    exact h
  · exact fun h => ⟨_, _, rfl, h⟩

/-- Work that is not begun under an interrupted context has two ends to be looked at. -/
theorem ends_ifOpen (closed : ∀ why, ctx.check w.time = .error why → post (.error why) w)
    (opened : ctx.check w.time = .ok () → Ends server work w post) :
    Ends server (ifOpen ctx work) w post := by
  rw [Ends, ifOpen, check, Flow.holds_bind_iff, Flow.holds_bind_iff]
  refine ends_now_iff.2 ?_
  cases hc : ctx.check w.time with
  | error why => exact closed why hc
  | ok => exact opened hc

theorem ends_plain {post : R.Answer r → World σ → Prop} {d : Nat}
    (takes : (server.work w.time r w.state).takes = some d)
    (answered : post (server.work w.time r w.state).answer.1
      ⟨w.time + d, (server.work w.time r w.state).answer.2⟩) :
    Ends server (plain r) w post :=
  ⟨_, _, congrArg (Option.map _) takes, answered⟩

/-- A request under a context comes to an end if it is answered some time. If it is interrupted, the
answer would have come too late. -/
theorem ends_race {post : Except Interruption (R.Answer r) → World σ → Prop} {d : Nat}
    (takes : (server.work w.time r w.state).takes = some d)
    (interrupted : ∀ why t, w.time ≤ t → ctx.check t = .error why →
      ctx.check (w.time + d) ≠ .ok () →
      post (.error why) ⟨t, (server.work w.time r w.state).begun⟩)
    (answered : ctx.check (w.time + d) = .ok () →
      post (.ok (server.work w.time r w.state).answer.1)
        ⟨w.time + d, (server.work w.time r w.state).answer.2⟩) :
    Ends server (race ctx r) w post := by
  cases he : ctx.race w.time (server.work w.time r w.state).takes with
  | none =>
    rw [takes] at he
    exact absurd he Context.race_ne_none
  | some ending =>
    refine ⟨_, _, congrArg (Option.map _) he, ?_⟩
    cases ending with
    | finished t =>
      obtain ⟨⟨d', hd, rfl⟩, hc⟩ := Context.race_finished_iff.1 he
      cases takes.symm.trans hd
      exact answered hc
    | interrupted why t =>
      obtain ⟨hl, hc⟩ := Context.check_of_race he
      refine interrupted why t hl hc fun inTime => ?_
      cases he.symm.trans (Context.race_finished_iff.2 ⟨⟨d, takes, rfl⟩, inTime⟩)

/-- So does a wait, which changes nothing. -/
theorem ends_pause {delay d : Nat} {jitter : Bool}
    {post : Except Interruption Unit → World σ → Prop}
    (takes : (if jitter then server.stretch delay else delay) = d)
    (interrupted : ∀ why t, w.time ≤ t → ctx.check t = .error why →
      post (.error why) ⟨t, w.state⟩)
    (waited : ctx.check (w.time + d) = .ok () → post (.ok ()) ⟨w.time + d, w.state⟩) :
    Ends server (pause ctx delay jitter) w post := by
  subst takes
  refine ends_ifOpen (fun why hc => interrupted why w.time (Nat.le_refl _) hc) fun _ => ?_
  cases he : ctx.race w.time (some (if jitter then server.stretch delay else delay)) with
  | none => exact absurd he Context.race_ne_none
  | some ending =>
    refine ⟨_, _, congrArg (Option.map _) he, ?_⟩
    cases ending with
    | finished t =>
      obtain ⟨⟨_, ⟨⟩, rfl⟩, hc⟩ := Context.race_finished_iff.1 he
      exact waited hc
    | interrupted why t =>
      obtain ⟨hl, hc⟩ := Context.check_of_race he
      exact interrupted why t hl hc

end

/-! ## What is begun

The rule under which everything begun is as wanted, whether or not the program comes to an end.
-/

/-- What a run begins and when, as far as it goes. -/
def begun (server : Server R σ) : Flow (Timed R) α → World σ → List (Nat × (Timed R).Op)
  | .done _, _ => []
  | .ask op next, w =>
    (w.time, op) :: match step server op w with
      | some (x, w') => begun server (next x) w'
      | none => []

/-- The operation is begun as wanted. -/
def keeping (server : Server R σ) (P : Nat → (Timed R).Op → Prop) :
    Flow.Rule (Timed R) (World σ) := fun op w k =>
  P w.time op ∧ ∀ x w', step server op w = some (x, w') → k x w'

/-- Whatever the program begins is as wanted, and so is its end if it has one. -/
abbrev Keeps (server : Server R σ) (P : Nat → (Timed R).Op → Prop) (p : Flow (Timed R) α)
    (w : World σ) (post : α → World σ → Prop) : Prop := p.Holds (keeping server P) w post

theorem keeping_mono {P : Nat → (Timed R).Op → Prop} : (keeping server P).Mono :=
  fun _ _ _ _ hk h => ⟨h.1, fun x w' hs => hk x w' (h.2 x w' hs)⟩

/-- A program keeps to what is wanted when everything its run begins does, and so does its end if
there is one. -/
theorem keeps_iff {P : Nat → (Timed R).Op → Prop} {p : Flow (Timed R) α} {w : World σ}
    {post : α → World σ → Prop} :
    Keeps server P p w post ↔
      (∀ b ∈ begun server p w, P b.1 b.2) ∧ ∀ a w', run server p w = some (a, w') → post a w' := by
  induction p generalizing w with
  | done a =>
    constructor
    · refine fun h => ⟨fun _ hb => absurd hb List.not_mem_nil, ?_⟩
      rintro _ _ ⟨⟩
      exact h
    · exact fun h => h.2 a w rfl
  | ask op next ih =>
    simp only [Keeps, Flow.Holds, keeping, begun, run, Flow.run, List.forall_mem_cons, and_assoc]
    refine and_congr_right fun _ => ?_
    cases hs : step server op w with
    -- the run stops here and never comes to an end
    | none =>
      constructor
      · refine fun _ => ⟨fun _ hb => absurd hb List.not_mem_nil, ?_⟩
        rintro _ _ ⟨⟩
      · rintro - _ _ ⟨⟩
    | some found =>
      obtain ⟨x, w'⟩ := found
      constructor
      · exact fun h => (ih x).1 (h x w' rfl)
      · rintro h _ _ ⟨⟩
        exact (ih x).2 h

/-- A request outside any context. -/
theorem keeps_plain {P : Nat → (Timed R).Op → Prop} {post : R.Answer r → World σ → Prop}
    (wanted : P w.time (.plain r))
    (answered : ∀ d, (server.work w.time r w.state).takes = some d →
      post (server.work w.time r w.state).answer.1
        ⟨w.time + d, (server.work w.time r w.state).answer.2⟩) :
    Keeps server P (plain r) w post := by
  refine ⟨wanted, fun x w' hs => ?_⟩
  obtain ⟨d, hd, he⟩ := Option.map_eq_some_iff.1 hs
  cases he
  exact answered d hd

/-- A request under a context, which may end either way. -/
theorem keeps_race {P : Nat → (Timed R).Op → Prop}
    {post : Except Interruption (R.Answer r) → World σ → Prop}
    (wanted : P w.time (.race ctx r))
    (interrupted : ∀ why t s, ctx.check t = .error why → post (.error why) ⟨t, s⟩)
    (answered : ∀ x t s, ctx.check t = .ok () → post (.ok x) ⟨t, s⟩) :
    Keeps server P (race ctx r) w post := by
  refine ⟨wanted, fun x w' hs => ?_⟩
  obtain ⟨ending, he, hx⟩ := Option.map_eq_some_iff.1 hs
  cases ending with
  | finished t =>
    cases hx
    exact answered _ t _ (Context.race_finished_iff.1 he).2
  | interrupted why t =>
    cases hx
    exact interrupted why t _ (Context.check_of_race he).2

/-- A wait under a context. It leaves the state as it is. -/
theorem keeps_wait {P : Nat → (Timed R).Op → Prop} {delay : Nat} {jitter : Bool}
    {post : Except Interruption Unit → World σ → Prop} (wanted : P w.time (.pause ctx delay jitter))
    (interrupted : ∀ why t, ctx.check t = .error why → post (.error why) ⟨t, w.state⟩)
    (waited : ∀ t, ctx.check t = .ok () → post (.ok ()) ⟨t, w.state⟩) :
    Keeps server P (Flow.call (S := Timed R) (Op.pause ctx delay jitter)) w post := by
  refine ⟨wanted, fun x w' hs => ?_⟩
  obtain ⟨ending, he, hx⟩ := Option.map_eq_some_iff.1 hs
  cases ending with
  | finished t =>
    cases hx
    exact waited t (Context.race_finished_iff.1 he).2
  | interrupted why t =>
    cases hx
    exact interrupted why t (Context.check_of_race he).2

/-! ## Time goes on -/

/-- No operation ends before it begins. -/
theorem step_time {op : (Timed R).Op} {x : (Timed R).Answer op} {w' : World σ}
    (h : step server op w = some (x, w')) : w.time ≤ w'.time := by
  cases op with
  | now =>
    cases h
    exact Nat.le_refl _
  | plain r =>
    obtain ⟨d, -, he⟩ := Option.map_eq_some_iff.1 h
    cases he
    exact Nat.le_add_right _ _
  | race c r =>
    obtain ⟨ending, he, hx⟩ := Option.map_eq_some_iff.1 h
    cases ending <;> cases hx <;> exact Context.le_race he
  | pause c delay jitter =>
    obtain ⟨ending, he, hx⟩ := Option.map_eq_some_iff.1 h
    cases ending <;> cases hx <;> exact Context.le_race he

theorem keeps_later {t : Nat} (p : Flow (Timed R) α) (h : t ≤ w.time) :
    Keeps server (fun now _ => t ≤ now) p w fun _ w' => t ≤ w'.time := by
  induction p generalizing w with
  | done a => exact h
  | ask op next ih => exact ⟨h, fun x w' hs => ih x (Nat.le_trans h (step_time hs))⟩

theorem run_time {p : Flow (Timed R) α} {a : α} {w' : World σ}
    (h : run server p w = some (a, w')) : w.time ≤ w'.time :=
  (keeps_iff.1 (keeps_later p (Nat.le_refl _))).2 a w' h

/-! ## One program after the other -/

theorem run_bind_of_run {p : Flow (Timed R) α} {f : α → Flow (Timed R) β} {a : α} {w' : World σ}
    (h : run server p w = some (a, w')) : run server (p >>= f) w = run server (f a) w' := by
  rw [run, Flow.bind_def, Flow.run_bind]
  rw [run] at h
  rw [h]
  rfl

theorem run_bind_of_none {p : Flow (Timed R) α} {f : α → Flow (Timed R) β}
    (h : run server p w = none) : run server (p >>= f) w = none := by
  rw [run, Flow.bind_def, Flow.run_bind]
  rw [run] at h
  rw [h]
  rfl

/-- What has run to its end has done so in both parts. -/
theorem exists_run_of_bind {p : Flow (Timed R) α} {f : α → Flow (Timed R) β} {b : β}
    {w' : World σ} (h : run server (p >>= f) w = some (b, w')) :
    ∃ a v, run server p w = some (a, v) ∧ run server (f a) v = some (b, w') := by
  cases first : run server p w with
  | none =>
    rw [run_bind_of_none first] at h
    cases h
  | some found => exact ⟨found.1, found.2, rfl, run_bind_of_run first ▸ h⟩

/-- What is begun by one program after another. -/
theorem begun_bind (p : Flow (Timed R) α) (f : α → Flow (Timed R) β) (w : World σ) :
    begun server (p >>= f) w = begun server p w ++ match run server p w with
      | some (a, w') => begun server (f a) w'
      | none => [] := by
  rw [Flow.bind_def]
  induction p generalizing w with
  | done a => rfl
  | ask op next ih =>
    simp only [Flow.bind, begun, run, Flow.run, List.cons_append]
    cases hs : step server op w with
    | none => rfl
    | some found => exact congrArg _ (ih found.1 found.2)

end Timed

end Courier
