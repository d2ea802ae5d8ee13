import Mathlib.Data.List.Forall2
import Courier.Proofs.Breaker.Late

/-!
# Runs that look alike

Two runs of a breaker may differ in the numbers of their phases, in the date of a half-open phase,
and in whether a timeout that is over has been noticed, and still nobody who calls or looks can tell
the one from the other. This module is about such runs; what may be left out of a run without
anyone noticing is said in the modules that build on it.

`Abreast` is the agreement of two breakers in the same state. The first run may have one call in
flight that is hidden from the second, and then it may have one probe more. Every move of the first
run is one of the second, and keeps them abreast (`Abreast.move`). `Alike` asks no more than that
the runs be abreast once someone has looked at both: one of the breakers may still be open when the
other is half-open already. It is kept by every event in both runs (`Alike.step`), and by a look at
either of them alone.

What is compared is small on purpose. Phases are counted differently in the two runs, so tickets are
only asked whether they are of the present phase (`Paired`); and a half-open phase may have begun at
different times, which no reaction depends on.
-/

set_option autoImplicit false

namespace Courier

/-- A view without the age of a half-open phase. -/
def BreakerView.undated (v : BreakerView) : BreakerView :=
  if v.state = .halfOpen then { v with age := 0 } else v

/-- What is seen of an event: what comes of it and, of a look, the view but for the age of a
half-open phase. -/
structure Sight where
  reaction : Reaction
  view : Option BreakerView
  deriving DecidableEq, Repr

namespace BreakerRun

/-- What is seen of one event. -/
def sight (service : String) (r : BreakerRun) (e : BreakerEvent) : Sight :=
  let next := r.step e
  ⟨next.1, if e = .look then some (next.2.view service).undated else none⟩

/-- What is seen of the events of a run. -/
def watch (service : String) (r : BreakerRun) : List BreakerEvent → List Sight
  | [] => []
  | e :: rest => r.sight service e :: watch service (r.step e).2 rest

variable {hidden : Option (String × Ticket)} {name : String} {calls : List (String × Ticket)}
  {r s r' : BreakerRun} {c d : Chronicle} {e : BreakerEvent} {x : Reaction} {t : Ticket}

/-! ## Calls in flight in both runs

One call may be hidden: it is in flight in the first run only. The lists of calls are compared
without it, and a ticket counts as the other's equal where both are of the present phase of their
run or neither is. The phases themselves may differ, since one run may have been looked at more
often.
-/

/-- The calls but for a hidden one. -/
def visible (hidden : Option (String × Ticket)) (calls : List (String × Ticket)) :
    List (String × Ticket) :=
  match hidden with
  | none => calls
  | some y => remove y.1 calls

/-- How many places of a phase the hidden call takes. -/
def heldPlaces (hidden : Option (String × Ticket)) (phase : Nat) : Nat :=
  match hidden with
  | none => 0
  | some y => if y.2.probe = true ∧ y.2.phase = phase then 1 else 0

theorem heldPlaces_eq_one {y : String × Ticket} {phase : Nat} (probe : y.2.probe = true)
    (present : y.2.phase = phase) : heldPlaces (some y) phase = 1 := if_pos ⟨probe, present⟩

theorem heldPlaces_eq_zero {y : String × Ticket} {phase : Nat}
    (h : y.2.probe = false ∨ y.2.phase ≠ phase) : heldPlaces (some y) phase = 0 := by
  refine if_neg fun ⟨probe, present⟩ => ?_
  rcases h with h | h
  · exact Bool.noConfusion (h.symm.trans probe)
  · exact h present

/-- A call of that name is not the hidden one. -/
def Shown (hidden : Option (String × Ticket)) (name : String) : Prop :=
  ∀ y ∈ hidden, y.1 ≠ name

/-- Calls of other names are found as before. -/
theorem lookup_remove_of_ne {other : String} (h : name ≠ other) :
    (remove other calls).lookup name = calls.lookup name := by
  induction calls with
  | nil => rfl
  | cons y rest ih =>
    by_cases hy : y.1 = other
    · have hn : (name == y.1) = false := beq_eq_false_iff_ne.2 (hy ▸ h)
      rw [remove, if_pos hy, List.lookup_cons, hn]
    · rw [remove, if_neg hy, List.lookup_cons, List.lookup_cons, ih]

/-- Which of two calls is taken out first does not matter. -/
theorem remove_comm (first second : String) (calls : List (String × Ticket)) :
    remove first (remove second calls) = remove second (remove first calls) := by
  by_cases h : first = second
  · rw [h]
  · simp only [remove_eq_eraseP]
    refine List.eraseP_comm fun y _ => ?_
    by_cases hy : y.1 = second
    · exact .inr (by simpa [hy] using Ne.symm h)
    · exact .inl (by simpa using hy)

theorem lookup_visible (h : Shown hidden name) :
    (visible hidden calls).lookup name = calls.lookup name := by
  cases hidden with
  | none => rfl
  | some y => exact lookup_remove_of_ne (h y rfl).symm

theorem visible_remove :
    visible hidden (remove name calls) = remove name (visible hidden calls) := by
  cases hidden with
  | none => rfl
  | some y => exact remove_comm y.1 name calls

theorem visible_cons (h : Shown hidden name) :
    visible hidden ((name, t) :: calls) = (name, t) :: visible hidden calls := by
  cases hidden with
  | none => rfl
  | some y => exact if_neg (h y rfl).symm

theorem mem_of_mem_visible {y : String × Ticket} (h : y ∈ visible hidden calls) : y ∈ calls := by
  cases hidden with
  | none => exact h
  | some z => exact mem_of_mem_remove h

/-- The same call in two runs whose present phases have these numbers. -/
structure Paired (p q : Nat) (y z : String × Ticket) : Prop where
  name : y.1 = z.1
  present_iff : y.2.phase = p ↔ z.2.phase = q

section

variable {p q : Nat} {ys zs : List (String × Ticket)}

theorem lookup_paired (h : List.Forall₂ (Paired p q) ys zs) (name : String) :
    Option.Rel (fun t u => t.phase = p ↔ u.phase = q) (ys.lookup name) (zs.lookup name) := by
  induction h with
  | nil => exact .none
  | @cons y z ys zs hy _ ih =>
    rw [List.lookup_cons, List.lookup_cons, hy.name]
    cases name == z.1 with
    | true => exact .some hy.present_iff
    | false => exact ih

theorem remove_paired (h : List.Forall₂ (Paired p q) ys zs) (name : String) :
    List.Forall₂ (Paired p q) (remove name ys) (remove name zs) := by
  induction h with
  | nil => exact .nil
  | @cons y z ys zs hy hrest ih =>
    simp only [remove, hy.name]
    split
    · exact hrest
    · exact .cons hy ih

/-- In phases that are new in both runs, all calls in flight are old. -/
theorem paired_of_earlier (named : List.Forall₂ (fun y z => y.1 = z.1) ys zs)
    (hy : ∀ y ∈ ys, y.2.phase ≤ p) (hz : ∀ z ∈ zs, z.2.phase ≤ q) :
    List.Forall₂ (Paired (p + 1) (q + 1)) ys zs := by
  induction named with
  | nil => exact .nil
  | @cons y z ys zs hn _ ih =>
    refine .cons ⟨hn, ?_⟩ (ih (fun a ha => hy a (List.mem_cons_of_mem _ ha))
      fun a ha => hz a (List.mem_cons_of_mem _ ha))
    have hyp := hy y List.mem_cons_self
    have hzq := hz z List.mem_cons_self
    omega

end

/-! ## Abreast

The relation between the two runs, and the one lemma that says what any move does to it (`move`).
Its hypotheses are those of the claim: no event is about the hidden call, and while a call is hidden
nobody is turned away for want of a place.
-/

/-- A timeout that is over has been noticed. -/
def Settled (r : BreakerRun) : Prop :=
  r.breaker.state = .open → r.now - r.breaker.since < r.config.timeout

/-- The same, with another date for the beginning of the phase. -/
def redated (r : BreakerRun) (since : Nat) : BreakerRun :=
  { r with breaker := { r.breaker with since := since } }

/-- Two runs whose breakers are in the same state, with the same counts; the phases have the same
date unless they are half-open. The first may have one call more in flight. -/
structure Abreast (hidden : Option (String × Ticket)) (r s : BreakerRun) : Prop where
  config : s.config = r.config
  now : s.now = r.now
  state : s.breaker.state = r.breaker.state
  failures : s.breaker.failures = r.breaker.failures
  successes : s.breaker.successes = r.breaker.successes
  probes : r.breaker.probes = s.breaker.probes + heldPlaces hidden r.breaker.phase
  since : r.breaker.state ≠ .halfOpen → s.breaker.since = r.breaker.since
  calls : List.Forall₂ (Paired r.breaker.phase s.breaker.phase) (visible hidden r.calls) s.calls
  hides : ∀ y ∈ hidden, r.calls.lookup y.1 = some y.2

namespace Abreast

/-- A run is abreast of itself. -/
theorem refl (r : BreakerRun) : Abreast none r r where
  config := rfl
  now := rfl
  state := rfl
  failures := rfl
  successes := rfl
  probes := rfl
  since _ := rfl
  calls := List.forall₂_same.2 fun _ _ => ⟨rfl, Iff.rfl⟩
  hides := nofun

theorem named (h : Abreast hidden r s) :
    List.Forall₂ (fun y z => y.1 = z.1) (visible hidden r.calls) s.calls :=
  h.calls.imp fun _ _ hy => hy.name

theorem elapsed (h : Abreast hidden r s) (hs : r.breaker.state = .open) :
    s.now - s.breaker.since = r.now - r.breaker.since := by
  rw [h.now, h.since (by rw [hs]; decide)]

/-- A call that is found in the one is found in the other, and is of the present phase in both or in
neither. -/
theorem found (h : Abreast hidden r s) (shown : Shown hidden name)
    (found : r.calls.lookup name = some t) :
    ∃ u, s.calls.lookup name = some u ∧
      (t.phase = r.breaker.phase ↔ u.phase = s.breaker.phase) := by
  have hl := lookup_paired h.calls name
  rw [lookup_visible shown, found] at hl
  cases hu : s.calls.lookup name with
  | none =>
    rw [hu] at hl
    cases hl
  | some u =>
    rw [hu] at hl
    cases hl with
    | some hp => exact ⟨u, rfl, hp⟩

/-- One that is not found in the one is not found in the other. -/
theorem missing (h : Abreast hidden r s) (shown : Shown hidden name)
    (missing : r.calls.lookup name = none) : s.calls.lookup name = none := by
  have hl := lookup_paired h.calls name
  rw [lookup_visible shown, missing] at hl
  cases hu : s.calls.lookup name with
  | none => rfl
  | some u =>
    rw [hu] at hl
    cases hl

/-- A visible call ends in both. -/
theorem without (h : Abreast hidden r s) (shown : Shown hidden name) :
    Abreast hidden (r.without name) (s.without name) where
  config := h.config
  now := h.now
  state := h.state
  failures := h.failures
  successes := h.successes
  probes := h.probes
  since := h.since
  calls := by
    have hr := remove_paired h.calls name
    rwa [← visible_remove] at hr
  hides y hy := (lookup_remove_of_ne (shown y hy)).trans (h.hides y hy)

/-- A call is let through in both. -/
theorem push (h : Abreast hidden r s) (shown : Shown hidden name) (probe : Bool) :
    Abreast hidden { r with calls := (name, ⟨r.breaker.phase, probe⟩) :: r.calls }
      { s with calls := (name, ⟨s.breaker.phase, probe⟩) :: s.calls } where
  config := h.config
  now := h.now
  state := h.state
  failures := h.failures
  successes := h.successes
  probes := h.probes
  since := h.since
  calls := by
    rw [visible_cons shown]
    exact .cons ⟨rfl, Iff.intro (fun _ => rfl) fun _ => rfl⟩ h.calls
  hides y hy := by
    have hn : (y.1 == name) = false := beq_eq_false_iff_ne.2 (shown y hy)
    rw [List.lookup_cons, hn]
    exact h.hides y hy

end Abreast

/-- The hidden call holds no place of a phase that has not begun. -/
theorem heldPlaces_next (tagged : Tagged r.breaker.phase r.breaker.state r.calls)
    (hides : ∀ y ∈ hidden, r.calls.lookup y.1 = some y.2) :
    heldPlaces hidden (r.breaker.phase + 1) = 0 := by
  cases hidden with
  | none => rfl
  | some y =>
    have hle := tagged.phase_le y (mem_of_lookup (hides y rfl))
    exact heldPlaces_eq_zero (.inr (Nat.ne_of_lt (Nat.lt_succ_of_le hle)))

/-- A phase begins in both runs: whatever was different about the breakers is forgotten. -/
theorem abreast_enter (config : s.config = r.config) (now : s.now = r.now)
    (named : List.Forall₂ (fun y z => y.1 = z.1) (visible hidden r.calls) s.calls)
    (hides : ∀ y ∈ hidden, r.calls.lookup y.1 = some y.2)
    (tagged : Tagged r.breaker.phase r.breaker.state r.calls)
    (tagged' : Tagged s.breaker.phase s.breaker.state s.calls)
    {m n : Nat} {after : CircuitState} (failures : after ≠ .closed → n = m) :
    Abreast hidden
      { r with breaker := { r.breaker with failures := m }.enter r.now after }
      { s with breaker := { s.breaker with failures := n }.enter s.now after } where
  config := config
  now := now
  state := rfl
  failures := by
    by_cases hc : after = .closed
    · simp only [Breaker.enter, if_pos hc]
    · simp only [Breaker.enter, if_neg hc, failures hc]
  successes := rfl
  probes := by simp only [Breaker.enter, heldPlaces_next tagged hides]
  since _ := now
  calls := paired_of_earlier named (fun y hy => tagged.phase_le y (mem_of_mem_visible hy))
    tagged'.phase_le
  hides := hides

namespace Abreast

/-- A phase begins in both of two runs that are abreast. -/
theorem enter (h : Abreast hidden r s) (hr : Accounted r c) (hs : Accounted s d)
    (more : Nat) (after : CircuitState) :
    Abreast hidden
      { r with breaker :=
        { r.breaker with failures := r.breaker.failures + more }.enter r.now after }
      { s with breaker :=
        { s.breaker with failures := s.breaker.failures + more }.enter s.now after } :=
  abreast_enter h.config h.now h.named h.hides hr.tagged hs.tagged fun _ => by rw [h.failures]

/-- A call that does not count in the one run does not count in the other. -/
theorem inert (h : Abreast hidden r s) (hr : Accounted r c) (hs : Accounted s d) {u : Ticket}
    {outcome : Outcome} (found : r.calls.lookup name = some t)
    (found' : s.calls.lookup name = some u)
    (same : t.phase = r.breaker.phase ↔ u.phase = s.breaker.phase)
    (why : t.phase ≠ r.breaker.phase ∨ r.breaker.state = .open ∨
      (outcome = .abandoned ∧ (t.probe = false ∨ r.breaker.state = .closed))) :
    u.phase ≠ s.breaker.phase ∨ s.breaker.state = .open ∨
      (outcome = .abandoned ∧ (u.probe = false ∨ s.breaker.state = .closed)) := by
  by_cases present : t.phase = r.breaker.phase
  · refine .inr ?_
    rw [h.state]
    refine (why.resolve_left fun hn => hn present).imp_right fun ⟨ho, hp⟩ => ⟨ho, ?_⟩
    refine hp.imp_left fun hf => ?_
    -- in its own phase a call is a probe if and only if the breaker is half-open
    have hp' := hs.tagged.probe_iff _ (mem_of_lookup found') (same.1 present)
    have hq := hr.tagged.probe_iff _ (mem_of_lookup found) present
    rw [h.state, ← hq, hf] at hp'
    simpa using hp'
  · exact .inl fun hu => present (same.2 hu)

/-- **Every move of the one run is a move of the other**, unless it is about the hidden call, or
turns a call away while there is a hidden one. -/
theorem move (h : Abreast hidden r s) (hr : Accounted r c) (hs : Accounted s d)
    (m : Move r e x r') (spared : ∀ y ∈ hidden, e.about y.1 = false)
    (room : hidden ≠ none → x ≠ .rejected .tooManyRequests) :
    ∃ s', Move s e x s' ∧ Abreast hidden r' s' := by
  have shown (name : String) (he : ∀ y ∈ hidden, decide (name = y.1) = false) :
      Shown hidden name := fun y hy hn => absurd hn.symm (of_decide_eq_false (he y hy))
  cases m with
  | pass name hst =>
    exact ⟨_, .pass name (h.state.trans hst), h.push (shown name spared) false⟩
  | refuse name hst early =>
    rw [← h.elapsed hst, ← h.config] at early
    exact ⟨_, .refuse name (h.state.trans hst) early, h⟩
  | wake name hst late =>
    have hn := (h.enter hr hs 0 .halfOpen).push (shown name spared) true
    rw [← h.elapsed hst, ← h.config] at late
    refine ⟨_, .wake name (h.state.trans hst) late, { hn with probes := ?_ }⟩
    exact congrArg (1 + ·) (heldPlaces_next hr.tagged h.hides).symm
  -- the first run has at least as many places taken, so that a place free there is free here
  | probe name hst free =>
    have hp := h.probes
    have hn := h.push (shown name spared) true
    have free' : s.breaker.probes < s.config.quota := by
      rw [h.config]
      omega
    refine ⟨_, .probe name (h.state.trans hst) free', { hn with probes := ?_ }⟩
    simp only
    omega
  -- where the first run turns a call away nothing is hidden, so that the counts are the same
  | full name hst taken =>
    have hn : hidden = none := by
      by_contra hn
      exact room hn rfl
    have hp := h.probes
    rw [hn] at hp
    refine ⟨_, .full name (h.state.trans hst) ?_, h⟩
    rw [h.config]
    exact Nat.le_trans taken (Nat.le_of_eq hp)
  | unknown name outcome missing =>
    exact ⟨_, .unknown name outcome (h.missing (shown name spared) missing), h⟩
  | inert name outcome t found why =>
    obtain ⟨u, found', same⟩ := h.found (shown name spared) found
    exact ⟨_, .inert name outcome u found' (h.inert hr hs found found' same why),
      h.without (shown name spared)⟩
  | recover name t found present hst =>
    obtain ⟨u, found', same⟩ := h.found (shown name spared) found
    have hn := h.without (shown name spared)
    exact ⟨_, .recover name u found' (same.1 present) (h.state.trans hst),
      { hn with failures := rfl }⟩
  | stumble name t found present hst below =>
    obtain ⟨u, found', same⟩ := h.found (shown name spared) found
    have hn := h.without (shown name spared)
    rw [← h.failures, ← h.config] at below
    exact ⟨_, .stumble name u found' (same.1 present) (h.state.trans hst) below,
      { hn with failures := congrArg (· + 1) h.failures }⟩
  | trip name t found present hst reached =>
    obtain ⟨u, found', same⟩ := h.found (shown name spared) found
    rw [← h.failures, ← h.config] at reached
    exact ⟨_, .trip name u found' (same.1 present) (h.state.trans hst) reached,
      (h.enter hr hs 1 .open).without (shown name spared)⟩
  | gain name t found present hst below =>
    obtain ⟨u, found', same⟩ := h.found (shown name spared) found
    have hn := h.without (shown name spared)
    rw [← h.successes, ← h.config] at below
    exact ⟨_, .gain name u found' (same.1 present) (h.state.trans hst) below,
      { hn with successes := congrArg (· + 1) h.successes }⟩
  | close name t found present hst reached =>
    obtain ⟨u, found', same⟩ := h.found (shown name spared) found
    rw [← h.successes, ← h.config] at reached
    exact ⟨_, .close name u found' (same.1 present) (h.state.trans hst) reached,
      (h.enter hr hs 0 .closed).without (shown name spared)⟩
  | reopen name t found present hst =>
    obtain ⟨u, found', same⟩ := h.found (shown name spared) found
    exact ⟨_, .reopen name u found' (same.1 present) (h.state.trans hst),
      (h.enter hr hs 0 .open).without (shown name spared)⟩
  | release name t found present held hst =>
    obtain ⟨u, found', same⟩ := h.found (shown name spared) found
    have hst' : s.breaker.state = .halfOpen := h.state.trans hst
    have hn := h.without (shown name spared)
    refine ⟨_, .release name u found' (same.1 present)
      (hs.probe_of_present found' (same.1 present) hst') hst', { hn with probes := ?_ }⟩
    -- the probe that is given up is one of those that the second run counts
    have hp := h.probes
    have hrun := hs.running_present found' (same.1 present) hst' .abandoned
    obtain ⟨-, hcount, -⟩ := hs.halfOpen hst'
    simp only
    omega
  | look early =>
    refine ⟨_, .look fun ho => ?_, h⟩
    have ho' : r.breaker.state = .open := h.state.symm.trans ho
    rw [h.elapsed ho', h.config]
    exact early ho'
  | ripen hst late =>
    rw [← h.elapsed hst, ← h.config] at late
    exact ⟨_, .ripen (h.state.trans hst) late, h.enter hr hs 0 .halfOpen⟩
  | reset => exact ⟨_, .reset, h.enter hr hs 0 .closed⟩
  | advance duration =>
    exact ⟨_, .advance duration, { h with now := congrArg (· + duration) h.now }⟩

/-- What happens in both runs does the same in both. -/
theorem step (h : Abreast hidden r s) (hr : Accounted r c) (hs : Accounted s d)
    (spared : ∀ y ∈ hidden, e.about y.1 = false)
    (room : hidden ≠ none → (r.step e).1 ≠ .rejected .tooManyRequests) :
    (s.step e).1 = (r.step e).1 ∧ Abreast hidden (r.step e).2 (s.step e).2 := by
  obtain ⟨s', m, hn⟩ := h.move hr hs (step_move r e) spared room
  rw [m.step_eq]
  exact ⟨rfl, hn⟩

/-- A call is let through that the other run does not have. -/
theorem hide (m : Move r (.start name) .passed r') (settled : r.Settled) :
    ∃ t, Abreast (some (name, t)) r' r := by
  have h := Abreast.refl r
  have hl (t : Ticket) : visible (some (name, t)) ((name, t) :: r.calls) = r.calls := if_pos rfl
  have hf (t : Ticket) : ∀ y ∈ some (name, t), ((name, t) :: r.calls).lookup y.1 = some y.2 := by
    rintro _ ⟨⟩
    exact List.lookup_cons_self
  cases m with
  | pass _ hst =>
    have hp : heldPlaces (some (name, ⟨r.breaker.phase, false⟩)) r.breaker.phase = 0 :=
      heldPlaces_eq_zero (.inl rfl)
    refine ⟨⟨r.breaker.phase, false⟩, { h with probes := ?_, calls := ?_, hides := hf _ }⟩
    · simp only [hp, Nat.add_zero]
    · simp only [hl]
      exact h.calls
  -- someone has looked, so that no timeout is left to be noticed
  | wake _ hst late => exact absurd (settled hst) (Nat.not_lt.2 late)
  | probe _ hst free =>
    have hp : heldPlaces (some (name, ⟨r.breaker.phase, true⟩)) r.breaker.phase = 1 :=
      heldPlaces_eq_one rfl rfl
    refine ⟨⟨r.breaker.phase, true⟩, { h with probes := ?_, calls := ?_, hides := hf _ }⟩
    · simp only [hp]
    · simp only [hl]
      exact h.calls

/-- The hidden call is given up: its place is free again, if it still had one. -/
theorem drop (h : Abreast (some (name, t)) r s) (hr : Accounted r c)
    (m : Move r (.finish name .abandoned) x r') : Abreast none r' s := by
  have known : r.calls.lookup name = some t := h.hides _ rfl
  have hp := h.probes
  cases m with
  | unknown _ _ missing =>
    rw [known] at missing
    cases missing
  | inert _ _ u found why =>
    obtain rfl : t = u := Option.some.inj (known.symm.trans found)
    refine { h with probes := ?_, hides := nofun }
    have hz : heldPlaces (some (name, t)) r.breaker.phase = 0 := by
      rcases why with hn | ho | ⟨-, hn | hc⟩
      · exact heldPlaces_eq_zero (.inr hn)
      · have hnone := (hr.opened ho).1
        omega
      · exact heldPlaces_eq_zero (.inl hn)
      · have hnone := (hr.closed hc).1
        omega
    exact hp.trans (congrArg (s.breaker.probes + ·) hz)
  -- the place the hidden call held is the one by which the two counts differed
  | release _ u found present held hst =>
    obtain rfl : t = u := Option.some.inj (known.symm.trans found)
    have hone : heldPlaces (some (name, t)) r.breaker.phase = 1 := heldPlaces_eq_one held present
    refine { h with probes := ?_, hides := nofun }
    exact congrArg (· - 1) (hp.trans (congrArg (s.breaker.probes + ·) hone))

/-- The date of a half-open phase does not matter. -/
theorem redate (h : Abreast hidden r s) {m n : Nat}
    (hm : r.breaker.state ≠ .halfOpen → m = r.breaker.since)
    (hn : s.breaker.state ≠ .halfOpen → n = s.breaker.since) :
    Abreast hidden (r.redated m) (s.redated n) where
  config := h.config
  now := h.now
  state := h.state
  failures := h.failures
  successes := h.successes
  probes := h.probes
  since hs := by
    have hs' : s.breaker.state ≠ .halfOpen := fun hk => hs (h.state.symm.trans hk)
    exact (hn hs').trans ((h.since hs).trans (hm hs).symm)
  calls := h.calls
  hides := h.hides

end Abreast

/-! ## A breaker that has been looked at

Two runs that differ by looks may differ until the next look. So both are looked at before they are
compared: `looked` commutes with what comes, up to the time at which a half-open phase began.
-/

/-- The same, once someone has looked. -/
def looked (r : BreakerRun) : BreakerRun := (r.step .look).2

theorem looked_of_settled (settled : r.Settled) : r.looked = r :=
  congrArg Prod.snd (Move.look settled).step_eq

theorem looked_of_late (hs : r.breaker.state = .open)
    (late : r.config.timeout ≤ r.now - r.breaker.since) :
    r.looked = { r with breaker := r.breaker.enter r.now .halfOpen } :=
  congrArg Prod.snd (Move.ripen hs late).step_eq

theorem settled_or_late (r : BreakerRun) :
    r.Settled ∨ r.breaker.state = .open ∧ r.config.timeout ≤ r.now - r.breaker.since := by
  by_cases h : r.breaker.state = .open ∧ r.config.timeout ≤ r.now - r.breaker.since
  · exact .inr h
  · exact .inl fun hs => Nat.lt_of_not_le fun hl => h ⟨hs, hl⟩

theorem looked_settled (r : BreakerRun) : r.looked.Settled := by
  rcases settled_or_late r with h | ⟨hs, late⟩
  · rw [looked_of_settled h]
    exact h
  · rw [looked_of_late hs late]
    nofun

theorem looked_looked (r : BreakerRun) : r.looked.looked = r.looked :=
  looked_of_settled (looked_settled r)

theorem looked_start (r : BreakerRun) (name : String) :
    r.looked.step (.start name) = r.step (.start name) := by
  rcases settled_or_late r with h | ⟨hs, late⟩
  · rw [looked_of_settled h]
  · rw [looked_of_late hs late, (Move.wake name hs late).step_eq]
    exact (Move.probe name rfl r.config.quota_pos).step_eq

/-- An open breaker takes no notice of outcomes, and to a half-open one those of earlier phases are
nothing: it does not matter whether someone looks before a call ends or after. -/
theorem looked_finish (tagged : Tagged r.breaker.phase r.breaker.state r.calls) (name : String)
    (outcome : Outcome) :
    (r.looked.step (.finish name outcome)).1 = (r.step (.finish name outcome)).1 ∧
      (r.looked.step (.finish name outcome)).2.looked =
        (r.step (.finish name outcome)).2.looked := by
  rcases settled_or_late r with h | ⟨hs, late⟩
  · rw [looked_of_settled h]
    exact ⟨rfl, rfl⟩
  · cases found : r.calls.lookup name with
    | none =>
      have m : Move r.looked (.finish name outcome) .unknown r.looked := by
        rw [looked_of_late hs late]
        exact .unknown name outcome found
      rw [m.step_eq, (Move.unknown name outcome found).step_eq]
      exact ⟨rfl, looked_looked r⟩
    | some t =>
      -- the look has begun a phase that no call in flight is of
      have ht : t.phase ≠ r.breaker.phase + 1 :=
        Nat.ne_of_lt (Nat.lt_succ_of_le (tagged.phase_le _ (mem_of_lookup found)))
      have before : Move r.looked (.finish name outcome) (.finished outcome)
          (r.looked.without name) := by
        rw [looked_of_late hs late]
        exact .inert name outcome t found (.inl ht)
      have settled : (r.looked.without name).Settled := looked_settled r
      rw [before.step_eq, (Move.inert name outcome t found (.inr (.inl hs))).step_eq]
      refine ⟨rfl, (looked_of_settled settled).trans ?_⟩
      rw [looked_of_late hs late, looked_of_late (r := r.without name) hs late]
      rfl

/-- Time passes: whether someone has looked before only shows in the date of a half-open phase. -/
theorem looked_advance (r : BreakerRun) (duration : Nat) :
    ∃ since, (r.step (.advance duration)).2.looked =
        (r.looked.step (.advance duration)).2.looked.redated since ∧
      ((r.looked.step (.advance duration)).2.looked.breaker.state ≠ .halfOpen →
        since = (r.looked.step (.advance duration)).2.looked.breaker.since) := by
  rcases settled_or_late r with h | ⟨hs, late⟩
  · rw [looked_of_settled h]
    exact ⟨_, rfl, fun _ => rfl⟩
  · have late' : r.config.timeout ≤ r.now + duration - r.breaker.since := by omega
    have settled : (r.looked.step (.advance duration)).2.Settled := by
      rw [looked_of_late hs late]
      nofun
    rw [looked_of_settled settled, looked_of_late (r := (r.step (.advance duration)).2) hs late',
      looked_of_late hs late]
    exact ⟨r.now + duration, rfl, fun hk => absurd rfl hk⟩

/-! ## Alike

Alike are two runs that are abreast once both have been looked at. This holds along any events, and
is all that can be seen from outside.
-/

/-- Two runs that are abreast once someone has looked at both. -/
structure Alike (hidden : Option (String × Ticket)) (r s : BreakerRun) : Prop where
  left : ∃ c, Accounted r c
  right : ∃ d, Accounted s d
  abreast : Abreast hidden r.looked s.looked

theorem accounted_step (h : ∃ c, Accounted r c) (e : BreakerEvent) :
    ∃ c, Accounted (r.step e).2 c := by
  obtain ⟨c, h⟩ := h
  exact ⟨_, h.move (step_move r e)⟩

theorem Abreast.looked (h : Abreast hidden r s) (hr : ∃ c, Accounted r c)
    (hs : ∃ d, Accounted s d) : Abreast hidden r.looked s.looked := by
  obtain ⟨c, hr⟩ := hr
  obtain ⟨d, hs⟩ := hs
  exact (h.step hr hs (e := .look) (fun _ _ => rfl) fun _ => nofun).2

theorem Abreast.view (h : Abreast none r s) (service : String) :
    (s.view service).undated = (r.view service).undated := by
  have hp : r.breaker.probes = s.breaker.probes := h.probes
  by_cases hs : r.breaker.state = .halfOpen
  · simp only [BreakerRun.view, Breaker.view, BreakerView.undated, h.state, h.failures, hp, hs,
      if_true]
  · simp only [BreakerRun.view, Breaker.view, BreakerView.undated, h.state, h.failures, hp, h.now,
      h.since hs]

namespace Alike

theorem refl (h : ∃ c, Accounted r c) : Alike none r r := ⟨h, h, .refl r.looked⟩

theorem look (h : Alike hidden r s) : Alike hidden r.looked s where
  left := accounted_step h.left .look
  right := h.right
  abreast := by
    rw [looked_looked]
    exact h.abreast

/-- **What happens in both of two runs that are alike leaves them alike**, and the same comes of it
in both. -/
theorem step (h : Alike hidden r s) (spared : ∀ y ∈ hidden, e.about y.1 = false)
    (room : hidden ≠ none → (r.step e).1 ≠ .rejected .tooManyRequests) :
    (s.step e).1 = (r.step e).1 ∧ Alike hidden (r.step e).2 (s.step e).2 := by
  have left := accounted_step h.left e
  have right := accounted_step h.right e
  obtain ⟨c, hr⟩ := h.left
  obtain ⟨d, hs⟩ := h.right
  have hrl : Accounted r.looked _ := hr.move (step_move r .look)
  have hsl : Accounted s.looked _ := hs.move (step_move s .look)
  cases e with
  | start name =>
    rw [← looked_start r name] at room
    obtain ⟨hx, hn⟩ := h.abreast.step hrl hsl spared room
    rw [looked_start, looked_start] at hx hn
    exact ⟨hx, left, right, hn.looked left right⟩
  -- the end of a call may come before anyone has looked: it is followed in the runs that have been
  -- looked at
  | finish name outcome =>
    obtain ⟨hxr, hnr⟩ := looked_finish hr.tagged name outcome
    obtain ⟨hxs, hns⟩ := looked_finish hs.tagged name outcome
    rw [← hxr] at room
    obtain ⟨hx, hn⟩ := h.abreast.step hrl hsl spared room
    rw [hxr, hxs] at hx
    have hl := hn.looked ⟨_, hrl.move (step_move _ _)⟩ ⟨_, hsl.move (step_move _ _)⟩
    rw [hnr, hns] at hl
    exact ⟨hx, left, right, hl⟩
  | look =>
    refine ⟨rfl, left, right, ?_⟩
    exact h.abreast.looked ⟨_, hrl⟩ ⟨_, hsl⟩
  -- a reset forgets everything, a timeout that nobody has noticed too
  | reset =>
    have hn : Abreast hidden (r.step .reset).2 (s.step .reset).2 :=
      abreast_enter (r := r) (s := s) (m := 0) (n := 0) h.abreast.config
        h.abreast.now h.abreast.named h.abreast.hides hr.tagged hs.tagged
        fun hc => absurd rfl hc
    exact ⟨rfl, left, right, hn.looked left right⟩
  | advance duration =>
    have hn := (h.abreast.step hrl hsl spared (e := .advance duration) fun _ => nofun).2.looked
      ⟨_, hrl.move (step_move _ _)⟩ ⟨_, hsl.move (step_move _ _)⟩
    obtain ⟨m, hm, hmd⟩ := looked_advance r duration
    obtain ⟨n, hk, hkd⟩ := looked_advance s duration
    refine ⟨rfl, left, right, ?_⟩
    rw [hm, hk]
    exact hn.redate hmd hkd

/-- Runs that are alike show the same. -/
theorem sight (h : Alike none r s) (service : String) (e : BreakerEvent) :
    s.sight service e = r.sight service e := by
  obtain ⟨hx, -⟩ := h.step (e := e) nofun fun hn => absurd rfl hn
  simp only [BreakerRun.sight, hx]
  by_cases he : e = .look
  · subst he
    have hv := h.abreast.view service
    simp only [BreakerRun.looked] at hv
    rw [hv]
  · simp only [if_neg he]

/-- Nobody can tell the runs apart from here on. -/
theorem watch (h : Alike none r s) (service : String) (events : List BreakerEvent) :
    s.watch service events = r.watch service events := by
  induction events generalizing r s with
  | nil => rfl
  | cons e rest ih =>
    have hn := (h.step (e := e) nofun fun hn => absurd rfl hn).2
    rw [BreakerRun.watch, BreakerRun.watch, h.sight, ih hn]

end Alike

end BreakerRun

end Courier
