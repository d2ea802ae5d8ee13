import Mathlib.Data.List.ReduceOption
import Courier.Health.Check
import Courier.Live.Peers
import Courier.Proofs.Breaker.Alike

/-!
# What leaves no trace

Two things may be left out of a run without anyone noticing. A look may: it can make a breaker
half-open, but so would whoever calls or looks next. And so may a call that is let through and later
given up, provided that nobody was turned away for lack of the place it held.

Both are said of two whole runs, of which the second lacks some events of the first. The runs stay
alike (`Alike`) from one event to the next; when a call is left out, with that call hidden from the
second run until it is given up.

A health check is a look at every breaker, and nothing else happens to the breakers
(`health_check_looks`).
-/

set_option autoImplicit false

namespace Courier

/-- The breaker in front of a service, with calls in flight. -/
def Http.Peer.run (p : Http.Peer) (now : Nat) (calls : List (String × Ticket)) : BreakerRun :=
  ⟨p.config, p.breaker, now, calls⟩

theorem health_check_looks (live : LiveService) (timeout : Nat) (w : Timed.World Live.Peers) :
    ∃ report w', live.run Live.Peers.server (Health.check timeout) w = some (report, w') ∧
      w'.time = w.time ∧ w'.state.users = w.state.users.look w.time ∧
      w'.state.templates = w.state.templates.look w.time :=
  ⟨_, _, rfl, rfl, rfl, rfl⟩

namespace BreakerRun

variable {hidden : Option (String × Ticket)} {name service : String} {r s : BreakerRun}
  {t : Ticket}

theorem watch_append (service : String) (r : BreakerRun) (first later : List BreakerEvent) :
    r.watch service (first ++ later) =
      r.watch service first ++ (r.run first).2.watch service later := by
  induction first generalizing r with
  | nil => rfl
  | cons e rest ih => exact congrArg (r.sight service e :: ·) (ih (r.step e).2)

theorem length_watch (service : String) (r : BreakerRun) (events : List BreakerEvent) :
    (r.watch service events).length = events.length := by
  induction events generalizing r with
  | nil => rfl
  | cons e rest ih => exact congrArg (· + 1) (ih (r.step e).2)

theorem reactions_watch (service : String) (r : BreakerRun) (events : List BreakerEvent) :
    (r.watch service events).map Sight.reaction = (r.run events).1 := by
  induction events generalizing r with
  | nil => rfl
  | cons e rest ih => exact congrArg ((r.step e).1 :: ·) (ih (r.step e).2)

/-! ## Looks

A look inserted anywhere leaves the runs alike, and alike runs show the same.
-/

/-- The sights of the events that both runs have. Where there is none, the second lacks a look. -/
def kept (script : List (Option BreakerEvent)) (sights : List Sight) : List Sight :=
  (script.zip sights).filterMap fun p => p.1.map fun _ => p.2

theorem Alike.kept (h : Alike none r s) (service : String) (script : List (Option BreakerEvent)) :
    BreakerRun.kept script (r.watch service (script.map fun e => e.getD .look)) =
      s.watch service script.reduceOption := by
  -- by induction on the script: a look that is missing keeps the runs alike, any other event
  -- happens in both
  induction script generalizing r s with
  | nil => rfl
  | cons e rest ih =>
    cases e with
    | none => exact ih h.look
    | some e =>
      have hn := (h.step (e := e) nofun fun hk => absurd rfl hk).2
      rw [List.reduceOption_cons_of_some]
      exact congrArg₂ List.cons (h.sight service e).symm (ih hn)

/-- **Looks disturb nothing.** A run with looks put in anywhere shows the same of all other events,
other looks among them, as the run without; and a health check is a look at each breaker. -/
theorem looks_unseen (config : BreakerConfig) (time : Nat) (service : String) :
    (∀ script : List (Option BreakerEvent),
      kept script ((made config time).watch service (script.map fun e => e.getD .look)) =
        (made config time).watch service script.reduceOption) ∧
    ∀ (live : LiveService) (timeout : Nat) (w : Timed.World Live.Peers)
      (calls : List (String × Ticket)),
      ∃ report w', live.run Live.Peers.server (Health.check timeout) w = some (report, w') ∧
        w'.state.users.run w'.time calls =
          ((w.state.users.run w.time calls).step .look).2 ∧
        w'.state.templates.run w'.time calls =
          ((w.state.templates.run w.time calls).step .look).2 := by
  refine ⟨fun script => ?_, fun live timeout w calls => ?_⟩
  · exact (Alike.refl ⟨_, Accounted.made config time⟩).kept service script
  · obtain ⟨report, w', ended, ht, hu, hv⟩ := health_check_looks live timeout w
    refine ⟨report, w', ended, ?_, ?_⟩
    · rw [hu, ht]
      rfl
    · rw [hv, ht]
      rfl

/-- A look does leave another breaker behind: it is in another state, and in another phase. -/
example :
    let r := after { maxFailures := 1, timeout := 10 } 0
      [.start "a", .finish "a" .failure, .advance 10]
    r.breaker = { state := .open, failures := 1, phase := 1 } ∧
      r.looked.breaker = { state := .halfOpen, failures := 1, since := 10, phase := 2 } := by decide

/-! ## Calls that are given up

The start of the call hides it, its end lets go of it again; in between the two runs are abreast.
-/

namespace Alike

/-- A call is let through in the first run only. -/
theorem hide (h : ∃ c, Accounted r c) (passed : (r.step (.start name)).1 = .passed) :
    ∃ t, Alike (some (name, t)) (r.step (.start name)).2 r := by
  have m := step_move r.looked (.start name)
  rw [looked_start, passed] at m
  obtain ⟨t, hn⟩ := Abreast.hide m (looked_settled r)
  have left := accounted_step h (.start name)
  refine ⟨t, left, h, ?_⟩
  have hl := hn.looked left (accounted_step h .look)
  rwa [looked_looked] at hl

/-- While a call is hidden, the same comes of all that is not about it. -/
theorem run (h : Alike hidden r s) {events : List BreakerEvent}
    (spared : ∀ e ∈ events, ∀ y ∈ hidden, e.about y.1 = false)
    (room : .rejected .tooManyRequests ∉ (r.run events).1) :
    (s.run events).1 = (r.run events).1 ∧ Alike hidden (r.run events).2 (s.run events).2 := by
  induction events generalizing r s with
  | nil => exact ⟨rfl, h⟩
  | cons e rest ih =>
    obtain ⟨hne, hrest⟩ := List.ne_and_not_mem_of_not_mem_cons room
    obtain ⟨hx, hn⟩ := h.step (spared e List.mem_cons_self) fun _ => hne.symm
    obtain ⟨hxs, hns⟩ := ih hn (fun e he => spared e (List.mem_cons_of_mem _ he)) hrest
    exact ⟨congrArg₂ List.cons hx hxs, hns⟩

/-- The hidden call is given up. -/
theorem drop (h : Alike (some (name, t)) r s) :
    (r.step (.finish name .abandoned)).1 = .finished .abandoned ∧
      Alike none (r.step (.finish name .abandoned)).2 s := by
  obtain ⟨c, hr⟩ := h.left
  -- the runs are alike once looked at, so the end of the call is followed from there and looked at
  -- again
  have known : r.calls.lookup name = some t := h.abreast.hides _ rfl
  have left := accounted_step h.left (.finish name .abandoned)
  refine ⟨?_, left, h.right, ?_⟩
  · simp only [BreakerRun.step, known]
  · have hrl : Accounted r.looked _ := hr.move (step_move r .look)
    have m := step_move r.looked (.finish name .abandoned)
    have hl := (h.abreast.drop hrl m).looked ⟨_, hrl.move m⟩ (accounted_step h.right .look)
    rwa [(looked_finish hr.tagged name .abandoned).2, looked_looked] at hl

end Alike

/-- A run that holds a call which is given up, and the run without that call: what is seen before
the call and after it is the same in both, and the same comes of what happens meanwhile. -/
def Untraced (service : String) (r : BreakerRun) (before : List BreakerEvent) (name : String)
    (between later : List BreakerEvent) : Prop :=
  ∃ seen during during' seenLater,
    r.watch service
        (before ++ .start name :: (between ++ .finish name .abandoned :: later)) =
      seen ++ ⟨.passed, none⟩ :: (during ++ ⟨.finished .abandoned, none⟩ :: seenLater) ∧
    r.watch service (before ++ (between ++ later)) = seen ++ (during' ++ seenLater) ∧
    seen.length = before.length ∧ during.length = between.length ∧
    during'.length = between.length ∧
    during.map Sight.reaction = during'.map Sight.reaction

/-- **A call that is given up leaves no trace**, if nobody else is turned away meanwhile for want of
a place. -/
theorem abandoned_unseen (config : BreakerConfig) (time : Nat) (service name : String)
    (before between later : List BreakerEvent)
    (passed : ((after config time before).step (.start name)).1 = .passed)
    (own : ∀ e ∈ between, e.about name = false)
    (room : .rejected .tooManyRequests ∉
      ((after config time (before ++ [.start name])).run between).1) :
    Untraced service (made config time) before name between later := by
  have hr : ∃ c, Accounted (after config time before) c := ⟨_, accounted config time before⟩
  obtain ⟨t, hidden⟩ := Alike.hide hr passed
  have begun : after config time (before ++ [.start name]) =
      ((after config time before).step (.start name)).2 := by
    rw [after, run_append]
    rfl
  rw [begun] at room
  have spared : ∀ e ∈ between, ∀ y ∈ some (name, t), e.about y.1 = false := by
    rintro e he _ ⟨⟩
    exact own e he
  -- until the call is given up it is hidden; from then on nothing is
  obtain ⟨meanwhile, gone⟩ := hidden.run spared room
  obtain ⟨dropped, alike⟩ := gone.drop
  generalize hb : ((after config time before).step (.start name)).2 = held at *
  refine ⟨(made config time).watch service before, held.watch service between,
    (after config time before).watch service between,
    ((held.run between).2.step (.finish name .abandoned)).2.watch service later,
    ?_, ?_, length_watch _ _ _, length_watch _ _ _, length_watch _ _ _, ?_⟩
  · have started : (after config time before).sight service (.start name) = ⟨.passed, none⟩ := by
      simp [sight, passed]
    have ended : (held.run between).2.sight service (.finish name .abandoned) =
        ⟨.finished .abandoned, none⟩ := by simp [sight, dropped]
    rw [watch_append, ← after, watch, started, hb, watch_append, watch, ended]
  · rw [watch_append, ← after, watch_append, alike.watch]
  · rw [reactions_watch, reactions_watch, meanwhile]

/-- The first probe of a half-open phase is given up, while another one runs. -/
theorem abandoned_unseen_waking :
    let config : BreakerConfig := { maxFailures := 1, timeout := 10, halfOpenMax := 2 }
    let before : List BreakerEvent := [.start "a", .finish "a" .failure, .advance 12]
    let between : List BreakerEvent := [.start "b", .look, .advance 5]
    let later : List BreakerEvent :=
      [.look, .finish "b" .success, .start "c", .finish "c" .success, .look]
    (after config 0 before).breaker.state = .open ∧
      ((after config 0 before).step (.start "gone")).1 = .passed ∧
      .rejected .tooManyRequests ∉
        ((after config 0 (before ++ [.start "gone"])).run between).1 ∧
      Untraced "svc" (made config 0) before "gone" between later := by
  intro config before between later
  have passed : ((after config 0 before).step (.start "gone")).1 = .passed := by decide
  have room : .rejected .tooManyRequests ∉
      ((after config 0 (before ++ [.start "gone"])).run between).1 := by decide
  refine ⟨by decide, passed, room, ?_⟩
  exact abandoned_unseen config 0 "svc" "gone" before between later passed (by decide) room

end BreakerRun

end Courier
