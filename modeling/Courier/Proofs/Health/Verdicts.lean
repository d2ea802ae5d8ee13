import Courier.Health.Report
import Courier.Proofs.Dict

/-!
# Verdicts

A status is as good as another or worse. What a check makes of the whole is its `gravity`: its own
status, except that only a critical dependency makes anything unhealthy. The checks are gone through
with what has been found so far, and the first critical dependency that is unhealthy ends it; still
the verdict is just the worst that is found, so that it is below a status if and only if all checks
are (`overall_le_iff`). All the rest is read off that: where a verdict comes from, that it is the
same in any order, and that no check that is added or gets worse makes it better (`WorstCase`).

The characterisation by upper bounds takes the place of an induction in all that follows: two
verdicts are compared by comparing what the checks of each are below.
-/

set_option autoImplicit false

namespace Courier

/-! ## Better and worse -/

namespace HealthStatus

/-- How bad a status is. -/
def severity : HealthStatus → Nat
  | .healthy => 0
  | .degraded => 1
  | .unhealthy => 2

/-- One status is no worse than another. -/
instance : LE HealthStatus := ⟨fun a b => a.severity ≤ b.severity⟩

instance (a b : HealthStatus) : Decidable (a ≤ b) :=
  inferInstanceAs (Decidable (a.severity ≤ b.severity))

variable {a b c : HealthStatus}

theorem le_refl (a : HealthStatus) : a ≤ a := Nat.le_refl a.severity

theorem le_trans (h : a ≤ b) (h' : b ≤ c) : a ≤ c := Nat.le_trans h h'

theorem le_antisymm (h : a ≤ b) (h' : b ≤ a) : a = b := by
  revert h h'
  cases a <;> cases b <;> decide

theorem healthy_le (a : HealthStatus) : .healthy ≤ a := Nat.zero_le a.severity

theorem le_unhealthy (a : HealthStatus) : a ≤ .unhealthy := by
  cases a <;> decide

theorem le_healthy_iff : a ≤ .healthy ↔ a = .healthy := by
  cases a <;> decide

theorem le_degraded_iff : a ≤ .degraded ↔ a ≠ .unhealthy := by
  cases a <;> decide

end HealthStatus

namespace Health

open HealthStatus (le_trans le_antisymm healthy_le le_unhealthy le_healthy_iff le_degraded_iff)

/-! ## The worst that is found

A check that is not critical weighs as degraded at most. The verdict is the greatest weight, which
gives its laws at once.
-/

/-- What a check makes of the whole. -/
def gravity (name : String) (check : HealthCheck) : HealthStatus :=
  match check.status with
  | .unhealthy => if critical.contains name then .unhealthy else .degraded
  | .degraded => .degraded
  | .healthy => .healthy

variable {name : String} {check worse : HealthCheck} {found status : HealthStatus}
  {checks others : List (String × HealthCheck)}

theorem gravity_unhealthy_iff :
    gravity name check = .unhealthy ↔ check.status = .unhealthy ∧ name ∈ critical := by
  unfold gravity
  cases check.status <;> simp

theorem gravity_healthy_iff : gravity name check = .healthy ↔ check.status = .healthy := by
  unfold gravity
  cases check.status with
  | healthy | degraded => simp
  | unhealthy => cases critical.contains name <;> simp

theorem gravity_mono (h : check.status ≤ worse.status) :
    gravity name check ≤ gravity name worse := by
  revert h
  unfold gravity
  cases check.status <;> cases worse.status <;> cases critical.contains name <;> decide

/-- One check more is one status more to be below. What has been found before cannot be worse than
degraded, which is why a check may replace it. -/
theorem verdict_le_iff (serving : found ≠ .unhealthy) :
    verdict found checks ≤ status ↔
      found ≤ status ∧ ∀ c ∈ checks, gravity c.1 c.2 ≤ status := by
  have mild : HealthStatus.degraded ≠ .unhealthy := nofun
  -- by induction on the checks; what has been found so far is never unhealthy, since that would
  -- have ended it
  induction checks generalizing found with
  | nil => simp [verdict]
  | cons c rest ih =>
    obtain ⟨name, check⟩ := c
    rw [List.forall_mem_cons]
    cases own : check.status with
    | healthy =>
      have none : gravity name check = .healthy := gravity_healthy_iff.2 own
      simp only [verdict, own, none, healthy_le, true_and, ih serving]
    | degraded =>
      have grave : gravity name check = .degraded := by simp only [gravity, own]
      simp only [verdict, own, grave, ih mild]
      exact ⟨fun h => ⟨le_trans (le_degraded_iff.2 serving) h.1, h⟩, fun h => h.2⟩
    | unhealthy =>
      by_cases needed : critical.contains name = true
      · have grave : gravity name check = .unhealthy := by simp only [gravity, own, needed, if_true]
        simp only [verdict, own, needed, grave, if_true]
        exact ⟨fun h => ⟨le_trans (le_unhealthy _) h, h, fun c _ => le_trans (le_unhealthy _) h⟩,
          fun h => h.2.1⟩
      · have grave : gravity name check = .degraded := by simp only [gravity, own, needed]; rfl
        simp only [verdict, own, needed, grave]
        refine (ih mild).trans ?_
        exact ⟨fun h => ⟨le_trans (le_degraded_iff.2 serving) h.1, h⟩, fun h => h.2⟩

/-- **The verdict is the worst that any check makes of the whole.** -/
theorem overall_le_iff : overall checks ≤ status ↔ ∀ c ∈ checks, gravity c.1 c.2 ≤ status := by
  have start : HealthStatus.healthy ≠ .unhealthy := nofun
  rw [overall, verdict_le_iff start]
  exact and_iff_right (healthy_le status)

theorem overall_unhealthy_iff :
    overall checks = .unhealthy ↔ ∃ c ∈ checks, c.2.status = .unhealthy ∧ c.1 ∈ critical := by
  rw [← not_iff_not, ← Ne, ← le_degraded_iff, overall_le_iff]
  simp only [le_degraded_iff, Ne, gravity_unhealthy_iff, not_exists, not_and]

theorem overall_healthy_iff :
    overall checks = .healthy ↔ ∀ c ∈ checks, c.2.status = .healthy := by
  rw [← le_healthy_iff, overall_le_iff]
  simp only [le_healthy_iff, gravity_healthy_iff]

theorem degraded_iff : status = .degraded ↔ ¬ status = .unhealthy ∧ ¬ status = .healthy := by
  cases status <;> simp

theorem overall_mono
    (h : ∀ c ∈ checks, ∃ d ∈ others, gravity c.1 c.2 ≤ gravity d.1 d.2) :
    overall checks ≤ overall others := by
  refine overall_le_iff.2 fun c mem => ?_
  obtain ⟨d, there, le⟩ := h c mem
  exact le_trans le (overall_le_iff.1 (HealthStatus.le_refl _) d there)

theorem overall_perm (h : checks.Perm others) : overall checks = overall others :=
  le_antisymm (overall_mono fun c mem => ⟨c, h.mem_iff.1 mem, HealthStatus.le_refl _⟩)
    (overall_mono fun c mem => ⟨c, h.mem_iff.2 mem, HealthStatus.le_refl _⟩)

/-! ## Maps of checks -/

/-- All checks of one map are there in the other, each as bad or worse; others may have been
added. -/
def Deteriorates (checks others : Dict HealthCheck) : Prop :=
  ∀ name check, checks.get? name = some check →
    ∃ worse, others.get? name = some worse ∧ check.status ≤ worse.status

/-- A check is put into a map: a new one, or a worse one in the place of one of its name. -/
theorem deteriorates_insert {checks : Dict HealthCheck}
    (h : ∀ old, checks.get? name = some old → old.status ≤ check.status) :
    Deteriorates checks (checks.insert name check) := by
  intro other old there
  by_cases same : other = name
  · subst same
    exact ⟨check, Dict.get?_insert_self, h old there⟩
  · exact ⟨old, (Dict.get?_insert_of_ne same).trans there, HealthStatus.le_refl _⟩

theorem overall_deteriorates {checks others : Dict HealthCheck} (h : Deteriorates checks others) :
    overall checks.entries ≤ overall others.entries := by
  refine overall_mono fun c mem => ?_
  obtain ⟨worse, there, le⟩ := h c.1 c.2 (Dict.get?_eq_some_iff.2 mem)
  exact ⟨(c.1, worse), Dict.get?_eq_some_iff.1 there, gravity_mono le⟩

/-- What is said of a map of checks, in whatever order it is gone through. -/
structure WorstCase (checks : Dict HealthCheck) (status : HealthStatus) : Prop where
  ordered : ∀ order, order.Perm checks.entries → overall order = status
  unhealthy : status = .unhealthy ↔ ∃ check, check.status = .unhealthy ∧
    (checks.get? "database" = some check ∨ checks.get? "message_broker" = some check)
  degraded : status = .degraded ↔ status ≠ .unhealthy ∧
    ∃ name check, checks.get? name = some check ∧ check.status ≠ .healthy
  healthy : status = .healthy ↔
    ∀ name check, checks.get? name = some check → check.status = .healthy
  worse : ∀ others, Deteriorates checks others →
    ∀ order, order.Perm others.entries → status ≤ overall order
  put : ∀ name check, (∀ old, checks.get? name = some old → old.status ≤ check.status) →
    ∀ order, order.Perm (checks.insert name check).entries → status ≤ overall order

/-- **Overall health is the worst case**, and nothing but the checks themselves decides it. -/
theorem overall_worst (checks : Dict HealthCheck) : WorstCase checks (overall checks.entries) := by
  -- `overall` reads the list of entries, the laws speak of the map
  have listed (P : String → HealthCheck → Prop) :
      (∃ c ∈ checks.entries, P c.1 c.2) ↔ ∃ name check, checks.get? name = some check ∧
        P name check := by
    simp only [Prod.exists, Dict.get?_eq_some_iff]
  have healthy : overall checks.entries = .healthy ↔
      ∀ name check, checks.get? name = some check → check.status = .healthy := by
    simp only [overall_healthy_iff, Prod.forall, Dict.get?_eq_some_iff]
  have worse (others : Dict HealthCheck) (h : Deteriorates checks others)
      (order : List (String × HealthCheck)) (perm : order.Perm others.entries) :
      overall checks.entries ≤ overall order :=
    overall_perm perm ▸ overall_deteriorates h
  constructor
  case ordered => exact fun order perm => overall_perm perm
  case unhealthy =>
    rw [overall_unhealthy_iff, listed fun name check => check.status = .unhealthy ∧ name ∈ critical]
    simp only [critical, database, broker, List.mem_cons, List.not_mem_nil, or_false]
    constructor
    · rintro ⟨name, check, there, bad, rfl | rfl⟩
      · exact ⟨check, bad, .inl there⟩
      · exact ⟨check, bad, .inr there⟩
    · rintro ⟨check, bad, there | there⟩
      · exact ⟨_, check, there, bad, .inl rfl⟩
      · exact ⟨_, check, there, bad, .inr rfl⟩
  case degraded =>
    rw [degraded_iff, healthy]
    simp only [Ne, not_forall, exists_prop]
  case healthy => exact healthy
  case worse => exact worse
  case put => exact fun name check h => worse _ (deteriorates_insert h)

end Health

end Courier
