import Courier.Proofs.Time.Written

/-!
# The order of time

What a clock shows is a point of the calendar and never a leap second (`Reading`). Readings are
ordered, and cutting them to whole microseconds keeps their order. It would not for leap seconds,
which cut to a point within the second after them.
-/

set_option autoImplicit false

namespace Courier

namespace DateTime

variable {a b c : DateTime}

instance (t : DateTime) : Decidable t.Datable :=
  inferInstanceAs (Decidable (yearInRange t.date.year = true))

theorem le_iff :
    DateTime.le a b = true ↔ a.seconds < b.seconds ∨ a.seconds = b.seconds ∧ a.nanos ≤ b.nanos := by
  simp only [DateTime.le, lt, Bool.not_eq_true', Bool.or_eq_false_iff, Bool.and_eq_false_iff,
    decide_eq_false_iff_not]
  omega

theorem le_refl (a : DateTime) : DateTime.le a a = true :=
  le_iff.2 (.inr ⟨rfl, Nat.le_refl _⟩)

theorem le_trans (h : DateTime.le a b = true) (h' : DateTime.le b c = true) :
    DateTime.le a c = true := by
  rw [le_iff] at *
  omega

theorem le_antisymm (h : DateTime.le a b = true)
    (h' : DateTime.le b a = true) : a = b := by
  obtain ⟨s, n, _, _⟩ := a
  obtain ⟨s', n', _, _⟩ := b
  rw [le_iff] at h h'
  obtain ⟨rfl, rfl⟩ : s = s' ∧ n = n' := by dsimp only at h h'; omega
  rfl

theorem le_total (a b : DateTime) : DateTime.le a b = true ∨ DateTime.le b a = true := by
  rw [le_iff, le_iff]
  omega

/-- Cutting keeps the order of what is no leap second. -/
theorem cutToMicros_le (h : DateTime.le a b = true) (ha : a.nanos < 1000000000)
    (hb : b.nanos < 1000000000) : DateTime.le a.cutToMicros b.cutToMicros = true := by
  rw [le_iff] at *
  have micros : a.microsSinceMillennium ≤ b.microsSinceMillennium := by
    rw [microsSinceMillennium, microsSinceMillennium]
    exact Int.tdiv_le_tdiv (by decide) (by omega)
  simp only [cutToMicros, ofMicrosSinceMillennium, ofSeconds,
    Int.fdiv_eq_ediv_of_nonneg _ (show (0 : Int) ≤ 1000000 by decide),
    Int.fmod_eq_emod_of_nonneg _ (show (0 : Int) ≤ 1000000 by decide)]
  omega

end DateTime

/-- What a clock may show. -/
structure Reading where
  time : DateTime := default
  plain : time.nanos < 1000000000 := by decide
  datable : time.Datable := by decide

instance : Inhabited Reading := ⟨{}⟩

/-- One reading is not later than another. -/
def Reading.Before (a b : Reading) : Prop := DateTime.le a.time b.time = true

end Courier
