import Courier.Proofs.Number.Powers
import Courier.Resilience.Retry

/-!
# The waits between attempts

A wait is the first one times a power of the factor, up to the longest one. With a whole factor that
is what doubles give, to the millisecond, for every attempt whose number has 31 bits and every first
wait but none at all: zero times a power that is too large for a double is no number, and the
longest wait takes its place. Where the number of an attempt has 32 bits the factor divides
(`DelayLaw`).

Doubles are exact up to `2^53`, and a product of whole numbers below that is one of them. Above it
the computed wait is at least that large (`Tracks`), which is enough once the longest wait cuts it
off: so the cut makes the rounding disappear.
-/

set_option autoImplicit false

namespace Courier.RetryPolicy

open Binary64 (IsWhole Tracks AtMost AtLeast)

/-- The wait that the policy asks for, computed without bounds. -/
def formula (p : RetryPolicy) (m attempt : Nat) : Nat :=
  Nat.min (p.initialDelay.toNat * m ^ attempt) p.maxDelay.toNat

/-- The factor's power is too large for a double. -/
def Overflows (p : RetryPolicy) (attempt : UInt32) : Prop :=
  p.multiplier.pow attempt.toInt32.toInt = .infinite false

/-- Waits that a double can hold, and a whole factor. -/
structure Plain (p : RetryPolicy) (m : Nat) : Prop where
  factor : p.multiplier.IsWhole m
  positive : 1 ≤ m
  first : p.initialDelay.toNat ≤ 2 ^ 53
  longest : p.maxDelay.toNat ≤ 2 ^ 53

variable {p : RetryPolicy} {m : Nat} {attempt : UInt32}

/-! ## The number of an attempt -/

theorem toInt_of_lt (h : attempt.toNat < 2 ^ 31) : attempt.toInt32.toInt = attempt.toNat := by
  show attempt.toBitVec.toInt = attempt.toBitVec.toNat
  exact BitVec.toInt_eq_toNat_of_lt (show 2 * attempt.toNat < 2 ^ 32 by omega)

theorem toInt_of_le (h : 2 ^ 31 ≤ attempt.toNat) :
    attempt.toInt32.toInt = -((2 ^ 32 - attempt.toNat : Nat) : Int) := by
  have late : 2 ^ 31 ≤ attempt.toBitVec.toNat := h
  have lt : attempt.toBitVec.toNat < 2 ^ 32 := attempt.toNat_lt
  show attempt.toBitVec.toInt = -((2 ^ 32 - attempt.toBitVec.toNat : Nat) : Int)
  rw [BitVec.toInt_eq_toNat_cond, if_neg (by omega)]
  omega

/-! ## The law -/

/-- How long is waited after an attempt, with a whole factor `m`. -/
structure DelayLaw (p : RetryPolicy) (m : Nat) : Prop where
  /-- The wait is that of the formula if there is something to grow, or else if the power is not too
  large. -/
  by_formula : ∀ attempt : UInt32, attempt.toNat < 2 ^ 31 →
    (0 < p.initialDelay.toNat ∨ ¬ p.Overflows attempt) →
    p.delay attempt = p.formula m attempt.toNat
  /-- The power is not too large before it comes to 1024 doublings. -/
  small : ∀ attempt : UInt32, attempt.toNat < 2 ^ 31 → ∀ t, m ≤ 2 ^ t →
    t * attempt.toNat < 1024 → ¬ p.Overflows attempt
  /-- From there on it is. -/
  large : ∀ attempt : UInt32, attempt.toNat < 2 ^ 31 → ∀ t < 1024, 2 ^ t ≤ m →
    1024 ≤ t * attempt.toNat → p.Overflows attempt
  /-- With a power that is too large, a first wait of nothing becomes the longest wait. -/
  nothing : ∀ attempt : UInt32, attempt.toNat < 2 ^ 31 → p.initialDelay.toNat = 0 →
    p.Overflows attempt → p.delay attempt = p.maxDelay.toNat
  /-- A number that takes all 32 bits is read as a negative one: half the first wait is left at most
  where the formula asks for the longest. -/
  wrapped : ∀ attempt : UInt32, 2 ^ 31 ≤ attempt.toNat → 2 ≤ m →
    p.delay attempt ≤ p.initialDelay.toNat / 2 ∧
      (0 < p.initialDelay.toNat → p.formula m attempt.toNat = p.maxDelay.toNat)
  /-- To the factor one that does not matter. -/
  steady : m = 1 → ∀ attempt : UInt32, p.delay attempt = p.formula m attempt.toNat
  le_longest : ∀ attempt : UInt32, p.delay attempt ≤ p.maxDelay.toNat
  mono : 0 < p.initialDelay.toNat → ∀ a b : UInt32, a ≤ b → b.toNat < 2 ^ 31 →
    p.delay a ≤ p.delay b

/-! ## Small powers and large ones -/

namespace Plain

theorem tracks_pow (h : p.Plain m) (early : attempt.toNat < 2 ^ 31) :
    Tracks (m ^ attempt.toNat) (p.multiplier.pow attempt.toInt32.toInt) := by
  rw [toInt_of_lt early, Binary64.pow_natCast]
  exact h.factor.tracks.powLoop h.positive _

/-- **A wait with a power that is known.** -/
theorem delay_of_tracks {power : Nat} (h : p.Plain m)
    (known : Tracks power (p.multiplier.pow attempt.toInt32.toInt)) (pos : 1 ≤ power)
    (held : 0 < p.initialDelay.toNat ∨ ¬ p.Overflows attempt) :
    p.delay attempt = Nat.min (p.initialDelay.toNat * power) p.maxDelay.toNat := by
  have longest := Binary64.isWhole_ofNat h.longest
  have grown : Tracks (p.initialDelay.toNat * power)
      ((Binary64.ofNat p.initialDelay.toNat).mul (p.multiplier.pow attempt.toInt32.toInt)) := by
    rcases Nat.eq_zero_or_pos p.initialDelay.toNat with none | some
    · -- zero times a number
      have finite := held.resolve_left none.not_gt
      rw [none, Nat.zero_mul]
      unfold Overflows at finite
      generalize p.multiplier.pow attempt.toInt32.toInt = d at *
      cases known.atLeast 0 (Nat.zero_le _) (Nat.zero_le _) with
      | finite => exact Binary64.isWhole_zero_mul.tracks
      | infinite => exact absurd rfl finite
    · exact (Binary64.isWhole_ofNat h.first).tracks.mul known some pos
  exact grown.toNat_min longest h.longest

theorem delay_nothing (h : p.Plain m) (none : p.initialDelay.toNat = 0)
    (overflows : p.Overflows attempt) : p.delay attempt = p.maxDelay.toNat := by
  unfold delay
  dsimp only
  rw [none, overflows]
  exact (Binary64.isWhole_ofNat h.longest).toNat h.longest

/-- Below 1024 doublings the power is finite, and so is the wait before it is cut to the greatest
one. -/
theorem not_overflows (h : p.Plain m) {t : Nat} (early : attempt.toNat < 2 ^ 31) (le : m ≤ 2 ^ t)
    (few : t * attempt.toNat < 1024) : ¬ p.Overflows attempt := by
  obtain ⟨k, e, factor, value⟩ := h.factor
  have bound : AtMost (2 ^ t) p.multiplier := by
    rw [factor]
    refine .finite ?_
    rw [value]
    exact_mod_cast le
  have power := Binary64.atMost_powLoop bound few
  rw [Overflows, toInt_of_lt early, Binary64.pow_natCast]
  intro infinite
  rw [infinite] at power
  cases power

theorem overflows (h : p.Plain m) {t : Nat} (early : attempt.toNat < 2 ^ 31) (small : t < 1024)
    (le : 2 ^ t ≤ m) (many : 1024 ≤ t * attempt.toNat) : p.Overflows attempt := by
  obtain ⟨k, e, factor, value⟩ := h.factor
  have bound : AtLeast (2 ^ t) p.multiplier := by
    rw [factor]
    refine .finite ?_
    rw [value]
    exact_mod_cast le
  rw [Overflows, toInt_of_lt early, Binary64.pow_natCast]
  exact Binary64.powLoop_infinite bound small many

theorem pow_wrapped (late : 2 ^ 31 ≤ attempt.toNat) :
    p.multiplier.pow attempt.toInt32.toInt =
      Binary64.one.div (Binary64.powLoop .one p.multiplier (2 ^ 32 - attempt.toNat)) := by
  have lt := attempt.toNat_lt
  rw [toInt_of_le late, Binary64.pow, if_pos (by omega), Int.natAbs_neg, Int.natAbs_natCast]

/-- A wait after an attempt whose number has 32 bits is at most half the first wait. -/
theorem delay_wrapped (h : p.Plain m) (late : 2 ^ 31 ≤ attempt.toNat) (grows : 2 ≤ m) :
    p.delay attempt ≤ p.initialDelay.toNat / 2 := by
  have lt := attempt.toNat_lt
  rw [delay, pow_wrapped late]
  generalize powered : Binary64.powLoop .one p.multiplier (2 ^ 32 - attempt.toNat) = power
  have large : AtLeast 2 power := by
    rw [← powered]
    refine (h.factor.tracks.powLoop h.positive _).atLeast 2 (by decide) ?_
    exact grows.trans (Nat.le_self_pow (by omega) m)
  -- the power is at least two, so its reciprocal is at most a half, and that is a double
  have reciprocal : AtMost (1 / 2) (Binary64.one.div power) := by
    refine Binary64.atMost_div (AtMost.mono (Binary64.atMost_ofNat (n := 1) (by decide)) ?_) large
      two_pos (mod_cast Binary64.grid_half (n := 1) (by decide)) le_rfl ?_
    · exact Nat.cast_one.le
    · exact one_half_lt_one.trans (mod_cast Binary64.lt_ceiling (n := 1) (by decide))
  have grown := Binary64.atMost_mul (Binary64.atMost_ofNat h.first) reciprocal
    (Binary64.grid_half h.first) (by rw [mul_one_div])
    ((half_le_self (Nat.cast_nonneg _)).trans_lt (Binary64.lt_ceiling h.first))
  refine (Binary64.toNat_min_le_left grown (Binary64.isWhole_ofNat h.longest)).trans_eq ?_
  exact Nat.floor_div_eq_div p.initialDelay.toNat 2

/-- There the formula asks for the longest wait. -/
theorem formula_wrapped (h : p.Plain m) (late : 2 ^ 31 ≤ attempt.toNat) (grows : 2 ≤ m)
    (some : 0 < p.initialDelay.toNat) : p.formula m attempt.toNat = p.maxDelay.toNat := by
  refine Nat.min_eq_right ?_
  calc p.maxDelay.toNat ≤ 2 ^ 53 := h.longest
    _ ≤ 2 ^ attempt.toNat := Nat.pow_le_pow_right two_pos (by omega)
    _ ≤ m ^ attempt.toNat := Nat.pow_le_pow_left grows _
    _ ≤ p.initialDelay.toNat * m ^ attempt.toNat := Nat.le_mul_of_pos_left _ some

/-- Every power of the factor one is one, a reciprocal as well. -/
theorem isWhole_pow (h : p.Plain 1) (attempt : UInt32) :
    IsWhole 1 (p.multiplier.pow attempt.toInt32.toInt) := by
  have power (n : Nat) : IsWhole 1 (Binary64.powLoop .one p.multiplier n) := by
    have tracked := h.factor.tracks.powLoop h.positive n
    rw [Nat.one_pow] at tracked
    exact tracked.isWhole (by decide)
  -- a power of one, or one divided by such a power
  rcases Nat.lt_or_ge attempt.toNat (2 ^ 31) with early | late
  · rw [toInt_of_lt early, Binary64.pow_natCast]
    exact power _
  · rw [pow_wrapped late]
    have one := Binary64.isWhole_one.tracks
    have below := (power (2 ^ 32 - attempt.toNat)).tracks
    have above := below.atLeast 1 (by decide) le_rfl
    refine Binary64.isWhole_of_bounds ?_ ?_
    · exact Binary64.atLeast_div (one.atLeast 1 (by decide) le_rfl) (below.atMost (by decide))
        (mod_cast above) (Binary64.grid_nat (by decide)) (by norm_num)
    · exact Binary64.atMost_div (one.atMost (by decide)) above (by norm_num)
        (Binary64.grid_nat (by decide)) (by norm_num) (Binary64.lt_ceiling (by decide))

theorem delay_steady (h : p.Plain 1) (attempt : UInt32) :
    p.delay attempt = p.formula 1 attempt.toNat := by
  have known := h.isWhole_pow attempt
  have finite : ¬ p.Overflows attempt := by
    obtain ⟨k, e, power, -⟩ := known
    exact fun infinite => nomatch power.symm.trans infinite
  rw [h.delay_of_tracks known.tracks le_rfl (.inr finite), formula, Nat.one_pow]

theorem delay_exact (h : p.Plain m) (early : attempt.toNat < 2 ^ 31)
    (held : 0 < p.initialDelay.toNat ∨ ¬ p.Overflows attempt) :
    p.delay attempt = p.formula m attempt.toNat :=
  h.delay_of_tracks (h.tracks_pow early) (Nat.pow_pos h.positive) held

theorem delay_le (h : p.Plain m) (attempt : UInt32) : p.delay attempt ≤ p.maxDelay.toNat :=
  Binary64.toNat_min_le_right _ (Binary64.isWhole_ofNat h.longest) h.longest

end Plain

theorem formula_nothing (none : p.initialDelay.toNat = 0) (attempt : Nat) :
    p.formula m attempt = 0 := by
  rw [formula, none, Nat.zero_mul]
  exact Nat.zero_min _

theorem formula_mono (p : RetryPolicy) {a b : Nat} (positive : 1 ≤ m) (le : a ≤ b) :
    p.formula m a ≤ p.formula m b :=
  min_le_min_right _ (Nat.mul_le_mul_left _ (Nat.pow_le_pow_right positive le))

/-- **The waits that a policy comes to.** -/
theorem delay_law (h : p.Plain m) : p.DelayLaw m where
  by_formula _ early held := h.delay_exact early held
  small _ early _ le few := h.not_overflows early le few
  large _ early _ small le many := h.overflows early small le many
  nothing _ _ none overflows := h.delay_nothing none overflows
  wrapped _ late grows := ⟨h.delay_wrapped late grows, h.formula_wrapped late grows⟩
  steady one := by
    subst one
    exact h.delay_steady
  le_longest := h.delay_le
  mono some a b le early := by
    rw [h.delay_exact (Nat.lt_of_le_of_lt le early) (.inl some), h.delay_exact early (.inl some)]
    exact p.formula_mono h.positive le

theorem plain_default : ({} : RetryPolicy).Plain 2 :=
  ⟨Binary64.isWhole_ofNat (by decide), by decide, by decide, by decide⟩

theorem delay_law_default : ({} : RetryPolicy).Plain 2 ∧ ({} : RetryPolicy).DelayLaw 2 :=
  ⟨plain_default, delay_law plain_default⟩

/-- The formula is missed on both sides: where nothing is to grow, and where the number of the
attempt is read as a negative one. -/
theorem delay_beside_formula :
    let idle : RetryPolicy := { initialDelay := 0 }
    let busy : RetryPolicy := {}
    (idle.Plain 2 ∧ idle.delay 1024 = 5000 ∧ idle.formula 2 1024 = 0) ∧
      (busy.Plain 2 ∧ busy.delay 2147483648 ≤ 50 ∧
        busy.formula 2 (2147483648 : UInt32).toNat = 5000) := by
  have idle : ({ initialDelay := 0 } : RetryPolicy).Plain 2 :=
    ⟨plain_default.factor, by decide, by decide, by decide⟩
  have overflows : ({ initialDelay := 0 } : RetryPolicy).Overflows 1024 :=
    idle.overflows (t := 1) (by decide) (by decide) le_rfl (by decide)
  refine ⟨⟨idle, idle.delay_nothing rfl overflows, formula_nothing rfl 1024⟩, plain_default, ?_, ?_⟩
  · exact plain_default.delay_wrapped (by decide) le_rfl
  · exact plain_default.formula_wrapped (by decide) le_rfl (by decide)

end Courier.RetryPolicy
