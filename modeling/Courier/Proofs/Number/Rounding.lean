import Courier.Number.Binary64
import Mathlib.Algebra.Order.Field.Power
import Mathlib.Algebra.Order.Floor.Semifield
import Mathlib.Data.Rat.Floor
import Mathlib.Tactic.FieldSimp
import Mathlib.Tactic.Linarith
import Mathlib.Tactic.Positivity
import Mathlib.Tactic.Ring

/-!
# Rounding never crosses a number of the grid

A ratio is rounded to a neighbour among the numbers that a double can hold (`Grid`), so that what is
at least such a number, or at most, still is afterwards (`atLeast_ofRatio`, `atMost_ofRatio`). All
that is said of products and quotients follows from these two: nothing here looks at which of the
two neighbours is taken.

Numbers without a sign only.

Bounds are stated as `AtLeast` and `AtMost`, between a rational number and a double, and not as an
order on doubles: infinity is at least everything, and what is no number is neither.
-/

set_option autoImplicit false

namespace Courier.Binary64

/-! ## Ratios -/

variable {num den : Nat} {e : Int}

theorem rescale_pos (h : 0 < den) : 0 < (rescale num den e).2 := by
  unfold rescale
  split
  · exact Nat.mul_pos h (Nat.two_pow_pos _)
  · exact h

/-- A rescaled ratio is the same one in other units. Scaling multiplies one side only, by a power of
two. -/
theorem rescale_eq (num den : Nat) (e : Int) :
    ((rescale num den e).1 : ℚ) / (rescale num den e).2 = num / den / 2 ^ e := by
  unfold rescale
  split
  · rename_i h
    obtain ⟨k, rfl⟩ := Int.eq_ofNat_of_zero_le h
    simp [div_div]
  · rename_i h
    obtain ⟨k, hk⟩ := Int.eq_ofNat_of_zero_le (show 0 ≤ -e by omega)
    obtain rfl : e = -(k : Int) := by omega
    simp [mul_div_right_comm]

theorem magnitude_eq (m : Nat) (e : Int) :
    ((magnitude m e).1 : ℚ) / (magnitude m e).2 = m * 2 ^ e := by
  rw [magnitude, rescale_eq, zpow_neg, div_inv_eq_mul, Nat.cast_one, div_one]

theorem le_nearest {M : Nat} (pos : 0 < den) (h : (M : ℚ) ≤ num / den) : M ≤ nearest num den := by
  have whole : M ≤ num / den := by
    rw [le_div_iff₀ (by exact_mod_cast pos)] at h
    exact (Nat.le_div_iff_mul_le pos).2 (by exact_mod_cast h)
  unfold nearest
  dsimp only
  split_ifs <;> omega

/-- The nearest whole number to a ratio is not above one that the ratio is not above. -/
theorem nearest_le {M : Nat} (pos : 0 < den) (h : (num : ℚ) / den ≤ M) : nearest num den ≤ M := by
  rw [div_le_iff₀ (by exact_mod_cast pos)] at h
  have le : num ≤ M * den := by exact_mod_cast h
  have parts := Nat.div_add_mod num den
  have whole : num / den ≤ M := Nat.div_le_of_le_mul (by rwa [Nat.mul_comm] at le)
  rcases Nat.lt_or_eq_of_le whole with less | rfl
  · unfold nearest
    dsimp only
    split_ifs <;> omega
  · -- nothing is left over
    have rest : num % den = 0 := by
      rw [Nat.mul_comm] at le
      omega
    unfold nearest
    dsimp only
    rw [rest, if_pos (by omega)]

/-- A ratio lies between two neighbouring powers of two. -/
theorem floorLog2_spec (hn : 0 < num) (hd : 0 < den) :
    (2 : ℚ) ^ floorLog2 num den ≤ num / den ∧ (num : ℚ) / den < 2 ^ (floorLog2 num den + 1) := by
  have hd' : (0 : ℚ) < den := by exact_mod_cast hd
  have n₁ : (2 : ℚ) ^ (Nat.log2 num : Int) ≤ num := by
    exact_mod_cast Nat.log2_self_le hn.ne'
  have n₂ : (num : ℚ) < 2 ^ ((Nat.log2 num : Int) + 1) := by
    exact_mod_cast Nat.lt_log2_self (n := num)
  have d₁ : (2 : ℚ) ^ (Nat.log2 den : Int) ≤ den := by
    exact_mod_cast Nat.log2_self_le hd.ne'
  have d₂ : (den : ℚ) < 2 ^ ((Nat.log2 den : Int) + 1) := by
    exact_mod_cast Nat.lt_log2_self (n := den)
  generalize hk : (Nat.log2 num : Int) - Nat.log2 den = k
  -- the difference of the logarithms is right or one too large, and one comparison tells which
  have below : (2 : ℚ) ^ (k - 1) ≤ num / den := by
    rw [le_div_iff₀ hd']
    calc (2 : ℚ) ^ (k - 1) * den ≤ 2 ^ (k - 1) * 2 ^ ((Nat.log2 den : Int) + 1) := by gcongr
      _ = 2 ^ (Nat.log2 num : Int) := by rw [← zpow_add₀ two_ne_zero]; congr 1; omega
      _ ≤ num := n₁
  have above : (num : ℚ) / den < 2 ^ (k + 1) := by
    rw [div_lt_iff₀ hd']
    calc (num : ℚ) < 2 ^ ((Nat.log2 num : Int) + 1) := n₂
      _ = 2 ^ (k + 1) * 2 ^ (Nat.log2 den : Int) := by
        rw [← zpow_add₀ two_ne_zero]; congr 1; omega
      _ ≤ 2 ^ (k + 1) * den := by gcongr
  have pos : (0 : ℚ) < (rescale num den k).2 := by exact_mod_cast rescale_pos hd
  have fits : (rescale num den k).2 ≤ (rescale num den k).1 ↔ (2 : ℚ) ^ k ≤ num / den := by
    rw [← one_le_div₀ (by positivity : (0 : ℚ) < 2 ^ k), ← rescale_eq, one_le_div₀ pos]
    exact_mod_cast Iff.rfl
  unfold floorLog2
  rw [hk]
  dsimp only
  split_ifs with h
  · exact ⟨fits.1 h, above⟩
  · refine ⟨below, ?_⟩
    rw [sub_add_cancel]
    exact not_le.1 fun hle => h (fits.2 hle)

/-! ## Comparing doubles with numbers

Rounding is monotone and keeps the numbers of the grid. So a bound on the exact result that lies on
the grid is a bound on the rounded one, and no proof needs to know which way it was rounded.
-/

/-- Infinity is at least every number. -/
inductive AtLeast (x : ℚ) : Binary64 → Prop
  | finite {m : Nat} {e : Int} (h : x ≤ m * 2 ^ e) : AtLeast x (.finite false m e)
  | infinite : AtLeast x (.infinite false)

inductive AtMost (x : ℚ) : Binary64 → Prop
  | finite {m : Nat} {e : Int} (h : (m : ℚ) * 2 ^ e ≤ x) : AtMost x (.finite false m e)

/-- A number that a double can hold, were its exponent not bounded above. -/
def Grid (x : ℚ) : Prop := ∃ (k : Nat) (j : Int), k ≤ 2 ^ 53 ∧ leastExponent ≤ j ∧ x = k * 2 ^ j

variable {x y : ℚ} {a b : Binary64}

theorem AtMost.mono (h : AtMost x a) (le : x ≤ y) : AtMost y a := by
  cases h with
  | finite h => exact .finite (h.trans le)

theorem grid_nat {n : Nat} (h : n ≤ 2 ^ 53) : Grid n := ⟨n, 0, h, by decide, by simp⟩

theorem grid_two_pow {j : Int} (h : leastExponent ≤ j) : Grid (2 ^ j) :=
  ⟨1, j, by decide, h, by simp⟩

theorem grid_pow (n : Nat) : Grid (2 ^ n) := by
  have := grid_two_pow (j := n) (by unfold leastExponent; omega)
  rwa [zpow_natCast] at this

theorem grid_half {n : Nat} (h : n ≤ 2 ^ 53) : Grid (n / 2) :=
  ⟨n, -1, h, by decide, by rw [zpow_neg_one, div_eq_mul_inv]⟩

theorem Grid.nonneg (h : Grid x) : 0 ≤ x := by
  obtain ⟨k, j, -, -, rfl⟩ := h
  positivity

/-! ## The order, and the cut to a whole number -/

theorem lt_finite_iff {m n : Nat} {e f : Int} :
    lt (.finite false m e) (.finite false n f) = true ↔ (m : ℚ) * 2 ^ e < n * 2 ^ f := by
  have hm : (0 : ℚ) < (magnitude m e).2 := by exact_mod_cast rescale_pos Nat.one_pos
  have hn : (0 : ℚ) < (magnitude n f).2 := by exact_mod_cast rescale_pos Nat.one_pos
  rw [← magnitude_eq m e, ← magnitude_eq n f, div_lt_div_iff₀ hm hn]
  exact decide_eq_true_iff.trans (by exact_mod_cast Iff.rfl)

theorem toNat_finite (m : Nat) (e : Int) :
    toNat (.finite false m e) = Nat.min ⌊(m : ℚ) * 2 ^ e⌋₊ natCeiling := by
  rw [← magnitude_eq, Nat.floor_div_eq_div]
  rfl

/-! ## Rounding a ratio

The steps of the conversion in their order: the exponent that fits, the mantissa rounded to it, and
the assembly with its carry and its overflow.
-/

/-- The exponent that a ratio is rounded to: the least one, or one that leaves all digits. -/
structure Fits (x : ℚ) (e : Int) : Prop where
  least : leastExponent ≤ e
  full : leastExponent < e → (2 : ℚ) ^ 52 * 2 ^ e ≤ x
  below : x < 2 ^ 53 * 2 ^ e

/-- The exponent that is chosen fits. -/
theorem fits_floorLog2 (hn : 0 < num) (hd : 0 < den) :
    Fits (num / den) (max leastExponent (floorLog2 num den - 52)) := by
  obtain ⟨low, high⟩ := floorLog2_spec hn hd
  have shift (n : Nat) (e : Int) : (2 : ℚ) ^ n * 2 ^ e = 2 ^ (n + e) := by
    rw [zpow_add₀ two_ne_zero, zpow_natCast]
  constructor
  case least => exact le_max_left _ _
  case full =>
    intro h
    rw [max_eq_right (by omega), shift]
    exact low.trans' (zpow_le_zpow_right₀ one_le_two (by omega))
  case below =>
    rw [shift]
    exact high.trans_le (zpow_le_zpow_right₀ one_le_two (by omega))

/-- A number of the grid is a whole multiple of a power of two, or else a small one. -/
theorem Grid.multiple_or_small (grid : Grid y) (e : Int) :
    (∃ M : Nat, y = M * 2 ^ e) ∨ (leastExponent < e ∧ y ≤ 2 ^ 52 * 2 ^ e) := by
  obtain ⟨k, j, hk, hj, rfl⟩ := grid
  by_cases h : e ≤ j
  · obtain ⟨d, rfl⟩ := Int.le.dest h
    refine .inl ⟨k * 2 ^ d, ?_⟩
    rw [zpow_add₀ two_ne_zero, zpow_natCast]
    push_cast
    ring
  · refine .inr ⟨by omega, ?_⟩
    calc (k : ℚ) * 2 ^ j ≤ 2 ^ 53 * 2 ^ (e - 1) := by
          gcongr
          · exact_mod_cast hk
          · exact one_le_two
          · omega
      _ = 2 ^ 52 * 2 ^ e := by
          rw [zpow_sub_one₀ two_ne_zero]
          ring

/-- The mantissa that a ratio is rounded to. -/
def mantissaOf (num den : Nat) (e : Int) : Nat :=
  nearest (rescale num den e).1 (rescale num den e).2

section

variable {M : Nat}

theorem le_mantissaOf (hd : 0 < den) (h : (M : ℚ) * 2 ^ e ≤ num / den) :
    M ≤ mantissaOf num den e := by
  refine le_nearest (rescale_pos hd) ?_
  rwa [rescale_eq, le_div_iff₀ (by positivity)]

theorem mantissaOf_le (hd : 0 < den) (h : (num : ℚ) / den ≤ M * 2 ^ e) :
    mantissaOf num den e ≤ M := by
  refine nearest_le (rescale_pos hd) ?_
  rwa [rescale_eq, div_le_iff₀ (by positivity)]

/-- A rounded ratio is not below a number of the grid that the ratio is not below. -/
theorem le_rounded (hd : 0 < den) (fits : Fits (num / den) e) (grid : Grid x)
    (le : x ≤ num / den) : x ≤ mantissaOf num den e * 2 ^ e := by
  rcases grid.multiple_or_small e with ⟨M, rfl⟩ | ⟨more, small⟩
  · have := le_mantissaOf hd le
    gcongr
  · -- the mantissa has all its digits, and no number of the grid between is as small
    have full : 2 ^ 52 ≤ mantissaOf num den e := le_mantissaOf hd (by exact_mod_cast fits.full more)
    calc x ≤ 2 ^ 52 * 2 ^ e := small
      _ ≤ mantissaOf num den e * 2 ^ e := by
        gcongr
        exact_mod_cast full

/-- A rounded ratio is not above a number of the grid that the ratio is not above. -/
theorem rounded_le (hd : 0 < den) (fits : Fits (num / den) e) (grid : Grid x)
    (le : num / den ≤ x) : mantissaOf num den e * 2 ^ e ≤ x := by
  rcases grid.multiple_or_small e with ⟨M, rfl⟩ | ⟨more, small⟩
  · have := mantissaOf_le hd le
    gcongr
  · -- the ratio is the number itself
    have full : mantissaOf num den e ≤ 2 ^ 52 :=
      mantissaOf_le hd (by exact_mod_cast le.trans small)
    calc (mantissaOf num den e : ℚ) * 2 ^ e ≤ 2 ^ 52 * 2 ^ e := by
          gcongr
          exact_mod_cast full
      _ ≤ num / den := fits.full more
      _ ≤ x := le

end

/-- The first power of two that is too large for a double. -/
@[irreducible]
def ceiling : ℚ := 2 ^ (1024 : Int)

theorem ceiling_eq (n : Nat) (e : Int) (h : n + e = 1024) : (2 : ℚ) ^ n * 2 ^ e = ceiling := by
  rw [ceiling, ← h, zpow_add₀ two_ne_zero, zpow_natCast]

theorem two_pow_lt_ceiling {n : Nat} (h : n < 1024) : (2 : ℚ) ^ n < ceiling := by
  rw [ceiling, ← zpow_natCast]
  exact zpow_lt_zpow_right₀ one_lt_two (by omega)

theorem ceiling_le_two_pow {n : Nat} (h : 1024 ≤ n) : ceiling ≤ 2 ^ n := by
  rw [ceiling, ← zpow_natCast]
  exact zpow_le_zpow_right₀ one_le_two (by omega)

theorem lt_ceiling {n : Nat} (h : n ≤ 2 ^ 53) : (n : ℚ) < ceiling := by
  calc (n : ℚ) ≤ 2 ^ 53 := by exact_mod_cast h
    _ < ceiling := two_pow_lt_ceiling (by decide)

section

variable {m : Nat}

/-- Putting a double together can only bring it up, to infinity. -/
theorem atLeast_assemble (h : x ≤ m * 2 ^ e) : AtLeast x (assemble false m e) := by
  unfold assemble
  dsimp only
  -- the mantissa may have grown by a digit, and the exponent may have become too large
  -- a mantissa rounded up to `2 ^ 53` carries into the exponent; either way the exponent may be too
  -- large
  split_ifs with carry large large
  · exact .infinite
  · refine .finite (h.trans_eq ?_)
    rw [carry, zpow_add_one₀ two_ne_zero]
    push_cast
    ring
  · exact .infinite
  · exact .finite h

/-- Putting a double together does not bring it to infinity below the ceiling. -/
theorem atMost_assemble (h : (m : ℚ) * 2 ^ e ≤ x) (small : x < ceiling)
    (full : leastExponent < e → 2 ^ 52 ≤ m) : AtMost x (assemble false m e) := by
  have carried : (2 * hidden : Nat) = (2 : ℚ) ^ 53 := by norm_num [hidden]
  unfold assemble
  dsimp only
  split_ifs with carry large large
  · refine absurd (h.trans_lt small) (not_lt.2 ?_)
    calc ceiling = 2 ^ 53 * 2 ^ (971 : Int) := (ceiling_eq _ _ (by norm_num)).symm
      _ ≤ m * 2 ^ e := by
        rw [carry, carried]
        gcongr
        · exact one_le_two
        · unfold greatestExponent at large
          omega
  · refine .finite (h.trans_eq' ?_)
    rw [carry, carried, zpow_add_one₀ two_ne_zero]
    norm_num [hidden]
    ring
  · refine absurd (h.trans_lt small) (not_lt.2 ?_)
    unfold greatestExponent at large
    calc ceiling = 2 ^ 52 * 2 ^ (972 : Int) := (ceiling_eq _ _ (by norm_num)).symm
      _ ≤ m * 2 ^ e := by
        have := full (by unfold leastExponent; omega)
        gcongr
        · exact_mod_cast this
        · exact one_le_two
        · omega
  · exact .finite h

/-- A finite double is below the ceiling. -/
theorem assemble_lt {s : Bool} {k : Nat} {f : Int} (h : assemble false m e = .finite s k f)
    (le : m ≤ 2 ^ 53) : (k : ℚ) * 2 ^ f < ceiling := by
  have bound {k : Nat} {f : Int} (hk : k < 2 ^ 53) (hf : f ≤ greatestExponent) :
      (k : ℚ) * 2 ^ f < ceiling := by
    unfold greatestExponent at hf
    calc (k : ℚ) * 2 ^ f < 2 ^ 53 * 2 ^ f := by
          gcongr
          exact_mod_cast hk
      _ ≤ 2 ^ 53 * 2 ^ (971 : Int) := by
          gcongr
          exact one_le_two
      _ = ceiling := ceiling_eq _ _ (by norm_num)
  unfold assemble at h
  dsimp only at h
  split_ifs at h with carry large large
  · cases h
    exact bound (show hidden < 2 ^ 53 by decide) (not_lt.1 large)
  · cases h
    have : m ≠ 2 ^ 53 := carry
    exact bound (by omega) (not_lt.1 large)

end

theorem grid_ceiling : Grid ceiling := by
  rw [ceiling]
  exact grid_two_pow (by decide)

/-- **What is at least a number of the grid is so when it is rounded.** -/
theorem atLeast_ofRatio (hd : 0 < den) (grid : Grid x) (le : x ≤ num / den) :
    AtLeast x (ofRatio false num den) := by
  unfold ofRatio
  split_ifs with h
  · subst h
    refine .finite (le.trans_eq ?_)
    simp
  · exact atLeast_assemble (le_rounded hd (fits_floorLog2 (Nat.pos_of_ne_zero h) hd) grid le)

/-- **So is what is at most such a number.** -/
theorem atMost_ofRatio (hd : 0 < den) (grid : Grid x) (le : num / den ≤ x) (small : x < ceiling) :
    AtMost x (ofRatio false num den) := by
  unfold ofRatio
  split_ifs with h
  · refine .finite ?_
    simpa using grid.nonneg
  · have fits := fits_floorLog2 (Nat.pos_of_ne_zero h) hd
    refine atMost_assemble (rounded_le hd fits grid le) small fun more => ?_
    exact le_mantissaOf hd (by exact_mod_cast fits.full more)

/-- A ratio that reaches the ceiling is rounded to infinity. -/
theorem ofRatio_infinite (hd : 0 < den) (le : ceiling ≤ num / den) :
    ofRatio false num den = .infinite false := by
  have reaches : AtLeast ceiling (ofRatio false num den) :=
    atLeast_ofRatio hd grid_ceiling le
  have finite {s : Bool} {k : Nat} {f : Int} (h : ofRatio false num den = .finite s k f) :
      (k : ℚ) * 2 ^ f < ceiling := by
    unfold ofRatio at h
    split_ifs at h with hn
    · cases h
      simp [ceiling]
    · have fits := fits_floorLog2 (Nat.pos_of_ne_zero hn) hd
      exact assemble_lt h (mantissaOf_le hd (by exact_mod_cast fits.below.le))
  generalize ofRatio false num den = d at *
  cases reaches with
  | finite h => exact absurd h (not_le.2 (finite rfl))
  | infinite => rfl

theorem atLeast_ofNat {n : Nat} (h : n ≤ 2 ^ 53) : AtLeast n (ofNat n) :=
  atLeast_ofRatio Nat.one_pos (grid_nat h) (by simp)

theorem atMost_ofNat {n : Nat} (h : n ≤ 2 ^ 53) : AtMost n (ofNat n) :=
  atMost_ofRatio Nat.one_pos (grid_nat h) (by simp) (lt_ceiling h)

/-! ## Products and quotients -/

variable {z : ℚ}

theorem product_eq (m n : Nat) (e f : Int) :
    ((rescale (m * n) 1 (-(e + f))).1 : ℚ) / (rescale (m * n) 1 (-(e + f))).2 =
      m * 2 ^ e * (n * 2 ^ f) := by
  rw [rescale_eq, zpow_neg, div_inv_eq_mul, zpow_add₀ two_ne_zero]
  push_cast
  ring

theorem mantissa_ne_zero {m : Nat} (hx : 0 < x) (h : x ≤ m * 2 ^ e) : m ≠ 0 := by
  rintro rfl
  rw [Nat.cast_zero, zero_mul] at h
  exact absurd hx (not_lt.2 h)

/-- Products keep bounds from below. The bounds must be positive, since nothing times infinity is no
number. -/
theorem atLeast_mul (ha : AtLeast x a) (hb : AtLeast y b) (hx : 0 < x) (hy : 0 < y) (grid : Grid z)
    (le : z ≤ x * y) : AtLeast z (a.mul b) := by
  cases ha with
  | finite ha =>
    cases hb with
    | finite hb =>
      refine atLeast_ofRatio (rescale_pos Nat.one_pos) grid ?_
      rw [product_eq]
      exact le.trans (mul_le_mul ha hb hy.le (by positivity))
    | infinite =>
      rw [mul, if_neg (mantissa_ne_zero hx ha)]
      exact .infinite
  | infinite =>
    cases hb with
    | finite hb =>
      rw [mul, if_neg (mantissa_ne_zero hy hb)]
      exact .infinite
    | infinite => exact .infinite

theorem atMost_mul (ha : AtMost x a) (hb : AtMost y b) (grid : Grid z) (le : x * y ≤ z)
    (small : z < ceiling) : AtMost z (a.mul b) := by
  cases ha with
  | @finite m e ha =>
    cases hb with
    | @finite n f hb =>
      refine atMost_ofRatio (rescale_pos Nat.one_pos) grid ?_ small
      rw [product_eq]
      have hx : (0 : ℚ) ≤ x := le_trans (by positivity) ha
      exact (mul_le_mul ha hb (by positivity) hx).trans le

/-- A product that reaches the ceiling is infinite. -/
theorem mul_infinite (ha : AtLeast x a) (hb : AtLeast y b) (hx : 0 < x) (hy : 0 < y)
    (le : ceiling ≤ x * y) : a.mul b = .infinite false := by
  cases ha with
  | finite ha =>
    cases hb with
    | finite hb =>
      refine ofRatio_infinite (rescale_pos Nat.one_pos) ?_
      rw [product_eq]
      exact le.trans (mul_le_mul ha hb hy.le (by positivity))
    | infinite => rw [mul, if_neg (mantissa_ne_zero hx ha)]; rfl
  | infinite =>
    cases hb with
    | finite hb => rw [mul, if_neg (mantissa_ne_zero hy hb)]; rfl
    | infinite => rfl

theorem quotient_eq (m n : Nat) (e f : Int) :
    (((magnitude m e).1 * (magnitude n f).2 : Nat) : ℚ) /
        ((magnitude m e).2 * (magnitude n f).1 : Nat) =
      m * 2 ^ e / (n * 2 ^ f) := by
  rw [← magnitude_eq m e, ← magnitude_eq n f, div_div_div_eq]
  push_cast
  rfl

/-- A quotient of two mantissas has a denominator if the divisor is not zero. -/
theorem quotient_pos {n : Nat} (m : Nat) (e f : Int) (h : n ≠ 0) :
    0 < (magnitude m e).2 * (magnitude n f).1 := by
  have one : 0 < (magnitude n f).2 := rescale_pos Nat.one_pos
  have num : (magnitude n f).1 ≠ 0 := by
    intro zero
    have := magnitude_eq n f
    rw [zero, Nat.cast_zero, zero_div] at this
    have : (n : ℚ) * 2 ^ f ≠ 0 := by positivity
    simp_all
  exact Nat.mul_pos (rescale_pos Nat.one_pos) (Nat.pos_of_ne_zero num)

/-- Quotients keep bounds, too, the divisor being bounded from the other side. -/
theorem atMost_div (ha : AtMost x a) (hb : AtLeast y b) (hy : 0 < y) (grid : Grid z)
    (le : x / y ≤ z) (small : z < ceiling) : AtMost z (a.div b) := by
  cases ha with
  | @finite m e ha =>
    cases hb with
    | @finite n f hb =>
      have hn := mantissa_ne_zero hy hb
      rw [div, if_neg hn]
      refine atMost_ofRatio (quotient_pos m e f hn) grid ?_ small
      rw [quotient_eq]
      have hx : (0 : ℚ) ≤ x := le_trans (by positivity) ha
      exact (div_le_div₀ hx ha hy hb).trans le
    | infinite =>
      refine .finite ?_
      simpa using grid.nonneg

/-- A quotient by a number that is not zero. -/
theorem atLeast_div (ha : AtLeast x a) (hb : AtMost y b) (hy : AtLeast 1 b) (grid : Grid z)
    (le : z ≤ x / y) : AtLeast z (a.div b) := by
  cases hb with
  | @finite n f hb =>
    cases hy with
    | finite hy =>
      have hn := mantissa_ne_zero one_pos hy
      cases ha with
      | @finite m e ha =>
        rw [div, if_neg hn]
        refine atLeast_ofRatio (quotient_pos m e f hn) grid ?_
        rw [quotient_eq]
        exact le.trans (div_le_div₀ (by positivity) ha (by positivity) hb)
      | infinite => exact .infinite

end Courier.Binary64
