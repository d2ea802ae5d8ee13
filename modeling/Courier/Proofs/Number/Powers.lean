import Courier.Proofs.Number.Rounding

/-!
# Whole powers

A whole number up to `2^53` is held exactly, and so is every power of one as long as it stays there.
Above that a power may be rounded, up to infinity, but it does not come down again: `Tracks` says
both at once and is kept by every product of numbers that are not zero.

The degree of a power is what is added up: `powLoop_degree` is proved once for any relation that
products respect, and used for exact powers and for powers of two.
-/

set_option autoImplicit false

namespace Courier.Binary64

variable {a b acc base : Binary64} {m n s t M N : Nat}

/-- The double stands for a whole number, of any size. -/
def IsWhole (m : Nat) (d : Binary64) : Prop :=
  ∃ (k : Nat) (e : Int), d = .finite false k e ∧ (k : ℚ) * 2 ^ e = m

/-- The double stands for a whole number as far as that is at most `2^53`, and is at least `2^53`
for a larger one. -/
structure Tracks (N : Nat) (d : Binary64) : Prop where
  atLeast : ∀ n ≤ 2 ^ 53, n ≤ N → AtLeast n d
  atMost : N ≤ 2 ^ 53 → AtMost N d

theorem isWhole_of_bounds (above : AtLeast n a) (below : AtMost n a) : IsWhole n a := by
  cases below with
  | finite below =>
    cases above with
    | finite above => exact ⟨_, _, rfl, le_antisymm below above⟩

theorem isWhole_ofNat (h : n ≤ 2 ^ 53) : IsWhole n (ofNat n) :=
  isWhole_of_bounds (atLeast_ofNat h) (atMost_ofNat h)

theorem IsWhole.tracks (h : IsWhole m a) : Tracks m a := by
  obtain ⟨k, e, rfl, value⟩ := h
  constructor
  case atLeast =>
    intro n _ le
    refine .finite ?_
    rw [value]
    exact_mod_cast le
  case atMost => exact fun _ => .finite value.le

theorem Tracks.isWhole (h : Tracks N a) (small : N ≤ 2 ^ 53) : IsWhole N a :=
  isWhole_of_bounds (h.atLeast N small le_rfl) (h.atMost small)

/-- **A product is tracked if its factors are.** -/
theorem Tracks.mul (ha : Tracks M a) (hb : Tracks N b) (hM : 1 ≤ M) (hN : 1 ≤ N) :
    Tracks (M * N) (a.mul b) := by
  constructor
  case atLeast =>
    intro n small le
    -- where a factor is large, it alone is large enough
    obtain ⟨m', n', hm, hm', hn, hn', le'⟩ : ∃ m' n', m' ≤ 2 ^ 53 ∧ 1 ≤ m' ∧ n' ≤ 2 ^ 53 ∧ 1 ≤ n' ∧
        m' ≤ M ∧ n' ≤ N ∧ n ≤ m' * n' := by
      by_cases large : 2 ^ 53 ≤ M
      · exact ⟨2 ^ 53, 1, by omega⟩
      · by_cases large' : 2 ^ 53 ≤ N
        · exact ⟨1, 2 ^ 53, by omega⟩
        · exact ⟨M, N, by omega⟩
    refine atLeast_mul (ha.atLeast m' hm le'.1) (hb.atLeast n' hn le'.2.1) ?_ ?_ (grid_nat small) ?_
    · exact_mod_cast hm'
    · exact_mod_cast hn'
    · exact_mod_cast le'.2.2
  case atMost =>
    intro small
    have hM' : M ≤ 2 ^ 53 := (Nat.le_mul_of_pos_right M hN).trans small
    have hN' : N ≤ 2 ^ 53 := (Nat.le_mul_of_pos_left N hM).trans small
    refine atMost_mul (ha.atMost hM') (hb.atMost hN') (grid_nat small) ?_ (lt_ceiling small)
    exact_mod_cast le_rfl

/-! ## By repeated squaring

`powLoop_degree` is the induction on the exponent, for any relation that products respect. Its three
uses follow: exact powers, powers that are too large, and powers that stay small.
-/

/-- What the lowest digit of an exponent makes of the product so far. -/
def powDigit (acc base : Binary64) (n : Nat) : Binary64 :=
  if n % 2 = 1 then acc.mul base else acc

theorem powLoop_last (h : n / 2 = 0) : powLoop acc base n = powDigit acc base n := by
  rw [powLoop, dif_pos h, powDigit]

theorem powLoop_more (h : n / 2 ≠ 0) :
    powLoop acc base n = powLoop (powDigit acc base n) (base.mul base) (n / 2) := by
  rw [powLoop, dif_neg h, powDigit]

/-- What is said of doubles by a degree, and adds up in products, is so of powers: each product adds
to the degree, which does not go beyond that of the whole. -/
theorem powLoop_degree {R : Nat → Binary64 → Prop} {r : Nat}
    (product : ∀ {i j : Nat} {a b : Binary64}, i + j ≤ r → R i a → R j b → R (i + j) (a.mul b))
    (fits : s + t * n ≤ r) (ha : R s acc) (hb : R t base) :
    R (s + t * n) (powLoop acc base n) := by
  -- by induction on the exponent, which is halved; `s` is the degree of the product so far, `t` of
  -- the base
  induction n using Nat.strong_induction_on generalizing s t acc base with
  | _ n ih =>
    have split : s + t * n = s + t * (n % 2) + (t + t) * (n / 2) := by
      conv_lhs => rw [← Nat.mod_add_div n 2]
      ring
    have digit : R (s + t * (n % 2)) (powDigit acc base n) := by
      unfold powDigit
      rcases Nat.mod_two_eq_zero_or_one n with h | h
      · rw [h, if_neg (by decide)]
        exact ha
      · rw [h] at split ⊢
        rw [if_pos rfl, mul_one]
        exact product (by omega) ha hb
    by_cases last : n / 2 = 0
    · rw [powLoop_last last]
      rwa [show n % 2 = n by omega] at digit
    · -- the base is squared only where that is needed
      have needed : t + t ≤ (t + t) * (n / 2) := Nat.le_mul_of_pos_right _ (by omega)
      rw [powLoop_more last, split]
      exact ih (n / 2) (by omega) (by omega) digit (product (by omega) hb hb)

theorem pow_natCast (base : Binary64) (n : Nat) : base.pow n = powLoop one base n := by
  rw [Binary64.pow, if_neg (by omega), Int.natAbs_natCast]

/-- Nothing times a finite number is nothing. Times infinity it is no number at all. -/
theorem isWhole_zero_mul {k : Nat} {e : Int} : IsWhole 0 ((ofNat 0).mul (.finite false k e)) := by
  have zero : (ofNat 0).mul (.finite false k e) = zero false := by
    have nothing (f : Int) : (rescale 0 1 f).1 = 0 := by
      unfold rescale
      split
      · rfl
      · exact Nat.zero_mul _
    show ofRatio false (rescale (0 * k) 1 _).1 _ = _
    rw [Nat.zero_mul, nothing, ofRatio, if_pos rfl]
  rw [zero]
  exact ⟨0, _, rfl, by simp⟩

theorem isWhole_one : IsWhole 1 one := isWhole_ofNat (by decide)

/-- **A power of a whole number is tracked.** -/
theorem Tracks.powLoop (h : Tracks N base) (hN : 1 ≤ N) (n : Nat) :
    Tracks (N ^ n) (powLoop one base n) := by
  have power := powLoop_degree (R := fun i d => Tracks (N ^ i) d) (s := 0) (t := 1) (n := n)
    (fun _ ha hb => pow_add N _ _ ▸ ha.mul hb (Nat.pow_pos hN) (Nat.pow_pos hN)) le_rfl
    isWhole_one.tracks ((pow_one N).symm ▸ h)
  rwa [zero_add, one_mul] at power

/-- A factor of so many doublings, or more, reaches the ceiling. -/
theorem powLoop_infinite (h : AtLeast (2 ^ t) base) (small : t < 1024) (large : 1024 ≤ t * n) :
    powLoop one base n = .infinite false := by
  -- the degree of a power of two is its exponent; from the ceiling on the double is infinite
  let R (i : Nat) (d : Binary64) : Prop := AtLeast (2 ^ i) d ∧ (1024 ≤ i → d = .infinite false)
  have product {i j : Nat} {a b : Binary64} (ha : R i a) (hb : R j b) : R (i + j) (a.mul b) := by
    refine ⟨atLeast_mul ha.1 hb.1 (by positivity) (by positivity) (grid_pow _) (pow_add _ _ _).le,
      fun large => mul_infinite ha.1 hb.1 (by positivity) (by positivity) ?_⟩
    rw [← pow_add]
    exact ceiling_le_two_pow large
  have start : R 0 one := by
    refine ⟨?_, fun h => absurd h (by decide)⟩
    exact_mod_cast atLeast_ofNat (n := 1) (by decide)
  have power := powLoop_degree (R := R) (n := n) (fun _ => product) le_rfl start
    ⟨h, fun large => absurd small (Nat.not_lt.2 large)⟩
  exact power.2 (by omega)

/-- A factor of so many doublings, or less, stays below it. -/
theorem atMost_powLoop (h : AtMost (2 ^ t) base) (small : t * n < 1024) :
    AtMost (2 ^ (t * n)) (powLoop one base n) := by
  have start : AtMost (2 ^ 0) one := by exact_mod_cast atMost_ofNat (n := 1) (by decide)
  have power := powLoop_degree (R := fun i d => AtMost (2 ^ i) d) (r := 1023) (n := n)
    (fun fits ha hb => atMost_mul ha hb (grid_pow _) (pow_add _ _ _).ge
      (two_pow_lt_ceiling (by omega))) (by omega) start h
  rwa [zero_add] at power

/-! ## The smaller of two, cut to a whole number

A bound that is a whole number of at most `2 ^ 53` is a double itself, so the comparison is exact.
-/

variable {c d : Binary64} {X : Nat} {x : ℚ}

theorem two_pow_53_le : 2 ^ 53 ≤ natCeiling := by decide

theorem IsWhole.toNat (h : IsWhole X c) (small : X ≤ 2 ^ 53) : c.toNat = X := by
  obtain ⟨k, e, rfl, value⟩ := h
  rw [toNat_finite, value, Nat.floor_natCast]
  exact Nat.min_eq_left (small.trans two_pow_53_le)

theorem min_finite {m k : Nat} {f e : Int} {s : Bool} :
    (finite s m f).min (finite false k e) =
      if lt (finite false k e) (finite s m f) then finite false k e else finite s m f := rfl

/-- The smaller one is no more than the second, whatever the first is: also if it is no number. -/
theorem toNat_min_le_right (d : Binary64) (h : IsWhole X c) (small : X ≤ 2 ^ 53) :
    (d.min c).toNat ≤ X := by
  have whole := h.toNat small
  obtain ⟨k, e, rfl, value⟩ := h
  -- what is no number gives way to the other one
  cases d with
  | nan => exact whole.le
  | infinite s =>
    cases s with
    | false => exact whole.le
    | true => exact Nat.zero_le X
  | finite s m f =>
    rw [min_finite]
    split_ifs with less
    · exact whole.le
    · cases s with
      | true => exact Nat.zero_le X
      | false =>
        rw [lt_finite_iff, not_lt, value] at less
        rw [toNat_finite]
        exact (Nat.min_le_left _ _).trans (Nat.floor_le_of_le less)

theorem toNat_min_le_left (hd : AtMost x d) (h : IsWhole X c) : (d.min c).toNat ≤ ⌊x⌋₊ := by
  obtain ⟨k, e, rfl, value⟩ := h
  cases hd with
  | finite hd =>
    rw [min_finite]
    split_ifs with less <;> rw [toNat_finite] <;> refine (Nat.min_le_left _ _).trans ?_
    · exact Nat.floor_mono ((lt_finite_iff.1 less).le.trans hd)
    · exact Nat.floor_mono hd

/-- The smaller of two is no less than a number that both are at least. -/
theorem le_toNat_min (hd : AtLeast n d) (h : IsWhole X c) (le : n ≤ X) (small : X ≤ 2 ^ 53) :
    n ≤ (d.min c).toNat := by
  have whole := h.toNat small
  obtain ⟨k, e, rfl, value⟩ := h
  cases hd with
  | infinite => exact le.trans whole.ge
  | finite hd =>
    rw [min_finite]
    split_ifs
    · exact le.trans whole.ge
    · rw [toNat_finite]
      exact Nat.le_min.2 ⟨Nat.le_floor hd, (le.trans small).trans two_pow_53_le⟩

/-- **The smaller of a tracked number and a whole one** is that of the two numbers. -/
theorem Tracks.toNat_min (hd : Tracks N d) (h : IsWhole X c) (small : X ≤ 2 ^ 53) :
    (d.min c).toNat = Nat.min N X := by
  refine le_antisymm (Nat.le_min.2 ⟨?_, toNat_min_le_right d h small⟩) ?_
  · by_cases hN : N ≤ 2 ^ 53
    · exact (toNat_min_le_left (hd.atMost hN) h).trans_eq (Nat.floor_natCast N)
    · exact (toNat_min_le_right d h small).trans (by omega)
  · exact le_toNat_min (hd.atLeast _ ((Nat.min_le_right N X).trans small) (Nat.min_le_left N X)) h
      (Nat.min_le_right N X) small

end Courier.Binary64
