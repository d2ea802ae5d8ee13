/-!
# Double-precision numbers, exactly

A finite double is `± m · 2^e` with a natural `m` below `2^53`; every operation computes its exact
result as a ratio of natural numbers and rounds that once, to the nearest double, a tie to the even
mantissa (`ofRatio`). Nothing here touches the machine's own floating point, so the results can be
reasoned about with natural numbers alone.

Two zeros, two infinities and one not-a-number value stand beside the numbers. Only the operations
that delays and settings need are here: product, quotient, whole powers, comparison, the smaller of
two, and the cut to a 64-bit natural number.

The constructor `finite` does not ask for a normal form; `assemble` gives every result its usual
mantissa and exponent.
-/

set_option autoImplicit false

namespace Courier

/-- A double. `finite` stands for `(-1)^negative · mantissa · 2^exponent`. -/
inductive Binary64 where
  | finite (negative : Bool) (mantissa : Nat) (exponent : Int)
  | infinite (negative : Bool)
  | nan
  deriving DecidableEq, Repr, Inhabited

namespace Binary64

/-- Exponent of the subnormal numbers and of the smallest normal ones. -/
def leastExponent : Int := -1074

/-- Exponent of the largest finite numbers. -/
def greatestExponent : Int := 971

/-- The mantissas of normal numbers start here. -/
def hidden : Nat := Nat.pow 2 52

/-- `num / den` rounded to a whole number, a half to the even neighbour. -/
def nearest (num den : Nat) : Nat :=
  let q := num / den
  let r := num % den
  if 2 * r < den then q
  else if den < 2 * r then q + 1
  else if q % 2 = 0 then q else q + 1

/-- The ratio `num / den` divided by `2^e`, as a ratio. -/
def rescale (num den : Nat) (e : Int) : Nat × Nat :=
  if 0 ≤ e then (num, den * Nat.pow 2 e.toNat) else (num * Nat.pow 2 (-e).toNat, den)

/-- The largest `k` with `2^k ≤ num / den`, for positive `num` and `den`. -/
def floorLog2 (num den : Nat) : Int :=
  let k : Int := (Nat.log2 num : Int) - (Nat.log2 den : Int)
  let scaled := rescale num den k
  if scaled.2 ≤ scaled.1 then k else k - 1

/-- The double with mantissa `m ≤ 2^53` and exponent `e`, where a mantissa of `2^53` is carried into
the exponent and an exponent that is too large gives infinity. -/
def assemble (negative : Bool) (m : Nat) (e : Int) : Binary64 :=
  let carried : Nat × Int := if m = 2 * hidden then (hidden, e + 1) else (m, e)
  if greatestExponent < carried.2 then .infinite negative
  else .finite negative carried.1 carried.2

/-- A zero has a sign, which a product and a quotient hand on. -/
def zero (negative : Bool) : Binary64 := .finite negative 0 leastExponent

/-- The double nearest to `± num / den`, for a positive `den`. -/
def ofRatio (negative : Bool) (num den : Nat) : Binary64 :=
  if num = 0 then zero negative
  else
    let e := max leastExponent (floorLog2 num den - 52)
    let scaled := rescale num den e
    assemble negative (nearest scaled.1 scaled.2) e

/-- A natural number becomes the double next to it; above `2^53` not every one is met. -/
def ofNat (n : Nat) : Binary64 := ofRatio false n 1

def one : Binary64 := ofNat 1

/-- The ratio of a finite double without its sign. -/
def magnitude (mantissa : Nat) (exponent : Int) : Nat × Nat := rescale mantissa 1 (-exponent)

/-- The exact product, rounded once. Infinity times zero is not-a-number, whatever the order; that
is the case in which a delay without a first wait does not stay at zero. -/
def mul : Binary64 → Binary64 → Binary64
  | .nan, _ | _, .nan => .nan
  | .infinite s, .infinite t => .infinite (s != t)
  | .infinite s, .finite t m _ | .finite t m _, .infinite s =>
    if m = 0 then .nan else .infinite (s != t)
  | .finite s m e, .finite t n f =>
    let product := rescale (m * n) 1 (-(e + f))
    ofRatio (s != t) product.1 product.2

/-- The exact quotient, rounded once. A number divided by zero is infinite, zero by zero is no
number. -/
def div : Binary64 → Binary64 → Binary64
  | .nan, _ | _, .nan => .nan
  | .infinite _, .infinite _ => .nan
  | .infinite s, .finite t _ _ => .infinite (s != t)
  | .finite s _ _, .infinite t => zero (s != t)
  | .finite s m e, .finite t n f =>
    if n = 0 then (if m = 0 then .nan else .infinite (s != t))
    else
      let a := magnitude m e
      let b := magnitude n f
      ofRatio (s != t) (a.1 * b.2) (a.2 * b.1)

/-- The sign alone changes, also that of a zero. -/
def neg : Binary64 → Binary64
  | .finite s m e => .finite (!s) m e
  | .infinite s => .infinite (!s)
  | .nan => .nan

/-- `a < b` between the numbers meant; not-a-number is below and above nothing, and the two zeros
are equal. -/
def lt : Binary64 → Binary64 → Bool
  | .nan, _ | _, .nan => false
  | .infinite s, .infinite t => s && !t
  | .infinite s, .finite _ _ _ => s
  | .finite _ _ _, .infinite t => !t
  | .finite s m e, .finite t n f =>
    let a := magnitude m e
    let b := magnitude n f
    let less := decide (a.1 * b.2 < b.1 * a.2)
    let more := decide (b.1 * a.2 < a.1 * b.2)
    match s, t with
    | false, false => less
    | true, true => more
    | true, false => m != 0 || n != 0
    | false, true => false

/-- The smaller of two; not-a-number gives way to the other operand. -/
def min (a b : Binary64) : Binary64 :=
  match a, b with
  | .nan, b => b
  | a, .nan => a
  | a, b => if lt b a then b else a

/-- `acc · base^n` by repeated squaring: the binary digits of `n` from the lowest, one rounding per
product. The square after the last digit is never formed. -/
def powLoop (acc base : Binary64) (n : Nat) : Binary64 :=
  let acc' := if n % 2 = 1 then mul acc base else acc
  if _h : n / 2 = 0 then acc' else powLoop acc' (mul base base) (n / 2)
termination_by n
decreasing_by omega

/-- A whole power; a negative one is the reciprocal of the positive power. -/
def pow (base : Binary64) (n : Int) : Binary64 :=
  let p := powLoop one base n.natAbs
  if n < 0 then div one p else p

/-- The largest value of a 64-bit natural number. -/
def natCeiling : Nat := UInt64.size - 1

/-- The number without its fraction, moved into `0 .. 2^64 - 1`; not-a-number is 0. -/
def toNat : Binary64 → Nat
  | .nan => 0
  | .infinite negative => if negative then 0 else natCeiling
  | .finite negative m e =>
    if negative then 0
    else
      let v := magnitude m e
      Nat.min (v.1 / v.2) natCeiling

end Binary64

end Courier
