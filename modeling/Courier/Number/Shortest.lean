import Courier.Number.Binary64

/-!
# The shortest decimal text of a double

Of all decimal numbers that read back as a given double, the text shows one with the fewest digits,
and of those the nearest. The search tries 1, 2, … 17 digits: for each count the decimal grid has
two points next to the value, and the first grid with one of them inside the interval of reals that
round to the double wins. Seventeen digits always suffice.

How digits and exponent are laid out (where positional notation ends, how an exponent is signed) is
a `Layout`, chosen by the format that writes the number.
-/

set_option autoImplicit false

namespace Courier

/-- A positive decimal number `0.d₁d₂…dₙ · 10^point`, with `d₁ ≠ 0`. -/
structure Decimal where
  digits : List Char
  point : Int
  deriving DecidableEq, Repr

namespace Binary64

/-- The ends of the interval of reals that round to `m · 2^e`, and its middle, in units of
`2^(e-2)`. Below a power of two the grid is twice as fine. -/
def interval (m : Nat) (e : Int) : Nat × Nat × Nat :=
  let low := if m = hidden ∧ leastExponent < e then 4 * m - 1 else 4 * m - 2
  (low, 4 * m, 4 * m + 2)

/-- `num / den` against `10^k`. -/
def reachesPower (num den : Nat) (k : Int) : Bool :=
  if 0 ≤ k then decide (den * Nat.pow 10 k.toNat ≤ num)
  else decide (den ≤ num * Nat.pow 10 (-k).toNat)

/-- The `p` with `10^(p-1) ≤ num / den < 10^p`. The binary logarithm gives it up to one. -/
def decimalPoint (num den : Nat) : Int :=
  let guess : Int := floorLog2 num den * 30103 / 100000
  if reachesPower num den (guess + 1) then guess + 2
  else if reachesPower num den guess then guess + 1
  else guess

/-- Does the decimal number `c · 10^k` lie in the interval from `low` to `high` (in units of `2^q`)?
The ends count when `closed`. -/
def inInterval (low high : Nat) (q : Int) (closed : Bool) (c : Nat) (k : Int) : Bool :=
  let value := if 0 ≤ k then (c * Nat.pow 10 k.toNat, 1) else (c, Nat.pow 10 (-k).toNat)
  let lo := rescale low 1 (-q)
  let hi := rescale high 1 (-q)
  if closed then
    decide (lo.1 * value.2 ≤ value.1 * lo.2) && decide (value.1 * hi.2 ≤ hi.1 * value.2)
  else
    decide (lo.1 * value.2 < value.1 * lo.2) && decide (value.1 * hi.2 < hi.1 * value.2)

/-- The candidate with `count` digits: of the two grid points next to the value those that read
back, the nearer first and the even one at a tie. -/
def candidate (m : Nat) (e : Int) (point : Int) (count : Nat) : Option Nat :=
  let ends := interval m e
  let k : Int := point - count
  let v := rescale m 1 (-e)
  let ratio := if 0 ≤ k then (v.1, v.2 * Nat.pow 10 k.toNat) else (v.1 * Nat.pow 10 (-k).toNat, v.2)
  let closed := m % 2 == 0
  let below := ratio.1 / ratio.2
  let near := nearest ratio.1 ratio.2
  let far := if near = below then below + 1 else below
  if inInterval ends.1 ends.2.2 (e - 2) closed near k then some near
  else if inInterval ends.1 ends.2.2 (e - 2) closed far k then some far
  else none

/-- Digits without the zeros at their end. -/
def dropTrailingZeros (ds : List Char) : List Char :=
  (ds.reverse.dropWhile (· == '0')).reverse

/-- The shortest decimal of the positive double `m · 2^e`. A candidate that carries to the next
power of ten has one digit more than asked, a zero that is dropped again. -/
def shortest (m : Nat) (e : Int) : Decimal :=
  let v := rescale m 1 (-e)
  let point := decimalPoint v.1 v.2
  let found := (List.range 17).findSome? fun i =>
    (candidate m e point (i + 1)).map fun c => (c, i + 1)
  match found with
  | none => ⟨['0'], 0⟩
  | some (c, count) =>
    let ds := Nat.toDigits 10 c
    ⟨dropTrailingZeros ds, point - count + ds.length⟩

/-- How a format writes a number whose shortest digits are known. -/
structure Layout where
  /-- The scientific exponents that are written positionally. -/
  least : Int
  greatest : Int
  /-- Is a positive exponent written with its sign? -/
  plus : Bool
  nan : String
  infinity : String
  deriving Repr

def zeros (n : Int) : List Char := List.replicate n.toNat '0'

/-- A scientific exponent, after the mark `e`. -/
def exponentText (layout : Layout) (k : Int) : List Char :=
  let sign := if k < 0 then ['-'] else if layout.plus then ['+'] else []
  'e' :: sign ++ Nat.toDigits 10 k.natAbs

/-- Lays out a decimal. Positional notation always shows a point with a digit on either side. -/
def Layout.place (layout : Layout) (d : Decimal) : List Char :=
  let k := d.point - 1
  let n : Int := d.digits.length
  if layout.least ≤ k ∧ k ≤ layout.greatest then
    if d.point ≤ 0 then '0' :: '.' :: zeros (-d.point) ++ d.digits
    else if n ≤ d.point then d.digits ++ zeros (d.point - n) ++ ['.', '0']
    else d.digits.take d.point.toNat ++ '.' :: d.digits.drop d.point.toNat
  else
    match d.digits with
    | [] => exponentText layout k
    | [x] => x :: exponentText layout k
    | x :: more => x :: '.' :: more ++ exponentText layout k

/-- The text of a double in a layout; a zero keeps its sign. -/
def Layout.text (layout : Layout) : Binary64 → String
  | .nan => layout.nan
  | .infinite negative => (if negative then "-" else "") ++ layout.infinity
  | .finite negative m e =>
    let body := if m = 0 then ['0', '.', '0'] else layout.place (shortest m e)
    String.ofList (if negative then '-' :: body else body)

end Binary64

end Courier
