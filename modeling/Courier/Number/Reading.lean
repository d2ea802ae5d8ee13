import Courier.Number.Binary64
import Courier.Text.Numeral

/-!
# Reading doubles from decimal text

Two rules, for two formats. A *setting* is read to the nearest double of the number written
(`nearestDecimal`). A number in *JSON text* is read by its first digits, as many as a 64-bit natural
number holds, scaled by one power of ten (`scaledDecimal`): three roundings at most, and for
short numbers the same result.

The two rules are not the same function: for some numbers of many digits the second one gives a
neighbour of the nearest double, and so a number can come back changed from a text that was written
to name it.
-/

set_option autoImplicit false

namespace Courier

namespace Binary64

/-- Past this distance from the point every number is beyond the range on its side. -/
def farExponent : Int := 400

/-- The double nearest to `± digits · 10^k`. `count` bounds the number of digits, so that an
exponent far out of range is recognised without forming its power. -/
def nearestDecimal (negative : Bool) (digits count : Nat) (k : Int) : Binary64 :=
  if digits = 0 then zero negative
  else if farExponent < k then .infinite negative
  else if k + count < -farExponent then zero negative
  else if 0 ≤ k then ofRatio negative (digits * Nat.pow 10 k.toNat) 1
  else ofRatio negative digits (Nat.pow 10 (-k).toNat)

/-- The greatest power of ten that is a finite double. -/
def greatestPower : Nat := 308

/-- The double nearest to `10^k`. -/
def powerOfTen (k : Nat) : Binary64 := ofNat (Nat.pow 10 k)

/-- Divides by `10^308` until the exponent is in reach or nothing is left, then scales once. The
fuel bounds the number of divisions; three of them reach zero from any 64-bit number. -/
def scaleDown : Nat → Binary64 → Int → Binary64
  | 0, f, _ => f
  | fuel + 1, f, k =>
    if -(greatestPower : Int) ≤ k then div f (powerOfTen k.natAbs)
    else scaleDown fuel (div f (powerOfTen greatestPower)) (k + greatestPower)

/-- `significand · 10^k` with the significand rounded first and the product or quotient second;
nothing when the number is too large for a double. -/
def scaledDecimal (negative : Bool) (significand : Nat) (k : Int) : Option Binary64 :=
  let f := ofNat significand
  let result : Option Binary64 :=
    if significand = 0 then some (zero false)
    else if 0 ≤ k then
      if (greatestPower : Int) < k then none
      else
        match mul f (powerOfTen k.toNat) with
        | .infinite _ => none
        | d => some d
    else some (scaleDown 4 f k)
  if negative then result.map neg else result

/-- Why a text is no setting of this kind. -/
inductive ReadFault where
  | empty
  | malformed
  deriving DecidableEq, Repr

/-- The line that follows a setting's name when it does not read. -/
def ReadFault.message : ReadFault → String
  | .empty => "cannot parse float from empty string"
  | .malformed => "invalid float literal"

/-- The value and number of leading digits, on top of `acc`, and the rest. -/
def takeDigits : Nat → Nat → List Char → Nat × Nat × List Char
  | acc, count, [] => (acc, count, [])
  | acc, count, c :: rest =>
    match Text.digitValue? c with
    | some d => takeDigits (10 * acc + d) (count + 1) rest
    | none => (acc, count, c :: rest)

/-- An exponent's digits after an optional sign; nothing may follow them. -/
def readExponent (cs : List Char) : Option Int :=
  let signed : Bool × List Char :=
    match cs with
    | '-' :: rest => (true, rest)
    | '+' :: rest => (false, rest)
    | _ => (false, cs)
  match takeDigits 0 0 signed.2 with
  | (n, count, []) => if count = 0 then none else some (if signed.1 then -(n : Int) else n)
  | _ => none

/-- An unsigned number: digits with at most one point, at least one digit, and an exponent. -/
def readUnsigned (negative : Bool) (cs : List Char) : Option Binary64 :=
  let whole := takeDigits 0 0 cs
  let fraction : Nat × Nat × List Char :=
    match whole.2.2 with
    | '.' :: rest => takeDigits whole.1 0 rest
    | rest => (whole.1, 0, rest)
  let count := whole.2.1 + fraction.2.1
  if count = 0 then none
  else
    match fraction.2.2 with
    | [] => some (nearestDecimal negative fraction.1 count (-(fraction.2.1 : Int)))
    | 'e' :: rest | 'E' :: rest =>
      (readExponent rest).map fun k =>
        nearestDecimal negative fraction.1 count (k - fraction.2.1)
    | _ => none

/-- Words for the values that are no numbers, in any letter case. -/
def readWord (negative : Bool) (cs : List Char) : Option Binary64 :=
  match String.ofList (cs.map Char.toLower) with
  | "inf" | "infinity" => some (.infinite negative)
  | "nan" => some .nan
  | _ => none

/-- A setting's number: one optional sign, then a number or a word, and nothing around it. -/
def read (s : String) : Except ReadFault Binary64 :=
  match s.toList with
  | [] => .error .empty
  | c :: rest =>
    let signed : Bool × List Char :=
      if c = '-' then (true, rest) else if c = '+' then (false, rest) else (false, c :: rest)
    match (readUnsigned signed.1 signed.2).or (readWord signed.1 signed.2) with
    | some d => .ok d
    | none => .error .malformed

end Binary64

end Courier
