/-!
# Decimal numerals

Reading of whole numbers with a range. A numeral is read from the left, and the first character
that is no digit or the first digit that leaves the range decides the fault: `65536x` is too large
for sixteen bits, `6553x` holds a bad digit. No blank and no separator is tolerated; one sign is.

These are the faults that an operator or a caller gets to read, for a setting or in a query, so it
matters which of two comes first.
-/

set_option autoImplicit false

namespace Courier.Text

/-- Why a text is not a numeral of the wanted range. -/
inductive NumeralFault
  | empty
  | badDigit
  | tooLarge
  | tooSmall
  deriving DecidableEq, Repr

def NumeralFault.message : NumeralFault → String
  | .empty => "cannot parse integer from empty string"
  | .badDigit => "invalid digit found in string"
  | .tooLarge => "number too large to fit in target type"
  | .tooSmall => "number too small to fit in target type"

/-- The value of an ASCII digit; digits of other scripts have none. -/
def digitValue? (c : Char) : Option Nat :=
  if '0' ≤ c ∧ c ≤ '9' then some (c.toNat - '0'.toNat) else none

theorem digitValue?_of_isDigit {c : Char} (h : c.isDigit = true) :
    digitValue? c = some (c.toNat - '0'.toNat) := by
  simp only [Char.isDigit, Bool.and_eq_true, decide_eq_true_eq, ge_iff_le] at h
  exact if_pos h

theorem isDigit_of_digitValue? {c : Char} {d : Nat} (h : digitValue? c = some d) :
    c.isDigit = true := by
  unfold digitValue? at h
  split at h
  · next digit =>
    simp only [Char.isDigit, Bool.and_eq_true, decide_eq_true_eq, ge_iff_le]
    exact digit
  · cases h

theorem digitValue?_digitChar {d : Nat} (h : d < 10) : digitValue? d.digitChar = some d := by
  rw [digitValue?_of_isDigit (by rw [Nat.isDigit_digitChar]; exact decide_eq_true h)]
  exact congrArg some (Nat.toNat_digitChar_sub_48_of_lt_ten h)

/-- Reads digits on top of `acc`, with magnitudes up to `bound` and `overflow` beyond it. -/
def readDigits (bound : Nat) (overflow : NumeralFault) : Nat → List Char → Except NumeralFault Nat
  | acc, [] => .ok acc
  | acc, c :: rest =>
    match digitValue? c with
    | none => .error .badDigit
    | some d =>
      if 10 * acc + d ≤ bound then readDigits bound overflow (10 * acc + d) rest
      else .error overflow

/-- A natural number up to `bound`. A minus sign is a bad digit here, also in front of zero. -/
def readNat (bound : Nat) (s : String) : Except NumeralFault Nat :=
  match s.toList with
  | [] => .error .empty
  | ['+'] => .error .badDigit
  | '+' :: digits => readDigits bound .tooLarge 0 digits
  | digits => readDigits bound .tooLarge 0 digits

/-- A number from `-below` to `above`. -/
def readInt (below above : Nat) (s : String) : Except NumeralFault Int :=
  match s.toList with
  | [] => .error .empty
  | ['+'] | ['-'] => .error .badDigit
  | '+' :: digits => (readDigits above .tooLarge 0 digits).map Int.ofNat
  | '-' :: digits => (readDigits below .tooSmall 0 digits).map fun n => -Int.ofNat n
  | digits => (readDigits above .tooLarge 0 digits).map Int.ofNat

end Courier.Text
