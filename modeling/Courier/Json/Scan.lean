import Courier.Json.Document
import Courier.Number.Reading
import Courier.Uuid

/-!
# Scanning JSON text

Reading a text into a `Document`. Four characters are blanks; a literal is recognised by its
letters alone, whatever follows; a number has no leading zeros and digits on both sides of its
point.

A whole number that fits 64 bits keeps its value, except for minus zero, which is a double. Any
other number is read by its leading digits: as many as a 64-bit natural number holds, the rest of
the whole part counting for its places only and the rest of the fraction for nothing
(`Binary64.scaledDecimal`).

The scanner is fuelled; twice the length of the text is always enough, since every other step takes
a character.
-/

set_option autoImplicit false

namespace Courier

namespace Scan

/-- The blanks of JSON text. -/
def isBlank (c : Char) : Bool := c == ' ' || c == '\n' || c == '\t' || c == '\r'

/-- What follows the blanks at the front. -/
def skip (cs : List Char) : List Char := cs.dropWhile isBlank

/-! ## Numbers -/

/-- The greatest leading part of a number's digits. -/
def greatestPart : Nat := UInt64.size - 1

/-- Digits on top of `acc` while they fit: the number, how many were taken, how many were left out.
Once a digit does not fit, no later one is taken. -/
def leading : Nat → List Nat → Nat × Nat × Nat
  | acc, [] => (acc, 0, 0)
  | acc, d :: rest =>
    if 10 * acc + d ≤ greatestPart then
      let more := leading (10 * acc + d) rest
      (more.1, more.2.1 + 1, more.2.2)
    else (acc, 0, rest.length + 1)

/-- The digits at the front and the rest. -/
def digits : List Char → List Nat × List Char
  | [] => ([], [])
  | c :: rest =>
    match Text.digitValue? c with
    | some d => let more := digits rest; (d :: more.1, more.2)
    | none => ([], c :: rest)

/-- The number written by digits. -/
def digitsValue (ds : List Nat) : Nat := ds.foldl (fun acc d => 10 * acc + d) 0

/-- A whole part: a zero, or digits without a leading zero. -/
def whole? (cs : List Char) : Option (List Nat × List Char) :=
  match digits cs with
  | ([], _) => none
  | (0 :: _ :: _, _) => none
  | found => some found

/-- An optional fraction of at least one digit. -/
def fraction? (cs : List Char) : Option (Option (List Nat) × List Char) :=
  match cs with
  | '.' :: rest =>
    match digits rest with
    | ([], _) => none
    | (ds, rest) => some (some ds, rest)
  | _ => some (none, cs)

/-- An optional exponent of at least one digit. -/
def exponent? (cs : List Char) : Option (Option Int × List Char) :=
  let signed (negative : Bool) (cs : List Char) : Option (Option Int × List Char) :=
    match digits cs with
    | ([], _) => none
    | (ds, rest) =>
      let n : Int := digitsValue ds
      some (some (if negative then -n else n), rest)
  match cs with
  | 'e' :: '-' :: rest | 'E' :: '-' :: rest => signed true rest
  | 'e' :: '+' :: rest | 'E' :: '+' :: rest => signed false rest
  | 'e' :: rest | 'E' :: rest => signed false rest
  | _ => some (none, cs)

/-- A whole number: the value itself in the 64-bit ranges, else a double. -/
def wholeNumber (negative : Bool) (ds : List Nat) : Option JsonNumber :=
  let part := leading 0 ds
  if part.2.2 = 0 then
    if negative then
      if 0 < part.1 ∧ part.1 ≤ 9223372036854775808 then some (.integer (-(part.1 : Int)))
      else some (.double (Binary64.ofNat part.1).neg)
    else some (.integer part.1)
  else (Binary64.scaledDecimal negative part.1 part.2.2).map .double

/-- The value of a number with a fraction or an exponent. -/
def decimalNumber (negative : Bool) (ds fraction : List Nat) (exponent : Int) : Option JsonNumber :=
  let part := leading 0 ds
  let more := leading part.1 fraction
  (Binary64.scaledDecimal negative more.1 (part.2.2 - more.2.1 + exponent)).map .double

/-- A number without its sign. -/
def unsigned? (negative : Bool) (cs : List Char) : Option (Option JsonNumber × List Char) :=
  (whole? cs).bind fun (ds, afterWhole) =>
  (fraction? afterWhole).bind fun (fraction, afterFraction) =>
  (exponent? afterFraction).map fun (exponent, rest) =>
    match fraction, exponent with
    | none, none => (wholeNumber negative ds, rest)
    | _, _ => (decimalNumber negative ds (fraction.getD []) (exponent.getD 0), rest)

/-- A number at the front, and the rest. A number that has no value is still a number: the text goes
on. -/
def number? (cs : List Char) : Option (Option JsonNumber × List Char) :=
  match cs with
  | '-' :: rest => unsigned? true rest
  | _ => unsigned? false cs

/-! ## Strings -/

/-- The character of an escape of one letter. -/
def letterEscape? (c : Char) : Option Char :=
  match c with
  | '"' => some '"'
  | '\\' => some '\\'
  | '/' => some '/'
  | 'b' => some '\x08'
  | 'f' => some '\x0c'
  | 'n' => some '\n'
  | 'r' => some '\r'
  | 't' => some '\t'
  | _ => none

/-- The units of a string after its opening quote, up to the closing one: code points, and halves of
surrogate pairs where they are written by number. -/
def units? : List Char → Option (List Nat × List Char)
  | [] => none
  | '"' :: rest => some ([], rest)
  | '\\' :: 'u' :: a :: b :: c :: d :: rest =>
    (Uuid.hexNumber? [a, b, c, d]).bind fun n =>
    (units? rest).map fun more => (n :: more.1, more.2)
  | '\\' :: c :: rest =>
    (letterEscape? c).bind fun x =>
    (units? rest).map fun more => (x.toNat :: more.1, more.2)
  | c :: rest =>
    if c.toNat < 0x20 ∨ c = '\\' then none
    else (units? rest).map fun more => (c.toNat :: more.1, more.2)

def isHighHalf (n : Nat) : Bool := decide (0xD800 ≤ n) && decide (n ≤ 0xDBFF)

def isLowHalf (n : Nat) : Bool := decide (0xDC00 ≤ n) && decide (n ≤ 0xDFFF)

/-- The characters of units, if every half of a pair has its other half. -/
def join? : List Nat → Option (List Char)
  | [] => some []
  | [n] => if isHighHalf n || isLowHalf n then none else some [Char.ofNat n]
  | n :: m :: rest =>
    if isHighHalf n then
      if isLowHalf m then
        (join? rest).map (Char.ofNat (0x10000 + (n - 0xD800) * 0x400 + (m - 0xDC00)) :: ·)
      else none
    else if isLowHalf n then none
    else (join? (m :: rest)).map (Char.ofNat n :: ·)

/-- A string after its opening quote; no value when a half of a pair stands alone. -/
def string? (cs : List Char) : Option (Option String × List Char) :=
  (units? cs).map fun found => ((join? found.1).map String.ofList, found.2)

/-! ## Values -/

mutual

/-- The value at the front, after blanks, and the rest of the text unless it breaks off. -/
def value : Nat → List Char → Document × Option (List Char)
  | 0, _ => (.malformed, none)
  | fuel + 1, cs =>
    match skip cs with
    | 'n' :: 'u' :: 'l' :: 'l' :: rest => (.null, some rest)
    | 't' :: 'r' :: 'u' :: 'e' :: rest => (.bool true, some rest)
    | 'f' :: 'a' :: 'l' :: 's' :: 'e' :: rest => (.bool false, some rest)
    | '"' :: rest =>
      match string? rest with
      | some (s, rest) => (.text s, some rest)
      | none => (.malformed, none)
    | '[' :: rest =>
      match skip rest with
      | ']' :: rest => (.array [] true, some rest)
      | rest =>
        let found := items fuel rest
        (.array found.1 found.2.isSome, found.2)
    | '\x7b' :: rest =>
      match skip rest with
      | '\x7d' :: rest => (.object [] true, some rest)
      | rest =>
        let found := fields fuel rest
        (.object found.1 found.2.isSome, found.2)
    | rest =>
      match number? rest with
      | some (n, rest) => (.number n, some rest)
      | none => (.malformed, none)

/-- One item or more, up to the closing bracket. -/
def items : Nat → List Char → List Document × Option (List Char)
  | 0, _ => ([], none)
  | fuel + 1, cs =>
    match value fuel cs with
    | (d, none) => ([d], none)
    | (d, some rest) =>
      match skip rest with
      | ',' :: rest =>
        let more := items fuel rest
        (d :: more.1, more.2)
      | ']' :: rest => ([d], some rest)
      | _ => ([d], none)

/-- One field or more, up to the closing brace. -/
def fields : Nat → List Char → List (Document × Document) × Option (List Char)
  | 0, _ => ([], none)
  | fuel + 1, cs =>
    match skip cs with
    | '"' :: rest =>
      match string? rest with
      | none => ([], none)
      | some (k, rest) =>
        match skip rest with
        | ':' :: rest =>
          match value fuel rest with
          | (d, none) => ([(.text k, d)], none)
          | (d, some rest) =>
            match skip rest with
            | ',' :: rest =>
              let more := fields fuel rest
              ((.text k, d) :: more.1, more.2)
            | '\x7d' :: rest => ([(.text k, d)], some rest)
            | _ => ([(.text k, d)], none)
        | _ => ([(.text k, .malformed)], none)
    | rest => ([((value fuel rest).1, .malformed)], none)

end

end Scan

/-- The document at the front of a text, and whether nothing but blanks follows it. -/
def Document.ofText (s : String) : Document × Bool :=
  let cs := s.toList
  match Scan.value (2 * cs.length + 2) cs with
  | (d, some rest) => (d, (Scan.skip rest).isEmpty)
  | (d, none) => (d, false)

end Courier
