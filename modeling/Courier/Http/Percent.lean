import Courier.Text.Utf8
import Courier.Uuid

/-!
# Percent encoding

An octet that may not stand for itself is written as a percent sign and two hexadecimal digits.
Which octets may is a matter of the place: a predicate says it. Forms are encoded in the same way,
with a plus sign for a space.

Reading is tolerant: a percent sign without two digits stands for itself.
-/

set_option autoImplicit false

namespace Courier.Http

open Courier.Text.Utf8 (Octet)

/-- A hexadecimal digit in upper case. -/
def upperHex (n : Nat) : Char :=
  if n < 10 then Char.ofNat ('0'.toNat + n) else Char.ofNat ('A'.toNat + (n - 10))

/-- An octet as an escape. -/
def percentOctet (b : Octet) : List Char :=
  ['%', upperHex (b.toNat / 16), upperHex (b.toNat % 16)]

/-- Encodes every octet that may not stand for itself. -/
def percentEncode (keep : Octet → Bool) (cs : List Char) : List Char :=
  (Text.Utf8.encode cs).flatMap fun b =>
    if keep b then [Char.ofNat b.toNat] else percentOctet b

/-- The octets that encoded octets stand for. -/
def percentDecode : List Octet → List Octet
  | [] => []
  | [a] => [a]
  | [a, b] => [a, b]
  | a :: b :: c :: rest =>
    let escape :=
      if a = 0x25 then Uuid.hexNumber? [Char.ofNat b.toNat, Char.ofNat c.toNat] else none
    match escape with
    | some n => UInt8.ofNat n :: percentDecode rest
    | none => a :: percentDecode (b :: c :: rest)

/-! ## Forms -/

/-- A letter or a digit of ASCII. -/
def isAlphanumeric (b : Octet) : Bool :=
  (0x30 ≤ b && b ≤ 0x39) || (0x41 ≤ b && b ≤ 0x5A) || (0x61 ≤ b && b ≤ 0x7A)

/-- The octets that stand for themselves in a form: letters, digits and four signs. -/
def keptInForm (b : Octet) : Bool :=
  isAlphanumeric b || b == 0x2A || b == 0x2D || b == 0x2E || b == 0x5F

/-- A text as a part of a form. -/
def formEncode (s : String) : List Char :=
  (Text.Utf8.encode s.toList).flatMap fun b =>
    if b = 0x20 then ['+'] else if keptInForm b then [Char.ofNat b.toNat] else percentOctet b

/-- Splits at every occurrence of an octet. -/
def splitAt (mark : Octet) : List Octet → List (List Octet)
  | [] => [[]]
  | b :: rest =>
    match splitAt mark rest with
    | [] => [[b]]
    | part :: more => if b = mark then [] :: part :: more else (b :: part) :: more

/-- The text of a name or a value in a form. -/
def formDecode (bs : List Octet) : String :=
  Text.Utf8.decodeLossy (percentDecode (bs.map fun b => if b = 0x2B then 0x20 else b))

/-- The pairs of a form. Empty parts are none; a part without an equals sign has no value. -/
def formPairs (s : List Char) : List (String × String) :=
  ((splitAt 0x26 (Text.Utf8.encode s)).filter fun part => !part.isEmpty).map fun part =>
    let name := part.takeWhile (· != 0x3D)
    (formDecode name, formDecode (part.drop (name.length + 1)))

end Courier.Http
