/-!
# UUIDs

A UUID is a 128-bit number. It is written as lower-case hexadecimal digits in groups of 8, 4, 4, 4
and 12; it is read in that form, as 32 digits without dashes, in braces, or after `urn:uuid:`, with
digits of either case.

Identifiers are given out by the surroundings and compared by their numbers; how they are spelled
matters only at the ends, in bodies, paths and columns. Reading and writing are here as they are
there, so that an identifier that comes back in a path is the one that was told.
-/

set_option autoImplicit false

namespace Courier

structure Uuid where
  value : Nat
  value_lt : value < Nat.pow 2 128 := by decide
  deriving DecidableEq, Repr

namespace Uuid

instance : Inhabited Uuid := ⟨⟨0, by decide⟩⟩

/-- The UUID of a number, reduced to 128 bits. -/
def ofNat (n : Nat) : Uuid := ⟨n % Nat.pow 2 128, Nat.mod_lt _ (by decide)⟩

def hexDigit (n : Nat) : Char :=
  if n < 10 then Char.ofNat ('0'.toNat + n) else Char.ofNat ('a'.toNat + (n - 10))

/-- The `count` lowest hexadecimal digits, the highest first. -/
def hexDigits : Nat → Nat → List Char
  | 0, _ => []
  | count + 1, n => hexDigits count (n / 16) ++ [hexDigit (n % 16)]

/-- The lengths of the dashed groups. -/
def groups : List Nat := [8, 4, 4, 4, 12]

/-- Cuts a list into pieces of the given lengths. -/
def split {α : Type} : List Nat → List α → List (List α)
  | [], _ => []
  | n :: more, xs => xs.take n :: split more (xs.drop n)

/-- The dashed form, the only one that is written. -/
def toString (u : Uuid) : String :=
  String.ofList (List.intercalate ['-'] (split groups (hexDigits 32 u.value)))

instance : ToString Uuid := ⟨Uuid.toString⟩

/-- The value of a hexadecimal digit of either case. -/
def hexValue? (c : Char) : Option Nat :=
  if '0' ≤ c ∧ c ≤ '9' then some (c.toNat - '0'.toNat)
  else if 'a' ≤ c ∧ c ≤ 'f' then some (c.toNat - 'a'.toNat + 10)
  else if 'A' ≤ c ∧ c ≤ 'F' then some (c.toNat - 'A'.toNat + 10)
  else none

/-- The number written by hexadecimal digits. -/
def hexNumber? (cs : List Char) : Option Nat :=
  cs.foldlM (fun acc c => (hexValue? c).map (16 * acc + ·)) 0

/-- Exactly 32 digits. -/
def ofDigits? (cs : List Char) : Option Uuid :=
  if cs.length = 32 then (hexNumber? cs).map ofNat else none

/-- The dashed form: 36 characters with dashes at places 8, 13, 18 and 23, and nowhere else. -/
def ofDashed? (cs : List Char) : Option Uuid :=
  if cs.length = 36 ∧ cs[8]? = some '-' ∧ cs[13]? = some '-' ∧ cs[18]? = some '-' ∧
      cs[23]? = some '-' then
    ofDigits? (cs.take 8 ++ (cs.drop 9).take 4 ++ (cs.drop 14).take 4 ++ (cs.drop 19).take 4 ++
      cs.drop 24)
  else none

/-- A dashed UUID between braces. -/
def ofBraced? (cs : List Char) : Option Uuid :=
  match cs with
  | '\x7b' :: rest => if rest.getLast? = some '\x7d' then ofDashed? rest.dropLast else none
  | _ => none

/-- A dashed UUID after its namespace. -/
def ofUrn? (cs : List Char) : Option Uuid :=
  if cs.take 9 = "urn:uuid:".toList then ofDashed? (cs.drop 9) else none

/-- Reads any of the accepted forms. -/
def parse? (s : String) : Option Uuid :=
  let cs := s.toList
  (ofDashed? cs).or ((ofDigits? cs).or ((ofBraced? cs).or (ofUrn? cs)))

end Uuid

end Courier
