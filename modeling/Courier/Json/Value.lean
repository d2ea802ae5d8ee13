import Courier.Dict
import Courier.Number.Shortest

/-!
# JSON values

A value is a tree. Numbers are whole numbers of the 64-bit ranges, signed below zero and unsigned
from zero on, or finite doubles; an object is the list of its fields. A value that was read holds
its fields in increasing order of keys and no key twice (`Json.Canonical`); only a value that is
about to be written may have them in another order.

Equality and all properties are defined along the tree, together with the lists of items and of
fields below it: three functions each time, one for values, one for items and one for fields, and
the proofs about them have the same three parts.
-/

set_option autoImplicit false

namespace Courier

/-- A number of JSON text. -/
inductive JsonNumber where
  | integer (i : Int)
  | double (d : Binary64)
  deriving DecidableEq, Repr, Inhabited

/-- A JSON value. -/
inductive Json where
  | null
  | bool (b : Bool)
  | number (n : JsonNumber)
  | string (s : String)
  | array (items : List Json)
  | object (fields : List (String × Json))
  deriving Repr, Inhabited

namespace Json

mutual

/-- Equality of values is decided along the tree. -/
def decEq : (a b : Json) → Decidable (a = b)
  | .null, .null => .isTrue rfl
  | .bool a, .bool b => decidable_of_iff (a = b) ⟨fun h => h ▸ rfl, fun h => by cases h; rfl⟩
  | .number a, .number b => decidable_of_iff (a = b) ⟨fun h => h ▸ rfl, fun h => by cases h; rfl⟩
  | .string a, .string b => decidable_of_iff (a = b) ⟨fun h => h ▸ rfl, fun h => by cases h; rfl⟩
  | .array a, .array b =>
    match decEqItems a b with
    | .isTrue h => .isTrue (h ▸ rfl)
    | .isFalse h => .isFalse fun e => h (by cases e; rfl)
  | .object a, .object b =>
    match decEqFields a b with
    | .isTrue h => .isTrue (h ▸ rfl)
    | .isFalse h => .isFalse fun e => h (by cases e; rfl)
  | .null, .bool _ | .null, .number _ | .null, .string _ | .null, .array _ | .null, .object _
  | .bool _, .null | .bool _, .number _ | .bool _, .string _ | .bool _, .array _
  | .bool _, .object _ | .number _, .null | .number _, .bool _ | .number _, .string _
  | .number _, .array _ | .number _, .object _ | .string _, .null | .string _, .bool _
  | .string _, .number _ | .string _, .array _ | .string _, .object _ | .array _, .null
  | .array _, .bool _ | .array _, .number _ | .array _, .string _ | .array _, .object _
  | .object _, .null | .object _, .bool _ | .object _, .number _ | .object _, .string _
  | .object _, .array _ => .isFalse (by intro h; cases h)

def decEqItems : (a b : List Json) → Decidable (a = b)
  | [], [] => .isTrue rfl
  | [], _ :: _ => .isFalse (by intro h; cases h)
  | _ :: _, [] => .isFalse (by intro h; cases h)
  | x :: xs, y :: ys =>
    match decEq x y, decEqItems xs ys with
    | .isTrue hx, .isTrue hxs => .isTrue (by rw [hx, hxs])
    | .isFalse hx, _ => .isFalse fun e => hx (by cases e; rfl)
    | _, .isFalse hxs => .isFalse fun e => hxs (by cases e; rfl)

def decEqFields : (a b : List (String × Json)) → Decidable (a = b)
  | [], [] => .isTrue rfl
  | [], _ :: _ => .isFalse (by intro h; cases h)
  | _ :: _, [] => .isFalse (by intro h; cases h)
  | (k, x) :: xs, (l, y) :: ys =>
    match decEqString k l, decEq x y, decEqFields xs ys with
    | .isTrue hk, .isTrue hx, .isTrue hxs => .isTrue (by rw [hk, hx, hxs])
    | .isFalse hk, _, _ => .isFalse fun e => hk (by cases e; rfl)
    | _, .isFalse hx, _ => .isFalse fun e => hx (by cases e; rfl)
    | _, _, .isFalse hxs => .isFalse fun e => hxs (by cases e; rfl)
where
  /-- Equality of keys. -/
  decEqString (k l : String) : Decidable (k = l) := instDecidableEqString k l

end

instance : DecidableEq Json := decEq

/-- The whole numbers a value can hold. -/
def inRange (i : Int) : Bool :=
  decide (-9223372036854775808 ≤ i) && decide (i < 18446744073709551616)

mutual

/-- Every number is in range and every object has strictly increasing keys. -/
def Canonical : Json → Prop
  | .null | .bool _ | .string _ => True
  | .number (.integer i) => inRange i = true
  | .number (.double d) => ∃ s m e, d = .finite s m e
  | .array items => CanonicalItems items
  | .object fields => Ascending fields ∧ CanonicalFields fields

def CanonicalItems : List Json → Prop
  | [] => True
  | x :: rest => Canonical x ∧ CanonicalItems rest

def CanonicalFields : List (String × Json) → Prop
  | [] => True
  | (_, x) :: rest => Canonical x ∧ CanonicalFields rest

end

/-- An object with its fields in order. -/
def ofDict (d : Dict Json) : Json := .object d.entries

/-- An object from fields in any order; a later field replaces an earlier one of its name. -/
def ofFields (fields : List (String × Json)) : Json := ofDict (Dict.ofList fields)

/-- A field of an object. -/
def get? : Json → String → Option Json
  | .object fields, k => fields.lookup k
  | _, _ => none

/-- A natural number as a value. -/
def nat (n : Nat) : Json := .number (.integer n)

/-- Nothing is null. -/
def ofOption {α : Type} (encode : α → Json) : Option α → Json
  | none => .null
  | some x => encode x

mutual

/-- The value with the fields of every object in order. -/
def sorted : Json → Json
  | .array items => .array (sortedItems items)
  | .object fields => ofFields (sortedFields fields)
  | v => v

def sortedItems : List Json → List Json
  | [] => []
  | x :: rest => sorted x :: sortedItems rest

def sortedFields : List (String × Json) → List (String × Json)
  | [] => []
  | (k, x) :: rest => (k, sorted x) :: sortedFields rest

end

/-! ## Text

Compact text: no blanks, fields in the order they stand in. Positional notation is used for the
decimal exponents from -5 to 15; a positive exponent carries its sign. -/

def numberLayout : Binary64.Layout := ⟨-5, 15, true, "null", "null"⟩

/-- Whole numbers have no point, doubles always do: which of the two a number is can be told from
its text. -/
def numberText : JsonNumber → String
  | .integer i => toString i
  | .double d => numberLayout.text d

def hexPair (n : Nat) : List Char := [Nat.digitChar (n / 16), Nat.digitChar (n % 16)]

/-- A character inside a JSON string: quotes, backslashes and controls are escaped, by a letter
where there is one. -/
def escapeChar (c : Char) : List Char :=
  if c = '"' then ['\\', '"']
  else if c = '\\' then ['\\', '\\']
  else if c = '\x08' then ['\\', 'b']
  else if c = '\t' then ['\\', 't']
  else if c = '\n' then ['\\', 'n']
  else if c = '\x0c' then ['\\', 'f']
  else if c = '\r' then ['\\', 'r']
  else if c.toNat < 0x20 then '\\' :: 'u' :: '0' :: '0' :: hexPair c.toNat
  else [c]

/-- A string between quotes. -/
def stringText (s : String) : List Char := '"' :: s.toList.flatMap escapeChar ++ ['"']

mutual

/-- The compact text of a value. -/
def text : Json → List Char
  | .null => ['n', 'u', 'l', 'l']
  | .bool true => ['t', 'r', 'u', 'e']
  | .bool false => ['f', 'a', 'l', 's', 'e']
  | .number n => (numberText n).toList
  | .string s => stringText s
  | .array items => '[' :: itemsText true items
  | .object fields => '\x7b' :: fieldsText true fields

/-- The items after the first are set off by commas. -/
def itemsText : Bool → List Json → List Char
  | _, [] => [']']
  | first, x :: rest => (if first then [] else [',']) ++ text x ++ itemsText false rest

def fieldsText : Bool → List (String × Json) → List Char
  | _, [] => ['\x7d']
  | first, (k, x) :: rest =>
    (if first then [] else [',']) ++ stringText k ++ ':' :: text x ++ fieldsText false rest

end

/-- The compact text as a string. -/
def toString (v : Json) : String := String.ofList v.text

end Json

end Courier
