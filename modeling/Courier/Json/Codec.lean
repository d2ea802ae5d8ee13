import Courier.Json.Decoder
import Courier.Label

/-!
# Codecs

A codec writes a type's values as JSON and takes them back. This module has the codecs of the plain
types; `Courier.Json.Shape` builds those of records.

Nothing here says that the two directions fit together. That is a property of a codec
(`Codec.Lawful`), which every combinator hands on and every record type of the service has.
-/

set_option autoImplicit false

namespace Courier

/-- How values of a type are read and how they are written. -/
structure Codec (α : Type) where
  decode : Decoder α
  encode : α → Json

namespace Codec

def string : Codec String := ⟨Decoder.string, .string⟩

def bool : Codec Bool := ⟨Decoder.bool, .bool⟩

/-- A whole number in a range. -/
def integer (expected : String) (least greatest : Int) : Codec Int :=
  ⟨Decoder.integer expected least greatest, fun i => .number (.integer i)⟩

def natural (expected : String) (greatest : Nat) : Codec Nat :=
  ⟨Decoder.natural expected greatest, Json.nat⟩

/-- The codec of a type that is another type under a different name. -/
def imap {α β : Type} (c : Codec α) (forward : α → β) (back : β → α) : Codec β :=
  ⟨fun source d => (c.decode source d).map forward, fun b => c.encode (back b)⟩

/-- A signed 32-bit number. -/
def int32 : Codec Int32 :=
  (integer "i32" (-2147483648) 2147483647).imap Int32.ofInt Int32.toInt

/-- A natural number of 32 bits. -/
def nat32 : Codec UInt32 := (natural "u32" (UInt32.size - 1)).imap UInt32.ofNat UInt32.toNat

/-- A natural number of 64 bits. -/
def nat64 : Codec UInt64 := (natural "u64" (UInt64.size - 1)).imap UInt64.ofNat UInt64.toNat

def uuid : Codec Uuid := ⟨Decoder.uuid, fun u => .string u.toString⟩

def time : Codec DateTime := ⟨Decoder.time, fun t => .string t.toString⟩

/-- Any value as it is. -/
def free : Codec Json := ⟨Decoder.free, id⟩

/-- A label is written by its name. -/
def label {α : Type} [Label α] : Codec α :=
  ⟨Decoder.label Label.table, fun a => .string (Label.label a)⟩

/-- Null stands for nothing, in both directions. -/
def option {α : Type} (c : Codec α) : Codec (Option α) :=
  ⟨Decoder.option c.decode, Json.ofOption c.encode⟩

def list {α : Type} (c : Codec α) : Codec (List α) :=
  ⟨Decoder.list c.decode, fun xs => .array (xs.map c.encode)⟩

/-- A map is written in the order of its keys. -/
def dict {α : Type} (c : Codec α) : Codec (Dict α) :=
  ⟨Decoder.dict c.decode, fun d => .object (d.entries.map fun e => (e.1, c.encode e.2))⟩

/-- The compact text of a value, its fields in the order of its type. -/
def text {α : Type} (c : Codec α) (x : α) : String := (c.encode x).toString

end Codec

end Courier
