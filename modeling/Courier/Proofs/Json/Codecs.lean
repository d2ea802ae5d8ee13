import Courier.Json.Shape
import Courier.Proofs.Dict
import Courier.Proofs.Json.Text
import Courier.Proofs.Time.Written
import Courier.Proofs.Uuid

/-!
# Codecs take back what they write

For a plain type that is a fact about its texts. A free value is taken back if its fields are in
order and all its levels may be entered, of which a text has 127 (`Source.Bears`). A record is
legible if its fields are, and one level deeper than they.

These are the facts about values as they were written, in the order they were written. That the
fields of objects may come in any other order is added on top of them, in `Lawful` and `Fields`.
-/

set_option autoImplicit false

namespace Courier

/-! ## Plain types

What a codec writes for such a value it takes back, whatever the source.
-/

/-- The label of a value is looked up to the value, since no two values have the same one. -/
theorem Label.lookup_table {α : Type} [Label α] (a : α) :
    (Label.table : List (String × α)).lookup (Label.label a) = some a := by
  have among : ∀ values : List α, a ∈ values →
      (values.map fun b => (Label.label b, b)).lookup (Label.label a) = some a := by
    intro values
    induction values with
    | nil => exact fun h => absurd h List.not_mem_nil
    | cons b more ih =>
      intro h
      rw [List.map_cons, List.lookup_cons]
      -- an earlier entry with the same label would be the value itself
      by_cases same : Label.label a = Label.label b
      · rw [Label.label_inj same, beq_self_eq_true]
      · rw [beq_false_of_ne same]
        rcases List.mem_cons.1 h with rfl | h
        · exact absurd rfl same
        · exact ih h
  exact among _ (Label.mem_all a)

namespace Codec

variable {α : Type} {source : Source}

/-- What a codec writes of a value is taken for that value. -/
def TakesBack (c : Codec α) (source : Source) (x : α) : Prop :=
  c.decode source (.ofJson (c.encode x)) = .ok x

theorem string_takesBack (s : String) : string.TakesBack source s := rfl

theorem label_takesBack [Label α] (a : α) : (label (α := α)).TakesBack source a := by
  show Decoder.variant Label.table (Label.label a) = _
  rw [Decoder.variant, Label.lookup_table]

theorem uuid_takesBack (u : Uuid) : uuid.TakesBack source u := by
  simp only [TakesBack, uuid, Document.ofJson, Decoder.uuid, Decoder.textFor, bind, Except.bind,
    Uuid.parse?_toString]

theorem time_takesBack {t : DateTime} (h : t.Datable) : time.TakesBack source t := by
  simp only [TakesBack, time, Document.ofJson, Decoder.time, Decoder.textFor, bind, Except.bind,
    DateTime.parse?_toString t h]

/-- A 32-bit number is an integer of the text, and within its own bounds. -/
theorem nat32_takesBack (n : UInt32) : nat32.TakesBack source n := by
  have lt := n.toNat_lt
  have inRange : (0 : Int) ≤ n.toNat ∧ (n.toNat : Int) ≤ (UInt32.size - 1 : Nat) := by
    rw [UInt32.size]
    omega
  show (((Decoder.integer _ 0 _ source (.number (some (.integer n.toNat)))).map Int.toNat).map
    UInt32.ofNat) = _
  rw [Decoder.integer, if_pos inRange]
  show Except.ok (UInt32.ofNat n.toNat) = _
  rw [UInt32.ofNat_toNat]

end Codec

/-! ## Free values

How deep a value is nested and whether its objects are in order. The reader counts levels in a text
and in no other source, which is what `Bears` says.
-/

mutual

/-- How many arrays and objects lie in each other. -/
def Json.nesting : Json → Nat
  | .null | .bool _ | .number _ | .string _ => 0
  | .array items => Json.nestingItems items + 1
  | .object fields => Json.nestingFields fields + 1

def Json.nestingItems : List Json → Nat
  | [] => 0
  | x :: rest => max (Json.nesting x) (Json.nestingItems rest)

def Json.nestingFields : List (String × Json) → Nat
  | [] => 0
  | (_, x) :: rest => max (Json.nesting x) (Json.nestingFields rest)

end

mutual

/-- The fields of every object stand in order. -/
def Json.Ordered : Json → Prop
  | .null | .bool _ | .number _ | .string _ => True
  | .array items => Json.OrderedItems items
  | .object fields => Ascending fields ∧ Json.OrderedFields fields

def Json.OrderedItems : List Json → Prop
  | [] => True
  | x :: rest => Json.Ordered x ∧ Json.OrderedItems rest

def Json.OrderedFields : List (String × Json) → Prop
  | [] => True
  | (_, x) :: rest => Json.Ordered x ∧ Json.OrderedFields rest

end

mutual

theorem Json.Canonical.ordered : ∀ {v : Json}, v.Canonical → v.Ordered
  | .null, _ | .bool _, _ | .number _, _ | .string _, _ => trivial
  | .array _, h => Json.CanonicalItems.ordered h
  | .object _, h => ⟨h.1, Json.CanonicalFields.ordered h.2⟩

theorem Json.CanonicalItems.ordered : ∀ {items : List Json}, Json.CanonicalItems items →
    Json.OrderedItems items
  | [], _ => trivial
  | _ :: _, h => ⟨Json.Canonical.ordered h.1, Json.CanonicalItems.ordered h.2⟩

theorem Json.CanonicalFields.ordered : ∀ {fields : List (String × Json)},
    Json.CanonicalFields fields → Json.OrderedFields fields
  | [], _ => trivial
  | (_, _) :: _, h => ⟨Json.Canonical.ordered h.1, Json.CanonicalFields.ordered h.2⟩

end

/-- The fields of an object are no deeper than a bound on each of them. -/
theorem Json.nestingFields_le {fields : List (String × Json)} {n : Nat}
    (h : ∀ e ∈ fields, e.2.nesting ≤ n) : Json.nestingFields fields ≤ n := by
  induction fields with
  | nil => exact Nat.zero_le n
  | cons e rest ih =>
    rw [Json.nestingFields]
    exact Nat.max_le.2 ⟨h e List.mem_cons_self, ih fun f hf => h f (List.mem_cons_of_mem _ hf)⟩

/-- So many levels may be entered, one after the other. -/
def Source.Bears : Source → Nat → Prop
  | .text levels, n => n < levels
  | .held, _ => True

namespace Source

variable {source : Source} {n m : Nat}

theorem Bears.mono (h : source.Bears n) (le : m ≤ n) : source.Bears m := by
  cases source with
  | text levels => exact Nat.lt_of_le_of_lt le h
  | held => trivial

/-- Entering one of them leaves the others. This is the only place where the number of levels is
counted down. -/
theorem Bears.enter (h : source.Bears (n + 1)) :
    ∃ inner, source.enter = .ok inner ∧ inner.Bears n := by
  cases source with
  | text levels =>
    match levels, h with
    | k + 2, h => exact ⟨.text (k + 1), rfl, Nat.lt_of_succ_lt_succ h⟩
  | held => exact ⟨.held, rfl, trivial⟩

end Source

/-! ## Fields in order

A dictionary is read entry by entry into what has been read before. As long as the names ascend,
each entry is put at the end.
-/

namespace Decoder

variable {α : Type} {source : Source}

/-- Entries that come in order are inserted at the end, each after those that are there already. -/
theorem dictEntries_ofFields {c : Codec α} {acc : Dict α} {entries : List (String × α)}
    (ascending : Ascending (acc.entries ++ entries))
    (back : ∀ e ∈ entries, c.TakesBack source e.2) :
    dictEntries c.decode source acc (Document.ofFields (entries.map fun e => (e.1, c.encode e.2))) =
      .ok ⟨acc.entries ++ entries, ascending⟩ := by
  -- by induction on the entries that are to come; the dictionary so far grows by each of them
  induction entries generalizing acc with
  | nil =>
    refine congrArg Except.ok (Dict.ext ?_)
    exact (List.append_nil _).symm
  | cons e rest ih =>
    have last : (acc.insert e.1 e.2).entries = acc.entries ++ [e] := insertEntry_last ascending
    have same : (acc.insert e.1 e.2).entries ++ rest = acc.entries ++ e :: rest := by
      rw [last, List.append_assoc]
      rfl
    have late : ∀ x ∈ rest, c.TakesBack source x.2 :=
      fun x hx => back x (List.mem_cons_of_mem _ hx)
    have ascending' : Ascending ((acc.insert e.1 e.2).entries ++ rest) := same ▸ ascending
    have more := ih ascending' late
    have first : c.decode source (.ofJson (c.encode e.2)) = .ok e.2 := back e List.mem_cons_self
    rw [List.map_cons, Document.ofFields, dictEntries, first]
    refine more.trans (congrArg Except.ok (Dict.ext same))

mutual

/-- A free value is taken for itself where all its levels may be entered. -/
theorem free_ofJson : ∀ (v : Json) (source : Source), v.Ordered → source.Bears v.nesting →
    free source (.ofJson v) = .ok v
  | .null, _, _, _ => rfl
  | .bool _, _, _, _ => rfl
  | .number _, _, _, _ => rfl
  | .string _, _, _, _ => rfl
  | .array items, source, ordered, deep => by
    obtain ⟨inner, enters, bears⟩ := deep.enter
    rw [Document.ofJson, free, enters]
    dsimp only
    rw [freeItems_ofItems items inner ordered bears]
    rfl
  | .object fields, source, ordered, deep => by
    obtain ⟨inner, enters, bears⟩ := deep.enter
    rw [Document.ofJson, free, enters]
    dsimp only
    rw [freeFields_ofFields fields inner .empty ordered.1 ordered.2 bears]
    rfl

theorem freeItems_ofItems : ∀ (items : List Json) (source : Source), Json.OrderedItems items →
    source.Bears (Json.nestingItems items) →
      freeItems source (Document.ofItems items) = .ok items
  | [], _, _, _ => rfl
  | x :: rest, source, ordered, deep => by
    rw [Document.ofItems, freeItems,
      free_ofJson x source ordered.1 (deep.mono (Nat.le_max_left _ _))]
    dsimp only
    rw [freeItems_ofItems rest source ordered.2 (deep.mono (Nat.le_max_right _ _))]

/-- The fields of an object are taken for themselves if they are in order. They come after those
read before. -/
theorem freeFields_ofFields : ∀ (fields : List (String × Json)) (source : Source) (acc : Dict Json)
    (ascending : Ascending (acc.entries ++ fields)), Json.OrderedFields fields →
    source.Bears (Json.nestingFields fields) →
      freeFields source acc (Document.ofFields fields) = .ok ⟨acc.entries ++ fields, ascending⟩
  | [], _, acc, ascending, _, _ => by
    refine congrArg Except.ok (Dict.ext ?_)
    exact (List.append_nil _).symm
  | (k, x) :: rest, source, acc, ascending, ordered, deep => by
    have last : (acc.insert k x).entries = acc.entries ++ [(k, x)] := insertEntry_last ascending
    have same : (acc.insert k x).entries ++ rest = acc.entries ++ (k, x) :: rest := by
      rw [last, List.append_assoc]
      rfl
    rw [Document.ofFields, freeFields,
      free_ofJson x source ordered.1 (deep.mono (Nat.le_max_left _ _))]
    dsimp only
    rw [freeFields_ofFields rest source (acc.insert k x) (same ▸ ascending) ordered.2
      (deep.mono (Nat.le_max_right _ _))]
    exact congrArg Except.ok (Dict.ext same)

end

end Decoder

/-! ## Records -/

/-- Fields are legible if each of their values is. -/
theorem Json.legibleFields_iff {fields : List (String × Json)} :
    Json.LegibleFields fields ↔ ∀ e ∈ fields, e.2.Legible := by
  induction fields with
  | nil => exact iff_of_true trivial fun _ he => absurd he List.not_mem_nil
  | cons e rest ih =>
    obtain ⟨k, x⟩ := e
    rw [Json.LegibleFields, ih, List.forall_mem_cons]

namespace Slot

variable {ρ β : Type} {r : ρ} {name : String} {presence : Presence} {c : Codec β}

/-- What is written of the field is legible. -/
def Legible (slot : Slot ρ) (r : ρ) : Prop := ∀ v, slot.write r = some v → v.Legible

theorem legible_plain {get : ρ → β} {set : β → ρ → ρ} (h : (c.encode (get r)).Legible) :
    (plain name presence c get set).Legible r := by
  rintro _ ⟨⟩
  exact h

theorem legible_present {get : ρ → Option β} {set : Option β → ρ → ρ}
    (h : ∀ x, get r = some x → (c.encode x).Legible) :
    (present name presence c get set).Legible r := by
  intro v hv
  obtain ⟨x, hx, rfl⟩ := Option.map_eq_some_iff.1 hv
  exact h x hx

end Slot

namespace Shape

variable {ρ : Type}

theorem encode_legible {shape : Shape ρ} {r : ρ} (h : ∀ slot ∈ shape.slots, slot.Legible r) :
    (shape.encode r).Legible := by
  apply Json.legibleFields_iff.2
  intro e he
  obtain ⟨slot, hs, hw⟩ := List.mem_filterMap.1 he
  obtain ⟨v, hv, rfl⟩ := Option.map_eq_some_iff.1 hw
  exact h slot hs v hv

theorem nesting_le {shape : Shape ρ} {r : ρ} {n : Nat}
    (h : ∀ slot ∈ shape.slots, ∀ v, slot.write r = some v → v.nesting ≤ n) :
    (shape.encode r).nesting ≤ n + 1 := by
  apply Nat.succ_le_succ
  apply Json.nestingFields_le
  intro e he
  obtain ⟨slot, hs, hw⟩ := List.mem_filterMap.1 he
  obtain ⟨v, hv, rfl⟩ := Option.map_eq_some_iff.1 hw
  exact h slot hs v hv

end Shape

end Courier
