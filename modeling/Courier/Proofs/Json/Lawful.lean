import Courier.Proofs.Json.Reordered

/-!
# Lawful codecs

A codec is lawful (`Codec.Lawful`) if it takes back what it writes, whatever order the fields of its
objects are in: of every value that is well-formed, and of every value that it has itself taken from
a document. How deep a value is matters only in a text, where so many levels may be entered. Codecs
of plain types and of free values are lawful, and so are those of what is optional, of lists and of
maps, if those of their items are.

There are two laws and not one. How deep a value is, is a condition of the first law only: what has
been decoded was not too deep for the text it came from, and is taken back on that ground.
-/

set_option autoImplicit false

namespace Courier

namespace Source

variable {source inner : Source} {n m : Nat}

theorem bears_zero_of_enter (h : source.enter = .ok inner) : inner.Bears 0 := by
  match source, h with
  | .text (k + 2), h => cases h; exact Nat.succ_pos k
  | .held, h => cases h; trivial

theorem Bears.within (h : source.Bears (n + 1)) (enters : source.enter = .ok inner) :
    inner.Bears n := by
  obtain ⟨other, enters', bears⟩ := h.enter
  rw [enters] at enters'
  rwa [Except.ok.inj enters']

theorem Bears.outer (h : inner.Bears n) (enters : source.enter = .ok inner) :
    source.Bears (n + 1) := by
  match source, enters with
  | .text (k + 2), enters => cases enters; exact Nat.succ_lt_succ h
  | .held, enters => trivial

theorem Bears.max (hn : source.Bears n) (hm : source.Bears m) : source.Bears (max n m) := by
  rcases Nat.le_total n m with h | h
  · rwa [Nat.max_eq_right h]
  · rwa [Nat.max_eq_left h]

end Source

/-! ## Values by their parts -/

namespace Json

/-- A value without parts. -/
def Leaf : Json → Prop
  | .array _ | .object _ => False
  | _ => True

variable {source : Source} {v w : Json}

theorem Leaf.reordered (leaf : v.Leaf) (h : v.Reordered w) : w = v := by
  cases v <;> simp_all [Leaf, Reordered]

theorem orderedItems_iff {items : List Json} : OrderedItems items ↔ ∀ x ∈ items, x.Ordered := by
  induction items <;> simp_all [OrderedItems]

theorem orderedFields_iff {fields : List (String × Json)} :
    OrderedFields fields ↔ ∀ e ∈ fields, e.2.Ordered := by
  induction fields <;> simp_all [OrderedFields]

theorem legibleItems_iff {items : List Json} : LegibleItems items ↔ ∀ x ∈ items, x.Legible := by
  induction items <;> simp_all [LegibleItems]

mutual

/-- Every number is a whole one. -/
def Whole : Json → Prop
  | .null | .bool _ | .string _ => True
  | .number (.integer i) => inRange i = true
  | .number (.double _) => False
  | .array items => WholeItems items
  | .object fields => WholeFields fields

def WholeItems : List Json → Prop
  | [] => True
  | x :: rest => Whole x ∧ WholeItems rest

def WholeFields : List (String × Json) → Prop
  | [] => True
  | (_, x) :: rest => Whole x ∧ WholeFields rest

end

theorem wholeItems_iff {items : List Json} : WholeItems items ↔ ∀ x ∈ items, x.Whole := by
  induction items <;> simp_all [WholeItems]

theorem wholeFields_iff {fields : List (String × Json)} :
    WholeFields fields ↔ ∀ e ∈ fields, e.2.Whole := by
  induction fields <;> simp_all [WholeFields]

/-- Whole numbers are always read back. -/
theorem Whole.legible {v : Json} (h : v.Whole) : v.Legible := by
  induction v using induction with
  | null | bool | string => trivial
  | number n =>
    cases n with
    | integer i => exact Scan.legible_integer h
    | double d => cases h
  | array items ih =>
    exact legibleItems_iff.2 fun x hx => ih x hx (wholeItems_iff.1 h x hx)
  | object fields ih =>
    exact legibleFields_iff.2 fun e he => ih e he (wholeFields_iff.1 h e he)

theorem bears_nestingItems {items : List Json} (zero : source.Bears 0)
    (h : ∀ x ∈ items, source.Bears x.nesting) : source.Bears (nestingItems items) := by
  induction items with
  | nil => exact zero
  | cons x rest ih =>
    rw [nestingItems]
    exact (h x List.mem_cons_self).max (ih fun y hy => h y (List.mem_cons_of_mem _ hy))

theorem bears_nestingFields {fields : List (String × Json)} (zero : source.Bears 0)
    (h : ∀ e ∈ fields, source.Bears e.2.nesting) : source.Bears (nestingFields fields) := by
  induction fields with
  | nil => exact zero
  | cons e rest ih =>
    rw [nestingFields]
    exact (h e List.mem_cons_self).max (ih fun y hy => h y (List.mem_cons_of_mem _ hy))

end Json

/-! ## Where the parts of a decoded value come from -/

namespace Decoder

variable {α : Type} {decode : Decoder α} {source : Source}

/-- Every value of a list has been decoded from an item of the array. -/
theorem listItems_forall {ds : List Document} {n : Nat} {xs : List α}
    (read : listItems decode source n ds = .ok xs) :
    ∀ x ∈ xs, ∃ d ∈ ds, decode source d = .ok x := by
  -- by induction on the items, each of which gives one value
  induction ds generalizing n xs with
  | nil =>
    simp only [listItems, Except.ok.injEq] at read
    simp [← read]
  | cons d rest ih =>
    simp only [listItems, bind_ok_iff, mapError_ok_iff] at read
    obtain ⟨x, hx, ys, hys, done⟩ := read
    simp only [pure, Except.pure, Except.ok.injEq] at done
    subst done
    intro y hy
    rcases List.mem_cons.1 hy with rfl | hy
    · exact ⟨d, List.mem_cons_self, hx⟩
    · obtain ⟨e, he, hr⟩ := ih hys y hy
      exact ⟨e, List.mem_cons_of_mem _ he, hr⟩

/-- Every value of a map has been decoded from a field of the object, or was there before. -/
theorem dictEntries_forall {fields : List (Document × Document)} {acc d : Dict α}
    (read : dictEntries decode source acc fields = .ok d) :
    ∀ e ∈ d.entries, e ∈ acc.entries ∨ ∃ f ∈ fields, decode source f.2 = .ok e.2 := by
  -- by induction on the fields; an insertion brings in its own entry and keeps only old ones
  induction fields generalizing acc with
  | nil =>
    simp only [dictEntries, Except.ok.injEq] at read
    exact fun e he => .inl (read ▸ he)
  | cons f rest ih =>
    obtain ⟨name, value⟩ := f
    unfold dictEntries at read
    split at read
    · cases ‹_ :: _ = []›
    · rename_i k value' rest' same
      obtain ⟨⟨-, rfl⟩, rfl⟩ : (_ ∧ value = value') ∧ rest = rest' := by simpa using same
      simp only [bind_ok_iff, mapError_ok_iff] at read
      obtain ⟨x, hx, hd⟩ := read
      intro e he
      rcases ih hd e he with hin | ⟨f, hf, hr⟩
      · rcases mem_insertEntry hin with rfl | hin
        · exact .inr ⟨_, List.mem_cons_self, hx⟩
        · exact .inl hin
      · exact .inr ⟨f, List.mem_cons_of_mem _ hf, hr⟩
    · cases read

theorem listItems_read {items : List Json} {n : Nat} {xs : List α}
    (read : listItems decode source n (Document.ofItems items) = .ok xs) :
    ∀ v ∈ items, ∃ x, decode source (.ofJson v) = .ok x := by
  induction items generalizing n xs with
  | nil => simp
  | cons v rest ih =>
    simp only [Document.ofItems, listItems, bind_ok_iff, mapError_ok_iff] at read
    obtain ⟨x, hx, ys, hys, -⟩ := read
    exact List.forall_mem_cons.2 ⟨⟨x, hx⟩, ih hys⟩

theorem dictEntries_read {fields : List (String × Json)} {acc d : Dict α}
    (read : dictEntries decode source acc (Document.ofFields fields) = .ok d) :
    ∀ e ∈ fields, ∃ x, decode source (.ofJson e.2) = .ok x := by
  induction fields generalizing acc with
  | nil => simp
  | cons e rest ih =>
    simp only [Document.ofFields, dictEntries, bind_ok_iff, mapError_ok_iff] at read
    obtain ⟨x, hx, hd⟩ := read
    exact List.forall_mem_cons.2 ⟨⟨x, hx⟩, ih hd⟩

/-- A list is taken back if its items are. -/
theorem listItems_ofItems {c : Codec α} {xs : List α} (n : Nat)
    (back : ∀ x ∈ xs, c.TakesBack source x) :
    listItems c.decode source n (Document.ofItems (xs.map c.encode)) = .ok xs := by
  induction xs generalizing n with
  | nil => rfl
  | cons x rest ih =>
    simp only [List.map_cons, Document.ofItems, listItems, bind_ok_iff, mapError_ok_iff]
    exact ⟨x, back x List.mem_cons_self, rest,
      ih (n + 1) fun y hy => back y (List.mem_cons_of_mem _ hy), rfl⟩

theorem option_of_ne_null {v : Json} (h : v ≠ .null) :
    option decode source (.ofJson v) = (decode source (.ofJson v)).map some := by
  cases v with
  | null => exact absurd rfl h
  | _ => rfl

theorem option_some {d : Document} {x : α} (read : option decode source d = .ok (some x)) :
    decode source d = .ok x := by
  unfold option at read
  split at read
  · cases read
  · simpa [map_ok_iff] using read

/-- A list that was decoded comes from the items of an array, one level further in. -/
theorem list_ok {d : Document} {xs : List α} (read : list decode source d = .ok xs) :
    ∃ inner items n, source.enter = .ok inner ∧ listItems decode inner n items = .ok xs := by
  unfold list at read
  split at read
  · simp only [bind_ok_iff] at read
    obtain ⟨inner, enters, ys, hys, done⟩ := read
    split at done
    · cases done
      exact ⟨inner, _, 0, enters, hys⟩
    · cases done
  · cases read

/-- A map that was decoded comes from the fields of an object, one level further in. -/
theorem dict_ok {d : Document} {m : Dict α} (read : dict decode source d = .ok m) :
    ∃ inner fields, source.enter = .ok inner ∧
      dictEntries decode inner .empty fields = .ok m := by
  unfold dict at read
  split at read
  · simp only [bind_ok_iff] at read
    obtain ⟨inner, enters, n, hn, done⟩ := read
    split at done
    · cases done
      exact ⟨inner, _, enters, hn⟩
    · cases done
  · cases read

/-- A free value that was read has its fields in order, and all its levels could be entered. -/
theorem free_sound {source : Source} {d : Document} {v : Json} (zero : source.Bears 0)
    (read : free source d = .ok v) : v.Ordered ∧ source.Bears v.nesting :=
  match d with
  | .malformed | .number none | .text none => nomatch read
  | .null | .bool _ | .number (some _) | .text (some _) => by
    cases read
    exact ⟨trivial, zero⟩
  | .array items closed => by
    obtain ⟨-, inner, xs, enters, hxs, rfl⟩ := free_array_ok_iff.1 read
    have zero' := Source.bears_zero_of_enter enters
    -- the items and fields are smaller documents, on which the recursion goes
    have each : ∀ x ∈ xs, x.Ordered ∧ inner.Bears x.nesting := by
      intro x hx
      obtain ⟨d, hd, hr⟩ := listItems_forall hxs x hx
      have := List.sizeOf_lt_of_mem hd
      exact free_sound zero' hr
    exact ⟨Json.orderedItems_iff.2 fun x hx => (each x hx).1,
      (Json.bears_nestingItems zero' fun x hx => (each x hx).2).outer enters⟩
  | .object fields closed => by
    obtain ⟨-, inner, d, enters, hd, rfl⟩ := free_object_ok_iff.1 read
    have zero' := Source.bears_zero_of_enter enters
    have each : ∀ e ∈ d.entries, e.2.Ordered ∧ inner.Bears e.2.nesting := by
      intro e he
      rcases dictEntries_forall hd e he with hin | ⟨⟨name, value⟩, hf, hr⟩
      · cases hin
      · have : sizeOf value < sizeOf (name, value) := by simp only [Prod.mk.sizeOf_spec]; omega
        have := List.sizeOf_lt_of_mem hf
        exact free_sound zero' hr
    exact ⟨⟨d.ascending, Json.orderedFields_iff.2 fun e he => (each e he).1⟩,
      (Json.bears_nestingFields zero' fun e he => (each e he).2).outer enters⟩
termination_by sizeOf d

/-- A value cannot be read unless all its levels can be entered. -/
theorem bears_of_free {v x : Json} (zero : source.Bears 0)
    (read : free source (.ofJson v) = .ok x) : source.Bears v.nesting := by
  -- by induction on the value; what is read of it is of no interest, only that its levels were
  -- entered
  induction v using Json.induction generalizing source x with
  | null | bool | number | string => exact zero
  | array items ih =>
    obtain ⟨-, inner, xs, enters, hxs, -⟩ := free_array_ok_iff.1 read
    have zero' := Source.bears_zero_of_enter enters
    refine (Json.bears_nestingItems zero' fun y hy => ?_).outer enters
    obtain ⟨z, hz⟩ := listItems_read hxs y hy
    exact ih y hy zero' hz
  | object fields ih =>
    obtain ⟨-, inner, d, enters, hd, -⟩ := free_object_ok_iff.1 read
    have zero' := Source.bears_zero_of_enter enters
    refine (Json.bears_nestingFields zero' fun e he => ?_).outer enters
    obtain ⟨z, hz⟩ := dictEntries_read hd e he
    exact ih e he zero' hz

end Decoder

/-! ## The laws -/

namespace Codec

variable {α : Type} {source : Source} {floor : Nat} {Formed Whole : α → Prop}

/-- What is written of the value is taken for it, in any order of fields. -/
def Restores (c : Codec α) (source : Source) (x : α) : Prop :=
  ∀ ⦃v⦄, (c.encode x).Reordered v → c.decode source (.ofJson v) = .ok x

theorem Restores.takesBack {c : Codec α} {x : α} (h : c.Restores source x) :
    c.TakesBack source x := h (.refl _)

/-- A value that is there is never written as `null`, so it is not taken for one that is absent. -/
theorem restores_some {c : Codec α} {x : α} (something : ∀ x, c.encode x ≠ .null)
    (h : c.Restores source x) : (option c).Restores source (some x) := by
  intro v hv
  -- what is not null is not null in another order
  have notNull : v ≠ .null := fun null => something x (Json.Reordered.eq_null (null ▸ hv))
  show Decoder.option c.decode source _ = _
  rw [Decoder.option_of_ne_null notNull, h hv]
  rfl

/-- A list is taken for itself if its items are; their fields may be in any order, they themselves
may not. -/
theorem list_restores {c : Codec α} {xs : List α} {inner : Source}
    (enters : source.enter = .ok inner) (h : ∀ x ∈ xs, c.Restores inner x) :
    (list c).Restores source xs := by
  rintro v ⟨others, rfl, hi⟩
  -- both orders of an item are read as the item itself
  have each : ∀ w ∈ xs.map c.encode, ∀ w' y, w.Reordered w' →
      c.decode inner (.ofJson w) = .ok y → c.decode inner (.ofJson w') = .ok y := by
    intro w hw w' y hr read
    obtain ⟨x, hx, rfl⟩ := List.mem_map.1 hw
    rw [← read, h x hx hr, (h x hx).takesBack]
  have read := Decoder.listItems_reordered each hi
    (Decoder.listItems_ofItems 0 fun x hx => (h x hx).takesBack)
  show Decoder.list c.decode source (.array (Document.ofItems others) true) = _
  simp only [Decoder.list, bind_ok_iff]
  exact ⟨inner, enters, xs, read, rfl⟩

/-- A map is taken for itself if its values are, in whatever order its entries come. -/
theorem dict_restores {c : Codec α} {m : Dict α} {inner : Source}
    (enters : source.enter = .ok inner) (h : ∀ e ∈ m.entries, c.Restores inner e.2) :
    (dict c).Restores source m := by
  rintro v ⟨same, others, rfl, hf, arranged⟩
  -- first each value in its own order, then the entries among each other
  have each : ∀ f ∈ m.entries.map fun e => (e.1, c.encode e.2), ∀ w y, f.2.Reordered w →
      c.decode inner (.ofJson f.2) = .ok y → c.decode inner (.ofJson w) = .ok y := by
    intro f hf w y hr read
    obtain ⟨e, he, rfl⟩ := List.mem_map.1 hf
    rw [← read, h e he hr, (h e he).takesBack]
  have ascending : Ascending (Dict.empty.entries ++ m.entries) := m.ascending
  have read := Decoder.dictEntries_rearranged arranged (Decoder.dictEntries_reordered each hf
    (Decoder.dictEntries_ofFields ascending fun e he => (h e he).takesBack))
  show Decoder.dict c.decode source (.object (Document.ofFields others) true) = _
  simp only [Decoder.dict, bind_ok_iff]
  exact ⟨inner, enters, m, read, rfl⟩

/-- The laws, for values that are `Formed`, where at least `floor` levels may be entered, as a
blank record needs them. Texts are legible of values whose free parts are. -/
structure Lawful (c : Codec α) (floor : Nat) (Formed Whole : α → Prop) : Prop where
  back : ∀ {source x}, Formed x → source.Bears (c.encode x).nesting → c.Restores source x
  again : ∀ {source d x}, source.Bears floor → c.decode source d = .ok x → c.Restores source x
  legible : ∀ {x}, Whole x → (c.encode x).Legible

/-- No value is excepted. -/
abbrev LawfulAll (c : Codec α) (floor : Nat) : Prop := c.Lawful floor (fun _ => True) fun _ => True

theorem Lawful.total {c : Codec α} (h : c.Lawful floor Formed Whole) (formed : ∀ x, Formed x)
    (whole : ∀ x, Whole x) : c.LawfulAll floor :=
  ⟨fun _ => h.back (formed _), h.again, fun _ => h.legible (whole _)⟩

/-- Where nothing has parts there is no order. -/
theorem lawful_of_leaf {c : Codec α} (leaf : ∀ x, (c.encode x).Leaf)
    (legible : ∀ x, (c.encode x).Legible)
    (back : ∀ {source x}, Formed x → c.TakesBack source x)
    (formed : ∀ {source d x}, c.decode source d = .ok x → Formed x) :
    c.Lawful floor Formed fun _ => True where
  back := by
    intro source x hx _ v hv
    rw [(leaf x).reordered hv]
    exact back hx
  again := by
    intro source d x _ read v hv
    rw [(leaf x).reordered hv]
    exact back (formed read)
  legible _ := legible _

theorem lawful_string : string.LawfulAll floor :=
  lawful_of_leaf (fun _ => trivial) (fun _ => trivial) (fun _ => string_takesBack _)
    fun _ => trivial

theorem lawful_bool : bool.LawfulAll floor :=
  lawful_of_leaf (fun _ => trivial) (fun _ => trivial) (fun _ => rfl) fun _ => trivial

theorem lawful_uuid : uuid.LawfulAll floor :=
  lawful_of_leaf (fun _ => trivial) (fun _ => trivial) (fun _ => uuid_takesBack _) fun _ => trivial

theorem lawful_label [Label α] : (label (α := α)).LawfulAll floor :=
  lawful_of_leaf (fun _ => trivial) (fun _ => trivial) (fun _ => label_takesBack _) fun _ => trivial

theorem legible_nat {n : Nat} (h : n < 18446744073709551616) : (Json.nat n).Legible := by
  apply Scan.legible_integer
  simp only [Json.inRange, Bool.and_eq_true, decide_eq_true_eq]
  omega

theorem lawful_nat32 : nat32.LawfulAll floor := by
  refine lawful_of_leaf (fun _ => trivial) (fun n => ?_) (fun _ => nat32_takesBack _)
    fun _ => trivial
  have := n.toNat_lt
  exact legible_nat (by omega)

/-- A 64-bit number is an integer of the text, within its own bounds. -/
theorem nat64_takesBack (n : UInt64) : nat64.TakesBack source n := by
  have lt := n.toNat_lt
  have inRange : (0 : Int) ≤ n.toNat ∧ (n.toNat : Int) ≤ (UInt64.size - 1 : Nat) := by
    rw [UInt64.size]
    omega
  show (((Decoder.integer _ 0 _ source (.number (some (.integer n.toNat)))).map Int.toNat).map
    UInt64.ofNat) = _
  rw [Decoder.integer, if_pos inRange]
  show Except.ok (UInt64.ofNat n.toNat) = _
  rw [UInt64.ofNat_toNat]

theorem lawful_nat64 : nat64.LawfulAll floor :=
  lawful_of_leaf (fun _ => trivial) (fun n => legible_nat n.toNat_lt) (fun _ => nat64_takesBack _)
    fun _ => trivial

/-- A signed number goes by the same decoder, with bounds on both sides. -/
theorem int32_takesBack (i : Int32) : int32.TakesBack source i := by
  have inRange : (-2147483648 : Int) ≤ i.toInt ∧ i.toInt ≤ 2147483647 :=
    ⟨i.le_toInt, i.toInt_le⟩
  show (Decoder.integer _ _ _ source (.number (some (.integer i.toInt)))).map Int32.ofInt = _
  rw [Decoder.integer, if_pos inRange]
  show Except.ok (Int32.ofInt i.toInt) = _
  rw [Int32.ofInt_toInt]

theorem lawful_int32 : int32.LawfulAll floor := by
  refine lawful_of_leaf (fun _ => trivial) (fun i => ?_) (fun _ => int32_takesBack _)
    fun _ => trivial
  have lower : -2147483648 ≤ i.toInt := i.le_toInt
  have upper : i.toInt ≤ 2147483647 := i.toInt_le
  apply Scan.legible_integer
  simp only [Json.inRange, Bool.and_eq_true, decide_eq_true_eq]
  omega

/-- A time is taken back if its year is one that a date may have, as the year of a time that was
read is. -/
theorem lawful_time : time.Lawful floor DateTime.Datable fun _ => True := by
  refine lawful_of_leaf (fun _ => trivial) (fun _ => trivial) (fun h => time_takesBack h) ?_
  intro source d t read
  obtain ⟨s, -, h⟩ := bind_ok_iff.1 read
  cases hp : DateTime.parse? s with
  | none => simp [hp] at h
  | some u =>
    simp only [hp, Except.ok.injEq] at h
    exact h ▸ DateTime.datable_of_parse? hp

/-- A free value is taken back if its fields are in order, and those of a value that was read
are. -/
theorem lawful_free : free.Lawful floor Json.Ordered Json.Legible where
  back ordered bears v h := Decoder.free_reordered h (Decoder.free_ofJson _ _ ordered bears)
  again bears read v h := by
    obtain ⟨ordered, deep⟩ := Decoder.free_sound (bears.mono (Nat.zero_le _)) read
    exact Decoder.free_reordered h (Decoder.free_ofJson _ _ ordered deep)
  legible h := h

section

variable {c : Codec α}

/-- Nothing is written as null, and so nothing else may be. -/
theorem lawful_option (something : ∀ x, c.encode x ≠ .null) (h : c.Lawful floor Formed Whole) :
    (option c).Lawful floor (fun o => ∀ x ∈ o, Formed x) fun o => ∀ x ∈ o, Whole x where
  back := by
    intro source o formed bears v hv
    cases o with
    | none => rw [Json.Leaf.reordered (v := .null) trivial hv]; rfl
    | some x => exact restores_some something (h.back (formed x rfl) bears) hv
  again := by
    intro source d o bears read v hv
    cases o with
    | none => rw [Json.Leaf.reordered (v := .null) trivial hv]; rfl
    | some x => exact restores_some something (h.again bears (Decoder.option_some read)) hv
  legible := by
    intro o whole
    cases o with
    | none => trivial
    | some x => exact h.legible (whole x rfl)

/-- A list is lawful if its items are. It takes one level more. -/
theorem lawful_list (h : c.Lawful floor Formed Whole) :
    (list c).Lawful (floor + 1) (fun xs => ∀ x ∈ xs, Formed x) fun xs => ∀ x ∈ xs, Whole x where
  back := by
    intro source xs formed bears
    obtain ⟨inner, enters, deep⟩ := bears.enter
    refine list_restores enters fun x hx => h.back (formed x hx) (deep.mono ?_)
    exact Json.nesting_le_of_mem (List.mem_map_of_mem hx)
  again := by
    intro source d xs bears read
    obtain ⟨inner, items, n, enters, hi⟩ := Decoder.list_ok read
    refine list_restores enters fun x hx => ?_
    obtain ⟨d, -, hd⟩ := Decoder.listItems_forall hi x hx
    exact h.again (bears.within enters) hd
  legible whole :=
    Json.legibleItems_iff.2 (List.forall_mem_map.2 fun x hx => h.legible (whole x hx))

/-- A map is lawful if its values are, in whatever order they come. It takes one level more. -/
theorem lawful_dict (h : c.Lawful floor Formed Whole) :
    (dict c).Lawful (floor + 1) (fun d => ∀ e ∈ d.entries, Formed e.2)
      fun d => ∀ e ∈ d.entries, Whole e.2 where
  back := by
    intro source m formed bears
    obtain ⟨inner, enters, deep⟩ := bears.enter
    refine dict_restores enters fun e he => h.back (formed e he) (deep.mono ?_)
    exact Json.nesting_le_of_mem_fields (e := (e.1, c.encode e.2)) (List.mem_map_of_mem he)
  again := by
    intro source d m bears read
    obtain ⟨inner, fields, enters, hf⟩ := Decoder.dict_ok read
    refine dict_restores enters fun e he => ?_
    rcases Decoder.dictEntries_forall hf e he with hin | ⟨f, -, hr⟩
    · cases hin
    · exact h.again (bears.within enters) hr
  legible whole :=
    Json.legibleFields_iff.2 (List.forall_mem_map.2 fun e he => h.legible (whole e he))

/-- Where no value is excepted of a type, none is of what is built of it: what may be absent, lists
and maps. -/
theorem LawfulAll.option (h : c.LawfulAll floor) (something : ∀ x, c.encode x ≠ .null) :
    (option c).LawfulAll floor :=
  (lawful_option something h).total (fun _ _ _ => trivial) fun _ _ _ => trivial

theorem LawfulAll.list (h : c.LawfulAll floor) : (list c).LawfulAll (floor + 1) :=
  (lawful_list h).total (fun _ _ _ => trivial) fun _ _ _ => trivial

theorem LawfulAll.dict (h : c.LawfulAll floor) : (dict c).LawfulAll (floor + 1) :=
  (lawful_dict h).total (fun _ _ _ => trivial) fun _ _ _ => trivial

end

/-! ## There and back -/

/-- Decoding undoes encoding. Maps may be written in any order; in a text, the numbers of free
values must be ones that are read back. -/
structure Inverse (c : Codec α) (Formed Legible : α → Prop) : Prop where
  /-- Of a value in memory. -/
  held : ∀ x, Formed x → ∀ v, (c.encode x).Reordered v → Decoder.ofJson c.decode v = .ok x
  /-- Of a text that can be read as a value. -/
  text : ∀ x, Formed x → Legible x → ∀ v, (c.encode x).Reordered v →
    (Json.parse? v.toString).isSome → Decoder.ofText c.decode v.toString = .ok x
  /-- Of what has been taken from a text. -/
  again : ∀ s x, Decoder.ofText c.decode s = .ok x → Legible x → ∀ v, (c.encode x).Reordered v →
    Decoder.ofText c.decode v.toString = .ok x

/-- What is decoded of a text is decoded of the document in it. -/
theorem ofText_ok {decode : Decoder α} {s : String} {x : α} (h : Decoder.ofText decode s = .ok x) :
    decode .wholeText (Document.ofText s).1 = .ok x := by
  simp only [Decoder.ofText] at h
  split at h
  · cases h
  · rename_i y hy
    split at h
    · cases h
      exact hy
    · cases h

theorem ofText_toString {decode : Decoder α} {v : Json} (legible : v.Legible) :
    Decoder.ofText decode v.toString = decode .wholeText (.ofJson v) := by
  rw [Decoder.ofText, Document.ofText_toString legible]
  dsimp only
  cases decode .wholeText (.ofJson v) <;> rfl

theorem Lawful.ofText_text {c : Codec α} {x : α} (h : c.Lawful 127 Formed Whole) (formed : Formed x)
    (whole : Whole x) (shallow : (c.encode x).nesting ≤ 127) :
    Decoder.ofText c.decode (c.text x) = .ok x := by
  have bears : Source.wholeText.Bears (c.encode x).nesting := Nat.lt_succ_of_le shallow
  rw [text, ofText_toString (h.legible whole)]
  exact (h.back formed bears).takesBack

/-- A lawful codec is an inverse. The depth of a text is known from its having been read. -/
theorem Lawful.inverse {c : Codec α} {Legible : α → Prop} (h : c.Lawful 127 Formed Legible) :
    c.Inverse Formed Legible where
  held x formed v hv := by
    have deep : Source.held.Bears (c.encode x).nesting := trivial
    exact h.back formed deep hv
  text := by
    intro x formed hx v hv readable
    have legible := hv.legible (h.legible hx)
    obtain ⟨u, hu⟩ := Option.isSome_iff_exists.1 readable
    have read : Decoder.ofText Decoder.free v.toString = .ok u := by
      cases hr : Decoder.ofText Decoder.free v.toString <;> simp_all [Json.parse?, Except.toOption]
    -- that some free value was read of the text says that its levels could be entered
    have deep : Source.wholeText.Bears v.nesting :=
      Decoder.bears_of_free (Nat.succ_pos 127) (ofText_toString legible ▸ read)
    rw [ofText_toString legible]
    exact h.back formed (hv.nesting ▸ deep) hv
  again := by
    intro s x read hx v hv
    have deep : Source.wholeText.Bears 127 := Nat.lt_succ_self 127
    rw [ofText_toString (hv.legible (h.legible hx))]
    exact h.again deep (ofText_ok read) hv

end Codec

end Courier
