import Courier.Proofs.Json.Codecs

/-!
# Fields in another order

A map has no order of its own: it is written as its entries happen to come. `Json.Reordered` relates
a value to the same value with the fields of its objects in another order, at any depth.

Entries are put into a map one after the other, and any two of different names may change places
(`Dict.insert_comm`), so that a map is read the same in any order (`Decoder.dictEntries_perm`), and
a free value too (`Decoder.free_reordered`).

Only where no name comes twice may fields change places: of two with the same name the later one
counts. Values that were written have no such fields.
-/

set_option autoImplicit false

namespace Courier

/-! ## Steps that succeed -/

section

variable {ε ε' α β : Type} {x : Except ε α}

/-- A step that succeeds after another one has both succeed. Decoding is taken apart with this, and
put together again. -/
theorem bind_ok_iff {f : α → Except ε β} {b : β} :
    x >>= f = .ok b ↔ ∃ a, x = .ok a ∧ f a = .ok b := by
  cases x with
  | error e => exact ⟨nofun, nofun⟩
  | ok a => exact ⟨fun h => ⟨a, rfl, h⟩, fun ⟨_, ha, h⟩ => Except.ok.inj ha ▸ h⟩

theorem map_ok_iff {f : α → β} {b : β} : x.map f = .ok b ↔ ∃ a, x = .ok a ∧ f a = b := by
  cases x <;> simp [Except.map]

theorem mapError_ok_iff {f : ε → ε'} {a : α} : x.mapError f = .ok a ↔ x = .ok a := by
  cases x <;> simp [Except.mapError]

end

/-! ## Values by their parts -/

namespace Json

/-- What holds of a value if it holds of its items and fields holds of all values. -/
theorem induction {P : Json → Prop} (null : P .null) (bool : ∀ b, P (.bool b))
    (number : ∀ n, P (.number n)) (string : ∀ s, P (.string s))
    (array : ∀ items, (∀ x ∈ items, P x) → P (.array items))
    (object : ∀ fields, (∀ e ∈ fields, P e.2) → P (.object fields)) (v : Json) : P v := by
  cases v with
  | null => exact null
  | bool b => exact bool b
  | number n => exact number n
  | string s => exact string s
  | array items =>
    refine array items fun x h => ?_
    -- a member of a list is smaller than the value the list is part of
    have := List.sizeOf_lt_of_mem h
    exact induction null bool number string array object x
  | object fields =>
    refine object fields fun e h => ?_
    have : sizeOf e.2 < sizeOf e := by cases e; simp only [Prod.mk.sizeOf_spec]; omega
    have := List.sizeOf_lt_of_mem h
    exact induction null bool number string array object e.2
termination_by sizeOf v

/-- The same fields, in another order only if no name comes twice. -/
def Rearranged (fields others : List (String × Json)) : Prop :=
  others = fields ∨ (fields.map (·.1)).Nodup ∧ fields.Perm others

mutual

/-- The same value with the fields of its objects in another order. -/
def Reordered : Json → Json → Prop
  | .array items, w => ∃ others, w = .array others ∧ ReorderedItems items others
  | .object fields, w =>
    ∃ same others, w = .object others ∧ ReorderedFields fields same ∧ Rearranged same others
  | v, w => w = v

def ReorderedItems : List Json → List Json → Prop
  | [], others => others = []
  | x :: rest, others => ∃ y more, others = y :: more ∧ Reordered x y ∧ ReorderedItems rest more

/-- Field by field, in the same order. -/
def ReorderedFields : List (String × Json) → List (String × Json) → Prop
  | [], others => others = []
  | (k, x) :: rest, others =>
    ∃ y more, others = (k, y) :: more ∧ Reordered x y ∧ ReorderedFields rest more

end

variable {v w : Json}

theorem Rearranged.perm {fields others : List (String × Json)} (h : Rearranged fields others) :
    fields.Perm others := by
  rcases h with rfl | h
  · exact .refl _
  · exact h.2

/-- Every value is in its own order. -/
theorem Reordered.refl (v : Json) : v.Reordered v := by
  induction v using induction with
  | null | bool | number | string => simp [Reordered]
  | array items ih =>
    refine ⟨items, rfl, ?_⟩
    induction items with
    | nil => simp [ReorderedItems]
    | cons x rest ihr =>
      exact ⟨x, rest, rfl, ih x List.mem_cons_self,
        ihr fun z hz => ih z (List.mem_cons_of_mem _ hz)⟩
  | object fields ih =>
    refine ⟨fields, fields, rfl, ?_, .inl rfl⟩
    induction fields with
    | nil => simp [ReorderedFields]
    | cons e rest ihr =>
      exact ⟨e.2, rest, rfl, ih e List.mem_cons_self,
        ihr fun z hz => ih z (List.mem_cons_of_mem _ hz)⟩

theorem Reordered.eq_null (h : Reordered v .null) : v = .null := by
  cases v <;> simp_all [Reordered]

theorem ReorderedFields.names {fields same : List (String × Json)}
    (h : ReorderedFields fields same) : same.map (·.1) = fields.map (·.1) := by
  induction fields generalizing same with
  | nil => simp_all [ReorderedFields]
  | cons e rest ih =>
    obtain ⟨y, more, rfl, -, hm⟩ := h
    simp [ih hm]

/-- Field by field, each value belongs to the field of that name. -/
theorem ReorderedFields.mem {fields same : List (String × Json)} {e : String × Json}
    (h : ReorderedFields fields same) (he : e ∈ same) :
    ∃ v, (e.1, v) ∈ fields ∧ v.Reordered e.2 := by
  induction fields generalizing same with
  | nil => simp_all [ReorderedFields]
  | cons f rest ih =>
    obtain ⟨y, more, rfl, hx, hm⟩ := h
    rcases List.mem_cons.1 he with rfl | he
    · exact ⟨f.2, List.mem_cons_self, hx⟩
    · obtain ⟨v, hv, hr⟩ := ih hm he
      exact ⟨v, List.mem_cons_of_mem _ hv, hr⟩

theorem nesting_le_of_mem {items : List Json} {x : Json} (h : x ∈ items) :
    x.nesting ≤ nestingItems items := by
  induction items with
  | nil => cases h
  | cons y rest ih =>
    rw [nestingItems]
    rcases List.mem_cons.1 h with rfl | h
    · exact Nat.le_max_left _ _
    · exact Nat.le_trans (ih h) (Nat.le_max_right _ _)

theorem nesting_le_of_mem_fields {fields : List (String × Json)} {e : String × Json}
    (h : e ∈ fields) : e.2.nesting ≤ nestingFields fields := by
  induction fields with
  | nil => cases h
  | cons f rest ih =>
    obtain ⟨k, x⟩ := f
    rw [nestingFields]
    rcases List.mem_cons.1 h with rfl | h
    · exact Nat.le_max_left _ _
    · exact Nat.le_trans (ih h) (Nat.le_max_right _ _)

theorem nestingFields_perm {fields others : List (String × Json)} (h : fields.Perm others) :
    nestingFields fields = nestingFields others := by
  induction h with
  | nil => rfl
  | cons e _ ih => simp [nestingFields, ih]
  | swap e f rest => simp [nestingFields, Nat.max_left_comm]
  | trans _ _ ih ih' => exact ih.trans ih'

/-- Reordering a value leaves its depth. -/
theorem Reordered.nesting (h : Reordered v w) : w.nesting = v.nesting := by
  induction v using induction generalizing w with
  | null | bool | number | string => simp_all [Reordered]
  | array items ih =>
    obtain ⟨others, rfl, hi⟩ := h
    simp only [Json.nesting, Nat.add_right_cancel_iff]
    -- `ih` speaks of the members, so the list takes an induction of its own
    induction items generalizing others with
    | nil => simp_all [ReorderedItems]
    | cons x rest ihr =>
      obtain ⟨y, more, rfl, hx, hr⟩ := hi
      rw [nestingItems, nestingItems, ih x List.mem_cons_self hx,
        ihr (fun z hz => ih z (List.mem_cons_of_mem _ hz)) more hr]
  | object fields ih =>
    obtain ⟨same, others, rfl, hf, perm⟩ := h
    simp only [Json.nesting, Nat.add_right_cancel_iff]
    rw [← nestingFields_perm perm.perm]
    clear perm
    induction fields generalizing same with
    | nil => simp_all [ReorderedFields]
    | cons e rest ihr =>
      obtain ⟨y, more, rfl, hx, hr⟩ := hf
      rw [nestingFields, nestingFields, ih _ List.mem_cons_self hx,
        ihr (fun z hz => ih z (List.mem_cons_of_mem _ hz)) more hr]

/-- What can be read back can be read back in any order. -/
theorem Reordered.legible (h : Reordered v w) (legible : v.Legible) : w.Legible := by
  induction v using induction generalizing w with
  | null | bool | number | string => simp_all [Reordered]
  | array items ih =>
    obtain ⟨others, rfl, hi⟩ := h
    simp only [Legible] at legible ⊢
    induction items generalizing others with
    | nil => simp_all [ReorderedItems]
    | cons x rest ihr =>
      obtain ⟨y, more, rfl, hx, hr⟩ := hi
      exact ⟨ih x List.mem_cons_self hx legible.1,
        ihr (fun z hz => ih z (List.mem_cons_of_mem _ hz)) legible.2 more hr⟩
  | object fields ih =>
    obtain ⟨same, others, rfl, hf, perm⟩ := h
    simp only [Legible] at legible ⊢
    have all : LegibleFields same := by
      clear perm
      induction fields generalizing same with
      | nil => simp_all [ReorderedFields]
      | cons e rest ihr =>
        obtain ⟨y, more, rfl, hx, hr⟩ := hf
        exact ⟨ih _ List.mem_cons_self hx legible.1,
          ihr (fun z hz => ih z (List.mem_cons_of_mem _ hz)) legible.2 more hr⟩
    rw [legibleFields_iff] at all ⊢
    exact fun e he => all e (perm.perm.mem_iff.2 he)

end Json

/-! ## Decoders

The members of an object are put into a dictionary one by one. As their names differ, the order they
come in makes no difference to it.
-/

namespace Decoder

open Json (Rearranged ReorderedItems ReorderedFields)

variable {α : Type} {decode : Decoder α} {source : Source}

/-- Item by item. -/
theorem listItems_reordered {items others : List Json} {n : Nat} {xs : List α}
    (each : ∀ v ∈ items, ∀ w x, v.Reordered w →
      decode source (.ofJson v) = .ok x → decode source (.ofJson w) = .ok x)
    (h : ReorderedItems items others)
    (read : listItems decode source n (Document.ofItems items) = .ok xs) :
    listItems decode source n (Document.ofItems others) = .ok xs := by
  induction items generalizing others n xs with
  | nil =>
    simp only [ReorderedItems] at h
    rwa [h]
  | cons v rest ih =>
    obtain ⟨w, more, rfl, hv, hr⟩ := h
    simp only [Document.ofItems, listItems, bind_ok_iff, mapError_ok_iff] at read ⊢
    obtain ⟨x, hx, ys, hys, done⟩ := read
    exact ⟨x, each v List.mem_cons_self w x hv hx, ys,
      ih (fun z hz => each z (List.mem_cons_of_mem _ hz)) hr hys, done⟩

/-- Field by field. -/
theorem dictEntries_reordered {fields same : List (String × Json)} {acc d : Dict α}
    (each : ∀ e ∈ fields, ∀ w x, e.2.Reordered w →
      decode source (.ofJson e.2) = .ok x → decode source (.ofJson w) = .ok x)
    (h : ReorderedFields fields same)
    (read : dictEntries decode source acc (Document.ofFields fields) = .ok d) :
    dictEntries decode source acc (Document.ofFields same) = .ok d := by
  induction fields generalizing same acc with
  | nil =>
    simp only [ReorderedFields] at h
    rwa [h]
  | cons e rest ih =>
    obtain ⟨w, more, rfl, hv, hr⟩ := h
    simp only [Document.ofFields, dictEntries, bind_ok_iff, mapError_ok_iff] at read ⊢
    obtain ⟨x, hx, hd⟩ := read
    exact ⟨x, each e List.mem_cons_self w x hv hx,
      ih (fun z hz => each z (List.mem_cons_of_mem _ hz)) hr hd⟩

/-- Fields of different names may change places. -/
theorem dictEntries_perm {fields others : List (String × Json)} {acc d : Dict α}
    (own : (fields.map (·.1)).Nodup) (perm : fields.Perm others)
    (read : dictEntries decode source acc (Document.ofFields fields) = .ok d) :
    dictEntries decode source acc (Document.ofFields others) = .ok d := by
  -- a permutation is made of exchanges of neighbours, and each of these is an exchange of
  -- insertions
  induction perm generalizing acc with
  | nil => exact read
  | cons e _ ih =>
    simp only [Document.ofFields, dictEntries, bind_ok_iff, mapError_ok_iff] at read ⊢
    obtain ⟨x, hx, hd⟩ := read
    exact ⟨x, hx, ih (List.nodup_cons.1 own).2 hd⟩
  | swap e f rest =>
    simp only [Document.ofFields, dictEntries, bind_ok_iff, mapError_ok_iff] at read ⊢
    obtain ⟨x, hx, y, hy, hd⟩ := read
    have ne : e.1 ≠ f.1 := fun same => (List.nodup_cons.1 own).1 (by simp [same])
    refine ⟨y, hy, x, hx, ?_⟩
    rwa [Dict.insert_comm ne.symm]
  | trans p _ ih ih' =>
    exact ih' ((p.map _).nodup_iff.1 own) (ih own read)

theorem dictEntries_rearranged {fields others : List (String × Json)} {acc d : Dict α}
    (h : Rearranged fields others)
    (read : dictEntries decode source acc (Document.ofFields fields) = .ok d) :
    dictEntries decode source acc (Document.ofFields others) = .ok d := by
  rcases h with rfl | ⟨own, perm⟩
  · exact read
  · exact dictEntries_perm own perm read

/-- The items of a free value are a list of free values. -/
theorem freeItems_ok_iff {ds : List Document} {xs : List Json} (n : Nat) :
    freeItems source ds = .ok xs ↔ listItems free source n ds = .ok xs := by
  induction ds generalizing n xs with
  | nil => rfl
  | cons d rest ih =>
    simp only [listItems, bind_ok_iff, mapError_ok_iff, ← ih (n + 1), freeItems]
    cases free source d with
    | error e => simp
    | ok x => cases freeItems source rest <;> simp [pure, Except.pure]

/-- Its fields are a map of free values. -/
theorem freeFields_ok_iff {fields : List (Document × Document)} {acc d : Dict Json} :
    freeFields source acc fields = .ok d ↔ dictEntries free source acc fields = .ok d := by
  induction fields generalizing acc with
  | nil => rfl
  | cons f rest ih =>
    obtain ⟨name, value⟩ := f
    cases name with
    | text s =>
      cases s with
      | none => rfl
      | some k =>
        simp only [dictEntries, bind_ok_iff, mapError_ok_iff, ← ih, freeFields]
        cases free source value <;> simp
    | _ => rfl

theorem free_array_ok_iff {items : List Document} {closed : Bool} {v : Json} :
    free source (.array items closed) = .ok v ↔ closed = true ∧ ∃ inner xs,
      source.enter = .ok inner ∧ listItems free inner 0 items = .ok xs ∧ v = .array xs := by
  rw [free]
  cases source.enter with
  | error e => simp
  | ok inner =>
    simp only [← freeItems_ok_iff 0]
    cases closed <;> cases hi : freeItems inner items <;> simp [hi, eq_comm]

theorem free_object_ok_iff {fields : List (Document × Document)} {closed : Bool} {v : Json} :
    free source (.object fields closed) = .ok v ↔ closed = true ∧ ∃ inner d,
      source.enter = .ok inner ∧ dictEntries free inner .empty fields = .ok d ∧
        v = Json.ofDict d := by
  rw [free]
  cases source.enter with
  | error e => simp
  | ok inner =>
    simp only [← freeFields_ok_iff]
    cases closed <;> cases hf : freeFields inner .empty fields <;> simp [hf, eq_comm]

/-- A free value is read the same in any order. -/
theorem free_reordered {v w x : Json} (h : v.Reordered w) (read : free source (.ofJson v) = .ok x) :
    free source (.ofJson w) = .ok x := by
  induction v using Json.induction generalizing source w x with
  | null | bool | number | string =>
    simp only [Json.Reordered] at h
    rwa [h]
  | array items ih =>
    obtain ⟨others, rfl, hi⟩ := h
    obtain ⟨-, inner, xs, enters, hxs, rfl⟩ := free_array_ok_iff.1 read
    exact free_array_ok_iff.2 ⟨rfl, inner, xs, enters,
      listItems_reordered (fun z hz _ _ hr => ih z hz hr) hi hxs, rfl⟩
  | object fields ih =>
    obtain ⟨same, others, rfl, hf, arranged⟩ := h
    obtain ⟨-, inner, d, enters, hd, rfl⟩ := free_object_ok_iff.1 read
    have hs := dictEntries_reordered (fun e he _ _ hr => ih e he hr) hf hd
    exact free_object_ok_iff.2 ⟨rfl, inner, d, enters, dictEntries_rearranged arranged hs, rfl⟩

end Decoder

end Courier
