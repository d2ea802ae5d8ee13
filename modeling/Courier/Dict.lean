/-!
# Finite maps with text keys

A `Dict` is a list of entries whose keys strictly increase in the order of code points, so that two
dictionaries with the same entries are equal and every walk through one meets the keys in the same
order. The order of the keys is part of the type; `insert` replaces an entry or puts it in its
place.

The service keeps such maps without any order (the variables of a request, its metadata, the checks
of a report), and in which order it walks through one is not fixed. Nothing that is told of a map
here depends on it: where an order does matter, as in the filling of placeholders, it is an argument
of its own.

Keys are ordered as in the objects of free JSON, which the service keeps sorted, so that a map and
the object it is written as meet their keys in the same order.
-/

set_option autoImplicit false

namespace Courier

/-- Keys before the given one. -/
def KeysAbove {α : Type} (k : String) (entries : List (String × α)) : Prop :=
  ∀ e ∈ entries, k < e.1

/-- Strictly increasing keys. -/
def Ascending {α : Type} : List (String × α) → Prop
  | [] => True
  | e :: rest => KeysAbove e.1 rest ∧ Ascending rest

/-- Puts an entry in its place, over an entry of the same key. -/
def insertEntry {α : Type} (k : String) (v : α) : List (String × α) → List (String × α)
  | [] => [(k, v)]
  | e :: rest =>
    if k < e.1 then (k, v) :: e :: rest
    else if k = e.1 then (k, v) :: rest
    else e :: insertEntry k v rest

/-- Nothing comes into a map but what is put there. Ascent needs it: all keys behind the new entry
are either older ones or its own. -/
theorem mem_insertEntry {α : Type} {k : String} {v : α} {entries : List (String × α)}
    {e : String × α} (h : e ∈ insertEntry k v entries) : e = (k, v) ∨ e ∈ entries := by
  induction entries with
  | nil => simpa [insertEntry] using h
  | cons x rest ih =>
    unfold insertEntry at h
    split at h
    · simpa using h
    · split at h
      · rcases List.mem_cons.1 h with h | h
        · exact .inl h
        · exact .inr (List.mem_cons_of_mem _ h)
      · rcases List.mem_cons.1 h with h | h
        · exact .inr (h ▸ List.mem_cons_self)
        · exact (ih h).imp id (List.mem_cons_of_mem _)

theorem ascending_insertEntry {α : Type} {k : String} {v : α} {entries : List (String × α)}
    (h : Ascending entries) : Ascending (insertEntry k v entries) := by
  induction entries with
  | nil => exact ⟨fun _ he => absurd he (List.not_mem_nil), trivial⟩
  | cons x rest ih =>
    obtain ⟨above, tail⟩ := h
    unfold insertEntry
    split
    · rename_i lt
      refine ⟨?_, above, tail⟩
      intro e he
      rcases List.mem_cons.1 he with rfl | he
      · exact lt
      · exact String.lt_trans lt (above e he)
    · split
      · rename_i _ eq
        exact ⟨eq ▸ above, tail⟩
      · rename_i notLt notEq
        refine ⟨?_, ih tail⟩
        intro e he
        rcases mem_insertEntry he with rfl | he
        · exact Decidable.byContradiction fun hx =>
            notEq (String.le_antisymm (String.not_lt.1 hx) (String.not_lt.1 notLt))
        · exact above e he

/-- A finite map from texts. -/
structure Dict (α : Type) where
  entries : List (String × α)
  ascending : Ascending entries

namespace Dict

variable {α : Type}

theorem ext {a b : Dict α} (h : a.entries = b.entries) : a = b := by
  cases a; cases b; cases h; rfl

instance [DecidableEq α] : DecidableEq (Dict α) := fun a b =>
  if h : a.entries = b.entries then .isTrue (ext h) else .isFalse fun e => h (e ▸ rfl)

instance [Repr α] : Repr (Dict α) := ⟨fun d n => reprPrec d.entries n⟩

def empty : Dict α := ⟨[], trivial⟩

instance : Inhabited (Dict α) := ⟨empty⟩

def insert (d : Dict α) (k : String) (v : α) : Dict α :=
  ⟨insertEntry k v d.entries, ascending_insertEntry d.ascending⟩

def get? (d : Dict α) (k : String) : Option α := d.entries.lookup k

def contains (d : Dict α) (k : String) : Bool := (d.get? k).isSome

def keys (d : Dict α) : List String := d.entries.map (·.1)

/-- Later entries replace earlier ones of the same key. -/
def ofList (entries : List (String × α)) : Dict α :=
  entries.foldl (fun d e => d.insert e.1 e.2) empty

/-- Puts an entry only where the key has none. -/
def insertNew (d : Dict α) (k : String) (v : α) : Dict α := if d.contains k then d else d.insert k v

end Dict

end Courier
