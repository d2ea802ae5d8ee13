import Courier.Dict
import Mathlib.Data.List.Basic
import Mathlib.Data.List.Nodup
import Mathlib.Tactic.SplitIfs

/-!
# Maps and their entries

Keys are in order and so all different. Where a key is new, `insert` adds an entry and keeps all
others, so that a map made of entries with keys of their own has just these (`Dict.ofList_perm`),
and each key finds its own (`Dict.get?_ofList_iff`). Two entries with different keys may be put in
either order (`Dict.insert_comm`).

These facts are what makes maps of the wire, which come in any order, and maps of the library, which
are in order, the same maps.
-/

set_option autoImplicit false

namespace Courier

variable {α : Type} {k l : String} {v w : α} {entries rest : List (String × α)}

theorem Ascending.nodup (h : Ascending entries) : (entries.map (·.1)).Nodup := by
  induction entries with
  | nil => simp
  | cons e rest ih =>
    refine List.nodup_cons.2 ⟨fun mem => ?_, ih h.2⟩
    obtain ⟨f, hf, same⟩ := List.mem_map.1 mem
    exact String.lt_irrefl _ (same ▸ h.1 f hf)

/-- A key beyond all others goes to the end. This is the case of a map that is written in order and
read entry by entry. -/
theorem insertEntry_last (h : Ascending (entries ++ (k, v) :: rest)) :
    insertEntry k v entries = entries ++ [(k, v)] := by
  induction entries with
  | nil => rfl
  | cons e entries ih =>
    obtain ⟨above, tail⟩ := h
    have before : e.1 < k := above (k, v) (List.mem_append_right _ List.mem_cons_self)
    rw [insertEntry, if_neg (String.lt_asymm before),
      if_neg fun same => String.lt_irrefl _ (same ▸ before), ih tail,
      List.cons_append]

/-- Entries of different keys may be put in either order. -/
theorem insertEntry_comm (ne : k ≠ l) (v w : α) (entries : List (String × α)) :
    insertEntry k v (insertEntry l w entries) = insertEntry l w (insertEntry k v entries) := by
  -- strings are totally ordered: one of the two keys comes first, and never the other
  have apart : k < l ∧ ¬ l < k ∨ l < k ∧ ¬ k < l := by
    by_cases h : k < l
    · exact .inl ⟨h, String.lt_asymm h⟩
    · by_cases h' : l < k
      · exact .inr ⟨h', h⟩
      · exact absurd (String.le_antisymm (String.not_lt.1 h') (String.not_lt.1 h)) ne
  induction entries with
  | nil => rcases apart with h | h <;> simp [insertEntry, h, ne, ne.symm]
  | cons e rest ih =>
    simp only [insertEntry]
    split_ifs <;> simp only [insertEntry] <;> split_ifs <;> grind

theorem insertEntry_perm (new : k ∉ entries.map (·.1)) (v : α) :
    (insertEntry k v entries).Perm ((k, v) :: entries) := by
  induction entries with
  | nil => exact .refl _
  | cons e rest ih =>
    obtain ⟨first, later⟩ := List.ne_and_not_mem_of_not_mem_cons new
    unfold insertEntry
    split
    · exact .refl _
    · exact ((ih later).cons e).trans (.swap _ _ _)

/-- An entry is found by its key, if no other has the same. -/
theorem lookup_eq_some_iff (own : (entries.map (·.1)).Nodup) :
    entries.lookup k = some v ↔ (k, v) ∈ entries := by
  induction entries with
  | nil => simp
  | cons e rest ih =>
    obtain ⟨new, more⟩ := List.nodup_cons.1 own
    rw [List.lookup_cons, List.mem_cons]
    by_cases same : k = e.1
    · subst same
      have absent : (e.1, v) ∉ rest := fun mem => new (List.mem_map.2 ⟨_, mem, rfl⟩)
      simp [absent, Prod.ext_iff, eq_comm]
    · have other : (k, v) ≠ e := fun h => same (h ▸ rfl)
      simp [beq_false_of_ne same, ih more, other]

theorem lookup_perm {order : List (String × α)} (own : (entries.map (·.1)).Nodup)
    (h : order.Perm entries) (k : String) : order.lookup k = entries.lookup k := by
  have same := (h.map (·.1)).nodup_iff.2 own
  refine Option.ext fun v => ?_
  rw [lookup_eq_some_iff same, lookup_eq_some_iff own, h.mem_iff]

theorem lookup_insertEntry_self : (insertEntry k v entries).lookup k = some v := by
  induction entries with
  | nil => simp [insertEntry]
  | cons e rest ih =>
    unfold insertEntry
    split_ifs with before same
    · simp
    · simp
    · rw [List.lookup_cons, beq_false_of_ne same]
      exact ih

/-- Other keys find what they found before. -/
theorem lookup_insertEntry_of_ne (ne : l ≠ k) :
    (insertEntry k v entries).lookup l = entries.lookup l := by
  induction entries with
  | nil => rw [insertEntry, List.lookup_cons, beq_false_of_ne ne]
  | cons e rest ih =>
    unfold insertEntry
    split_ifs with before same
    · rw [List.lookup_cons, beq_false_of_ne ne]
    · rw [List.lookup_cons, List.lookup_cons, ← same, beq_false_of_ne ne]
    · rw [List.lookup_cons, List.lookup_cons, ih]

namespace Dict

variable {d : Dict α}

theorem get?_eq_some_iff : d.get? k = some v ↔ (k, v) ∈ d.entries :=
  lookup_eq_some_iff d.ascending.nodup

theorem get?_insert_self : (d.insert k v).get? k = some v := lookup_insertEntry_self

theorem get?_insert_of_ne (ne : l ≠ k) : (d.insert k v).get? l = d.get? l :=
  lookup_insertEntry_of_ne ne

theorem mem_insertNew {e : String × α} (h : e ∈ (d.insertNew k v).entries) :
    e = (k, v) ∨ e ∈ d.entries := by
  rw [insertNew] at h
  split at h
  · exact .inr h
  · exact mem_insertEntry h

/-- After an entry was put in where there was none, its name is there, and so is every name that
was. -/
theorem contains_insertNew (h : l = k ∨ d.contains l) : (d.insertNew k v).contains l := by
  rw [insertNew]
  by_cases own : l = k
  · subst own
    split_ifs with present
    · exact present
    · rw [contains, get?_insert_self]
      rfl
  · have present := h.resolve_left own
    split_ifs
    · exact present
    · rwa [contains, get?_insert_of_ne own]

theorem insert_comm (ne : k ≠ l) (v w : α) (d : Dict α) :
    (d.insert l w).insert k v = (d.insert k v).insert l w :=
  Dict.ext (insertEntry_comm ne v w d.entries)

/-- Entries that are put in one after the other are all there, if their keys are new and differ. -/
theorem insertAll_perm (d : Dict α)
    (own : ((entries ++ d.entries).map (·.1)).Nodup) :
    (entries.foldl (fun d e => d.insert e.1 e.2) d).entries.Perm (entries ++ d.entries) := by
  induction entries generalizing d with
  | nil => exact .refl _
  | cons e rest ih =>
    have new : e.1 ∉ d.entries.map (·.1) := by
      rw [List.cons_append, List.map_cons, List.map_append] at own
      exact fun mem => (List.nodup_cons.1 own).1 (List.mem_append_right _ mem)
    have added : (d.insert e.1 e.2).entries.Perm (e :: d.entries) := insertEntry_perm new e.2
    -- the entry that has just been put in moves from the ones to come to the ones that are there
    have moved : (rest ++ (d.insert e.1 e.2).entries).Perm (e :: rest ++ d.entries) :=
      (added.append_left rest).trans List.perm_middle
    exact (ih _ ((moved.map _).nodup_iff.2 own)).trans moved

theorem ofList_perm (own : (entries.map (·.1)).Nodup) : (ofList entries).entries.Perm entries := by
  have all := insertAll_perm empty (by rwa [empty, List.append_nil])
  rwa [empty, List.append_nil] at all

theorem get?_ofList_iff (own : (entries.map (·.1)).Nodup) :
    (ofList entries).get? k = some v ↔ (k, v) ∈ entries := by
  rw [get?, lookup_eq_some_iff (ofList entries).ascending.nodup, (ofList_perm own).mem_iff]

end Dict

end Courier
