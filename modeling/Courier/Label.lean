/-!
# Labels

A type whose values are known by names. The names are written as they are and read back exactly:
no other spelling, letter case or blank is accepted.

The class is what a codec, a column of the database and a query ask of a type of labels, and what
they get is the same for all of them: reading a name gives the value it was written for, and no
other text is read at all (`parse?_eq_some_iff`).
-/

set_option autoImplicit false

namespace Courier

/-- A type with finitely many values, each of which has a name of its own. -/
class Label (α : Type) where
  /-- All values, in the order in which they are listed to a reader. -/
  all : List α
  label : α → String
  label_inj : ∀ {a b : α}, label a = label b → a = b
  mem_all : ∀ a : α, a ∈ all

namespace Label

variable {α : Type} [Label α]

/-- Names and values side by side. -/
def table : List (String × α) := all.map fun a => (label a, a)

/-- The value of a name. -/
def parse? (s : String) : Option α := all.find? fun a => label a == s

/-- Reading undoes writing. That no two values share a name makes the first one found the right
one. -/
theorem parse?_label (a : α) : parse? (label a) = some a := by
  unfold parse?
  cases h : (all : List α).find? (fun b => label b == label a) with
  | none =>
    have := List.find?_eq_none.1 h a (mem_all a)
    simp at this
  | some b =>
    have := List.find?_some h
    rw [label_inj (eq_of_beq this)]

/-- What is read is what was written. -/
theorem parse?_eq_some_iff {s : String} {a : α} : parse? s = some a ↔ s = label a := by
  constructor
  · intro h
    have := List.find?_some (p := fun b => label b == s) h
    exact (eq_of_beq this).symm
  · rintro rfl
    exact parse?_label a

end Label

end Courier
