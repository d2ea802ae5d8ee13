import Courier.Proofs.Json.Lawful
import Mathlib.Data.List.Forall2
import Mathlib.Data.List.Nodup
import Mathlib.Data.List.Pairwise

/-!
# Records go by their fields

The fields of a record are set one by one, in whatever order they come, and those that do not come
stay as they are in a blank record. So a record's codec is lawful if each of its fields is
(`Shape.lawful`): it is taken back on its own (`Slot.Lawful`), setting it leaves the others alone
(`Apart`), and all of them make up the record.

That a field is set is told by `copy`, which takes the field of one record over to another: two
records have the same field if copying from the one is copying from the other.

The order of fields matters nowhere in this, which is why the invariant of a reading is about sets
of names: those seen so far, those still to come, and what the record has of each.
-/

set_option autoImplicit false

namespace Courier

variable {ρ β : Type}

/-- Copying the one field leaves the other alone. -/
@[mk_iff]
structure Apart (copy other : ρ → ρ → ρ) : Prop where
  left : ∀ a x, other (copy a x) = other x
  right : ∀ a x, copy (other a x) = copy x

instance : Std.Symm fun f g : Slot ρ × (ρ → ρ → ρ) => Apart f.2 g.2 :=
  ⟨fun _ _ h => ⟨h.right, h.left⟩⟩

namespace Slot

variable {slot : Slot ρ} {copy : ρ → ρ → ρ} {blank a b r x y : ρ} {source : Source} {d : Document}
  {floor : Nat} {Formed Whole : ρ → Prop}

/-- The field of `r` is read as it was written; if it is left out, it is as in a blank record. -/
structure Kept (slot : Slot ρ) (copy : ρ → ρ → ρ) (blank : ρ) (source : Source) (r : ρ) :
    Prop where
  written : ∀ {v w x}, slot.write r = some v → v.Reordered w →
    slot.read source (.ofJson w) x = .ok (copy r x)
  leftOut : slot.write r = none → slot.presence ≠ .required ∧ copy r = copy blank

/-- The laws of a field, as those of a codec. -/
structure Lawful (slot : Slot ρ) (copy : ρ → ρ → ρ) (blank : ρ) (floor : Nat)
    (Formed Whole : ρ → Prop) : Prop where
  copies : ∀ a x, copy (copy a x) = copy a
  writes : ∀ a x, slot.write (copy a x) = slot.write a
  sets : ∀ {source d x y}, slot.read source d x = .ok y → copy y x = y
  back : ∀ {source r}, Formed r → (∀ v, slot.write r = some v → source.Bears v.nesting) →
    slot.Kept copy blank source r
  again : ∀ {source d x y}, source.Bears floor → slot.read source d x = .ok y →
    slot.Kept copy blank source y
  legible : ∀ {r}, Whole r → slot.Legible r

/-- Whether a field is kept depends on the field alone. -/
theorem Kept.congr (h : slot.Kept copy blank source a) (same : copy a = copy b)
    (writes : ∀ a x, slot.write (copy a x) = slot.write a) : slot.Kept copy blank source b := by
  have written : slot.write b = slot.write a := by rw [← writes b a, ← same, writes]
  constructor
  · intro v w x hv hw
    rw [← same]
    exact h.written (written ▸ hv) hw
  · intro hn
    rw [← same]
    exact h.leftOut (written ▸ hn)

variable {name : String} {presence : Presence} {c : Codec β} {F W : β → Prop}

/-- A plain field is lawful if the codec of its values is, and if what is set can be got again. -/
theorem lawful_plain {get : ρ → β} {set : β → ρ → ρ} (law : c.Lawful floor F W)
    (get_set : ∀ v x, get (set v x) = v)
    (formed : ∀ {r}, Formed r → F (get r)) (whole : ∀ {r}, Whole r → W (get r)) :
    (plain name presence c get set).Lawful (fun a x => set (get a) x) blank floor Formed Whole := by
  -- said once, for a value that is well-formed and for one that has been read
  have kept {source : Source} {r : ρ} (h : c.Restores source (get r)) :
      (plain name presence c get set).Kept (fun a x => set (get a) x) blank source r := by
    constructor
    · rintro _ w x ⟨⟩ hw
      exact map_ok_iff.2 ⟨get r, h hw, rfl⟩
    · exact nofun
  constructor
  · intro a x
    simp only [get_set]
  · intro a x
    simp only [plain, get_set]
  · intro source d x y read
    obtain ⟨v, -, rfl⟩ := map_ok_iff.1 read
    simp only [get_set]
  · exact fun hr bears => kept (law.back (formed hr) (bears _ rfl))
  · intro source d x y bears read
    obtain ⟨v, hv, rfl⟩ := map_ok_iff.1 read
    refine kept ?_
    rw [get_set]
    exact law.again bears hv
  · exact fun hr => legible_plain (law.legible (whole hr))

theorem lawful_simple {get : ρ → β} {set : β → ρ → ρ} (law : c.LawfulAll floor)
    (get_set : ∀ v x, get (set v x) = v) :
    (plain name presence c get set).Lawful (fun a x => set (get a) x) blank floor Formed Whole :=
  lawful_plain law get_set (fun _ => trivial) fun _ => trivial

/-- A field that may be absent is lawful under the same conditions, if it is never written as `null`
when it is there: `null` is how its absence is read. -/
theorem lawful_present {get : ρ → Option β} {set : Option β → ρ → ρ} (law : c.Lawful floor F W)
    (something : ∀ v, c.encode v ≠ .null) (free : presence ≠ .required)
    (unset : get blank = none) (get_set : ∀ v x, get (set v x) = v)
    (formed : ∀ {r}, Formed r → ∀ v ∈ get r, F v) (whole : ∀ {r}, Whole r → ∀ v ∈ get r, W v) :
    (present name presence c get set).Lawful (fun a x => set (get a) x) blank floor Formed
      Whole := by
  -- an absent field leaves the value at `none`, and `blank` has that already
  have kept {source : Source} {r : ρ} (h : ∀ v ∈ get r, c.Restores source v) :
      (present name presence c get set).Kept (fun a x => set (get a) x) blank source r := by
    constructor
    · intro v w x hv hw
      obtain ⟨b, hb, rfl⟩ := Option.map_eq_some_iff.1 hv
      exact map_ok_iff.2 ⟨some b, Codec.restores_some something (h b hb) hw, by rw [hb]⟩
    · intro hn
      refine ⟨free, ?_⟩
      rw [Option.map_eq_none_iff.1 hn, unset]
  constructor
  · intro a x
    simp only [get_set]
  · intro a x
    simp only [present, get_set]
  · intro source d x y read
    obtain ⟨v, -, rfl⟩ := map_ok_iff.1 read
    simp only [get_set]
  · intro source r hr bears
    refine kept fun v hv => law.back (formed hr v hv) (bears _ ?_)
    exact Option.map_eq_some_iff.2 ⟨v, hv, rfl⟩
  · intro source d x y bears read
    obtain ⟨o, ho, rfl⟩ := map_ok_iff.1 read
    refine kept fun v hv => ?_
    rw [get_set] at hv
    exact law.again bears (Decoder.option_some (hv ▸ ho))
  · exact fun hr => legible_present fun v hv => law.legible (whole hr v hv)

theorem lawful_offered {get : ρ → Option β} {set : Option β → ρ → ρ} (law : c.LawfulAll floor)
    (something : ∀ v, c.encode v ≠ .null) (free : presence ≠ .required)
    (unset : get blank = none) (get_set : ∀ v x, get (set v x) = v) :
    (present name presence c get set).Lawful (fun a x => set (get a) x) blank floor Formed
      Whole :=
  lawful_present law something free unset get_set (fun _ _ _ => trivial) fun _ _ _ => trivial

end Slot

/-! ## Reading field by field

The fields may come in any order, so the induction is on what has been read: a field that was read
has its value, one that was not has the blank one's (`Keeps`).
-/

namespace Shape

variable {shape : Shape ρ} {fields : List (Slot ρ × (ρ → ρ → ρ))} {r x z : ρ}
  {source inner : Source} {floor : Nat} {Formed Whole : ρ → Prop}

/-- The fields of a record type with their ways of copying: lawful, apart, each with a name of its
own, and all of them the whole record. -/
structure Fields (shape : Shape ρ) (fields : List (Slot ρ × (ρ → ρ → ρ))) (floor : Nat)
    (Formed Whole : ρ → Prop) : Prop where
  slots : shape.slots = fields.map (·.1)
  lawful : ∀ f ∈ fields, f.1.Lawful f.2 shape.blank floor Formed Whole
  apart : fields.Pairwise fun f g => Apart f.2 g.2
  own : (fields.map fun f => f.1.name).Nodup
  all : ∀ r, fields.foldl (fun x f => f.2 r x) shape.blank = r

theorem mem_fields {k : String} {v : Json} :
    (k, v) ∈ shape.fields r ↔ ∃ slot ∈ shape.slots, slot.name = k ∧ slot.write r = some v := by
  simp only [Shape.fields, List.mem_filterMap, Option.map_eq_some_iff, Prod.mk.injEq]
  grind

/-- Every field is kept. -/
def Keeps (shape : Shape ρ) (fields : List (Slot ρ × (ρ → ρ → ρ))) (source : Source) (r : ρ) :
    Prop := ∀ f ∈ fields, f.1.Kept f.2 shape.blank source r

namespace Fields

variable (h : Fields shape fields floor Formed Whole)
include h

theorem apart_of_ne {f g : Slot ρ × (ρ → ρ → ρ)} (hf : f ∈ fields) (hg : g ∈ fields)
    (ne : f ≠ g) : Apart f.2 g.2 :=
  h.apart.forall hf hg ne

theorem eq_of_name {f g : Slot ρ × (ρ → ρ → ρ)} (hf : f ∈ fields) (hg : g ∈ fields)
    (same : f.1.name = g.1.name) : f = g :=
  List.inj_on_of_nodup_map h.own hf hg same

/-- A field that is set keeps itself, and the others are kept as they were. -/
theorem keeps_step {f : Slot ρ × (ρ → ρ → ρ)} (hf : f ∈ fields) {d : Document} {y : ρ}
    (bears : source.Bears floor) (keeps : Keeps shape fields source x)
    (read : f.1.read source d x = .ok y) : Keeps shape fields source y := by
  intro g hg
  by_cases same : f = g
  · rw [← same]
    exact (h.lawful f hf).again bears read
  · refine (keeps g hg).congr ?_ (h.lawful g hg).writes
    rw [← (h.lawful f hf).sets read, (h.apart_of_ne hf hg same).left]

/-- Looking for a name finds the field of that name, since no other has it. -/
theorem find?_eq {f : Slot ρ × (ρ → ρ → ρ)} (hf : f ∈ fields) :
    (fields.map (·.1)).find? (fun slot => slot.name == f.1.name) = some f.1 := by
  have some : ((fields.map (·.1)).find? fun slot => slot.name == f.1.name).isSome :=
    List.find?_isSome.2 ⟨f.1, List.mem_map_of_mem hf, beq_self_eq_true f.1.name⟩
  obtain ⟨slot, found⟩ := Option.isSome_iff_exists.1 some
  obtain ⟨g, hg, rfl⟩ := List.mem_map.1 (List.mem_of_find?_eq_some found)
  have same : g.1.name = f.1.name := by simpa using List.find?_some found
  rw [found, h.eq_of_name hg hf same]

/-- Reading the fields of an object keeps every field, whatever comes and in whatever order. -/
theorem keeps_readFields {seen names : List String} {ds : List (Document × Document)}
    (bears : source.Bears floor) (keeps : Keeps shape fields source x)
    (read : readFields (fields.map (·.1)) source seen x ds = .ok (names, z)) :
    Keeps shape fields source z := by
  -- by induction on the fields that are to come; every one is unknown, or a repetition, or sets a
  -- field
  induction ds generalizing seen x with
  | nil =>
    cases read
    exact keeps
  | cons e rest ih =>
    unfold readFields at read
    split at read
    · cases read
      exact keeps
    · rename_i name d rest' same
      cases same
      split at read
      · obtain ⟨-, -, more⟩ := bind_ok_iff.1 read
        exact ih keeps more
      · rename_i slot found
        obtain ⟨f, hf, rfl⟩ := List.mem_map.1 (List.mem_of_find?_eq_some found)
        split at read
        · cases read
        · simp only [bind_ok_iff, mapError_ok_iff] at read
          obtain ⟨y, hy, more⟩ := read
          exact ih (h.keeps_step hf bears keeps hy) more
    · cases read

/-- Reading the items of an array keeps every field too. They come in the order of the record. -/
theorem keeps_readItems {expected : String} {closed : Bool} {n : Nat} {slots : List (Slot ρ)}
    {ds left : List Document} (sub : ∀ slot ∈ slots, slot ∈ fields.map (·.1))
    (bears : source.Bears floor) (keeps : Keeps shape fields source x)
    (read : readItems expected source closed n slots x ds = .ok (z, left)) :
    Keeps shape fields source z := by
  -- by induction on the fields that are to be set, for each of which there is an item or there is
  -- none
  induction slots generalizing n x ds with
  | nil =>
    simp only [readItems] at read
    cases read
    exact keeps
  | cons slot rest ih =>
    have sub' : ∀ s ∈ rest, s ∈ fields.map (·.1) := fun s hs => sub s (List.mem_cons_of_mem _ hs)
    cases ds with
    | nil =>
      simp only [readItems] at read
      split at read
      · cases read
      · split at read
        · exact ih sub' keeps read
        · cases read
    | cons d more =>
      simp only [readItems, bind_ok_iff, mapError_ok_iff] at read
      obtain ⟨y, hy, read⟩ := read
      obtain ⟨f, hf, rfl⟩ := List.mem_map.1 (sub slot List.mem_cons_self)
      exact ih sub' (h.keeps_step hf bears keeps hy) read

/-- Reading fields that were written of `r`, each in an order of its own, sets those fields and no
others. -/
theorem readFields_written {others : List (String × Json)} (keeps : Keeps shape fields source r)
    (distinct : (others.map (·.1)).Nodup)
    (stands : ∀ e ∈ others, ∃ f ∈ fields, f.1.name = e.1 ∧
      ∃ v, f.1.write r = some v ∧ v.Reordered e.2) :
    ∀ {seen : List String} {x : ρ}, (∀ e ∈ others, e.1 ∉ seen) → ∃ names z,
      readFields (fields.map (·.1)) source seen x (Document.ofFields others) = .ok (names, z) ∧
        (∀ name, name ∈ names ↔ name ∈ seen ∨ name ∈ others.map (·.1)) ∧
        ∀ f ∈ fields, (f.1.name ∈ others.map (·.1) → f.2 z = f.2 r) ∧
          (f.1.name ∉ others.map (·.1) → f.2 z = f.2 x) := by
  -- by induction on the fields to come: the first sets its own, and none of the others has its name
  induction others with
  | nil =>
    intro seen x fresh
    exact ⟨seen, x, rfl, by simp, fun f _ => ⟨by simp, fun _ => rfl⟩⟩
  | cons e rest ih =>
    intro seen x fresh
    obtain ⟨f, hf, named, v, hv, hr⟩ := stands e List.mem_cons_self
    have only : e.1 ∉ rest.map (·.1) := (List.nodup_cons.1 distinct).1
    have read := (keeps f hf).written (x := x) hv hr
    have fresh' : ∀ e' ∈ rest, e'.1 ∉ e.1 :: seen := by
      intro e' he' mem
      rcases List.mem_cons.1 mem with same | mem
      · exact only (List.mem_map.2 ⟨e', he', same⟩)
      · exact fresh e' (List.mem_cons_of_mem _ he') mem
    obtain ⟨names, z, more, hnames, hz⟩ := ih (List.nodup_cons.1 distinct).2
      (fun e' he' => stands e' (List.mem_cons_of_mem _ he')) fresh' (x := f.2 r x)
    refine ⟨names, z, ?_, ?_, ?_⟩
    · have notSeen : seen.contains e.1 = false := by simpa using fresh e List.mem_cons_self
      have found := h.find?_eq hf
      rw [named] at found
      simp only [Document.ofFields, readFields, found, notSeen, Bool.false_eq_true, if_false,
        bind_ok_iff, mapError_ok_iff]
      exact ⟨_, read, more⟩
    · intro name
      simp only [hnames, List.map_cons, List.mem_cons]
      tauto
    · -- the field that was set stays so, since its name does not come again
      intro g hg
      have later : g.1.name ∈ rest.map (·.1) → f ≠ g := by
        rintro mem rfl
        exact only (named ▸ mem)
      by_cases same : f = g
      · subst same
        have last := (hz f hg).2 fun mem => later mem rfl
        rw [(h.lawful f hf).copies] at last
        exact ⟨fun _ => last, fun absent => absurd (named ▸ List.mem_cons_self) absent⟩
      · have other : g.1.name ≠ e.1 := fun hn => same (h.eq_of_name hf hg (named.trans hn.symm))
        have untouched := (h.apart_of_ne hf hg same).left r x
        simp only [List.map_cons, List.mem_cons, other, false_or]
        exact ⟨(hz g hg).1, fun absent => ((hz g hg).2 absent).trans untouched⟩

/-- A record that has every field of another is the other. -/
theorem eq_of_same (same : ∀ f ∈ fields, f.2 z = f.2 r) : z = r := by
  -- both records are what copying all their fields makes of a blank one
  have copied : ∀ fs : List (Slot ρ × (ρ → ρ → ρ)), (∀ f ∈ fs, f.2 z = f.2 r) → ∀ x,
      fs.foldl (fun x f => f.2 z x) x = fs.foldl (fun x f => f.2 r x) x := by
    intro fs
    induction fs with
    | nil => exact fun _ _ => rfl
    | cons f rest ih =>
      intro each x
      rw [List.foldl_cons, List.foldl_cons, each f List.mem_cons_self]
      exact ih (fun g hg => each g (List.mem_cons_of_mem _ hg)) _
  rw [← h.all z, ← h.all r]
  exact copied fields same _

/-- The names of what is written are names of fields, in order. -/
theorem names_sublist (r : ρ) : ((shape.fields r).map (·.1)).Sublist
    (fields.map fun f => f.1.name) := by
  rw [Shape.fields, h.slots]
  clear h
  induction fields with
  | nil => exact .slnil
  | cons f rest ih =>
    simp only [List.map_cons, List.filterMap_cons]
    cases f.1.write r with
    | none => exact ih.cons _
    | some v => exact ih.cons_cons _

/-- Nothing is missing if every required field has been seen. -/
theorem missing?_eq_none {seen : List String}
    (there : ∀ f ∈ fields, f.1.presence = .required → f.1.name ∈ seen) :
    missing? shape.slots seen = none := by
  rw [missing?, Option.map_eq_none_iff, List.find?_eq_none, h.slots]
  intro slot hs
  obtain ⟨f, hf, rfl⟩ := List.mem_map.1 hs
  simp only [Bool.and_eq_true, decide_eq_true_eq, Bool.not_eq_true', List.contains_eq_mem,
    decide_eq_false_iff_not]
  exact fun ⟨needed, absent⟩ => absent (there f hf needed)

/-- What was written of a record whose fields are kept is read as the record, in every order of its
fields. -/
theorem restores (enters : source.enter = .ok inner) (keeps : Keeps shape fields inner r) :
    shape.codec.Restores source r := by
  rintro v ⟨same, others, rfl, hf, arranged⟩
  have perm := arranged.perm
  have names : (others.map (·.1)).Perm ((shape.fields r).map (·.1)) :=
    hf.names ▸ (perm.map _).symm
  have distinct : (others.map (·.1)).Nodup :=
    names.nodup_iff.2 ((h.names_sublist r).nodup h.own)
  have stands : ∀ e ∈ others, ∃ f ∈ fields, f.1.name = e.1 ∧
      ∃ v, f.1.write r = some v ∧ v.Reordered e.2 := by
    intro e he
    obtain ⟨v, hv, hr⟩ := hf.mem (perm.mem_iff.2 he)
    obtain ⟨slot, hs, named, hw⟩ := mem_fields.1 hv
    obtain ⟨f, hf, rfl⟩ := List.mem_map.1 (h.slots ▸ hs)
    exact ⟨f, hf, named, v, hw, hr⟩
  have fresh : ∀ e ∈ others, e.1 ∉ ([] : List String) := fun _ _ => List.not_mem_nil
  obtain ⟨seen, z, read, known, set⟩ :=
    h.readFields_written keeps distinct stands fresh (x := shape.blank)
  -- a field that was not there was left out, and so is as in a blank record
  have each : ∀ f ∈ fields, f.2 z = f.2 r ∧
      (f.1.presence = .required → f.1.name ∈ others.map (·.1)) := by
    intro f hf
    cases hw : f.1.write r with
    | none =>
      obtain ⟨free, blank⟩ := (keeps f hf).leftOut hw
      refine ⟨?_, fun needed => absurd needed free⟩
      by_cases there : f.1.name ∈ others.map (·.1)
      · exact (set f hf).1 there
      · exact ((set f hf).2 there).trans blank.symm
    | some v =>
      have there : f.1.name ∈ others.map (·.1) := names.mem_iff.2 (List.mem_map.2
        ⟨(f.1.name, v), mem_fields.2 ⟨f.1, h.slots ▸ List.mem_map_of_mem hf, rfl, hw⟩, rfl⟩)
      exact ⟨(set f hf).1 there, fun _ => there⟩
  have complete : missing? shape.slots seen = none :=
    h.missing?_eq_none fun f hf needed => (known _).2 (.inr ((each f hf).2 needed))
  show shape.decode source (.object (Document.ofFields others) true) = _
  rw [← h.slots] at read
  simp only [decode, bind_ok_iff]
  refine ⟨inner, enters, (seen, z), read, ?_⟩
  simp only [complete, if_true]
  exact congrArg Except.ok (h.eq_of_same fun f hf => (each f hf).1)

/-- What has been decoded has kept all its fields. -/
theorem keeps_decode {d : Document} (blank : Keeps shape fields inner shape.blank)
    (enters : source.enter = .ok inner) (bears : inner.Bears floor)
    (read : shape.decode source d = .ok z) : Keeps shape fields inner z := by
  unfold decode at read
  split at read
  · simp only [bind_ok_iff, enters, Except.ok.injEq] at read
    obtain ⟨_, rfl, ⟨seen, y⟩, hy, read⟩ := read
    rw [h.slots] at hy
    dsimp only at read
    split at read
    · split at read
      · cases read
      · cases read
        exact h.keeps_readFields bears blank hy
    · cases read
  · simp only [bind_ok_iff, enters, Except.ok.injEq] at read
    obtain ⟨_, rfl, ⟨y, left⟩, hy, read⟩ := read
    have kept := h.keeps_readItems (fun _ hs => h.slots ▸ hs) bears blank hy
    dsimp only at read
    split at read
    · split at read
      · cases read
        exact kept
      · cases read
    · split at read <;> cases read
  · cases read

theorem keeps_formed (formed : Formed r)
    (bears : source.Bears (Json.nestingFields (shape.fields r))) : Keeps shape fields source r := by
  intro f hf
  refine (h.lawful f hf).back formed fun v hv => bears.mono ?_
  exact Json.nesting_le_of_mem_fields (e := (f.1.name, v))
    (mem_fields.2 ⟨f.1, h.slots ▸ List.mem_map_of_mem hf, rfl, hv⟩)

end Fields

/-- A record's codec is lawful if its fields are. -/
theorem lawful {copies : List (ρ → ρ → ρ)} (own : (shape.slots.map (·.name)).Nodup)
    (laws : List.Forall₂ (fun slot copy => slot.Lawful copy shape.blank floor Formed Whole)
      shape.slots copies)
    (apart : copies.Pairwise Apart)
    (all : ∀ r, copies.foldl (fun x copy => copy r x) shape.blank = r)
    (blank : Formed shape.blank) (shallow : (shape.encode shape.blank).nesting ≤ floor + 1) :
    shape.codec.Lawful (floor + 1) Formed Whole := by
  -- each field is paired with its way of copying, which is how the laws are stated of a list of
  -- fields
  obtain ⟨length, each⟩ := List.forall₂_iff_zip.1 laws
  have slots : (shape.slots.zip copies).map (·.1) = shape.slots := List.map_fst_zip (by omega)
  have second : (shape.slots.zip copies).map (·.2) = copies := List.map_snd_zip (by omega)
  have h : Fields shape (shape.slots.zip copies) floor Formed Whole := by
    refine ⟨slots.symm, fun f hf => each hf, ?_, ?_, fun r => ?_⟩
    · rw [← second] at apart
      exact List.pairwise_map.1 apart
    · rw [← slots, List.map_map] at own
      exact own
    · have made := all r
      rw [← second, List.foldl_map] at made
      exact made
  refine ⟨fun {source r} formed bears => ?_, fun {source d r} bears read => ?_,
    fun {r} whole => ?_⟩
  · obtain ⟨inner, enters, deep⟩ := bears.enter
    exact h.restores enters (h.keeps_formed formed deep)
  · obtain ⟨inner, enters, deep⟩ := bears.enter
    have kept := h.keeps_formed blank (deep.mono (Nat.le_of_succ_le_succ shallow))
    exact h.restores enters (h.keeps_decode kept enters deep read)
  · refine encode_legible fun slot hs => ?_
    rw [h.slots] at hs
    obtain ⟨f, hf, rfl⟩ := List.mem_map.1 hs
    exact (h.lawful f hf).legible whole

end Shape

end Courier
