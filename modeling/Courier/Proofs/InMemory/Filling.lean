import Courier.Proofs.Dict
import Courier.Proofs.InMemory.Pieces

/-!
# Values in their places

Values are put in place one after the other, each in the whole text as the others have left it, and
in no order that a caller could count on. All the same the text becomes what it would if all of them
were put in place at once, as long as every placeholder, when its turn comes, stands where the text
has it and nowhere else (`Settled`, and `fillList_perm` for the run). With names without braces this
can be computed: a placeholder is never lost when others are filled (`places_le_filled`), so that it
is enough to look at the end (`Apart.settled`).

Where a value holds placeholders itself, those that come later fill them too (`fillList_expanded`).
-/

set_option autoImplicit false

namespace Courier.Placeholder

variable {k n : String} {v : Json} {s t : List Char} {p : Piece} {ps : List Piece}
  {values order : List (String × Json)}

/-- A piece with values in place, all at once. -/
def Piece.filled (values : List (String × Json)) : Piece → Piece
  | literal s => literal s
  | hole n =>
    match values.lookup n with
    | some v => literal (insertion v)
    | none => hole n

/-! ## What is filled

Pieces are filled by looking each name up, which does not depend on an order.
-/

theorem filled_nil (p : Piece) : p.filled [] = p := by cases p <;> rfl

/-- To put one value in place is to fill with it alone. -/
theorem put_insertion (p : Piece) : p.put k (insertion v) = p.filled [(k, v)] := by
  cases p with
  | literal s => rfl
  | hole n =>
    by_cases own : n = k
    · simp [Piece.put, Piece.filled, own]
    · simp [Piece.put, Piece.filled, own, List.lookup_cons, beq_false_of_ne own]

theorem filled_filled (p : Piece) :
    (p.filled values).filled order = p.filled (values ++ order) := by
  cases p with
  | literal s => rfl
  | hole n =>
    rw [Piece.filled, Piece.filled, List.lookup_append]
    cases found : values.lookup n with
    | none => rw [Option.none_or, Piece.filled]
    | some v => rfl

theorem map_filled_filled :
    (ps.map (Piece.filled values)).map (Piece.filled order) =
      ps.map (Piece.filled (values ++ order)) := by
  rw [List.map_map]
  exact List.map_congr_left fun p _ => filled_filled p

/-- What holds of a piece and of every value holds when they are in place. -/
theorem filled_of {P : Piece → Prop} (h : P p) (all : ∀ e ∈ values, P (.literal (insertion e.2))) :
    P (p.filled values) := by
  cases p with
  | literal s => exact h
  | hole n =>
    rw [Piece.filled]
    cases found : values.lookup n with
    | none => exact h
    | some v =>
      obtain ⟨before, after, rfl, -⟩ := List.lookup_eq_some_iff.1 found
      exact all (n, v) (List.mem_append_right _ List.mem_cons_self)

theorem forall_filled {P : Piece → Prop} (h : ∀ p ∈ ps, P p)
    (all : ∀ e ∈ values, P (.literal (insertion e.2))) :
    ∀ p ∈ ps.map (Piece.filled values), P p := by
  intro p hp
  obtain ⟨q, hq, rfl⟩ := List.mem_map.1 hp
  exact filled_of (h q hq) all

theorem filled_eq_hole (new : values.lookup k = none) :
    p.filled values = .hole k ↔ p = .hole k := by
  cases p with
  | literal s => rfl
  | hole n =>
    by_cases own : n = k
    · simp [Piece.filled, own, new]
    · cases h : values.lookup n <;> simp [Piece.filled, h, own]

theorem count_filled (new : values.lookup k = none) :
    (ps.map (Piece.filled values)).count (.hole k) = ps.count (.hole k) := by
  rw [List.count_eq_countP, List.count_eq_countP, List.countP_map]
  refine List.countP_congr fun p _ => ?_
  simp [filled_eq_hole new]

/-! ## No placeholder is lost

Filling other placeholders takes none of this one away, as a value cannot break up the mark of a
name.
-/

/-- What begins in a text and is a placeholder stays one when the places behind it are filled. -/
theorem prefix_filled (hk : Braceless k.toList) (begun : s ≠ []) (h : mark k <+: s ++ textOf ps) :
    mark k <+: s ++ textOf (ps.map (Piece.filled values)) := by
  -- by induction on the pieces; what begins in front of a hole ends there
  induction ps generalizing s with
  | nil => exact h
  | cons p ps ih =>
    rw [textOf_cons] at h
    cases p with
    | literal t =>
      rw [List.map_cons, textOf_cons, Piece.filled, Piece.text, ← List.append_assoc]
      rw [Piece.text, ← List.append_assoc] at h
      exact ih (List.append_ne_nil_of_left_ne_nil begun t) h
    | hole n => exact (mark_prefix_append hk begun h).trans (List.prefix_append _ _)

/-- Where every occurrence that begins in front is kept, there are no fewer in all. -/
theorem places_append_le {pattern u : List Char}
    (kept : ∀ s, s ≠ [] → pattern <+: s ++ t → pattern <+: s ++ u)
    (least : places pattern t ≤ places pattern u) (s : List Char) :
    places pattern (s ++ t) ≤ places pattern (s ++ u) := by
  induction s with
  | nil => exact least
  | cons c s ih =>
    rw [List.cons_append, places, List.cons_append, places]
    refine Nat.add_le_add ?_ ih
    split_ifs with early late
    · exact Nat.le_refl _
    · have begins := kept (c :: s) (List.cons_ne_nil _ _) (List.isPrefixOf_iff_prefix.1 early)
      exact absurd (List.isPrefixOf_iff_prefix.2 begins) late
    · exact Nat.zero_le _
    · exact Nat.le_refl _

/-- **Whatever else is filled, a placeholder keeps its places.** -/
theorem places_le_filled (hk : Braceless k.toList) (new : values.lookup k = none)
    (named : ∀ p ∈ ps, p.Named) :
    places (mark k) (textOf ps) ≤ places (mark k) (textOf (ps.map (Piece.filled values))) := by
  induction ps with
  | nil => exact Nat.le_refl _
  | cons p ps ih =>
    obtain ⟨name, named⟩ := List.forall_mem_cons.1 named
    have rest := ih named
    rw [List.map_cons, textOf_cons, textOf_cons]
    cases p with
    | literal t => exact places_append_le (fun s begun => prefix_filled hk begun) rest t
    | hole n =>
      rw [Piece.text, places_mark hk name]
      cases h : values.lookup n with
      | none =>
        rw [Piece.filled, h, Piece.text, places_mark hk name]
        exact Nat.add_le_add_left rest _
      | some v =>
        have other : n ≠ k := by rintro rfl; rw [new] at h; cases h
        rw [if_neg other, Nat.zero_add]
        exact Nat.le_trans rest (places_le_append _ _ _)

theorem AtHome.of_filled (hk : Braceless k.toList) (new : values.lookup k = none)
    (named : ∀ p ∈ ps, p.Named) (h : AtHome k (ps.map (Piece.filled values))) : AtHome k ps := by
  have more := places_le_filled hk new named
  rw [AtHome, count_filled new] at h
  exact Nat.le_antisymm (h ▸ more) (count_le_places k ps)

/-! ## All values

Replacing one value after the other fills all pieces, provided that each value meets only its own
placeholders when its turn comes.
-/

/-- **Values are put in place as if all at once**, if every name's placeholder, when its turn comes,
stands where the text has it and nowhere else. -/
theorem fillList_textOf
    (turns : ∀ early k v late, values = early ++ (k, v) :: late →
      AtHome k (ps.map (Piece.filled early))) :
    fillList values (textOf ps) = textOf (ps.map (Piece.filled values)) := by
  -- by induction on the values, the first of which is put in place in the text as it stands
  induction values generalizing ps with
  | nil => simp [fillList, funext filled_nil]
  | cons e rest ih =>
    obtain ⟨k, v⟩ := e
    have home : AtHome k ps := by simpa [funext filled_nil] using turns [] k v rest rfl
    -- with the first in place the turns of the others are what they were
    have turns : ∀ early l u late, rest = early ++ (l, u) :: late →
        AtHome l ((ps.map (Piece.filled [(k, v)])).map (Piece.filled early)) := by
      rintro early l u late rfl
      rw [map_filled_filled]
      exact turns ((k, v) :: early) l u late rfl
    calc fillList ((k, v) :: rest) (textOf ps)
        = fillList rest (replaceFrom (mark k) (insertion v) 0 (textOf ps)) := rfl
      _ = fillList rest (textOf (ps.map (Piece.filled [(k, v)]))) := by
          rw [replaceFrom_textOf home, funext put_insertion]
      _ = textOf ((ps.map (Piece.filled [(k, v)])).map (Piece.filled rest)) := ih turns
      _ = textOf (ps.map (Piece.filled ((k, v) :: rest))) := by rw [map_filled_filled]; rfl

/-- Whatever has been put in place when its turn comes, a placeholder stands where the text has it
and nowhere else. -/
def Settled (values : List (String × Json)) (ps : List Piece) : Prop :=
  ∀ early k v late, (early ++ (k, v) :: late).Perm values → AtHome k (ps.map (Piece.filled early))

theorem filled_perm (own : (values.map (·.1)).Nodup) (h : order.Perm values) :
    Piece.filled order = Piece.filled values := by
  funext p
  cases p with
  | literal s => rfl
  | hole n => rw [Piece.filled, Piece.filled, lookup_perm own h]

/-- **The order does not matter** where everything is settled. -/
theorem fillList_perm (own : (values.map (·.1)).Nodup) (settled : Settled values ps)
    (h : order.Perm values) :
    fillList order (textOf ps) = textOf (ps.map (Piece.filled values)) := by
  rw [← filled_perm own h]
  refine fillList_textOf fun early k v late same => settled early k v late ?_
  rwa [← same]

/-! ## Values that keep apart

A condition that can be checked without going through all orders: filling all others makes no new
place for this one.
-/

/-- The values of all other names. -/
def others (k : String) (values : List (String × Json)) : List (String × Json) :=
  values.filter fun e => e.1 != k

/-- No name has a placeholder where the text has none, not even when all others are filled. -/
def Apart (values : List (String × Json)) (ps : List Piece) : Prop :=
  ∀ e ∈ values, AtHome e.1 (ps.map (Piece.filled (others e.1 values)))

instance (values : List (String × Json)) (ps : List Piece) : Decidable (Apart values ps) :=
  List.decidableBAll _ values

theorem ne_of_nodup {early late : List (String × Json)}
    (own : ((early ++ (k, v) :: late).map (·.1)).Nodup) : ∀ e ∈ early ++ late, e.1 ≠ k := by
  rw [List.map_append, List.map_cons, List.nodup_middle, ← List.map_append] at own
  exact fun e mem same => (List.nodup_cons.1 own).1 (List.mem_map.2 ⟨e, mem, same⟩)

theorem others_append {early late : List (String × Json)}
    (own : ((early ++ (k, v) :: late).map (·.1)).Nodup) :
    others k (early ++ (k, v) :: late) = early ++ late := by
  have other : ∀ e ∈ early ++ late, (e.1 != k) = true := fun e mem => by
    simpa using ne_of_nodup own e mem
  rw [others, List.filter_append, List.filter_cons_of_neg (by simp), ← List.filter_append,
    List.filter_eq_self.2 other]

/-- **It is enough to look at the end**: what has no place then never had one. -/
theorem Apart.settled (own : (values.map (·.1)).Nodup)
    (names : ∀ e ∈ values, Braceless e.1.toList) (named : ∀ p ∈ ps, p.Named)
    (apart : Apart values ps) : Settled values ps := by
  intro early k v late h
  have distinct := (h.map (·.1)).nodup_iff.2 own
  have mem : (k, v) ∈ values := h.mem_iff.1 (List.mem_append_right _ List.mem_cons_self)
  have absent : late.lookup k = none := by
    rw [List.lookup_eq_none_iff]
    intro e later
    simpa using (ne_of_nodup distinct e (List.mem_append_right _ later)).symm
  have rest : (early ++ late).Perm (others k values) := by
    rw [← others_append distinct]
    exact h.filter _
  have others_own : ((others k values).map (·.1)).Nodup :=
    own.sublist (List.filter_sublist.map _)
  -- in the end those after it are filled too, and none of them has its name
  have all := apart (k, v) mem
  rw [← filled_perm others_own rest, ← map_filled_filled] at all
  exact all.of_filled (names _ mem) absent (forall_filled named fun _ _ => trivial)

/-- Tame values keep apart in tame pieces. -/
theorem settled_of_tame (own : (values.map (·.1)).Nodup)
    (names : ∀ e ∈ values, Braceless e.1.toList) (calm : ∀ e ∈ values, Tame (insertion e.2))
    (tame : ∀ p ∈ ps, p.Tame) : Settled values ps := by
  have apart : Apart values ps := by
    intro e mem
    refine atHome_of_tame (names e mem) (forall_filled tame fun f hf => ?_)
    exact calm f (List.mem_of_mem_filter hf)
  exact apart.settled own names fun p hp => (tame p hp).named

/-! ## Values with placeholders of their own

Here the order matters. Replacing by such a value puts its pieces into the text, and later values
fill these too.
-/

/-- Every opening brace in it is one of a placeholder. -/
def Tidy (s : List Char) : Prop := ∀ p ∈ pieces s, p.Tame

/-- The pieces that a value makes of one: its own, in the places of its name. -/
def Piece.expanded (e : String × Json) (p : Piece) : List Piece :=
  if p = .hole e.1 then pieces (insertion e.2) else [p]

/-- The pieces that values make of others, one after the other: what one brings is there for those
that come later. -/
def expanded (order : List (String × Json)) (ps : List Piece) : List Piece :=
  order.foldl (fun ps e => ps.flatMap (Piece.expanded e)) ps

/-- To put the pieces of a value in place is to put the value there. -/
theorem textOf_expanded (e : String × Json) (ps : List Piece) :
    textOf (ps.flatMap (Piece.expanded e)) = textOf (ps.map (Piece.put e.1 (insertion e.2))) := by
  induction ps with
  | nil => rfl
  | cons p ps ih =>
    have here : textOf (p.expanded e) = (p.put e.1 (insertion e.2)).text := by
      cases p with
      | literal s => exact List.append_nil s
      | hole n =>
        by_cases own : n = e.1
        · simp [Piece.expanded, Piece.put, own, textOf_pieces, Piece.text]
        · simp [Piece.expanded, Piece.put, own, textOf]
    rw [List.flatMap_cons, List.map_cons, textOf_cons, ← here, ← ih, textOf, textOf, textOf,
      List.flatMap_append]

/-- **What one value brings is filled by those that come later**, and by no other. -/
theorem fillList_expanded (names : ∀ e ∈ order, Braceless e.1.toList)
    (tidy : ∀ e ∈ order, Tidy (insertion e.2)) (tame : ∀ p ∈ ps, p.Tame) :
    fillList order (textOf ps) = textOf (expanded order ps) := by
  -- by induction on the order; what the first value brings are pieces, which are tame like the
  -- others
  induction order generalizing ps with
  | nil => rfl
  | cons e rest ih =>
    obtain ⟨name, names⟩ := List.forall_mem_cons.1 names
    obtain ⟨first, later⟩ := List.forall_mem_cons.1 tidy
    have after : ∀ p ∈ ps.flatMap (Piece.expanded e), p.Tame := by
      intro p mem
      obtain ⟨q, hq, hp⟩ := List.mem_flatMap.1 mem
      rw [Piece.expanded] at hp
      split at hp
      · exact first p hp
      · exact List.mem_singleton.1 hp ▸ tame q hq
    calc fillList (e :: rest) (textOf ps)
        = fillList rest (replaceFrom (mark e.1) (insertion e.2) 0 (textOf ps)) := rfl
      _ = fillList rest (textOf (ps.flatMap (Piece.expanded e))) := by
          rw [replaceFrom_textOf (atHome_of_tame name tame), textOf_expanded]
      _ = textOf (expanded rest (ps.flatMap (Piece.expanded e))) := ih names later after

end Courier.Placeholder
