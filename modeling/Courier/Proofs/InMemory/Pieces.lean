import Courier.InMemory.Placeholder
import Mathlib.Data.List.Count
import Mathlib.Data.List.TakeWhile
import Mathlib.Tactic.SplitIfs

/-!
# Texts in pieces

A text with placeholders is put together of pieces: some stand for themselves, the others are the
places of values. To replace a placeholder is to fill its places, as long as it stands nowhere else
(`replaceFrom_textOf`); how often it stands in a text is counted (`places`), so that this can be
computed.

Placeholders of names without braces do not overlap: none begins in another (`places_mark`), and
where one comes next all that have begun before have ended (`mark_prefix_append`). Every text is
that of its pieces (`textOf_pieces`).

Counting is what makes the induction short: no piece can bring fewer places than it has holes, so if
the whole brings as many as there are holes, each piece brings just its own.
-/

set_option autoImplicit false

namespace Courier.Placeholder

/-- A piece of a text: one that stands for itself, or the place of a value. -/
inductive Piece where
  | literal (s : List Char)
  | hole (name : String)
  deriving DecidableEq, Repr

/-- The text of a piece. -/
def Piece.text : Piece → List Char
  | literal s => s
  | hole name => mark name

/-- A piece with a text in the places of a name. -/
def Piece.put (name : String) (s : List Char) : Piece → Piece
  | literal t => literal t
  | hole n => if n = name then literal s else hole n

/-- The text that is put together of pieces. -/
def textOf (ps : List Piece) : List Char := ps.flatMap Piece.text

/-- At how many places of a text another one stands. -/
def places (pattern : List Char) : List Char → Nat
  | [] => 0
  | c :: rest => (if pattern.isPrefixOf (c :: rest) then 1 else 0) + places pattern rest

/-- The placeholder of a name stands where the pieces have it, and nowhere else. -/
def AtHome (name : String) (ps : List Piece) : Prop :=
  places (mark name) (textOf ps) = ps.count (.hole name)

instance (name : String) (ps : List Piece) : Decidable (AtHome name ps) :=
  inferInstanceAs (Decidable (_ = _))

variable {pattern replacement s t : List Char} {name k n : String} {p : Piece} {ps : List Piece}

theorem textOf_cons : textOf (p :: ps) = p.text ++ textOf ps := rfl

/-! ## Replacing

Replacing finds its pattern from left to right and goes on behind it. Where the pattern is found at
its own places only (`AtHome`), this is replacing piece by piece.
-/

theorem places_le_append (pattern s t : List Char) :
    places pattern t ≤ places pattern (s ++ t) := by
  induction s with
  | nil => exact Nat.le_refl _
  | cons c s ih => exact Nat.le_trans ih (Nat.le_add_left _ _)

theorem places_lt_append (own : pattern ≠ []) :
    places pattern t < places pattern (pattern ++ t) := by
  cases pattern with
  | nil => exact absurd rfl own
  | cons c rest =>
    have here : (c :: rest).isPrefixOf (c :: rest ++ t) = true :=
      List.isPrefixOf_iff_prefix.2 (List.prefix_append _ _)
    rw [List.cons_append, places, ← List.cons_append, if_pos here, Nat.add_comm]
    exact Nat.lt_succ_of_le (places_le_append _ _ _)

/-- Characters are passed over. -/
theorem replaceFrom_drop (pattern replacement : List Char) (i : Nat) (t : List Char) :
    replaceFrom pattern replacement i t = replaceFrom pattern replacement 0 (t.drop i) := by
  induction t generalizing i with
  | nil => cases i <;> rfl
  | cons c t ih =>
    cases i with
    | zero => rfl
    | succ i => exact ih i

/-- A text that begins with what is sought is replaced there. -/
theorem replaceFrom_own (own : pattern ≠ []) : replaceFrom pattern replacement 0 (pattern ++ t) =
    replacement ++ replaceFrom pattern replacement 0 t := by
  cases pattern with
  | nil => exact absurd rfl own
  | cons c rest =>
    have here : (c :: rest).isPrefixOf (c :: (rest ++ t)) = true :=
      List.isPrefixOf_iff_prefix.2 (List.prefix_append (c :: rest) t)
    rw [List.cons_append, replaceFrom, if_pos here, replaceFrom_drop, List.length_cons,
      Nat.add_sub_cancel, List.drop_left]

/-- What begins nowhere in a text leaves it alone. -/
theorem replaceFrom_append (h : places pattern (s ++ t) = places pattern t) :
    replaceFrom pattern replacement 0 (s ++ t) = s ++ replaceFrom pattern replacement 0 t := by
  induction s with
  | nil => rfl
  | cons c s ih =>
    have least := places_le_append pattern s t
    rw [List.cons_append, places] at h
    split_ifs at h with here
    · omega
    · rw [List.cons_append, replaceFrom, if_neg here, ih (by omega), List.cons_append]

theorem mark_ne_nil (name : String) : mark name ≠ [] := by simp [mark]

/-- Every hole of a name is a place of its placeholder. -/
theorem count_le_places (name : String) (ps : List Piece) :
    ps.count (.hole name) ≤ places (mark name) (textOf ps) := by
  induction ps with
  | nil => exact Nat.zero_le _
  | cons p ps ih =>
    rw [textOf_cons]
    -- only the holes of the name count
    by_cases own : p = .hole name
    · rw [own, List.count_cons_self]
      exact Nat.lt_of_le_of_lt ih (places_lt_append (mark_ne_nil _))
    · rw [List.count_cons_of_ne own]
      exact Nat.le_trans ih (places_le_append _ _ _)

/-- **To replace a placeholder that is at home is to fill its places.** -/
theorem replaceFrom_textOf (h : AtHome name ps) :
    replaceFrom (mark name) s 0 (textOf ps) = textOf (ps.map (Piece.put name s)) := by
  induction ps with
  | nil => rfl
  | cons p ps ih =>
    -- a piece brings no less than it should, nor do the others, so that none brings more
    have least := count_le_places name ps
    rw [AtHome, textOf_cons] at h
    rw [List.map_cons, textOf_cons, textOf_cons]
    by_cases own : p = .hole name
    · subst own
      have more := places_lt_append (t := textOf ps) (mark_ne_nil name)
      rw [List.count_cons_self, Piece.text] at h
      have rest : AtHome name ps := by rw [AtHome]; omega
      rw [Piece.text, replaceFrom_own (mark_ne_nil name), ih rest, Piece.put, if_pos rfl]
      rfl
    · have more := places_le_append (mark name) p.text (textOf ps)
      rw [List.count_cons_of_ne own] at h
      have kept : p.put name s = p := by
        cases p with
        | literal t => rfl
        | hole n => exact if_neg fun same : n = name => own (same ▸ rfl)
      have rest : AtHome name ps := by rw [AtHome]; omega
      rw [replaceFrom_append (by omega), ih rest, kept]

/-! ## Placeholders do not overlap

No mark of a name begins within another, as a name holds no brace.
-/

/-- A text without braces. -/
def Braceless (s : List Char) : Prop := ∀ c ∈ s, c ≠ '\x7b' ∧ c ≠ '\x7d'

instance (s : List Char) : Decidable (Braceless s) := List.decidableBAll _ s

/-- What follows the braces that a placeholder begins with. -/
def tail (name : String) : List Char := name.toList ++ ['\x7d', '\x7d']

theorem mark_eq (name : String) : mark name = '\x7b' :: '\x7b' :: tail name := rfl

theorem tail_ne_nil : tail n ≠ [] := by simp [tail]

/-- No text that begins further on has a part without opening braces in it. -/
theorem prefix_of_not_mem {u : List Char} (h : '\x7b' ∉ u) (hp : u <+: s ++ '\x7b' :: t) :
    u <+: s := by
  induction u generalizing s with
  | nil => exact List.nil_prefix
  | cons c u ih =>
    obtain ⟨first, later⟩ := List.ne_and_not_mem_of_not_mem_cons h
    cases s with
    | nil => exact absurd (List.cons_prefix_cons.1 hp).1.symm first
    | cons d s =>
      obtain ⟨rfl, more⟩ := List.cons_prefix_cons.1 hp
      exact List.cons_prefix_cons.2 ⟨rfl, ih later more⟩

/-- What ends with a brace is as long as it takes to find one. -/
theorem eq_of_closed {a b : List Char} (ha : Braceless a) (hb : Braceless b)
    (h : a ++ ['\x7d', '\x7d'] <+: b ++ '\x7d' :: t) : a = b := by
  -- by induction on what stands before the closing braces, character by character
  induction a generalizing b with
  | nil =>
    cases b with
    | nil => rfl
    | cons d b => exact absurd (List.cons_prefix_cons.1 h).1.symm (hb d List.mem_cons_self).2
  | cons c a ih =>
    cases b with
    | nil => exact absurd (List.cons_prefix_cons.1 h).1 (ha c List.mem_cons_self).2
    | cons d b =>
      obtain ⟨rfl, more⟩ := List.cons_prefix_cons.1 h
      rw [ih (fun c hc => ha c (List.mem_cons_of_mem _ hc))
        (fun c hc => hb c (List.mem_cons_of_mem _ hc)) more]

theorem not_mem_tail (h : Braceless k.toList) : '\x7b' ∉ tail k := by
  intro mem
  rcases List.mem_append.1 mem with mem | mem
  · exact (h _ mem).1 rfl
  · exact absurd mem (by decide)

/-- **A placeholder that begins in a text ends there**, if another one comes next. -/
theorem mark_prefix_append (hk : Braceless k.toList) (begun : s ≠ [])
    (h : mark k <+: s ++ (mark n ++ t)) : mark k <+: s := by
  have inside := not_mem_tail hk
  rw [mark_eq, mark_eq, List.cons_append, List.cons_append] at h
  rw [mark_eq]
  match s, begun with
  | [c], _ =>
    -- three braces in a row
    have ⟨_, second⟩ := List.cons_prefix_cons.1 h
    have ⟨_, third⟩ := List.cons_prefix_cons.1 second
    have nothing := prefix_of_not_mem (s := []) inside third
    exact absurd (List.prefix_nil.1 nothing) tail_ne_nil
  | c :: d :: s, _ =>
    have ⟨one, second⟩ := List.cons_prefix_cons.1 h
    have ⟨two, third⟩ := List.cons_prefix_cons.1 second
    rw [← one, ← two]
    exact (List.prefix_append_right_inj ['\x7b', '\x7b']).2 (prefix_of_not_mem inside third)

/-- No two opening braces stand side by side in it, not even if another one follows. -/
def Tame (s : List Char) : Prop := ¬ ['\x7b', '\x7b'] <:+: s ++ ['\x7b']

theorem tame_of_not_mem (h : '\x7b' ∉ s) : Tame s := by
  rintro ⟨before, after, same⟩
  -- two braces where there is at most one
  have braces := congrArg (List.count '\x7b') same
  have none := List.count_eq_zero.2 h
  simp only [List.count_append, none, List.count_cons, List.count_nil] at braces
  simp only [beq_self_eq_true, if_true] at braces
  omega

theorem Braceless.tame (h : Braceless s) : Tame s :=
  tame_of_not_mem fun mem => (h _ mem).1 rfl

/-- In a tame text no placeholder begins. -/
theorem places_append_of_tame (h : Tame s) :
    places (mark k) (s ++ t) = places (mark k) t := by
  induction s with
  | nil => rfl
  | cons c s ih =>
    have rest : Tame s := fun two => h (two.trans (List.suffix_cons c _).isInfix)
    rw [List.cons_append, places, if_neg, ih rest, Nat.zero_add]
    rw [List.isPrefixOf_iff_prefix, mark_eq]
    intro here
    have ⟨one, next⟩ := List.cons_prefix_cons.1 here
    refine h (List.IsPrefix.isInfix ?_)
    rw [← one]
    cases s with
    | nil => exact List.prefix_rfl
    | cons d s =>
      rw [← (List.cons_prefix_cons.1 next).1]
      exact List.prefix_append ['\x7b', '\x7b'] _

/-- Nor does one begin with the second brace of another. -/
theorem tame_tail (hn : Braceless n.toList) : Tame ('\x7b' :: tail n) := by
  intro two
  obtain ⟨c, rest, ht⟩ := List.exists_cons_of_ne_nil (tail_ne_nil (n := n))
  rcases List.infix_cons_iff.1 two with here | later
  · rw [ht] at here
    have brace := (List.cons_prefix_cons.1 (List.cons_prefix_cons.1 here).2).1
    exact not_mem_tail hn (ht ▸ brace ▸ List.mem_cons_self)
  · exact tame_of_not_mem (not_mem_tail hn) later

/-- Two placeholders that begin at the same place are the same. -/
theorem mark_prefix_mark (hk : Braceless k.toList) (hn : Braceless n.toList) :
    mark k <+: mark n ++ t ↔ n = k := by
  constructor
  · intro h
    have names : tail k <+: tail n ++ t := (List.prefix_append_right_inj ['\x7b', '\x7b']).1 h
    rw [tail, tail, List.append_assoc] at names
    exact String.toList_inj.1 (eq_of_closed hk hn names).symm
  · rintro rfl
    exact List.prefix_append _ _

/-- In a placeholder no other one begins. -/
theorem places_mark (hk : Braceless k.toList) (hn : Braceless n.toList) :
    places (mark k) (mark n ++ t) = (if n = k then 1 else 0) + places (mark k) t := by
  have first : (mark k).isPrefixOf (mark n ++ t) = true ↔ n = k := by
    rw [List.isPrefixOf_iff_prefix, mark_prefix_mark hk hn]
  have rest : places (mark k) ('\x7b' :: tail n ++ t) = places (mark k) t :=
    places_append_of_tame (tame_tail hn)
  rw [mark_eq n, List.cons_append] at first ⊢
  rw [places, rest]
  simp only [first]

/-- The name of a hole has no braces. -/
def Piece.Named : Piece → Prop
  | literal _ => True
  | hole n => Braceless n.toList

/-- No placeholder begins in what stands for itself. -/
def Piece.Tame : Piece → Prop
  | literal s => Placeholder.Tame s
  | hole n => Braceless n.toList

theorem Piece.Tame.named (h : p.Tame) : p.Named := by
  cases p with
  | literal s => trivial
  | hole n => exact h

/-- A piece without any brace but those of its placeholder. -/
def Piece.Plain : Piece → Prop
  | literal s => Braceless s
  | hole n => Braceless n.toList

instance : (p : Piece) → Decidable p.Plain
  | .literal s => inferInstanceAs (Decidable (Braceless s))
  | .hole n => inferInstanceAs (Decidable (Braceless n.toList))

theorem Piece.Plain.tame {p : Piece} (h : p.Plain) : p.Tame := by
  cases p with
  | literal s => exact Braceless.tame h
  | hole n => exact h

/-- In tame pieces every placeholder is at home. -/
theorem atHome_of_tame (hk : Braceless k.toList) (tame : ∀ p ∈ ps, p.Tame) : AtHome k ps := by
  induction ps with
  | nil => rfl
  | cons p ps ih =>
    obtain ⟨first, later⟩ := List.forall_mem_cons.1 tame
    have rest : places (mark k) (textOf ps) = ps.count (.hole k) := ih later
    rw [AtHome, textOf_cons, List.count_cons]
    cases p with
    | literal s => simp [Piece.text, places_append_of_tame first, rest]
    | hole n => simp [Piece.text, places_mark hk first, rest, Nat.add_comm]

/-! ## The pieces of a text

Every text is cut into pieces, and these make up the text again.
-/

/-- The name of the placeholder that a text begins with. -/
def name? : List Char → Option String
  | '\x7b' :: '\x7b' :: rest =>
    let plain (c : Char) := c != '\x7b' && c != '\x7d'
    if ['\x7d', '\x7d'].isPrefixOf (rest.dropWhile plain) then
      some (String.ofList (rest.takeWhile plain))
    else none
  | _ => none

/-- The pieces of a text, from the left. The number counts the characters of a placeholder that are
still to be passed over. -/
def piecesFrom : Nat → List Char → List Piece
  | _, [] => []
  | i + 1, _ :: rest => piecesFrom i rest
  | 0, c :: rest =>
    match name? (c :: rest) with
    | some n => .hole n :: piecesFrom ((mark n).length - 1) rest
    | none => .literal [c] :: piecesFrom 0 rest

/-- The pieces of a text: its placeholders, and every other character for itself. -/
def pieces (s : List Char) : List Piece := piecesFrom 0 s

/-- A name that is found is that of a placeholder in front. -/
theorem name?_eq_some (h : name? s = some n) : Braceless n.toList ∧ mark n <+: s := by
  unfold name? at h
  split at h
  case h_2 => cases h
  case h_1 rest =>
    dsimp only at h
    split_ifs at h with ends
    obtain rfl := Option.some.inj h
    rw [mark, String.toList_ofList]
    constructor
    · intro c mem
      simpa using List.mem_takeWhile_imp mem
    · have parts := List.takeWhile_append_dropWhile
        (p := fun c => c != '\x7b' && c != '\x7d') (l := rest)
      obtain ⟨more, closed⟩ := List.isPrefixOf_iff_prefix.1 ends
      refine ⟨more, ?_⟩
      rw [List.append_assoc, closed, List.append_assoc, parts]
      rfl

/-- The pieces of a text make up the text again, but for the characters that were still to be passed
over. -/
theorem textOf_piecesFrom (i : Nat) (s : List Char) : textOf (piecesFrom i s) = s.drop i := by
  induction s generalizing i with
  | nil => cases i <;> rfl
  | cons c s ih =>
    cases i with
    | succ i => exact ih i
    | zero =>
      rw [piecesFrom]
      cases h : name? (c :: s) with
      | none =>
        rw [textOf_cons, ih]
        rfl
      | some n =>
        rw [textOf_cons, ih]
        exact List.prefix_iff_eq_append.1 (name?_eq_some h).2

theorem textOf_pieces (s : List Char) : textOf (pieces s) = s := textOf_piecesFrom 0 s

/-- The holes among the pieces have names without braces, since a name ends where a brace stands. -/
theorem named_piecesFrom (i : Nat) (s : List Char) : ∀ p ∈ piecesFrom i s, p.Named := by
  induction s generalizing i with
  | nil => cases i <;> exact List.forall_mem_nil _
  | cons c s ih =>
    cases i with
    | succ i => exact ih i
    | zero =>
      rw [piecesFrom]
      cases h : name? (c :: s) with
      | none => exact List.forall_mem_cons.2 ⟨trivial, ih 0⟩
      | some n => exact List.forall_mem_cons.2 ⟨(name?_eq_some h).1, ih _⟩

theorem named_pieces (s : List Char) : ∀ p ∈ pieces s, p.Named := named_piecesFrom 0 s

end Courier.Placeholder
