import Courier.Number.Reading
import Courier.Proofs.Number.Powers

/-!
# Settings that are no number

A setting is read to a double, and one word of three letters, in any case and after one sign at
most, stands for none (`read_eq_nan_iff`). What is not below a positive whole number is at least
that number or no number at all (`lt_eq_false_iff`).

That digits never read as no number is not obvious: they are read by a division, whose result might
in principle be anything. It is a rounded ratio, and those are finite or infinite.
-/

set_option autoImplicit false

namespace Courier.Binary64

variable {d c : Binary64} {m : Nat} {s : String} {cs : List Char}

/-- What is not below a positive whole number is at least that number, or is no number. -/
theorem lt_eq_false_iff (h : IsWhole m c) (pos : 1 ≤ m) :
    d.lt c = false ↔ d = .nan ∨ AtLeast m d := by
  obtain ⟨k, e, rfl, value⟩ := h
  cases d with
  | nan => exact iff_of_true rfl (.inl rfl)
  | infinite negative =>
    cases negative with
    | false => exact iff_of_true rfl (.inr .infinite)
    | true => exact iff_of_false nofun (by rintro (h | h) <;> cases h)
  | finite negative n f =>
    cases negative with
    | false =>
      rw [← Bool.not_eq_true, lt_finite_iff, not_lt, value]
      constructor
      · exact fun le => .inr (.finite le)
      · rintro (h | h)
        · cases h
        · cases h with
          | finite le => exact le
    | true =>
      have positive : k ≠ 0 := mantissa_ne_zero (Nat.cast_pos.2 pos) value.ge
      have less : (finite true n f).lt (finite false k e) = true := by
        show (n != 0 || k != 0) = true
        simp [positive]
      refine iff_of_false (by simp [less]) (by rintro (h | h) <;> cases h)

/-! ## Numbers -/

theorem ofRatio_ne_nan {negative : Bool} {num den : Nat} : ofRatio negative num den ≠ .nan := by
  unfold ofRatio assemble zero
  dsimp only
  split_ifs <;> exact nofun

theorem nearestDecimal_ne_nan {negative : Bool} {digits count : Nat} {k : Int} :
    nearestDecimal negative digits count k ≠ .nan := by
  unfold nearestDecimal zero
  split_ifs
  · exact nofun
  · exact nofun
  · exact nofun
  · exact ofRatio_ne_nan
  · exact ofRatio_ne_nan

/-- Digits never read as no number, with or without an exponent: they read as a decimal fraction. -/
theorem readUnsigned_ne_nan {negative : Bool} : readUnsigned negative cs ≠ some .nan := by
  intro h
  unfold readUnsigned at h
  dsimp only at h
  split_ifs at h
  split at h
  · exact nearestDecimal_ne_nan (Option.some.inj h)
  · obtain ⟨k, -, number⟩ := Option.map_eq_some_iff.1 h
    exact nearestDecimal_ne_nan number
  · obtain ⟨k, -, number⟩ := Option.map_eq_some_iff.1 h
    exact nearestDecimal_ne_nan number
  · cases h

theorem readUnsigned_of_letter {negative : Bool} {c : Char} (digit : Text.digitValue? c = none)
    (point : c ≠ '.') : readUnsigned negative (c :: cs) = none := by
  have whole : takeDigits 0 0 (c :: cs) = (0, 0, c :: cs) := by rw [takeDigits, digit]
  simp [readUnsigned, whole, point]

/-! ## The word for none -/

theorem eq_of_toLower {c : Char} (h : c.toLower = 'n') : c = 'n' ∨ c = 'N' := by
  unfold Char.toLower at h
  split at h
  · have code : c.val + ('a'.val - 'A'.val) = 'n'.val := congrArg Char.val h
    exact .inr (Char.ext (by grind))
  · exact .inl h

/-- The word for what is no number, in any case. -/
def SpellsNan (word : List Char) : Prop := word.map Char.toLower = ['n', 'a', 'n']

theorem SpellsNan.head {c : Char} (h : SpellsNan (c :: cs)) : c = 'n' ∨ c = 'N' :=
  eq_of_toLower (List.cons.inj h).1

/-- Of the words that are read only this one stands for no number; the others stand for infinity. -/
theorem readWord_eq_nan_iff (negative : Bool) :
    readWord negative cs = some .nan ↔ SpellsNan cs := by
  have spelt : String.ofList (cs.map Char.toLower) = "nan" ↔ SpellsNan cs := String.ofList_inj
  rw [readWord, ← spelt]
  split
  · next h => exact iff_of_false nofun (by rw [h]; decide)
  · next h => exact iff_of_false nofun (by rw [h]; decide)
  · next h => exact iff_of_true rfl h
  · next h => exact iff_of_false nofun h

/-- Words are read after digits, and no word begins like a number. -/
theorem readUnsigned_or_readWord (negative : Bool) :
    (readUnsigned negative cs).or (readWord negative cs) = some .nan ↔ SpellsNan cs := by
  rw [← readWord_eq_nan_iff negative]
  cases unsigned : readUnsigned negative cs with
  | none => rfl
  | some d =>
    refine iff_of_false (fun h => readUnsigned_ne_nan (unsigned.trans h)) fun h => ?_
    -- a word begins with a letter
    cases cs with
    | nil => cases (readWord_eq_nan_iff _).1 h
    | cons c rest =>
      have nothing : readUnsigned negative (c :: rest) = none := by
        rcases ((readWord_eq_nan_iff _).1 h).head with rfl | rfl <;>
          exact readUnsigned_of_letter (by decide) (by decide)
      cases nothing.symm.trans unsigned

/-- A text that reads as no number: the word for it after one sign at most. -/
def ReadsNan (s : String) : Prop :=
  ∃ sign ∈ [[], ['+'], ['-']], ∃ word, s.toList = sign ++ word ∧ SpellsNan word

/-- The whole setting: a sign is taken off before the word is looked for. -/
theorem read_eq_nan_iff : read s = .ok .nan ↔ ReadsNan s := by
  unfold read ReadsNan
  cases hs : s.toList with
  | nil =>
    refine iff_of_false (fun h => by cases h) ?_
    rintro ⟨sign, -, word, split, spelt⟩
    obtain ⟨-, rfl⟩ := List.append_eq_nil_iff.1 split.symm
    cases spelt
  | cons c rest =>
    dsimp only
    -- what is left of the text behind its sign
    generalize hsigned : (if c = '-' then (true, rest) else if c = '+' then (false, rest)
      else (false, c :: rest)) = signed
    refine Iff.trans (b := SpellsNan signed.2) ?_ ?_
    · rw [← readUnsigned_or_readWord signed.1]
      cases (readUnsigned signed.1 signed.2).or (readWord signed.1 signed.2) <;> simp
    rw [← hsigned]
    constructor
    · intro spelt
      split_ifs at spelt with minus plus
      · exact ⟨['-'], by simp, rest, by rw [minus]; rfl, spelt⟩
      · exact ⟨['+'], by simp, rest, by rw [plus]; rfl, spelt⟩
      · exact ⟨[], by simp, c :: rest, rfl, spelt⟩
    · rintro ⟨sign, hsign, word, split, spelt⟩
      simp only [List.mem_cons, List.not_mem_nil, or_false] at hsign
      rcases hsign with rfl | rfl | rfl
      · obtain rfl : c :: rest = word := split
        have letter := spelt.head
        rwa [if_neg (by rcases letter with rfl | rfl <;> decide),
          if_neg (by rcases letter with rfl | rfl <;> decide)]
      · obtain ⟨rfl, rfl⟩ := List.cons.inj split
        exact spelt
      · obtain ⟨rfl, rfl⟩ := List.cons.inj split
        exact spelt

end Courier.Binary64
