import Courier.Uuid

/-!
# UUIDs that are written are read back

The digits of a number give it back up to what does not fit (`hexNumber?_hexDigits`), and taking the
dashes out again gives the digits (`ofDashed?_join`).

Together these say that writing is injective on identifiers and that every record, row and message
that carries one can be taken back to it.
-/

set_option autoImplicit false

namespace Courier.Uuid

theorem hexValue?_hexDigit : ∀ n < 16, hexValue? (hexDigit n) = some n := by decide

theorem length_hexDigits (count n : Nat) : (hexDigits count n).length = count := by
  induction count generalizing n with
  | zero => rfl
  | succ count ih => rw [hexDigits, List.length_append, ih]; rfl

/-- Digits give the number back, up to what does not fit. -/
theorem hexNumber?_hexDigits (count n : Nat) :
    hexNumber? (hexDigits count n) = some (n % Nat.pow 16 count) := by
  -- the last digit is split off at both ends, so that the number is generalized
  induction count generalizing n with
  | zero =>
    show some 0 = some (n % 1)
    rw [Nat.mod_one]
  | succ count ih =>
    have front := ih (n / 16)
    rw [hexNumber?] at front
    rw [hexDigits, hexNumber?, List.foldlM_append, front]
    have last : n % 16 < 16 := Nat.mod_lt n (by decide)
    have more : Nat.pow 16 (count + 1) = 16 * Nat.pow 16 count := Nat.mul_comm _ _
    have value : 16 * (n / 16 % Nat.pow 16 count) + n % 16 = n % Nat.pow 16 (count + 1) := by
      rw [more, Nat.mod_mul, Nat.add_comm]
    simp only [Option.bind_eq_bind, Option.bind_some, List.foldlM_cons, List.foldlM_nil,
      hexValue?_hexDigit _ last, Option.map_some, value, Option.pure_def]

/-- The dashes of the five groups are taken out again. -/
theorem ofDashed?_join {a b c d e : List Char} (ha : a.length = 8) (hb : b.length = 4)
    (hc : c.length = 4) (hd : d.length = 4) (he : e.length = 12) :
    ofDashed? (a ++ '-' :: (b ++ '-' :: (c ++ '-' :: (d ++ '-' :: e)))) =
      ofDigits? (a ++ b ++ c ++ d ++ e) := by
  rw [ofDashed?, if_pos]
  · simp [List.drop_append, ha, hb, hc, hd, List.drop_of_length_le]
  · simp [ha, hb, hc, hd, he]

theorem split_groups (ds : List Char) :
    List.intercalate ['-'] (split groups ds) =
      ds.take 8 ++ '-' :: ((ds.drop 8).take 4 ++ '-' :: (((ds.drop 8).drop 4).take 4 ++
        '-' :: ((((ds.drop 8).drop 4).drop 4).take 4 ++
          '-' :: ((((ds.drop 8).drop 4).drop 4).drop 4).take 12))) := by
  simp [split, groups, List.intercalate]

/-- A UUID is read back. -/
theorem parse?_toString (u : Uuid) : parse? u.toString = some u := by
  obtain ⟨ds, written, length, value⟩ : ∃ ds, hexDigits 32 u.value = ds ∧ ds.length = 32 ∧
      hexNumber? ds = some u.value := by
    refine ⟨_, rfl, length_hexDigits 32 u.value, ?_⟩
    have lt : u.value < Nat.pow 16 32 := u.value_lt
    rw [hexNumber?_hexDigits, Nat.mod_eq_of_lt lt]
  -- nothing is left behind the fifth group
  have last : ((((ds.drop 8).drop 4).drop 4).drop 4).take 12 =
      (((ds.drop 8).drop 4).drop 4).drop 4 := by
    refine List.take_of_length_le ?_
    simp only [List.length_drop, length]
    decide
  have joined : ds.take 8 ++ (ds.drop 8).take 4 ++ ((ds.drop 8).drop 4).take 4 ++
      (((ds.drop 8).drop 4).drop 4).take 4 ++ (((ds.drop 8).drop 4).drop 4).drop 4 = ds := by
    simp only [List.append_assoc, List.take_append_drop]
  have dashed : ofDashed? u.toString.toList = some u := by
    rw [toString, String.toList_ofList, written, split_groups, last, ofDashed?_join, joined,
      ofDigits?, if_pos length, value]
    · simp only [Option.map_some, ofNat, Nat.mod_eq_of_lt u.value_lt]
    all_goals simp [length]
  rw [parse?, dashed]
  rfl

end Courier.Uuid
