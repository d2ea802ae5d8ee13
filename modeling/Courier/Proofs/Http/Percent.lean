import Courier.Http.Url
import Mathlib.Data.List.Basic

/-!
# What is escaped is read again

A segment of a path is written with escapes for the octets that may not stand there, and nothing is
done to the escapes that it has already. So reading it undoes what writing has done, and undoes the
escapes that were there before as well (`percentDecode_percentEncode`). Those make it shorter, and
nothing makes it longer (`length_percentDecode_le`).

Everything is said about octets. A text has its octets, and two texts with the same ones are the
same; that is all that is needed of characters.
-/

set_option autoImplicit false

namespace Courier

open Text.Utf8 (Octet)

/-! ## Texts and their octets

A text is determined by its octets, and a part of it has no more octets than the whole.
-/

namespace Text.Utf8

variable {cs ds : List Char}

theorem encode_append (cs ds : List Char) : encode (cs ++ ds) = encode cs ++ encode ds :=
  List.flatMap_append

theorem encode_inj (h : encode cs = encode ds) : cs = ds := by
  have same : (String.ofList cs).toByteArray = (String.ofList ds).toByteArray := by
    rw [String.toByteArray_ofList, String.toByteArray_ofList]
    exact congrArg List.toByteArray h
  exact String.ofList_injective (String.toByteArray_inj.1 same)

theorem length_encode_cons (c : Char) (cs : List Char) :
    (encode (c :: cs)).length = c.utf8Size + (encode cs).length := by
  rw [encode, List.flatMap_cons, List.length_append, String.length_utf8EncodeChar]
  rfl

theorem length_encode_le (h : cs.Sublist ds) : (encode cs).length ≤ (encode ds).length := by
  induction h with
  | slnil => exact Nat.le_refl _
  | cons c _ ih => rw [length_encode_cons]; omega
  | cons_cons c _ ih => rw [length_encode_cons, length_encode_cons]; omega

/-- A text from which characters are dropped gets shorter. -/
theorem eq_of_sublist (h : cs.Sublist ds) (long : (encode ds).length ≤ (encode cs).length) :
    cs = ds := by
  -- by induction on how the one is left out of the other: a character that is missing would be
  -- missed
  induction h with
  | slnil => rfl
  | cons c h ih =>
    have shorter := length_encode_le h
    rw [length_encode_cons] at long
    have pos := c.utf8Size_pos
    omega
  | cons_cons c _ ih =>
    rw [length_encode_cons, length_encode_cons] at long
    rw [ih (by omega)]

theorem encode_cons_ascii {c : Char} (ascii : c.toNat < 128) (cs : List Char) :
    encode (c :: cs) = UInt8.ofNat c.toNat :: encode cs := by
  have single : String.utf8EncodeChar c = [UInt8.ofNat c.toNat] :=
    if_pos (Nat.le_of_lt_succ ascii)
  rw [encode, List.flatMap_cons, single]
  rfl

theorem toNat_ofNat_octet (b : Octet) : (Char.ofNat b.toNat).toNat = b.toNat := by
  have valid : b.toNat.isValidChar := .inl (Nat.lt_trans b.toNat_lt (by decide))
  rw [Char.ofNat, dif_pos valid]
  rfl

theorem encode_ofNat {b : Octet} (ascii : b < 0x80) : encode [Char.ofNat b.toNat] = [b] := by
  have small : (Char.ofNat b.toNat).toNat < 128 := by rwa [toNat_ofNat_octet]
  rw [encode_cons_ascii small, toNat_ofNat_octet, UInt8.ofNat_toNat]
  rfl

/-- An octet of ASCII is a character by itself, and never a part of one. -/
theorem toNat_of_ascii {b : Octet} {c : Char} (h : b ∈ String.utf8EncodeChar c)
    (ascii : b < 0x80) : b.toNat = c.toNat := by
  have small : b.toNat < 128 := ascii
  have value : c.val.toNat = c.toNat := rfl
  unfold String.utf8EncodeChar at h
  dsimp only at h
  split_ifs at h <;> simp only [List.mem_cons, List.not_mem_nil, or_false] at h
  · rw [h, UInt8.toNat_ofNat']
    omega
  · rcases h with rfl | rfl <;> rw [UInt8.toNat_ofNat'] at small <;> omega
  · rcases h with rfl | rfl | rfl <;> rw [UInt8.toNat_ofNat'] at small <;> omega
  · rcases h with rfl | rfl | rfl | rfl <;> rw [UInt8.toNat_ofNat'] at small <;> omega

theorem mem_of_ascii {b : Octet} (h : b ∈ encode cs) (ascii : b < 0x80) :
    Char.ofNat b.toNat ∈ cs := by
  obtain ⟨c, mem, octet⟩ := List.mem_flatMap.1 h
  rw [toNat_of_ascii octet ascii, Char.ofNat_toNat]
  exact mem

end Text.Utf8

namespace Http

open Text.Utf8 (encode)

/-! ## Reading

An escape is read as one octet, everything else as it stands.
-/

/-- The octets begin with an escape, of the octet and before the rest. -/
def Escapes (bs : List Octet) (n : Nat) (rest : List Octet) : Prop :=
  ∃ b c, bs = 0x25 :: b :: c :: rest ∧
    Uuid.hexNumber? [Char.ofNat b.toNat, Char.ofNat c.toNat] = some n

theorem percentDecode_of_escapes {bs rest : List Octet} {n : Nat} (h : Escapes bs n rest) :
    percentDecode bs = UInt8.ofNat n :: percentDecode rest := by
  obtain ⟨b, c, rfl, number⟩ := h
  rw [percentDecode]
  simp only [if_true, number]

/-- Anything else is read as it is. -/
theorem percentDecode_cons {a : Octet} {bs : List Octet}
    (h : ∀ n rest, ¬ Escapes (a :: bs) n rest) :
    percentDecode (a :: bs) = a :: percentDecode bs := by
  match bs with
  | [] => rfl
  | [b] => rfl
  | b :: c :: rest =>
    rw [percentDecode]
    by_cases percent : a = 0x25
    · subst percent
      cases number : Uuid.hexNumber? [Char.ofNat b.toNat, Char.ofNat c.toNat] with
      | none => simp only [if_true]
      | some n => exact absurd ⟨b, c, rfl, number⟩ (h n rest)
    · simp only [percent, if_false]

theorem length_percentDecode_le (bs : List Octet) : (percentDecode bs).length ≤ bs.length := by
  fun_induction percentDecode bs with
  | case1 | case2 | case3 => exact Nat.le_refl _
  | case4 a b c rest escape n number ih => simp only [List.length_cons]; omega
  | case5 a b c rest escape number ih => simp only [List.length_cons] at ih ⊢; omega

/-! ## Reading what was written -/

/-- Octets as they are written, each by itself or by its escape. -/
def written (keep : Octet → Bool) (bs : List Octet) : List Octet :=
  bs.flatMap fun b => if keep b then [b] else encode (percentOctet b)

/-- What may stand for itself has one octet, and is whatever an escape is made of. -/
structure Readable (keep : Octet → Bool) : Prop where
  ascii : ∀ b, keep b = true → b < 0x80
  percent : keep 0x25 = true
  hex : ∀ b : Octet, (Uuid.hexValue? (Char.ofNat b.toNat)).isSome → keep b = true

variable {keep : Octet → Bool} {cs : List Char} {bs : List Octet}

/-- The octets of a written text are its octets as they are written. -/
theorem encode_percentEncode (h : Readable keep) (cs : List Char) :
    encode (percentEncode keep cs) = written keep (encode cs) := by
  unfold percentEncode written
  induction encode cs with
  | nil => rfl
  | cons b bs ih =>
    rw [List.flatMap_cons, List.flatMap_cons, Text.Utf8.encode_append, ih]
    split
    · rw [Text.Utf8.encode_ofNat (h.ascii b ‹_›)]
    · rfl

theorem upperHex_digit : ∀ n < 16, (upperHex n).toNat < 128 ∧
    Uuid.hexValue? (upperHex n) = some n ∧
    isAlphanumeric (UInt8.ofNat (upperHex n).toNat) = true := by
  decide

theorem ofNat_octet {c : Char} (ascii : c.toNat < 128) :
    Char.ofNat (UInt8.ofNat c.toNat).toNat = c := by
  rw [UInt8.toNat_ofNat_of_lt' (Nat.lt_trans ascii (by decide)), Char.ofNat_toNat]

/-- The three octets of an escape. -/
theorem encode_percentOctet (b : Octet) : encode (percentOctet b) =
    [0x25, UInt8.ofNat (upperHex (b.toNat / 16)).toNat,
      UInt8.ofNat (upperHex (b.toNat % 16)).toNat] := by
  have bound := b.toNat_lt
  have high := (upperHex_digit (b.toNat / 16) (by omega)).1
  have low := (upperHex_digit (b.toNat % 16) (by omega)).1
  rw [percentOctet, Text.Utf8.encode_cons_ascii (by decide), Text.Utf8.encode_cons_ascii high,
    Text.Utf8.encode_cons_ascii low]
  rfl

/-- The escape of an octet stands for it. -/
theorem escapes_percentOctet (b : Octet) (rest : List Octet) :
    Escapes (encode (percentOctet b) ++ rest) b.toNat rest := by
  have bound := b.toNat_lt
  obtain ⟨high, highValue, -⟩ := upperHex_digit (b.toNat / 16) (by omega)
  obtain ⟨low, lowValue, -⟩ := upperHex_digit (b.toNat % 16) (by omega)
  refine ⟨_, _, congrArg (· ++ rest) (encode_percentOctet b), ?_⟩
  rw [ofNat_octet high, ofNat_octet low]
  simp [Uuid.hexNumber?, highValue, lowValue, Nat.div_add_mod]

/-- An escape is made of percent signs and digits. -/
theorem mem_encode_percentOctet {x b : Octet} (h : x ∈ encode (percentOctet b)) :
    x = 0x25 ∨ isAlphanumeric x = true := by
  have bound := b.toNat_lt
  rw [encode_percentOctet] at h
  simp only [List.mem_cons, List.not_mem_nil, or_false] at h
  rcases h with rfl | rfl | rfl
  · exact .inl rfl
  · exact .inr (upperHex_digit _ (by omega)).2.2
  · exact .inr (upperHex_digit _ (by omega)).2.2

/-- Both characters of a number of two digits are digits. -/
theorem hexValue_of_hexNumber {x y : Char} {n : Nat} (h : Uuid.hexNumber? [x, y] = some n) :
    (Uuid.hexValue? x).isSome ∧ (Uuid.hexValue? y).isSome := by
  unfold Uuid.hexNumber? at h
  cases hx : Uuid.hexValue? x with
  | none => simp [hx] at h
  | some m =>
    cases hy : Uuid.hexValue? y with
    | none => simp [hx, hy] at h
    | some k => exact ⟨rfl, rfl⟩

/-- A digit that was written was there before. -/
theorem written_digit {x : Octet} {rest : List Octet}
    (digit : (Uuid.hexValue? (Char.ofNat x.toNat)).isSome) (h : written keep bs = x :: rest) :
    ∃ more, bs = x :: more ∧ written keep more = rest := by
  cases bs with
  | nil => cases h
  | cons b more =>
    rw [written, List.flatMap_cons] at h
    split at h
    · obtain ⟨rfl, same⟩ := List.cons.inj h
      exact ⟨more, rfl, same⟩
    · obtain ⟨_, _, percent, -⟩ := escapes_percentOctet b (written keep more)
      obtain ⟨rfl, -⟩ := List.cons.inj (h.symm.trans percent)
      exact absurd digit (by decide)

/-- An escape that is written from an octet on which stands for itself was there before. -/
theorem escapes_of_written {a : Octet} {n : Nat} {rest : List Octet}
    (h : Escapes (a :: written keep bs) n rest) : ∃ more, Escapes (a :: bs) n more := by
  obtain ⟨x, y, whole, number⟩ := h
  obtain ⟨rfl, digits⟩ := List.cons.inj whole
  obtain ⟨first, second⟩ := hexValue_of_hexNumber number
  obtain ⟨_, rfl, digit⟩ := written_digit first digits
  obtain ⟨more, rfl, -⟩ := written_digit second digit
  exact ⟨more, x, y, rfl, number⟩

/-- **Reading undoes what writing has done.** -/
theorem percentDecode_written (h : Readable keep) (bs : List Octet) :
    percentDecode (written keep bs) = percentDecode bs := by
  induction len : bs.length using Nat.strongRecOn generalizing bs with
  -- by induction on the length, since an escape takes three octets at once
  | ind len ih =>
    subst len
    match bs with
    | [] => rfl
    | a :: bs =>
      -- an escape is written as it is; anything else is written so that it makes no new escape
      by_cases escaped : ∃ n rest, Escapes (a :: bs) n rest
      · obtain ⟨n, rest, b, c, same, number⟩ := escaped
        obtain ⟨rfl, rfl⟩ := List.cons.inj same
        obtain ⟨first, second⟩ := hexValue_of_hexNumber number
        have kept :
            written keep (0x25 :: b :: c :: rest) = 0x25 :: b :: c :: written keep rest := by
          simp only [written, List.flatMap_cons, h.percent, h.hex b first, h.hex c second, if_true,
            List.singleton_append]
        have shorter : rest.length < (0x25 :: b :: c :: rest).length := by
          simp only [List.length_cons]
          omega
        rw [kept, percentDecode_of_escapes ⟨b, c, rfl, number⟩,
          percentDecode_of_escapes ⟨b, c, rfl, number⟩, ih rest.length shorter rest rfl]
      · have fresh (n : Nat) (rest : List Octet) : ¬ Escapes (a :: bs) n rest :=
          fun found => escaped ⟨n, rest, found⟩
        rw [percentDecode_cons fresh, ← ih bs.length (Nat.lt_succ_self _) bs rfl]
        -- an octet that begins no escape stands for itself, or is written as one
        by_cases kept : keep a = true
        · have same : written keep (a :: bs) = a :: written keep bs := by
            rw [written, List.flatMap_cons, if_pos kept]
            rfl
          rw [same, percentDecode_cons fun n rest found =>
            (escapes_of_written found).elim fun more => fresh n more]
        · have same : written keep (a :: bs) = encode (percentOctet a) ++ written keep bs := by
            rw [written, List.flatMap_cons, if_neg kept]
            rfl
          rw [same, percentDecode_of_escapes (escapes_percentOctet a _), UInt8.ofNat_toNat]

/-- What may stand in a path is readable. -/
theorem readable_keptInPath : Readable Url.keptInPath := by
  refine ⟨fun b kept => ?_, by decide, fun b digit => ?_⟩
  · simp only [Url.keptInPath, Url.keptInFragment, Url.isGraphic, Bool.and_eq_true,
      decide_eq_true_eq] at kept
    exact UInt8.lt_of_le_of_lt kept.1.1.2 (by decide)
  · have place : ∀ c d : Char, c ≤ d ↔ c.toNat ≤ d.toNat := fun _ _ => Iff.rfl
    simp only [Uuid.hexValue?, place, Text.Utf8.toNat_ofNat_octet, Char.reduceToNat] at digit
    simp only [Url.keptInPath, Url.keptInFragment, Url.isGraphic, Bool.and_eq_true,
      decide_eq_true_eq, Bool.not_eq_true', Bool.or_eq_false_iff, beq_eq_false_iff_ne, ne_eq,
      ← UInt8.toNat_inj, UInt8.le_iff_toNat_le, UInt8.reduceToNat]
    split_ifs at digit <;> first | omega | cases digit

theorem mem_percentEncode {x : Char} (h : x ∈ percentEncode keep cs) :
    (∃ b ∈ encode cs, keep b = true ∧ x = Char.ofNat b.toNat) ∨ ∃ b, x ∈ percentOctet b := by
  obtain ⟨b, mem, here⟩ := List.mem_flatMap.1 h
  split at here
  · exact .inl ⟨b, mem, ‹_›, List.mem_singleton.1 here⟩
  · exact .inr ⟨b, here⟩

theorem not_mem_percentOctet (b : Octet) : '/' ∉ percentOctet b ∧ '?' ∉ percentOctet b := by
  constructor <;> intro mem
  · have octet : 0x2F ∈ encode (percentOctet b) := List.mem_flatMap.2 ⟨'/', mem, by decide⟩
    exact absurd (mem_encode_percentOctet octet) (by decide)
  · have octet : 0x3F ∈ encode (percentOctet b) := List.mem_flatMap.2 ⟨'?', mem, by decide⟩
    exact absurd (mem_encode_percentOctet octet) (by decide)

theorem slash_not_mem_percentEncode (h : '/' ∉ cs) :
    '/' ∉ percentEncode Url.keptInPath cs := by
  intro mem
  rcases mem_percentEncode mem with ⟨b, octet, kept, same⟩ | ⟨b, escaped⟩
  · exact h (same ▸ Text.Utf8.mem_of_ascii octet (readable_keptInPath.ascii b kept))
  · exact (not_mem_percentOctet b).1 escaped

/-- A segment never has a question mark. -/
theorem mark_not_mem_percentEncode (cs : List Char) :
    '?' ∉ percentEncode Url.keptInPath cs := by
  intro mem
  rcases mem_percentEncode mem with ⟨b, -, kept, same⟩ | ⟨b, escaped⟩
  · have octet : b = 0x3F := by
      rw [← UInt8.toNat_inj, ← Text.Utf8.toNat_ofNat_octet, ← same]
      rfl
    rw [octet] at kept
    cases kept
  · exact (not_mem_percentOctet b).2 escaped

/-- **A segment reads as the text that it was written for**, as far as that has no escapes. -/
theorem percentDecode_percentEncode (cs : List Char) :
    percentDecode (encode (percentEncode Url.keptInPath cs)) = percentDecode (encode cs) := by
  rw [encode_percentEncode readable_keptInPath, percentDecode_written readable_keptInPath]

end Http

end Courier
