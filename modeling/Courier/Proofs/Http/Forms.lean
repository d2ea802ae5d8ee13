import Courier.Proofs.Http.Percent

/-!
# Forms are read as they were sent

Octets that spell characters are read as these (`pieces_encode`), though the reading is tolerant and
would take anything. So a name or a value that was written for a form is read as itself, whatever it
is (`formDecode_formEncode`): its escapes stand for its octets, and none of these parts the form.
The pairs of a whole form follow (`formPairs_form`).
-/

set_option autoImplicit false

namespace Courier

open Text.Utf8 (Octet)

/-! ## Reading characters

A character written in octets is read back as itself, so the lossy decoder loses nothing of what was
written.
-/

namespace Text.Utf8

variable {n k : Nat}

theorem toNat_octet (h : n < 256) : (UInt8.ofNat n).toNat = n := UInt8.toNat_ofNat_of_lt' h

theorem isTail_octet : isTail (UInt8.ofNat (n % 64 + 128)) = true := by
  simp (disch := omega) only [isTail, Bool.and_eq_true, decide_eq_true_eq, UInt8.le_iff_toNat_le,
    toNat_octet, UInt8.reduceToNat]
  omega

theorem width_octet (h : n < 256) : width (UInt8.ofNat n) =
    if n < 128 then some 1 else if 194 ≤ n ∧ n ≤ 223 then some 2
    else if 224 ≤ n ∧ n ≤ 239 then some 3 else if 240 ≤ n ∧ n ≤ 244 then some 4 else none := by
  simp only [width, UInt8.lt_iff_toNat_lt, UInt8.le_iff_toNat_le, toNat_octet h,
    UInt8.reduceToNat]

theorem secondRange_octet (h : n < 256) (hk : k < 256) :
    (secondRange (UInt8.ofNat n)).1 ≤ UInt8.ofNat k ∧
        UInt8.ofNat k ≤ (secondRange (UInt8.ofNat n)).2 ↔
      (if n = 224 then 160 else if n = 240 then 144 else 128) ≤ k ∧
        k ≤ (if n = 237 then 159 else if n = 244 then 143 else 191) := by
  simp only [secondRange, ← UInt8.toNat_inj, UInt8.le_iff_toNat_le, toNat_octet h, toNat_octet hk,
    UInt8.reduceToNat]
  split_ifs <;> simp only [UInt8.reduceToNat] <;> omega

theorem tails_append {more : List Octet} (h : ∀ b ∈ more, isTail b = true) (rest : List Octet) :
    tails more.length (more ++ rest) = more := by
  induction more with
  | nil => cases rest <;> rfl
  | cons b more ih =>
    rw [List.forall_mem_cons] at h
    simp only [List.cons_append, List.length_cons, tails, h.1, if_true, ih h.2]

/-- A character of several octets is read if its first octet announces it. -/
theorem step_of_tails {first second : Octet} {more : List Octet} {c : Char}
    (long : width first = some (more.length + 2))
    (inRange : (secondRange first).1 ≤ second ∧ second ≤ (secondRange first).2)
    (shape : ∀ b ∈ second :: more, isTail b = true)
    (value : scalar (more.length + 2) first (second :: more) = c.toNat) (rest : List Octet) :
    step first (second :: more ++ rest) = (.char c, more.length + 1) := by
  have taken : tails (more.length + 1) (second :: (more ++ rest)) = second :: more :=
    tails_append shape rest
  simp [step, long, inRange, taken, value]

/-- One step reads the octets of one character. -/
theorem step_char (c : Char) (rest : List Octet) : ∃ first more,
    String.utf8EncodeChar c = first :: more ∧
      step first (more ++ rest) = (.char c, more.length) := by
  have valid := c.valid
  have value : c.val.toNat = c.toNat := rfl
  simp only [UInt32.isValidChar, Nat.isValidChar, value] at valid
  unfold String.utf8EncodeChar
  dsimp only
  rw [value]
  -- characters of one octet are apart; those of two, three and four go the same way with their own
  -- bounds
  split_ifs with one two three
  · refine ⟨_, [], rfl, ?_⟩
    have single : width (UInt8.ofNat c.toNat) = some 1 := by
      rw [width_octet (by omega), if_pos (by omega)]
    have same : Char.ofNat (UInt8.ofNat c.toNat).toNat = c := by
      rw [toNat_octet (by omega), Char.ofNat_toNat]
    cases rest <;> simp only [step, single, same, if_true, List.nil_append] <;> rfl
  all_goals
    refine ⟨_, _, rfl, ?_⟩
    apply step_of_tails
    case long =>
      rw [width_octet (by omega)]
      simp only [List.length_cons, List.length_nil]
      split_ifs <;> first | rfl | omega
    case inRange =>
      -- the ranges leave out what is too long, a surrogate, or too large
      rw [secondRange_octet (by omega) (by omega)]
      constructor <;> split_ifs <;> omega
    case shape =>
      simp only [List.forall_mem_cons, isTail_octet, List.not_mem_nil, false_imp_iff, implies_true,
        and_self]
    case value =>
      simp (disch := omega) only [scalar, List.foldl, List.length, toNat_octet, Nat.reduceAdd,
        Nat.reduceEqDiff, if_false, Nat.reduceSub, Nat.pow_eq, Nat.reducePow]
      omega

/-- **What is encoded is decoded**: octets of characters are read as these, one by one. -/
theorem pieces_encode (cs : List Char) : pieces (encode cs) = cs.map .char := by
  induction cs with
  | nil => simp [encode, pieces]
  | cons c cs ih =>
    obtain ⟨first, more, spelled, found⟩ := step_char c (encode cs)
    have octets : encode (c :: cs) = first :: (more ++ encode cs) := by
      rw [encode, List.flatMap_cons, spelled]
      rfl
    rw [octets, pieces, found, List.map_cons, List.drop_left, ih]

theorem decodeLossy_encode (cs : List Char) : decodeLossy (encode cs) = String.ofList cs := by
  rw [decodeLossy, pieces_encode, List.map_map]
  exact congrArg String.ofList (List.map_id cs)

end Text.Utf8

namespace Http

open Text.Utf8 (encode encode_append encode_ofNat decodeLossy_encode)

/-! ## One name or value

What is written holds neither of the marks that part names and values, which is why the whole can be
cut at them.
-/

/-- What an octet is in a form. -/
def formOctet (b : Octet) : List Octet :=
  if b = 0x20 then [0x2B] else if keptInForm b then [b] else encode (percentOctet b)

theorem ascii_of_keptInForm {b : Octet} (kept : keptInForm b = true) : b < 0x80 := by
  simp only [keptInForm, isAlphanumeric, Bool.or_eq_true, Bool.and_eq_true, decide_eq_true_eq,
    beq_iff_eq, ← UInt8.toNat_inj, UInt8.le_iff_toNat_le, UInt8.reduceToNat] at kept
  simp only [UInt8.lt_iff_toNat_lt, UInt8.reduceToNat]
  omega

/-- The octets of a text in a form, octet by octet. -/
theorem encode_formEncode (s : String) :
    encode (formEncode s) = (encode s.toList).flatMap formOctet := by
  unfold formEncode
  induction encode s.toList with
  | nil => rfl
  | cons b bs ih =>
    rw [List.flatMap_cons, List.flatMap_cons, encode_append, ih, formOctet]
    split_ifs with space kept
    · rfl
    · rw [encode_ofNat (ascii_of_keptInForm kept)]
    · rfl

/-- What a form has of an octet are octets that stand for themselves, plus signs and percent
signs. -/
theorem mem_formOctet {x b : Octet} (h : x ∈ formOctet b) :
    x = 0x2B ∨ x = 0x25 ∨ keptInForm x = true := by
  unfold formOctet at h
  split_ifs at h with space kept
  · exact .inl (List.mem_singleton.1 h)
  · exact .inr (.inr (List.mem_singleton.1 h ▸ kept))
  · rcases mem_encode_percentOctet h with percent | plain
    · exact .inr (.inl percent)
    · exact .inr (.inr (by simp only [keptInForm, plain, Bool.true_or]))

theorem not_mem_formEncode (s : String) :
    0x26 ∉ encode (formEncode s) ∧ 0x3D ∉ encode (formEncode s) := by
  rw [encode_formEncode]
  constructor <;> intro mem <;> obtain ⟨b, -, here⟩ := List.mem_flatMap.1 mem
  · exact absurd (mem_formOctet here) (by decide)
  · exact absurd (mem_formOctet here) (by decide)

/-- A plus sign stands for a space. -/
def plusToSpace (b : Octet) : Octet := if b = 0x2B then 0x20 else b

/-- Each of them is read as the octet that it was written for. -/
theorem percentDecode_formOctet (b : Octet) (rest : List Octet) :
    percentDecode ((formOctet b).map plusToSpace ++ rest) = b :: percentDecode rest := by
  have single (other : b ≠ 0x25) : percentDecode (b :: rest) = b :: percentDecode rest :=
    percentDecode_cons fun _ _ ⟨_, _, same, _⟩ => other (List.cons.inj same).1
  unfold formOctet
  split_ifs with space kept
  · subst space
    exact single (by decide)
  -- an octet that is kept is neither a plus nor a percent sign
  · have plus : b ≠ 0x2B := by
      rintro rfl
      cases kept
    rw [List.map_singleton, plusToSpace, if_neg plus]
    refine single ?_
    rintro rfl
    cases kept
  · have same : (encode (percentOctet b)).map plusToSpace = encode (percentOctet b) := by
      refine (List.map_congr_left fun x mem => if_neg ?_).trans (List.map_id _)
      rintro rfl
      exact absurd (mem_encode_percentOctet mem) (by decide)
    rw [same, percentDecode_of_escapes (escapes_percentOctet b rest), UInt8.ofNat_toNat]

/-- A name or a value is read as what was written. -/
theorem formDecode_formEncode (s : String) : formDecode (encode (formEncode s)) = s := by
  have octets : percentDecode ((encode (formEncode s)).map plusToSpace) = encode s.toList := by
    rw [encode_formEncode]
    induction encode s.toList with
    | nil => rfl
    | cons b bs ih =>
      rw [List.flatMap_cons, List.map_append, percentDecode_formOctet, ih]
  calc formDecode (encode (formEncode s))
      = Text.Utf8.decodeLossy (percentDecode ((encode (formEncode s)).map plusToSpace)) := rfl
    _ = s := by rw [octets, decodeLossy_encode, String.ofList_toList]

/-! ## All of a form

The induction is on the pairs, one cut at a time.
-/

/-- A name and its value as they are sent. -/
def formPart (pair : String × String) : List Char := formEncode pair.1 ++ '=' :: formEncode pair.2

/-- Pairs as they are sent. -/
def form : List (String × String) → List Char
  | [] => []
  | [pair] => formPart pair
  | pair :: more => formPart pair ++ '&' :: form more

variable {mark : Octet} {part : List Octet}

theorem splitAt_ne_nil (mark : Octet) (bs : List Octet) : splitAt mark bs ≠ [] := by
  induction bs with
  | nil => exact nofun
  | cons b rest ih =>
    unfold splitAt
    split
    · exact nofun
    · split <;> exact nofun

theorem splitAt_part (h : mark ∉ part) : splitAt mark part = [part] := by
  induction part with
  | nil => rfl
  | cons b rest ih =>
    simp only [List.mem_cons, not_or] at h
    simp [splitAt, ih h.2, Ne.symm h.1]

theorem splitAt_append (h : mark ∉ part) (rest : List Octet) :
    splitAt mark (part ++ mark :: rest) = part :: splitAt mark rest := by
  induction part with
  | nil =>
    obtain ⟨first, more, hs⟩ := List.exists_cons_of_ne_nil (splitAt_ne_nil mark rest)
    simp [splitAt, hs]
  | cons b part ih =>
    simp only [List.mem_cons, not_or] at h
    simp [splitAt, ih h.2, Ne.symm h.1]

theorem encode_formPart (pair : String × String) :
    encode (formPart pair) = encode (formEncode pair.1) ++ 0x3D :: encode (formEncode pair.2) :=
  encode_append _ _

theorem mark_not_mem_formPart (pair : String × String) : 0x26 ∉ encode (formPart pair) := by
  rw [encode_formPart, List.mem_append, List.mem_cons, not_or, not_or]
  exact ⟨(not_mem_formEncode _).1, by decide, (not_mem_formEncode _).1⟩

/-- A form is split into the parts of its pairs. -/
theorem splitAt_form {pairs : List (String × String)} (some : pairs ≠ []) :
    splitAt 0x26 (encode (form pairs)) = pairs.map fun pair => encode (formPart pair) := by
  fun_induction form pairs with
  | case1 => exact absurd rfl some
  | case2 pair => exact splitAt_part (mark_not_mem_formPart pair)
  | case3 pair more inner ih =>
    have octets : encode (formPart pair ++ '&' :: form more) =
        encode (formPart pair) ++ 0x26 :: encode (form more) := encode_append _ _
    rw [octets, splitAt_append (mark_not_mem_formPart pair), ih inner, List.map_cons]

/-- The first equals sign ends the name. -/
theorem parts_formPart (pair : String × String) :
    (encode (formPart pair)).takeWhile (· != 0x3D) = encode (formEncode pair.1) ∧
      (encode (formPart pair)).drop ((encode (formEncode pair.1)).length + 1) =
        encode (formEncode pair.2) := by
  rw [encode_formPart]
  have before : ∀ b ∈ encode (formEncode pair.1), (b != 0x3D) = true := by
    intro b mem
    rw [bne_iff_ne]
    rintro rfl
    exact (not_mem_formEncode pair.1).2 mem
  constructor
  · rw [List.takeWhile_append_of_pos before, List.takeWhile_cons_of_neg (by decide),
      List.append_nil]
  · rw [List.drop_append, List.drop_eq_nil_of_le (Nat.le_succ _), Nat.add_sub_cancel_left]
    rfl

/-- **The pairs that are sent are those that are read.** -/
theorem formPairs_form (pairs : List (String × String)) : formPairs (form pairs) = pairs := by
  by_cases none : pairs = []
  · subst none
    rfl
  · have filled : ∀ bs ∈ pairs.map fun pair => encode (formPart pair), (!bs.isEmpty) = true := by
      intro bs mem
      obtain ⟨pair, -, rfl⟩ := List.mem_map.1 mem
      rw [encode_formPart]
      simp
    rw [formPairs, splitAt_form none, List.filter_eq_self.2 filled, List.map_map]
    refine (List.map_congr_left fun pair _ => ?_).trans (List.map_id pairs)
    obtain ⟨name, value⟩ := parts_formPart pair
    simp only [Function.comp_apply, name, value, formDecode_formEncode, id_eq]

end Http

end Courier
