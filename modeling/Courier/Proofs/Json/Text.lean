import Courier.Json.Scan
import Mathlib.Tactic.SplitIfs

/-!
# JSON text that is written is read back

Scanning the compact text of a value gives the document of the value (`ofText_toString`), whatever
characters its strings hold. Strings go by characters: each is read back from its escape
(`units?_escapeChar`). A number needs an end to its text, since digits could go on behind it
(`Ends`, `number?_append`). Values go by the tree; the length of the text is fuel enough.

Whole numbers go by their digits (`Spells`) and are always read back. Whether a double is depends on
its shortest digits; not every one is, so that a value has to be `Legible`.

What stands behind a value is carried along in every statement, as `rest`: a value is read in the
middle of a text, by a scanner that stops by itself where the value ends.
-/

set_option autoImplicit false

namespace Courier

/-- The number is read back from its text. -/
def JsonNumber.Legible (n : JsonNumber) : Prop :=
  Scan.number? (Json.numberText n).toList = some (some n, [])

mutual

/-- Every number is read back from its text. -/
def Json.Legible : Json → Prop
  | .null | .bool _ | .string _ => True
  | .number n => n.Legible
  | .array items => Json.LegibleItems items
  | .object fields => Json.LegibleFields fields

def Json.LegibleItems : List Json → Prop
  | [] => True
  | x :: rest => Json.Legible x ∧ Json.LegibleItems rest

def Json.LegibleFields : List (String × Json) → Prop
  | [] => True
  | (_, x) :: rest => Json.Legible x ∧ Json.LegibleFields rest

end

namespace Scan

/-! ## Strings -/

/-- The control characters, one by one: there are only so many, and they are written in two
digits. -/
theorem hexNumber?_control :
    ∀ n < 0x20, Uuid.hexNumber? ('0' :: '0' :: Json.hexPair n) = some n := by decide

/-- A character is read back from its escape. -/
theorem units?_escapeChar (c : Char) (rest : List Char) :
    units? (Json.escapeChar c ++ rest) =
      (units? rest).map fun more => (c.toNat :: more.1, more.2) := by
  -- one case for each short escape, one for the control characters, and one for all others
  unfold Json.escapeChar
  split_ifs with quote backslash backspace tab newline formFeed carriageReturn control
  · rw [quote]; rfl
  · rw [backslash]; rfl
  · rw [backspace]; rfl
  · rw [tab]; rfl
  · rw [newline]; rfl
  · rw [formFeed]; rfl
  · rw [carriageReturn]; rfl
  · show (Uuid.hexNumber? ('0' :: '0' :: Json.hexPair c.toNat)).bind _ = _
    rw [hexNumber?_control _ control]
    rfl
  · rw [List.cons_append, List.nil_append, units?]
    · rw [if_neg (not_or.2 ⟨control, backslash⟩)]
    all_goals simp [quote, backslash]

theorem units?_text (cs rest : List Char) :
    units? (cs.flatMap Json.escapeChar ++ '"' :: rest) = some (cs.map Char.toNat, rest) := by
  induction cs with
  | nil => rfl
  | cons c cs ih =>
    rw [List.flatMap_cons, List.append_assoc, units?_escapeChar, ih]
    rfl

theorem not_isHalf (c : Char) : isHighHalf c.toNat = false ∧ isLowHalf c.toNat = false := by
  have valid : c.toNat < 0xD800 ∨ 0xDFFF < c.toNat ∧ c.toNat < 0x110000 := c.valid
  simp only [isHighHalf, isLowHalf, Bool.and_eq_false_iff, decide_eq_false_iff_not]
  omega

/-- No two characters are joined to one, since none is half of a pair. -/
theorem join?_map_toNat (cs : List Char) : join? (cs.map Char.toNat) = some cs := by
  induction cs with
  | nil => rfl
  | cons c cs ih =>
    obtain ⟨high, low⟩ := not_isHalf c
    cases cs with
    | nil => simp [join?, high, low, Char.ofNat_toNat]
    | cons d ds =>
      rw [List.map_cons, List.map_cons, join?, high, low]
      rw [List.map_cons] at ih
      simp [ih, Char.ofNat_toNat]

theorem string?_text (s : String) (rest : List Char) :
    string? (s.toList.flatMap Json.escapeChar ++ '"' :: rest) = some (some s, rest) := by
  rw [string?, units?_text, Option.map_some, join?_map_toNat, Option.map_some, String.ofList_toList]

theorem stringText_append (s : String) (rest : List Char) :
    Json.stringText s ++ rest = '"' :: (s.toList.flatMap Json.escapeChar ++ '"' :: rest) := by
  rw [Json.stringText, List.cons_append, List.cons_append, List.append_assoc]
  rfl

/-! ## Numbers -/

/-- A text in which no number goes on. -/
structure Ends (rest : List Char) : Prop where
  digits : digits rest = ([], rest)
  fraction : fraction? rest = some (none, rest)
  exponent : exponent? rest = some (none, rest)

theorem Ends.nil : Ends [] := ⟨rfl, rfl, rfl⟩

theorem Ends.comma (rest : List Char) : Ends (',' :: rest) := ⟨rfl, rfl, rfl⟩

theorem Ends.bracket (rest : List Char) : Ends (']' :: rest) := ⟨rfl, rfl, rfl⟩

theorem Ends.brace (rest : List Char) : Ends ('\x7d' :: rest) := ⟨rfl, rfl, rfl⟩

section

variable {cs left rest : List Char}

/-- Digits end in front of a text in which no number goes on. The parts of a number below are read
in front of such a text as they are read alone, each because its digits end there. -/
theorem digits_append (cs : List Char) (ends : Ends rest) :
    digits (cs ++ rest) = ((digits cs).1, (digits cs).2 ++ rest) := by
  induction cs with
  | nil => exact ends.digits
  | cons c cs ih =>
    rw [List.cons_append, digits, digits]
    cases Text.digitValue? c with
    | none => rfl
    | some d =>
      dsimp only
      rw [ih]

theorem whole?_append {ds : List Nat} (ends : Ends rest) (h : whole? cs = some (ds, left)) :
    whole? (cs ++ rest) = some (ds, left ++ rest) := by
  unfold whole? at h ⊢
  rw [digits_append cs ends]
  generalize digits cs = found at h ⊢
  obtain ⟨found, behind⟩ := found
  rcases found with _ | ⟨_ | d, _ | ⟨e, more⟩⟩ <;> cases h <;> rfl

/-- A fraction is read in front of such a text. If there is none, none begins there. -/
theorem fraction?_append {ds : Option (List Nat)} (ends : Ends rest)
    (h : fraction? cs = some (ds, left)) : fraction? (cs ++ rest) = some (ds, left ++ rest) := by
  unfold fraction? at h
  split at h
  · next more =>
    rw [List.cons_append, fraction?, digits_append more ends]
    generalize digits more = found at h ⊢
    obtain ⟨found, behind⟩ := found
    cases found <;> cases h
    rfl
  · next other =>
    cases h
    cases cs with
    | nil => exact ends.fraction
    | cons c cs =>
      rw [List.cons_append, fraction?]
      rintro more h
      cases h
      exact other _ rfl

/-- The digits of an exponent. -/
def exponentDigits? (negative : Bool) (cs : List Char) : Option (Option Int × List Char) :=
  match digits cs with
  | ([], _) => none
  | (ds, rest) =>
    let n : Int := digitsValue ds
    some (some (if negative then -n else n), rest)

theorem exponentDigits?_append (negative : Bool) {e : Option Int} (ends : Ends rest)
    (h : exponentDigits? negative cs = some (e, left)) :
    exponentDigits? negative (cs ++ rest) = some (e, left ++ rest) := by
  unfold exponentDigits? at h ⊢
  rw [digits_append cs ends]
  generalize digits cs = found at h ⊢
  obtain ⟨found, behind⟩ := found
  cases found <;> cases h
  rfl

/-- An exponent is read in front of such a text, with either mark, and with or without a sign. -/
theorem exponent?_append {e : Option Int} (ends : Ends rest)
    (h : exponent? cs = some (e, left)) : exponent? (cs ++ rest) = some (e, left ++ rest) := by
  -- a sign behind the mark belongs to it, so that at least a digit must stand there already
  have unsigned {more : List Char} (minus : ∀ cs, more = '-' :: cs → False)
      (plus : ∀ cs, more = '+' :: cs → False) (h : exponentDigits? false more = some (e, left)) :
      exponent? ('e' :: more ++ rest) = some (e, left ++ rest) ∧
        exponent? ('E' :: more ++ rest) = some (e, left ++ rest) := by
    have h' := exponentDigits?_append false ends h
    cases more with
    | nil => cases h
    | cons c cs =>
      constructor
      · rw [List.cons_append, List.cons_append, exponent?]
        · exact h'
        · rintro _ ⟨⟩
          exact minus _ rfl
        · rintro _ ⟨⟩
          exact plus _ rfl
      · rw [List.cons_append, List.cons_append, exponent?]
        · exact h'
        · rintro _ ⟨⟩
          exact minus _ rfl
        · rintro _ ⟨⟩
          exact plus _ rfl
  unfold exponent? at h
  split at h
  case h_1 more => exact exponentDigits?_append true ends h
  case h_2 more => exact exponentDigits?_append true ends h
  case h_3 more => exact exponentDigits?_append false ends h
  case h_4 more => exact exponentDigits?_append false ends h
  case h_5 more minus plus => exact (unsigned minus plus h).1
  case h_6 more minus plus => exact (unsigned minus plus h).2
  case h_7 =>
    rename_i lower upper
    cases h
    cases cs with
    | nil => exact ends.exponent
    | cons c cs =>
      rw [List.cons_append, exponent?]
      all_goals
        intro more he
        obtain ⟨rfl, -⟩ := List.cons.inj he
        first | exact lower _ rfl | exact upper _ rfl

theorem unsigned?_append {negative : Bool} {n : Option JsonNumber} (ends : Ends rest)
    (h : unsigned? negative cs = some (n, left)) :
    unsigned? negative (cs ++ rest) = some (n, left ++ rest) := by
  unfold unsigned? at h ⊢
  obtain ⟨⟨ds, behindWhole⟩, hw, h⟩ := Option.bind_eq_some_iff.1 h
  obtain ⟨⟨fraction, behindFraction⟩, hf, h⟩ := Option.bind_eq_some_iff.1 h
  obtain ⟨⟨exponent, behind⟩, he, h⟩ := Option.map_eq_some_iff.1 h
  simp only [whole?_append ends hw, fraction?_append ends hf, exponent?_append ends he,
    Option.bind_some, Option.map_some]
  cases fraction <;> cases exponent <;> cases h <;> rfl

/-- A text that begins with a number begins like one. -/
theorem number?_front {found : Option JsonNumber × List Char} (h : number? cs = some found) :
    ∃ c more, cs = c :: more ∧ (c = '-' ∨ c.isDigit = true) := by
  cases cs with
  | nil => cases h
  | cons c more =>
    refine ⟨c, more, rfl, ?_⟩
    by_cases minus : c = '-'
    · exact .inl minus
    · right
      rw [number?] at h
      · cases hd : Text.digitValue? c with
        | none =>
          have blank : digits (c :: more) = ([], c :: more) := by rw [digits, hd]
          rw [unsigned?, whole?, blank] at h
          cases h
        | some d => exact Text.isDigit_of_digitValue? hd
      · rintro _ ⟨⟩
        exact minus rfl

/-- A number that is read to the end of its text is read in front of other text too, if it could not
go on there. -/
theorem number?_append {n : Option JsonNumber} (ends : Ends rest)
    (h : number? cs = some (n, left)) : number? (cs ++ rest) = some (n, left ++ rest) := by
  unfold number? at h
  split at h
  · exact unsigned?_append ends h
  · next other =>
    cases cs with
    | nil => cases h
    | cons c cs =>
      rw [List.cons_append, number?]
      · exact unsigned?_append ends h
      · rintro _ ⟨⟩
        exact other _ rfl

end

/-! ## Whole numbers -/

/-- The decimal digits of a number. -/
structure Spells (ds : List Nat) (n : Nat) : Prop where
  written : Nat.toDigits 10 n = ds.map Nat.digitChar
  small : ∀ d ∈ ds, d < 10
  value : digitsValue ds = n
  front : ds = [0] ∨ ∃ d rest, ds = (d + 1) :: rest

/-- Every number has its digits. -/
theorem exists_spells (n : Nat) : ∃ ds, Spells ds n := by
  -- the digits of a tenth of the number, and the last one behind them
  induction n using Nat.strongRecOn with
  | _ n ih =>
    by_cases lt : n < 10
    · refine ⟨[n], Nat.toDigits_of_lt_base lt, by simpa using lt, by simp [digitsValue], ?_⟩
      cases n with
      | zero => exact .inl rfl
      | succ d => exact .inr ⟨d, [], rfl⟩
    · obtain ⟨ds, spells⟩ := ih (n / 10) (by omega)
      refine ⟨ds ++ [n % 10], ?_, ?_, ?_, ?_⟩
      · rw [Nat.toDigits_of_base_le (by decide) (by omega), spells.written, List.map_append]
        rfl
      · intro d hd
        rcases List.mem_append.1 hd with h | h
        · exact spells.small d h
        · rw [List.mem_singleton.1 h]
          exact Nat.mod_lt n (by decide)
      · have value := spells.value
        rw [digitsValue] at value ⊢
        rw [List.foldl_append, value]
        show 10 * (n / 10) + n % 10 = n
        omega
      · -- a single zero in front would make it a number below ten
        rcases spells.front with h | ⟨d, rest, h⟩
        · have value := spells.value
          rw [h] at value
          exact absurd value (by simp [digitsValue]; omega)
        · exact .inr ⟨d, rest ++ [n % 10], by rw [h]; rfl⟩

/-- The digits that a number is spelled with are read as those digits. -/
theorem digits_map {ds : List Nat} (small : ∀ d ∈ ds, d < 10) :
    digits (ds.map Nat.digitChar) = (ds, []) := by
  induction ds with
  | nil => rfl
  | cons d ds ih =>
    have lt := small d List.mem_cons_self
    rw [List.map_cons, digits, Text.digitValue?_digitChar lt]
    dsimp only
    rw [ih fun x hx => small x (List.mem_cons_of_mem _ hx)]

/-- Digits that fit are all taken. -/
theorem leading_of_le {ds : List Nat} : ∀ {acc : Nat},
    ds.foldl (fun acc d => 10 * acc + d) acc ≤ greatestPart →
      leading acc ds = (ds.foldl (fun acc d => 10 * acc + d) acc, ds.length, 0) := by
  -- what has been read of a number is no more than the number
  have grows (ds : List Nat) : ∀ acc, acc ≤ ds.foldl (fun acc d => 10 * acc + d) acc := by
    induction ds with
    | nil => exact fun acc => Nat.le_refl acc
    | cons d ds ih =>
      intro acc
      refine Nat.le_trans ?_ (ih (10 * acc + d))
      omega
  -- by induction on the digits, none of which can bring the number beyond the greatest one
  induction ds with
  | nil => intros; rfl
  | cons d ds ih =>
    intro acc le
    rw [List.foldl_cons] at le ⊢
    rw [leading, if_pos (Nat.le_trans (grows ds _) le), ih le]
    rfl

/-- A whole number without its sign is read back. -/
theorem unsigned?_toDigits {n : Nat} (le : n ≤ greatestPart) (negative : Bool) :
    ∃ ds, leading 0 ds = (n, ds.length, 0) ∧
      unsigned? negative (Nat.toDigits 10 n) = some (wholeNumber negative ds, []) := by
  obtain ⟨ds, spells⟩ := exists_spells n
  refine ⟨ds, ?_, ?_⟩
  · have value := spells.value
    rw [digitsValue] at value
    have taken : leading 0 ds = _ := leading_of_le (by rw [value]; exact le)
    rwa [value] at taken
  · have found : whole? (ds.map Nat.digitChar) = some (ds, []) := by
      rw [whole?, digits_map spells.small]
      rcases spells.front with h | ⟨d, more, h⟩
      · rw [h]; rfl
      · rw [h]; rfl
    simp only [spells.written, unsigned?, found, Option.bind_some, Ends.nil.fraction,
      Ends.nil.exponent, Option.map_some]

/-- How a whole number is written: its digits, with a sign if it is negative. -/
theorem numberText_integer (i : Int) :
    (Json.numberText (.integer i)).toList =
      if 0 ≤ i then Nat.toDigits 10 i.toNat else '-' :: Nat.toDigits 10 (-i).toNat := by
  rw [Json.numberText, Int.toString_eq_repr, Int.repr_eq_if]
  split
  · exact Nat.toList_repr
  · rw [String.toList_append, Nat.toList_repr]
    rfl

theorem toDigits_front (n : Nat) : ∃ c cs, Nat.toDigits 10 n = c :: cs ∧ c.isDigit = true := by
  cases h : Nat.toDigits 10 n with
  | nil => exact absurd h Nat.toDigits_ne_nil
  | cons c cs =>
    have mem : c ∈ Nat.toDigits 10 n := by
      rw [h]
      exact List.mem_cons_self
    exact ⟨c, cs, rfl, Nat.isDigit_of_mem_toDigits (by decide) (by decide) mem⟩

/-- A whole number of the 64-bit ranges is read back. -/
theorem legible_integer {i : Int} (h : Json.inRange i = true) : (JsonNumber.integer i).Legible := by
  simp only [Json.inRange, Bool.and_eq_true, decide_eq_true_eq] at h
  rw [JsonNumber.Legible, numberText_integer]
  split
  · next nonneg =>
    obtain ⟨ds, taken, read⟩ := unsigned?_toDigits (n := i.toNat)
      (by rw [greatestPart, UInt64.size]; omega) false
    have plain : number? (Nat.toDigits 10 i.toNat) =
        unsigned? false (Nat.toDigits 10 i.toNat) := by
      obtain ⟨c, cs, written, digit⟩ := toDigits_front i.toNat
      rw [written, number?]
      rintro _ h
      cases h
      cases digit
    rw [plain, read, wholeNumber, taken]
    simp [Int.toNat_of_nonneg nonneg]
  -- a negative integer may be as far from zero as `2 ^ 63`
  · next neg =>
    obtain ⟨ds, taken, read⟩ := unsigned?_toDigits (n := (-i).toNat)
      (by rw [greatestPart, UInt64.size]; omega) true
    rw [number?, read, wholeNumber, taken]
    have pos : 0 < (-i).toNat ∧ (-i).toNat ≤ 9223372036854775808 := by omega
    have back : -((-i).toNat : Int) = i := by omega
    simp only [if_pos, pos, back, and_self]

/-! ## Values -/

theorem skip_cons {c : Char} (h : isBlank c = false) (cs : List Char) :
    skip (c :: cs) = c :: cs := by
  rw [skip, List.dropWhile_cons_of_neg]
  rw [h]
  decide

/-- What begins like a number is scanned as one. -/
theorem value_number {c : Char} (h : c = '-' ∨ c.isDigit = true) (fuel : Nat) (cs : List Char) :
    isBlank c = false ∧
    value (fuel + 1) (c :: cs) =
      match number? (c :: cs) with
      | some (n, rest) => (.number n, some rest)
      | none => (.malformed, none) := by
  -- none of the marks by which a value of another kind is known begins a number
  have other {d : Char} (hd : d ≠ '-' ∧ d.isDigit = false) : c ≠ d := by
    rintro rfl
    rcases h with h | h
    · exact hd.1 h
    · rw [hd.2] at h
      cases h
  have blank : isBlank c = false := by
    simp only [isBlank, Bool.or_eq_false_iff, beq_eq_false_iff_ne]
    exact ⟨⟨⟨other (by decide), other (by decide)⟩, other (by decide)⟩, other (by decide)⟩
  refine ⟨blank, ?_⟩
  rw [value, skip_cons blank]
  split
  case h_7 => rfl
  all_goals
    rename_i he
    cases he
    exact absurd rfl (other (by decide))

/-- The text of a value begins with no blank, and with no bracket that would close an array. -/
theorem text_front {v : Json} (legible : v.Legible) :
    ∃ c cs, v.text = c :: cs ∧ isBlank c = false ∧ c ≠ ']' := by
  cases v with
  | null => exact ⟨_, _, rfl, rfl, by decide⟩
  | bool b => cases b <;> exact ⟨_, _, rfl, rfl, by decide⟩
  | number n =>
    obtain ⟨c, cs, written, front⟩ := number?_front legible
    refine ⟨c, cs, written, (value_number front 0 cs).1, ?_⟩
    rintro rfl
    rcases front with h | h <;> cases h
  | string s => exact ⟨_, _, rfl, rfl, by decide⟩
  | array items => exact ⟨_, _, rfl, rfl, by decide⟩
  | object fields => exact ⟨_, _, rfl, rfl, by decide⟩

/-- An array is read back if its items are. -/
theorem value_array {items : List Json} (legible : Json.LegibleItems items) {fuel : Nat}
    {rest : List Char}
    (read : items ≠ [] → Scan.items fuel (Json.itemsText true items ++ rest) =
      (Document.ofItems items, some rest)) :
    value (fuel + 1) ((Json.array items).text ++ rest) = (.ofJson (.array items), some rest) := by
  cases items with
  | nil => rfl
  | cons x more =>
    have read := read (List.cons_ne_nil x more)
    obtain ⟨c, cs, front, blank, other⟩ := text_front legible.1
    have begins : Json.itemsText true (x :: more) ++ rest =
        c :: (cs ++ Json.itemsText false more ++ rest) := by
      rw [Json.itemsText, front]
      rfl
    rw [begins] at read
    rw [Json.text, List.cons_append, begins]
    have bracket (cs : List Char) : skip ('[' :: cs) = '[' :: cs := skip_cons rfl cs
    simp only [value, bracket, skip_cons blank]
    split
    · next h =>
      cases h
      exact absurd rfl other
    · rw [read]
      rfl

/-- An object is read back if its fields are. -/
theorem value_object {fields : List (String × Json)} {fuel : Nat} {rest : List Char}
    (read : fields ≠ [] → Scan.fields fuel (Json.fieldsText true fields ++ rest) =
      (Document.ofFields fields, some rest)) :
    value (fuel + 1) ((Json.object fields).text ++ rest) =
      (.ofJson (.object fields), some rest) := by
  cases fields with
  | nil => rfl
  | cons f more =>
    have read := read (List.cons_ne_nil f more)
    rw [Json.text, List.cons_append]
    show (Document.object (Scan.fields fuel (Json.fieldsText true (f :: more) ++ rest)).1
      (Scan.fields fuel (Json.fieldsText true (f :: more) ++ rest)).2.isSome,
      (Scan.fields fuel (Json.fieldsText true (f :: more) ++ rest)).2) = _
    rw [read]
    rfl

section

variable {k : String} {fuel : Nat} {cs rest : List Char} {d : Document}

/-- The last field: its name is read back, and its value is what stands behind the colon. -/
theorem fields_last (read : value fuel cs = (d, some ('\x7d' :: rest))) :
    Scan.fields (fuel + 1) (Json.stringText k ++ ':' :: cs) =
      ([(.text (some k), d)], some rest) := by
  have colon : skip (':' :: cs) = ':' :: cs := skip_cons rfl cs
  have brace : skip ('\x7d' :: rest) = '\x7d' :: rest := skip_cons rfl rest
  rw [stringText_append, Scan.fields, skip_cons rfl]
  simp only [string?_text, colon, read, brace]

/-- A field with others behind it. -/
theorem fields_more (read : value fuel cs = (d, some (',' :: rest))) :
    Scan.fields (fuel + 1) (Json.stringText k ++ ':' :: cs) =
      ((.text (some k), d) :: (Scan.fields fuel rest).1, (Scan.fields fuel rest).2) := by
  have colon : skip (':' :: cs) = ':' :: cs := skip_cons rfl cs
  have comma : skip (',' :: rest) = ',' :: rest := skip_cons rfl rest
  rw [stringText_append, Scan.fields, skip_cons rfl]
  simp only [string?_text, colon, read, comma]

end

mutual

/-- A value is read back if no number could go on behind it. -/
theorem value_text : ∀ (v : Json) (fuel : Nat) (rest : List Char), v.Legible →
    v.text.length ≤ fuel → Ends rest → value fuel (v.text ++ rest) = (.ofJson v, some rest)
  -- no value is written as the empty text, so the fuel does not run out here
  | v, 0, rest, legible, le, _ => by
    obtain ⟨c, cs, h, -⟩ := text_front legible
    rw [h] at le
    cases le
  | .null, fuel + 1, rest, _, _, _ => rfl
  | .bool true, fuel + 1, rest, _, _, _ => rfl
  | .bool false, fuel + 1, rest, _, _, _ => rfl
  | .number n, fuel + 1, rest, legible, _, ends => by
    have read := number?_append ends legible
    obtain ⟨c, cs, written, front⟩ := number?_front legible
    rw [written, List.cons_append] at read
    rw [Json.text, written, List.cons_append, (value_number front fuel _).2, read]
    rfl
  | .string s, fuel + 1, rest, _, _, _ => by
    rw [Json.text, stringText_append]
    have quote (cs : List Char) : skip ('"' :: cs) = '"' :: cs := skip_cons rfl cs
    simp only [value, quote, string?_text, Document.ofJson]
  | .array items, fuel + 1, rest, legible, le, _ =>
    value_array legible fun any =>
      items_text items fuel rest any legible (Nat.le_of_succ_le_succ le)
  | .object fields, fuel + 1, rest, legible, le, _ =>
    value_object fun any => fields_text fields fuel rest any legible (Nat.le_of_succ_le_succ le)

-- Each step down the list takes a comma at least, so that one unit of fuel less is enough.
/-- The items of an array are read back up to the closing bracket, by as much fuel as the text is
long. -/
theorem items_text : ∀ (items : List Json) (fuel : Nat) (rest : List Char), items ≠ [] →
    Json.LegibleItems items → (Json.itemsText true items).length ≤ fuel →
      Scan.items fuel (Json.itemsText true items ++ rest) = (Document.ofItems items, some rest)
  | x :: more, 0, rest, _, legible, le => by
    obtain ⟨c, cs, h, -⟩ := text_front legible.1
    simp [Json.itemsText, h] at le
  | [x], fuel + 1, rest, _, legible, le => by
    have written : Json.itemsText true [x] = x.text ++ [']'] := rfl
    rw [written, List.length_append] at le
    have read := value_text x fuel (']' :: rest) legible.1 (Nat.le_of_succ_le_succ le)
      (.bracket rest)
    rw [written, List.append_assoc, Scan.items, List.cons_append, List.nil_append, read]
    rfl
  | x :: y :: more, fuel + 1, rest, _, legible, le => by
    have written : Json.itemsText true (x :: y :: more) =
        x.text ++ ',' :: Json.itemsText true (y :: more) := rfl
    rw [written, List.length_append, List.length_cons] at le
    have read := value_text x fuel (',' :: (Json.itemsText true (y :: more) ++ rest)) legible.1
      (by omega) (.comma _)
    have reads := items_text (y :: more) fuel rest (List.cons_ne_nil y more) legible.2 (by omega)
    rw [written, List.append_assoc, Scan.items, List.cons_append, read]
    show (Document.ofJson x :: (Scan.items fuel (Json.itemsText true (y :: more) ++ rest)).1,
      (Scan.items fuel (Json.itemsText true (y :: more) ++ rest)).2) = _
    rw [reads]
    rfl

/-- The fields of an object are read back up to the closing brace, names and values. -/
theorem fields_text : ∀ (fields : List (String × Json)) (fuel : Nat) (rest : List Char),
    fields ≠ [] → Json.LegibleFields fields → (Json.fieldsText true fields).length ≤ fuel →
      Scan.fields fuel (Json.fieldsText true fields ++ rest) =
        (Document.ofFields fields, some rest)
  | f :: more, 0, rest, _, legible, le => by
    simp [Json.fieldsText, Json.stringText] at le
  | [(k, x)], fuel + 1, rest, _, legible, le => by
    have written : Json.fieldsText true [(k, x)] =
        Json.stringText k ++ ':' :: x.text ++ ['\x7d'] := rfl
    rw [written, List.length_append, List.length_append, List.length_cons] at le
    have read := value_text x fuel ('\x7d' :: rest) legible.1 (by omega) (.brace rest)
    rw [written, List.append_assoc, List.append_assoc, List.cons_append, List.cons_append,
      List.nil_append, fields_last read]
    rfl
  | (k, x) :: f :: more, fuel + 1, rest, _, legible, le => by
    have written : Json.fieldsText true ((k, x) :: f :: more) =
        Json.stringText k ++ ':' :: x.text ++ ',' :: Json.fieldsText true (f :: more) := rfl
    rw [written, List.length_append, List.length_append, List.length_cons, List.length_cons] at le
    have read := value_text x fuel (',' :: (Json.fieldsText true (f :: more) ++ rest)) legible.1
      (by omega) (.comma _)
    have reads := fields_text (f :: more) fuel rest (List.cons_ne_nil f more) legible.2 (by omega)
    rw [written, List.append_assoc, List.append_assoc, List.cons_append, List.cons_append,
      fields_more read, reads]
    rfl

end

end Scan

theorem Document.ofText_toString {v : Json} (legible : v.Legible) :
    Document.ofText v.toString = (.ofJson v, true) := by
  have read := Scan.value_text v (2 * v.text.length + 2) [] legible (by omega) .nil
  rw [List.append_nil] at read
  rw [Document.ofText, Json.toString, String.toList_ofList, read]
  rfl

end Courier
