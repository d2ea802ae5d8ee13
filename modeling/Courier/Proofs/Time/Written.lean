import Courier.Proofs.Time.Calendar
import Courier.Time.DateTime

/-!
# Times that are written are read back

A point in time is written with all its digits and read part by part. Each part is read back with
whatever follows it left over: numbers of a fixed width (`number?_padded`), years (`year?_text`) and
fractions (`fraction?_text`). What they name together is the point again (`parse?_toString`), a leap
second too, if the year is one that a date may have.
-/

set_option autoImplicit false

namespace Courier

/-! ## Digits -/

namespace Text

variable {c : Char}

/-- A digit is no blank, so that the blanks which may stand before every part end there. -/
theorem not_isBlank_of_isDigit (h : c.isDigit = true) : isBlank c = false := by
  have hc : 48 ≤ c.toNat ∧ c.toNat ≤ 57 := by
    simp only [Char.isDigit, Bool.and_eq_true, decide_eq_true_eq, ge_iff_le,
      UInt32.le_iff_toNat_le] at h
    exact h
  simp only [isBlank, Bool.or_eq_false_iff, Bool.and_eq_false_iff, decide_eq_false_iff_not,
    beq_eq_false_iff_ne]
  omega

theorem skipBlanks_of_isDigit (h : c.isDigit = true) (rest : List Char) :
    skipBlanks (c :: rest) = c :: rest := by
  simp [skipBlanks, not_isBlank_of_isDigit h]

end Text

namespace DateTime

open Text (digitValue? digitValue?_of_isDigit skipBlanks skipBlanks_of_isDigit)

/-- Digits are taken one by one. -/
theorem takeDigits_append {ds : List Char} (digits : ∀ c ∈ ds, c.isDigit = true)
    (rest : List Char) : ∀ {most acc count : Nat}, ds.length ≤ most →
      takeDigits most acc count (ds ++ rest) =
        takeDigits (most - ds.length) (Nat.ofDigitChars 10 ds acc) (count + ds.length) rest := by
  induction ds with
  | nil => intros; rfl
  | cons c ds ih =>
    intro most acc count le
    obtain ⟨most, rfl⟩ : ∃ m, most = m + 1 := ⟨most - 1, by simp at le; omega⟩
    rw [List.cons_append, takeDigits, digitValue?_of_isDigit (digits c List.mem_cons_self)]
    dsimp only
    rw [ih (fun x hx => digits x (List.mem_cons_of_mem _ hx)) (by simpa using le)]
    rw [Nat.ofDigitChars_cons, List.length_cons]
    congr 1 <;> omega

theorem takeDigits_of_length {ds : List Char} (digits : ∀ c ∈ ds, c.isDigit = true)
    (rest : List Char) :
    takeDigits ds.length 0 0 (ds ++ rest) = (Nat.ofDigitChars 10 ds 0, ds.length, rest) := by
  rw [takeDigits_append digits rest (Nat.le_refl _), Nat.sub_self, Nat.zero_add]
  rfl

/-- Digits end where there are none. -/
theorem takeDigits_of_end {ds : List Char} (digits : ∀ c ∈ ds, c.isDigit = true) {most : Nat}
    (le : ds.length ≤ most) {c : Char} (ends : digitValue? c = none) (rest : List Char) :
    takeDigits most 0 0 (ds ++ c :: rest) = (Nat.ofDigitChars 10 ds 0, ds.length, c :: rest) := by
  rw [takeDigits_append digits _ le, Nat.zero_add]
  cases most - ds.length with
  | zero => rfl
  | succ n => rw [takeDigits, ends]

theorem length_padded (width n : Nat) : (padded width n).length = width := by
  induction width generalizing n with
  | zero => rfl
  | succ width ih => rw [padded, List.length_append, ih]; rfl

theorem isDigit_of_mem_padded {width n : Nat} {c : Char} (h : c ∈ padded width n) :
    c.isDigit = true := by
  induction width generalizing n with
  | zero => cases h
  | succ width ih =>
    rcases List.mem_append.1 h with h | h
    · exact ih h
    · rw [List.mem_singleton.1 h, Nat.isDigit_digitChar]
      exact decide_eq_true (Nat.mod_lt n (by decide))

/-- The padded digits of a number that fits stand for the number. -/
theorem ofDigitChars_padded {width n : Nat} (h : n < Nat.pow 10 width) :
    Nat.ofDigitChars 10 (padded width n) 0 = n := by
  -- by induction on the width, from the last digit to the first
  induction width generalizing n with
  | zero =>
    have none_left : n < 1 := h
    rw [padded, Nat.ofDigitChars_nil]
    omega
  | succ width ih =>
    have room : n < 10 * Nat.pow 10 width := by
      rw [Nat.mul_comm]
      exact h
    have lt : n / 10 < Nat.pow 10 width := Nat.div_lt_of_lt_mul room
    rw [padded, Nat.ofDigitChars_append, ih lt,
      Nat.ofDigitChars_cons_digitChar_of_lt_ten (Nat.mod_lt n (by decide)), Nat.ofDigitChars_nil]
    omega

/-- A number that fits its width is read back. -/
theorem number?_padded {width n : Nat} (pos : 0 < width) (h : n < Nat.pow 10 width)
    (rest : List Char) :
    number? width (padded width n ++ rest) = some (n, rest) := by
  have digits : ∀ c ∈ padded width n, c.isDigit = true := fun c hc => isDigit_of_mem_padded hc
  have length := length_padded width n
  have taken := takeDigits_of_length digits rest
  rw [length, ofDigitChars_padded h] at taken
  have front : skipBlanks (padded width n ++ rest) = padded width n ++ rest := by
    cases hp : padded width n with
    | nil =>
      rw [hp] at length
      exact absurd length.symm (Nat.ne_of_gt pos)
    | cons c ds =>
      rw [hp] at digits
      exact skipBlanks_of_isDigit (digits c List.mem_cons_self) _
  rw [number?, front, taken]
  cases width with
  | zero => cases pos
  | succ width => rfl

/-! ## The parts of a time

Each reader takes what was written for it and leaves the rest.
-/

theorem mark?_cons {c : Char} (h : Text.isBlank c = false) (rest : List Char) :
    mark? c (c :: rest) = some rest := by
  simp [mark?, skipBlanks, h]

/-- A year without a sign has four digits. -/
theorem year?_of_isDigit {c : Char} (h : c.isDigit = true) (rest : List Char) :
    year? (c :: rest) = (number? 4 (c :: rest)).map fun found => ((found.1 : Int), found.2) := by
  rw [year?, skipBlanks_of_isDigit h]
  split
  · next he =>
    cases he
    cases h
  · next he =>
    cases he
    cases h
  · rfl

/-- A sign takes all digits behind it. -/
theorem year?_signed {ds : List Char} (digits : ∀ c ∈ ds, c.isDigit = true) (any : ds.length ≠ 0)
    (rest : List Char) :
    year? ('-' :: (ds ++ '-' :: rest)) = some (-(Nat.ofDigitChars 10 ds 0 : Int), '-' :: rest) ∧
      year? ('+' :: (ds ++ '-' :: rest)) =
        some ((Nat.ofDigitChars 10 ds 0 : Int), '-' :: rest) := by
  have room : ds.length ≤ (ds ++ '-' :: rest).length := by
    rw [List.length_append]
    exact Nat.le_add_right _ _
  -- the dash behind the year ends its digits
  have taken := takeDigits_of_end digits room (c := '-') rfl rest
  obtain ⟨n, hn⟩ := Nat.exists_eq_succ_of_ne_zero any
  rw [hn] at taken
  have minus (cs : List Char) : skipBlanks ('-' :: cs) = '-' :: cs := rfl
  have plus (cs : List Char) : skipBlanks ('+' :: cs) = '+' :: cs := rfl
  constructor
  · simp only [year?, minus, taken]
  · simp only [year?, plus, taken]

/-- The digits of a year outside the four-digit range, four at least. -/
theorem year_digits (n : Nat) :
    let ds := List.replicate (4 - (Nat.toDigits 10 n).length) '0' ++ Nat.toDigits 10 n
    (∀ c ∈ ds, c.isDigit = true) ∧ Nat.ofDigitChars 10 ds 0 = n ∧ ds.length ≠ 0 := by
  refine ⟨fun c hc => ?_, ?_, ?_⟩
  · rcases List.mem_append.1 hc with h | h
    · rw [List.eq_of_mem_replicate h]
      rfl
    · exact Nat.isDigit_of_mem_toDigits (by decide) (by decide) h
  · rw [Nat.ofDigitChars_append, Nat.ofDigitChars_replicate_zero, Nat.mul_zero,
      Nat.ofDigitChars_ten_toDigits]
  · have := @Nat.length_toDigits_pos 10 n
    rw [List.length_append]
    omega

/-- A year is read back up to the dash behind it. -/
theorem year?_text (y : Int) (rest : List Char) :
    year? (yearText y ++ '-' :: rest) = some (y, '-' :: rest) := by
  -- a year of four digits is written without a sign, any other one with it
  unfold yearText
  split
  · next h =>
    have lt : y.toNat < 10 ^ 4 := by omega
    have digits : ∀ c ∈ padded 4 y.toNat, c.isDigit = true := fun c hc => isDigit_of_mem_padded hc
    have read := number?_padded (by decide : 0 < 4) lt ('-' :: rest)
    have length := length_padded 4 y.toNat
    cases hp : padded 4 y.toNat with
    | nil =>
      rw [hp] at length
      cases length
    | cons c ds =>
      rw [hp] at digits read
      rw [List.cons_append] at read ⊢
      rw [year?_of_isDigit (digits c List.mem_cons_self), read]
      simp only [Option.map_some, Int.toNat_of_nonneg h.1]
  · next h =>
    obtain ⟨digits, value, any⟩ := year_digits y.natAbs
    have signed := year?_signed digits any rest
    rw [value] at signed
    rw [List.cons_append, List.cons_append]
    split
    · rw [signed.1, Int.ofNat_natAbs_of_nonpos (by omega), Int.neg_neg]
    · rw [signed.2, Int.natAbs_of_nonneg (by omega)]

/-- Digits behind the point are nanoseconds when nine of them are. -/
theorem fraction?_padded {width n : Nat} (le : width + 1 ≤ 9) (lt : n < Nat.pow 10 (width + 1))
    (rest : List Char) :
    fraction? ('.' :: padded (width + 1) n ++ 'Z' :: rest) =
      some (n * Nat.pow 10 (8 - width), 'Z' :: rest) := by
  have digits : ∀ c ∈ padded (width + 1) n, c.isDigit = true :=
    fun c hc => isDigit_of_mem_padded hc
  have room : (padded (width + 1) n).length ≤ 9 := by
    rw [length_padded]
    exact le
  have taken := takeDigits_of_end digits room (c := 'Z') rfl rest
  rw [length_padded, ofDigitChars_padded lt] at taken
  rw [List.cons_append, fraction?, taken]
  rfl

/-- A fraction is read back up to the letter behind it. -/
theorem fraction?_text {nanos : Nat} (h : nanos < 1000000000) (rest : List Char) :
    fraction? (fractionText nanos ++ 'Z' :: rest) = some (nanos, 'Z' :: rest) := by
  -- no fraction, or one of three, six or nine digits
  unfold fractionText
  split
  · next none_left =>
    rw [none_left]
    rfl
  · split
    · next millis =>
      have lt : nanos / 1000000 < Nat.pow 10 (2 + 1) := Nat.div_lt_of_lt_mul h
      have whole : nanos / 1000000 * Nat.pow 10 (8 - 2) = nanos :=
        Nat.div_mul_cancel (Nat.dvd_of_mod_eq_zero millis)
      rw [fraction?_padded (by decide) lt, whole]
    · split
      · next micros =>
        have lt : nanos / 1000 < Nat.pow 10 (5 + 1) := Nat.div_lt_of_lt_mul h
        have whole : nanos / 1000 * Nat.pow 10 (8 - 5) = nanos :=
          Nat.div_mul_cancel (Nat.dvd_of_mod_eq_zero micros)
        rw [fraction?_padded (by decide) lt, whole]
      · have lt : nanos < Nat.pow 10 (8 + 1) := h
        have whole : nanos * Nat.pow 10 (8 - 8) = nanos := Nat.mul_one nanos
        rw [fraction?_padded (by decide) lt, whole]

/-! ## The whole -/

/-- The year is one that a date may have. -/
def Datable (t : DateTime) : Prop := yearInRange t.date.year = true

/-- A point is its day and its second of the day. -/
theorem seconds_eq (t : DateTime) :
    t.seconds = Int.fdiv t.seconds secondsOfDay * 86400 + t.secondOfDay ∧
      t.secondOfDay < 86400 := by
  have := t.seconds.emod_nonneg (b := 86400) (by decide)
  rw [secondOfDay, secondsOfDay, Int.fdiv_eq_ediv_of_nonneg _ (by decide),
    Int.fmod_eq_emod_of_nonneg _ (by decide)]
  omega

/-- The parts of a point name it. -/
theorem ofLocal?_parts (t : DateTime) (h : t.Datable) :
    ofLocal? t.date (t.secondOfDay / 3600) (t.secondOfDay / 60 % 60)
      (t.secondOfDay % 60 + t.nanos / 1000000000) (t.nanos % 1000000000) 0 = some t := by
  obtain ⟨split, lt⟩ := t.seconds_eq
  have leap := t.leap
  have nanos := t.nanos_lt
  -- a leap second comes behind the last second of a minute
  have extra : t.nanos / 1000000000 = 0 ∨
      t.nanos / 1000000000 = 1 ∧ t.secondOfDay % 60 = 59 := by omega
  have parts : t.secondOfDay / 3600 ≤ 23 ∧ t.secondOfDay / 60 % 60 ≤ 59 ∧
      t.secondOfDay % 60 + t.nanos / 1000000000 ≤ 60 ∧ t.nanos % 1000000000 < 1000000000 ∧
      (0 : Int).natAbs < 1440 ∧ t.date.Valid ∧ yearInRange t.date.year = true := by
    refine ⟨by omega, by omega, by omega, by omega, by decide, (Date.ofDay_valid _).1, h⟩
  have day : t.date.toDay = Int.fdiv t.seconds secondsOfDay := Date.toDay_ofDay _
  -- a point is its seconds and nanoseconds; that the latter fit is carried by the type
  have kept (u : DateTime) (seconds : u.seconds = t.seconds) (nanos : u.nanos = t.nanos) :
      (if yearInRange u.date.year = true then some u else none) = some t := by
    have same : u = t := by
      cases u
      cases t
      cases seconds
      cases nanos
      rfl
    rw [same]
    exact if_pos h
  rw [ofLocal?, dif_pos parts]
  refine kept _ ?_ ?_
  · show t.date.toDay * 86400 + _ + _ + _ - 0 * 60 = _
    rw [day]
    split <;> omega
  · show (if t.secondOfDay % 60 + t.nanos / 1000000000 = 60 then t.nanos % 1000000000 + 1000000000
      else t.nanos % 1000000000) = t.nanos
    split <;> omega

/-- A point is read back, if its year is one that a date may have. -/
theorem parse?_toString (t : DateTime) (h : t.Datable) : parse? t.toString = some t := by
  obtain ⟨valid, day_le⟩ := Date.ofDay_valid (Int.fdiv t.seconds secondsOfDay)
  obtain ⟨-, month_le, -, -⟩ := valid
  obtain ⟨-, lt⟩ := t.seconds_eq
  have month : t.date.month < 10 ^ 2 := Nat.lt_of_le_of_lt month_le (by decide)
  have day : t.date.day < 10 ^ 2 := Nat.lt_of_le_of_lt day_le (by decide)
  have hour : t.secondOfDay / 3600 < 10 ^ 2 := by omega
  have minute : t.secondOfDay / 60 % 60 < 10 ^ 2 := by omega
  have second : t.secondOfDay % 60 + t.nanos / 1000000000 < 10 ^ 2 := by
    have := t.nanos_lt
    omega
  have nanos : t.nanos % 1000000000 < 1000000000 := Nat.mod_lt _ (by decide)
  have dash (rest : List Char) : mark? '-' ('-' :: rest) = some rest := mark?_cons rfl rest
  have colon (rest : List Char) : mark? ':' (':' :: rest) = some rest := mark?_cons rfl rest
  have utc : offset? (Text.skipBlanks ['Z']) = some (0, []) := rfl
  rw [parse?, toString, String.toList_ofList, text]
  simp only [List.append_assoc, List.cons_append, Option.bind_eq_bind,
    Option.bind_some, year?_text, dash, colon, number?_padded Nat.two_pos month,
    number?_padded Nat.two_pos day, number?_padded Nat.two_pos hour,
    number?_padded Nat.two_pos minute, number?_padded Nat.two_pos second, fraction?_text nanos, utc]
  exact t.ofLocal?_parts h

theorem datable_of_ofLocal? {d : Date} {hour minute second nanos : Nat} {offset : Int}
    {t : DateTime} (h : ofLocal? d hour minute second nanos offset = some t) : t.Datable := by
  simp only [ofLocal?, Option.dite_none_right_eq_some, Option.ite_none_right_eq_some,
    Option.some.injEq] at h
  obtain ⟨_, inYears, rfl⟩ := h
  exact inYears

/-- A time that was read can be written. -/
theorem datable_of_parse? {s : String} {t : DateTime} (h : parse? s = some t) : t.Datable := by
  unfold parse? at h
  obtain ⟨⟨year, cs⟩, -, h⟩ := Option.bind_eq_some_iff.1 h
  obtain ⟨cs, -, h⟩ := Option.bind_eq_some_iff.1 h
  obtain ⟨⟨month, cs⟩, -, h⟩ := Option.bind_eq_some_iff.1 h
  obtain ⟨cs, -, h⟩ := Option.bind_eq_some_iff.1 h
  obtain ⟨⟨day, cs⟩, -, h⟩ := Option.bind_eq_some_iff.1 h
  -- one of three letters stands before the time of day
  dsimp only at h
  split at h
  all_goals
    iterate 8 obtain ⟨_, -, h⟩ := Option.bind_eq_some_iff.1 h
    split at h
    · exact datable_of_ofLocal? h
    · cases h

end DateTime

end Courier
