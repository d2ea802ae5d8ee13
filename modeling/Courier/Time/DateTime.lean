import Courier.Text.Blank
import Courier.Text.Numeral
import Courier.Time.Date

/-!
# Points in time

A `DateTime` is a point of UTC: seconds since 1970-01-01T00:00:00 and nanoseconds within the second.
A leap second is told as the 59th second with a billion nanoseconds or more, so that `…:60` survives
being read and written.

The written form is RFC 3339 in UTC, with no fraction or one of 3, 6 or 9 digits, whichever is the
shortest that loses nothing. Reading is more tolerant: blanks between the parts, numbers without
leading zeros, any offset below 24 hours with or without its colon, and fractions of any length,
of which nine digits count.

Times of records are kept by the database in whole microseconds, so a record that is read back is
the one that was written with its times cut (`cutToMicros`).
-/

set_option autoImplicit false

namespace Courier

/-- The two conditions are part of the type, so that whatever can be written can be read again:
nanoseconds stay below two seconds, and beyond one second they tell a leap second, which ends a
minute. -/
structure DateTime where
  seconds : Int
  nanos : Nat
  nanos_lt : nanos < 2000000000
  leap : 1000000000 ≤ nanos → seconds % 60 = 59
  deriving DecidableEq, Repr

namespace DateTime

/-- A point without a leap second. -/
def ofSeconds (seconds : Int) (nanos : Nat) (h : nanos < 1000000000) : DateTime :=
  ⟨seconds, nanos, by omega, by omega⟩

instance : Inhabited DateTime := ⟨ofSeconds 0 0 (by decide)⟩

/-- The order of time. -/
def lt (a b : DateTime) : Bool :=
  decide (a.seconds < b.seconds) || (decide (a.seconds = b.seconds) && decide (a.nanos < b.nanos))

/-- Not later than. The order is total. -/
def le (a b : DateTime) : Bool := !lt b a

def secondsOfDay : Int := 86400

/-- The day that a point of time falls on. -/
def date (t : DateTime) : Date := Date.ofDay (Int.fdiv t.seconds secondsOfDay)

/-- How far the day has gone, in whole seconds. -/
def secondOfDay (t : DateTime) : Nat := (Int.fmod t.seconds secondsOfDay).toNat

/-! ## Writing -/

/-- The `width` lowest decimal digits, with leading zeros. -/
def padded : Nat → Nat → List Char
  | 0, _ => []
  | width + 1, n => padded width (n / 10) ++ [Nat.digitChar (n % 10)]

/-- Four digits for the years 0 to 9999; others carry a sign and as many digits as they need. -/
def yearText (y : Int) : List Char :=
  if 0 ≤ y ∧ y ≤ 9999 then padded 4 y.toNat
  else
    let digits := Nat.toDigits 10 y.natAbs
    (if y < 0 then '-' else '+') :: List.replicate (4 - digits.length) '0' ++ digits

/-- The fraction with its point, in the shortest of 0, 3, 6 or 9 digits. -/
def fractionText (nanos : Nat) : List Char :=
  if nanos = 0 then []
  else if nanos % 1000000 = 0 then '.' :: padded 3 (nanos / 1000000)
  else if nanos % 1000 = 0 then '.' :: padded 6 (nanos / 1000)
  else '.' :: padded 9 nanos

/-- The written form. A leap second is the sixty-first of its minute, which is where `extra`
goes. -/
def text (t : DateTime) : List Char :=
  let d := t.date
  let s := t.secondOfDay
  let extra := t.nanos / 1000000000
  yearText d.year ++ '-' :: padded 2 d.month ++ '-' :: padded 2 d.day ++
    'T' :: padded 2 (s / 3600) ++ ':' :: padded 2 (s / 60 % 60) ++
    ':' :: padded 2 (s % 60 + extra) ++
    fractionText (t.nanos % 1000000000) ++ ['Z']

def toString (t : DateTime) : String := String.ofList t.text

instance : ToString DateTime := ⟨DateTime.toString⟩

/-! ## Reading -/

/-- At most `most` digits at the front: their value, their number, and the rest. -/
def takeDigits : Nat → Nat → Nat → List Char → Nat × Nat × List Char
  | 0, acc, count, cs => (acc, count, cs)
  | _, acc, count, [] => (acc, count, [])
  | most + 1, acc, count, c :: rest =>
    match Text.digitValue? c with
    | some d => takeDigits most (10 * acc + d) (count + 1) rest
    | none => (acc, count, c :: rest)

/-- A number of at least one and at most `most` digits after any blanks. -/
def number? (most : Nat) (cs : List Char) : Option (Nat × List Char) :=
  match takeDigits most 0 0 (Text.skipBlanks cs) with
  | (_, 0, _) => none
  | (n, _ + 1, rest) => some (n, rest)

/-- A given character after any blanks. -/
def mark? (c : Char) (cs : List Char) : Option (List Char) :=
  match Text.skipBlanks cs with
  | x :: rest => if x = c then some rest else none
  | [] => none

/-- A year: up to four digits, or a sign and any number of them. -/
def year? (cs : List Char) : Option (Int × List Char) :=
  match Text.skipBlanks cs with
  | '-' :: rest =>
    match takeDigits rest.length 0 0 rest with
    | (_, 0, _) => none
    | (n, _ + 1, more) => some (-(n : Int), more)
  | '+' :: rest =>
    match takeDigits rest.length 0 0 rest with
    | (_, 0, _) => none
    | (n, _ + 1, more) => some ((n : Int), more)
  | rest => (number? 4 rest).map fun found => ((found.1 : Int), found.2)

/-- An optional fraction of a second in nanoseconds. Digits after the ninth are passed over. -/
def fraction? (cs : List Char) : Option (Nat × List Char) :=
  match cs with
  | '.' :: rest =>
    match takeDigits 9 0 0 rest with
    | (_, 0, _) => none
    | (n, count + 1, more) =>
      some (n * Nat.pow 10 (8 - count), more.dropWhile fun c => (Text.digitValue? c).isSome)
  | _ => some (0, cs)

/-- Two digits at the very front. -/
def twoDigits? : List Char → Option (Nat × List Char)
  | a :: b :: rest =>
    match Text.digitValue? a, Text.digitValue? b with
    | some x, some y => some (10 * x + y, rest)
    | _, _ => none
  | _ => none

/-- The offset from UTC in minutes: `Z`, `UTC`, or a sign, two digits of hours and two of minutes
with colons or blanks between them. U+2212 is a minus sign too. -/
def offset? (cs : List Char) : Option (Int × List Char) :=
  match cs with
  | 'Z' :: rest | 'z' :: rest => some (0, rest)
  | _ =>
    if (cs.take 3).map Char.toUpper = ['U', 'T', 'C'] then some (0, cs.drop 3)
    else
      let signed : Option (Bool × List Char) :=
        match cs with
        | '+' :: rest => some (false, rest)
        | '-' :: rest | '\u2212' :: rest => some (true, rest)
        | _ => none
      signed.bind fun (negative, afterSign) =>
      (twoDigits? afterSign).bind fun (hours, afterHours) =>
      let separated := afterHours.dropWhile fun c => c == ':' || Text.isBlank c
      (twoDigits? separated).bind fun (minutes, rest) =>
      if minutes < 60 then
        let total : Int := hours * 60 + minutes
        some (if negative then -total else total, rest)
      else none

/-- The years a date may have. -/
def yearInRange (y : Int) : Bool := decide (-262143 ≤ y) && decide (y ≤ 262142)

/-- The point of UTC that a local date, time of day and offset in minutes name. -/
def ofLocal? (d : Date) (hour minute second nanos : Nat) (offset : Int) : Option DateTime :=
  if h : hour ≤ 23 ∧ minute ≤ 59 ∧ second ≤ 60 ∧ nanos < 1000000000 ∧ offset.natAbs < 1440 ∧
      d.Valid ∧ yearInRange d.year = true then
    let s := if second = 60 then 59 else second
    let n := if second = 60 then nanos + 1000000000 else nanos
    let total : Int := d.toDay * 86400 + hour * 3600 + minute * 60 + s - offset * 60
    have hn : n < 2000000000 := by
      have := h.2.2.2.1
      simp only [n]; split <;> omega
    have hl : 1000000000 ≤ n → total % 60 = 59 := by
      have := h.2.2.2.1
      intro hle
      have hs : second = 60 := by
        rcases Decidable.em (second = 60) with he | he
        · exact he
        · simp only [n, he, if_false] at hle; omega
      simp only [total, s, hs, if_true]
      omega
    let t : DateTime := ⟨total, n, hn, hl⟩
    if yearInRange t.date.year then some t else none
  else none

/-- Reads a written point of time. What is left over at the end makes the whole unreadable. -/
def parse? (s : String) : Option DateTime := do
  let (year, cs) ← year? s.toList
  let cs ← mark? '-' cs
  let (month, cs) ← number? 2 cs
  let cs ← mark? '-' cs
  let (day, cs) ← number? 2 cs
  let cs ← match cs with
    | 'T' :: rest | 't' :: rest | ' ' :: rest => some rest
    | _ => none
  let (hour, cs) ← number? 2 cs
  let cs ← mark? ':' cs
  let (minute, cs) ← number? 2 cs
  let cs ← mark? ':' cs
  let (second, cs) ← number? 2 cs
  let (nanos, cs) ← fraction? cs
  let (offset, cs) ← offset? (Text.skipBlanks cs)
  match Text.skipBlanks cs with
  | [] => ofLocal? ⟨year, month, day⟩ hour minute second nanos offset
  | _ :: _ => none

/-! ## Whole microseconds

Where only microseconds are kept, what is finer is cut towards the year 2000; a leap second counts
as the second after it. -/

/-- 2000-01-01T00:00:00. -/
def millennium : Int := 946684800

/-- Whole microseconds from 2000 on, the finer part cut towards that year. -/
def microsSinceMillennium (t : DateTime) : Int :=
  Int.tdiv ((t.seconds - millennium) * 1000000000 + t.nanos) 1000

def ofMicrosSinceMillennium (n : Int) : DateTime :=
  ofSeconds (Int.fdiv n 1000000 + millennium) ((Int.fmod n 1000000).toNat * 1000) (by
    have h := Int.fmod_lt_of_pos n (show (0 : Int) < 1000000 by decide)
    omega)

/-- What is left of a point of time that has been kept as microseconds. -/
def cutToMicros (t : DateTime) : DateTime := ofMicrosSinceMillennium t.microsSinceMillennium

end DateTime

end Courier
