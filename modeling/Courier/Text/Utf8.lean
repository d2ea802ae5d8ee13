/-!
# UTF-8

Octets of a text, and reading octets back, strictly (`decode?`) or with U+FFFD in place of what is
no character (`decodeLossy`). One step reads one character or one ill-formed piece: the longest
start of a character that the octets still spell, and at least one octet.

A body or a path may hold any octets. Where a text is required the strict reading decides; the lossy
one is for what is only shown or looked up, a query or a fragment of a form.

The tables of first and second octets rule out the overlong forms, the surrogates and what is beyond
the last character, so that no character has two spellings.
-/

set_option autoImplicit false

namespace Courier.Text.Utf8

/-- An octet. -/
abbrev Octet := UInt8

/-- The octets of a text. -/
def encode (cs : List Char) : List Octet := cs.flatMap String.utf8EncodeChar

/-- What one step of reading finds. -/
inductive Piece where
  | char (c : Char)
  | illFormed
  deriving DecidableEq, Repr

/-- The range of the second octet after a given first one. -/
def secondRange (first : Octet) : Octet × Octet :=
  if first = 0xE0 then (0xA0, 0xBF)
  else if first = 0xED then (0x80, 0x9F)
  else if first = 0xF0 then (0x90, 0xBF)
  else if first = 0xF4 then (0x80, 0x8F)
  else (0x80, 0xBF)

/-- How many octets a character with this first octet has. -/
def width (first : Octet) : Option Nat :=
  if first < 0x80 then some 1
  else if 0xC2 ≤ first ∧ first ≤ 0xDF then some 2
  else if 0xE0 ≤ first ∧ first ≤ 0xEF then some 3
  else if 0xF0 ≤ first ∧ first ≤ 0xF4 then some 4
  else none

/-- An octet that goes on with a character. -/
def isTail (b : Octet) : Bool := 0x80 ≤ b && b ≤ 0xBF

/-- The tail octets at the front, at most `n`. -/
def tails : Nat → List Octet → List Octet
  | 0, _ => []
  | _, [] => []
  | n + 1, b :: rest => if isTail b then b :: tails n rest else []

/-- The scalar value of a first octet and its tails. -/
def scalar (w : Nat) (first : Octet) (more : List Octet) : Nat :=
  let lead := if w = 1 then first.toNat else first.toNat % Nat.pow 2 (7 - w)
  more.foldl (fun acc b => acc * 64 + b.toNat % 64) lead

/-- One step from the octet `first`: the piece, and how many of the octets after it belong to it. -/
def step (first : Octet) (rest : List Octet) : Piece × Nat :=
  match width first with
  | none => (.illFormed, 0)
  | some w =>
    match rest with
    | second :: _ =>
      -- only the second octet has a range of its own; all that follow are ordinary tails
      let range := secondRange first
      if w = 1 then (.char (Char.ofNat first.toNat), 0)
      else if range.1 ≤ second ∧ second ≤ range.2 then
        let more := tails (w - 1) rest
        if more.length = w - 1 then (.char (Char.ofNat (scalar w first more)), w - 1)
        else (.illFormed, more.length)
      else (.illFormed, 0)
    | [] => if w = 1 then (.char (Char.ofNat first.toNat), 0) else (.illFormed, 0)

/-- All pieces of a sequence of octets. -/
def pieces : List Octet → List Piece
  | [] => []
  | first :: rest =>
    let found := step first rest
    found.1 :: pieces (rest.drop found.2)
termination_by bs => bs.length
decreasing_by simp only [List.length_drop, List.length_cons]; omega

/-- The character of a piece, if it is well formed. -/
def Piece.char? : Piece → Option Char
  | .char c => some c
  | .illFormed => none

/-- The text of octets that spell one. -/
def decode? (bs : List Octet) : Option String :=
  ((pieces bs).mapM Piece.char?).map String.ofList

/-- The text with U+FFFD for each ill-formed piece. -/
def decodeLossy (bs : List Octet) : String :=
  String.ofList ((pieces bs).map fun p => p.char?.getD '\uFFFD')

end Courier.Text.Utf8
