/-!
# Blanks

The characters of Unicode's `White_Space` property, and trimming by them. The property is wider
than core's `Char.isWhitespace`, which knows ASCII only; it is also wider than the blanks of JSON
text, which are four characters and live with the lexer.

Blank texts matter where a text may be missing: an address, a device token or a language that is
blank is treated as if it were not there.
-/

set_option autoImplicit false

namespace Courier.Text

/-- Characters with the `White_Space` property. -/
def isBlank (c : Char) : Bool :=
  let n := c.toNat
  (9 ≤ n && n ≤ 13) || n == 0x20 || n == 0x85 || n == 0xA0 || n == 0x1680 ||
  (0x2000 ≤ n && n ≤ 0x200A) || n == 0x2028 || n == 0x2029 || n == 0x202F ||
  n == 0x205F || n == 0x3000

/-- The characters from the first that is no blank on. -/
def skipBlanks (cs : List Char) : List Char := cs.dropWhile isBlank

/-- A text is blank when it holds nothing but blanks; the empty text is. -/
def allBlank (s : String) : Bool := s.toList.all isBlank

end Courier.Text
