import Courier.Text.Shown

/-!
# Quoted texts for messages

A message shows a text between double quotes. A quote, a backslash, a line break, a tab and NUL have
escapes of two characters; any other character that does not show by itself is written as its number
in braces after `\u`.

Such texts appear in what a caller is told of a bad request: the name of an unknown field, a label
that is none, a value of the wrong type. The caller's own characters are among them, so that none
may be left to chance.
-/

set_option autoImplicit false

namespace Courier.Text

/-- The escape of a character by its number. -/
def numberEscape (c : Char) : List Char :=
  '\\' :: 'u' :: '\x7b' :: Nat.toDigits 16 c.toNat ++ ['\x7d']

/-- One character between the quotes. -/
def quoteChar (c : Char) : List Char :=
  if c = '\x00' then ['\\', '0']
  else if c = '\t' then ['\\', 't']
  else if c = '\r' then ['\\', 'r']
  else if c = '\n' then ['\\', 'n']
  else if c = '\\' ∨ c = '"' then ['\\', c]
  else if isShown c then [c]
  else numberEscape c

/-- A text as messages show it. -/
def quoted (s : String) : String :=
  String.ofList ('"' :: s.toList.flatMap quoteChar ++ ['"'])

end Courier.Text
