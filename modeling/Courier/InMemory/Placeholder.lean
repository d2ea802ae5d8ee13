import Courier.Json.Value

/-!
# Placeholders

A placeholder is a name between two pairs of braces. Values take the places of their placeholders
one after the other, each in the whole text as the values before it have left it: a value that
holds a placeholder itself gives later values a place.

The service's `replace_variables` goes through its values in no particular order. `fillList` takes
the order as it is given, and `fill` is one such order; when the order does not matter is a question
about `fillList`.
-/

set_option autoImplicit false

namespace Courier

namespace Placeholder

/-- Replaces every occurrence of a text that is not empty, from the left and without overlaps. The
number counts the characters of an occurrence that are still to be passed over. -/
def replaceFrom (pattern replacement : List Char) : Nat → List Char → List Char
  | _, [] => []
  | n + 1, _ :: rest => replaceFrom pattern replacement n rest
  | 0, c :: rest =>
    if pattern.isPrefixOf (c :: rest) then
      replacement ++ replaceFrom pattern replacement (pattern.length - 1) rest
    else c :: replaceFrom pattern replacement 0 rest

/-- A name's placeholder. -/
def mark (name : String) : List Char := ['\x7b', '\x7b'] ++ name.toList ++ ['\x7d', '\x7d']

/-- What a value puts in place: a string itself, nothing for null, else its compact text. -/
def insertion : Json → List Char
  | .string s => s.toList
  | .null => []
  | v => v.text

/-- Puts values in place, in the order given. -/
def fillList (values : List (String × Json)) (template : List Char) : List Char :=
  values.foldl (fun text v => replaceFrom (mark v.1) (insertion v.2) 0 text) template

/-- Puts the values of a dictionary in place, in the order of their names. -/
def fill (values : Dict Json) (template : String) : String :=
  String.ofList (fillList values.entries template.toList)

end Placeholder

end Courier
