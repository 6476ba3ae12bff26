/-
# JSON values

A JSON value is kept as it is written: the members of an object stand in order
and may repeat a key, and numbers are numerals. What a member means and whether
it may be repeated is decided where the value is used.

The escapes of a text may fail to spell characters. Such a text is still JSON,
and it does no harm where its content does not matter.
-/
import NoteLinks.Decimal.Numeral

namespace NoteLinks

/-- A JSON value. -/
inductive Json
  | null
  | bool (b : Bool)
  | number (n : Numeral)
  /-- A text, or nothing if its escapes spell no characters. -/
  | text (t : Option Text)
  | array (items : List Json)
  | object (members : List (Option Text × Json))

namespace Json

/-- A natural number as a value. -/
def ofNat (n : Nat) : Json := .number (.ofNat n)

/-- A text as a value. -/
def ofText (t : Text) : Json := .text (some t)

/-- The values under the keys, in this order, as an object. -/
def ofFields (fields : List (String × Json)) : Json :=
  .object (fields.map fun (key, value) => (some key.toList, value))

end Json

end NoteLinks
