/-
# Writing JSON

Data files have one item or member on each line, indented by two spaces for
each level. Empty arrays and objects stay on their line. Only what has to be
escaped is escaped.
-/
import NoteLinks.Json.Basic

namespace NoteLinks.Json

/-- The hexadecimal digit of a number below sixteen. -/
def hexDigit (n : Nat) : Char := (Nat.toDigits 16 n).getLast?.getD '0'

/-- How a character stands in a text. -/
def escapeChar (c : Char) : Text :=
  if c == '"' then ['\\', '"']
  else if c == '\\' then ['\\', '\\']
  else if c == '\n' then ['\\', 'n']
  else if c == '\r' then ['\\', 'r']
  else if c == '\t' then ['\\', 't']
  else if c == '\x08' then ['\\', 'b']
  else if c == '\x0c' then ['\\', 'f']
  else if c.toNat < 0x20 then
    ['\\', 'u', '0', '0', hexDigit (c.toNat / 16), hexDigit (c.toNat % 16)]
  else [c]

/-- A text in quotation marks. -/
def quote (t : Text) : Text := '"' :: t.flatMap escapeChar ++ ['"']

/-- The spaces in front of what is nested this deep. -/
def indentation (depth : Nat) : Text := List.replicate (2 * depth) ' '

/-- Lines between brackets, nested one deeper than the brackets. -/
def bracketed (opening closing : Char) (depth : Nat) (lines : List Text) : Text :=
  if lines.isEmpty then [opening, closing]
  else
    let separator := ',' :: '\n' :: indentation (depth + 1)
    opening :: '\n' :: indentation (depth + 1) ++ Text.join separator lines
      ++ '\n' :: indentation depth ++ [closing]

mutual

/-- The text of a value that is nested `depth` deep. A text that spells no
characters is written as `null`. -/
def pretty (depth : Nat) : Json → Text
  | .null => ['n', 'u', 'l', 'l']
  | .bool true => ['t', 'r', 'u', 'e']
  | .bool false => ['f', 'a', 'l', 's', 'e']
  | .number n => n.text
  | .text (some t) => quote t
  | .text none => ['n', 'u', 'l', 'l']
  | .array items => bracketed '[' ']' depth (prettyItems (depth + 1) items)
  | .object members => bracketed '{' '}' depth (prettyMembers (depth + 1) members)

/-- The texts of the items of an array. -/
def prettyItems (depth : Nat) : List Json → List Text
  | [] => []
  | item :: items => pretty depth item :: prettyItems depth items

/-- The texts of the members of an object. -/
def prettyMembers (depth : Nat) : List (Option Text × Json) → List Text
  | [] => []
  | (key, value) :: members =>
    (quote (key.getD []) ++ ':' :: ' ' :: pretty depth value) :: prettyMembers depth members

end

mutual

/-- The text of a value on one line, without spaces. -/
def compact : Json → Text
  | .null => ['n', 'u', 'l', 'l']
  | .bool true => ['t', 'r', 'u', 'e']
  | .bool false => ['f', 'a', 'l', 's', 'e']
  | .number n => n.text
  | .text (some t) => quote t
  | .text none => ['n', 'u', 'l', 'l']
  | .array items => '[' :: Text.join [','] (compactItems items) ++ [']']
  | .object members => '{' :: Text.join [','] (compactMembers members) ++ ['}']

/-- The texts of the items of an array. -/
def compactItems : List Json → List Text
  | [] => []
  | item :: items => compact item :: compactItems items

/-- The texts of the members of an object. -/
def compactMembers : List (Option Text × Json) → List Text
  | [] => []
  | (key, value) :: members =>
    (quote (key.getD []) ++ ':' :: compact value) :: compactMembers members

end

end NoteLinks.Json
