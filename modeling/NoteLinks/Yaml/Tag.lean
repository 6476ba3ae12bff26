/-
# YAML tags

A tag is written behind an exclamation mark: as it is in angle brackets, or as
a handle and a suffix. Handles stand for prefixes that a document may declare.
-/
import NoteLinks.Yaml.Cursor

namespace NoteLinks.Yaml

/-- Whether the character may stand in the suffix of a tag. Brackets and commas
may only where the end is marked in another way. -/
def isTagChar (delimited : Bool) (c : Char) : Bool :=
  isNameChar c || (";/?:@&=+$.!~*'()".toList.contains c)
    || (delimited && (c == ',' || c == '[' || c == ']'))

/-- The byte that a percent sign with two digits spells at the start of a text. -/
def percentByte? : Text → Option Nat
  | '%' :: a :: b :: _ => Text.hexValue? [a, b]
  | _ => none

/-- A character that is spelled by the percent signs of its bytes in UTF-8, at
the start of a text, and how many characters spell it. -/
def percentChar? (t : Text) : Option (Char × Nat) := do
  let first ← percentByte? t
  let more (i : Nat) : Option Nat := do
    let byte ← percentByte? (t.drop (3 * i))
    if byte &&& 0xC0 == 0x80 then some (byte &&& 0x3F) else none
  let char (code length : Nat) : Option (Char × Nat) :=
    some ((Text.charOf? code).getD '\uFFFD', 3 * length)
  if first < 0x80 then char first 1
  else if first &&& 0xE0 == 0xC0 then
    char ((first &&& 0x1F) * 64 + (← more 1)) 2
  else if first &&& 0xF0 == 0xE0 then
    char (((first &&& 0x0F) * 64 + (← more 1)) * 64 + (← more 2)) 3
  else if first &&& 0xF8 == 0xF0 then
    char ((((first &&& 0x07) * 64 + (← more 1)) * 64 + (← more 2)) * 64 + (← more 3)) 4
  else none

/-- The longest suffix of a tag at the start of a text, where the first `skip`
characters belong to what has been read, and its length in the text. -/
def tagCharsFrom (delimited : Bool) : (skip : Nat) → Text → Option (Text × Nat)
  | _, [] => some ([], 0)
  | skip + 1, _ :: t => (tagCharsFrom delimited skip t).map fun (tag, n) => (tag, n + 1)
  | 0, c :: t =>
    if c == '%' then
      match percentChar? (c :: t) with
      | some (d, n) => (tagCharsFrom delimited (n - 1) t).map fun (tag, m) => (d :: tag, m + 1)
      | none => none
    else if isTagChar delimited c then
      (tagCharsFrom delimited 0 t).map fun (tag, n) => (c :: tag, n + 1)
    else some ([], 0)

/-- A suffix that is not empty, and the place behind it. -/
def tagSuffix? (delimited : Bool) (cursor : Cursor) : Option (Text × Cursor) := do
  let (suffix, length) ← tagCharsFrom delimited 0 cursor.rest
  if length = 0 then none else some (suffix, cursor.skip length)

/-- An exclamation mark, a name and perhaps another exclamation mark. -/
def tagHandle? (cursor : Cursor) : Option (Text × Cursor) :=
  match cursor.rest with
  | '!' :: _ =>
    let (name, next) := (cursor.skip 1).skipWhile isNameChar
    match next.rest with
    | '!' :: _ => some ('!' :: name ++ ['!'], next.skip 1)
    | _ => some ('!' :: name, next)
  | _ => none

/-- The handle and the suffix of a tag, and the place behind it. A tag in angle
brackets has the empty handle. -/
def tag? (inFlow : Bool) (cursor : Cursor) : Option (Text × Text × Cursor) := do
  let (handle, suffix, next) ←
    match cursor.rest with
    | '!' :: '<' :: _ =>
      match tagSuffix? true (cursor.skip 2) with
      | some (suffix, next) =>
        match next.rest with
        | '>' :: _ => some ([], suffix, next.skip 1)
        | _ => none
      | none => none
    | _ =>
      match tagHandle? cursor with
      | some (handle, next) =>
        if handle.length > 1 && handle.getLast? == some '!' then
          (tagSuffix? false next).map fun (suffix, next) => (handle, suffix, next)
        else do
          let (more, length) ← tagCharsFrom false 0 next.rest
          let suffix := handle.drop 1 ++ more
          let next := next.skip length
          if suffix.isEmpty then some ([], ['!'], next) else some (['!'], suffix, next)
      | none => none
  let closed := atGap next.rest || (inFlow && next.rest.head? == some ',')
  if closed then some (handle, suffix, next) else none

end NoteLinks.Yaml
