/-
# Tags

A tag in the text of a note is a hash with a run of word characters, slashes
and dashes behind it.
-/
import NoteLinks.Ordered.KeySet
import NoteLinks.Text.Piece
import NoteLinks.Text.WordChar

namespace NoteLinks.Tag

/-- The characters a tag is made of. -/
def isTagChar (c : Char) : Bool := Text.isWord c || c == '/' || c == '-'

/-- A tag at the start of a text. -/
def recognise : Recogniser Text
  | '#' :: t =>
    let tag := t.takeWhile isTagChar
    if tag.isEmpty then none else some ⟨tag, tag.length + 1⟩
  | _ => none

/-- The tags of a note, in ascending order: those of its front matter and those
in its body. -/
def all (declared : List Text) (body : Text) : List Text :=
  (KeySet.ofList (declared ++ Text.hits recognise body)).toList

end NoteLinks.Tag
