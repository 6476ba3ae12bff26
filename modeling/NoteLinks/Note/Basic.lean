/-
# Notes

What is known about a note once it has been read: where it lies, what it is
called, what it is about, and what it links to. The text of the note is not
part of the record.
-/
import NoteLinks.Path

namespace NoteLinks

/-- A heading of a note. -/
structure Heading where
  /-- The number of hashes in front of it. -/
  level : Nat
  text : Text
  deriving DecidableEq, Repr

/-- What is known about one note. -/
structure Note where
  /-- The path below the vault's root. -/
  path : Text
  title : Text
  tags : List Text := []
  concepts : List Text := []
  /-- The targets of the links in the note, as they are written there. -/
  links : List Text := []
  headings : List Heading := []
  wordCount : Nat := 0
  /-- The directory part of the path. -/
  directory : Text := []
  deriving DecidableEq, Repr

namespace Note

/-- The record of a note that could not be read. -/
def empty : Note := { path := [], title := [] }

/-- The file name of the note without its extension. -/
def stem (note : Note) : Text := Path.stem note.path

end Note

end NoteLinks
