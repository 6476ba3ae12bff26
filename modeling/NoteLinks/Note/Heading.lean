/-
# Headings

A heading line starts with one to six hashes and a space or tab. The same rule
serves for reading the headings of a note, for keeping links out of heading
lines and for finding the end of a section.
-/
import NoteLinks.Note.Basic

namespace NoteLinks.Heading

/-- The level of a heading line and what follows its hashes. -/
def ofLine? (line : Text) : Option (Nat × Text) :=
  let (hashes, rest) := (line.takeWhile (· == '#'), line.dropWhile (· == '#'))
  match rest with
  | c :: _ =>
    if (c == ' ' || c == '\t') && 1 ≤ hashes.length && hashes.length ≤ 6 then
      some (hashes.length, rest)
    else none
  | [] => none

/-- The level of a line, if it is a heading line. -/
def level? (line : Text) : Option Nat := (ofLine? line).map (·.1)

/-- The heading on a line, unless nothing but blanks follows the hashes. -/
def read? (line : Text) : Option Heading :=
  match ofLine? line with
  | some (level, rest) =>
    let text := Text.trim rest
    if text.isEmpty then none else some ⟨level, text⟩
  | none => none

/-- The headings of a note's body, from the top. -/
def all (body : Text) : List Heading := (Text.splitOn '\n' body).filterMap read?

end NoteLinks.Heading
