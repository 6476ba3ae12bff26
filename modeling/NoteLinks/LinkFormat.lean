/-
# Link formats

A link is written in one of two ways: with a label and the path of the note, or
with the title of the note alone.
-/
import NoteLinks.Text.Basic

namespace NoteLinks

/-- How links are written. -/
inductive LinkFormat
  | markdown
  | wikilink
  deriving DecidableEq, Repr

namespace LinkFormat

/-- All formats. -/
def all : List LinkFormat := [.markdown, .wikilink]

/-- The name of a format. -/
def name : LinkFormat → Text
  | markdown => "markdown".toList
  | wikilink => "wikilink".toList

/-- A link to the note with this path and title. -/
def render (format : LinkFormat) (path title : Text) : Text :=
  match format with
  | markdown => '[' :: title ++ ']' :: '(' :: path ++ [')']
  | wikilink => '[' :: '[' :: title ++ [']', ']']

end LinkFormat

end NoteLinks
