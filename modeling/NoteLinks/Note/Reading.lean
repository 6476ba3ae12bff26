/-
# Reading a note

The record of a note is made from its path and its text. The front matter
contributes the title and tags; everything else is found in the body, except
that all words of the text are counted.
-/
import NoteLinks.FrontMatter
import NoteLinks.Note.Concept
import NoteLinks.Note.Heading
import NoteLinks.Note.Link
import NoteLinks.Note.Tag

namespace NoteLinks.Note

/-- The title of a note: that of its front matter, or else its first heading of
level one, or else its file name. -/
def titleFrom (declared : Option Text) (headings : List Heading) (path : Text) : Text :=
  match declared with
  | some title => title
  | none =>
    match headings.find? (·.level == 1) with
    | some heading => heading.text
    | none => Path.stem path

/-- The record of the note with this path and text. -/
def read (path content : Text) : Note :=
  let fields := FrontMatter.read content
  let body := FrontMatter.body content
  let headings := Heading.all body
  { path
    title := titleFrom fields.title headings path
    tags := Tag.all fields.tags body
    concepts := Concept.all body headings
    links := Link.targets body
    headings
    wordCount := (Text.words content).length
    directory := Path.parent path }

end NoteLinks.Note
