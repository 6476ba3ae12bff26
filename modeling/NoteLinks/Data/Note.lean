/-
# Notes in data files
-/
import NoteLinks.Json.Decode
import NoteLinks.Note.Basic

namespace NoteLinks

namespace Heading

/-- A heading as a value. -/
def toJson (h : Heading) : Json :=
  .ofFields [("level", .ofNat h.level), ("text", .ofText h.text)]

/-- The heading in a value. Its level is a number of eight bits. -/
def ofJson? (j : Json) : Option Heading := do
  match ← Json.fields? ["level", "text"] j with
  | [level, text] =>
    some { level := ← Json.required? (Json.natBelow? 256) level
           text := ← Json.required? Json.text? text }
  | _ => none

end Heading

namespace Note

/-- A list of texts as a value. -/
def textsToJson (ts : List Text) : Json := .array (ts.map Json.ofText)

/-- A note as a value. -/
def toJson (n : Note) : Json :=
  .ofFields [
    ("path", .ofText n.path),
    ("title", .ofText n.title),
    ("tags", textsToJson n.tags),
    ("concepts", textsToJson n.concepts),
    ("existing_links", textsToJson n.links),
    ("headings", .array (n.headings.map Heading.toJson)),
    ("word_count", .ofNat n.wordCount),
    ("directory", .ofText n.directory)]

/-- The note in a value. Only its path and title must be there. -/
def ofJson? (j : Json) : Option Note := do
  let texts := Json.optional? (Json.list? Json.text?) []
  match ← Json.fields? ["path", "title", "tags", "concepts", "existing_links", "headings",
      "word_count", "directory"] j with
  | [path, title, tags, concepts, links, headings, wordCount, directory] =>
    some { path := ← Json.required? Json.text? path
           title := ← Json.required? Json.text? title
           tags := ← texts tags
           concepts := ← texts concepts
           links := ← texts links
           headings := ← Json.optional? (Json.list? Heading.ofJson?) [] headings
           wordCount := ← Json.optional? Json.count? 0 wordCount
           directory := ← Json.optional? Json.text? [] directory }
  | _ => none

end Note

end NoteLinks
