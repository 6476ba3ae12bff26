/-
# What headings and tags look like

Heading lines and tags can also be told by patterns. There are two patterns for heading lines:
by one of them the headings of a note are read, by the other one mentions on heading lines are
left out.
-/
import NoteLinks.Note.Heading
import NoteLinks.Note.Tag
import NoteLinks.Text.Pattern

namespace NoteLinks

namespace Heading

/-- The blanks that may follow the hashes of a heading line. -/
def isGap (c : Char) : Bool := c == ' ' || c == '\t'

/-- The hashes of a heading line. -/
def hashes : Pattern.Part := .run (· == '#') 1 (some 6)

/-- A heading line with its hashes, the spaces and tabs behind them, and its text. -/
def pattern : Pattern :=
  .wholeLine [hashes, .run isGap 1 none, .run (· != '\n') 1 none]

/-- A heading line with its hashes, the space or tab behind them, and the rest of it. -/
def linePattern : Pattern :=
  .wholeLine [hashes, .run isGap 1 (some 1), .run (· != '\n') 0 none]

/-- The heading that the runs of a heading line make, unless its text is blank. -/
def ofRuns? : List Text → Option Heading
  | [hashes, _, text] =>
    let text := Text.trim text
    if text.isEmpty then none else some ⟨hashes.length, text⟩
  | _ => none

/-- The headings that are found in a note's body, from the top. -/
def found (body : Text) : List Heading :=
  (Pattern.findings pattern body).filterMap fun f => ofRuns? f.runs

end Heading

namespace Tag

/-- A hash and the characters of a tag. -/
def pattern : Pattern := [.run (· == '#') 1 (some 1), .run isTagChar 1 none]

/-- The tag behind a hash. -/
def ofRuns? : List Text → Option Text
  | [_, tag] => some tag
  | _ => none

/-- The tags that are found in a note's body, in the order of the text. -/
def found (body : Text) : List Text :=
  (Pattern.findings pattern body).filterMap fun f => ofRuns? f.runs

end Tag

end NoteLinks
