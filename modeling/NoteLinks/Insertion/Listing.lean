/-
# The section of related notes

Links that have no place in the text are listed in a section of their own,
under a heading. The section is made at the end of the note when it is first
needed. It goes on to the next heading of the same or a higher level, and a new
item is put behind its last line that is not blank.
-/
import NoteLinks.FrontMatter
import NoteLinks.Note.Heading

namespace NoteLinks.Insertion

/-- The heading under which links are listed, unless another one is chosen. -/
def defaultHeading : Text := "## Related Notes".toList

/-- The line that lists a link. -/
def item (link : Text) : Text := '-' :: ' ' :: link ++ ['\n']

/-- The lines up to the last one that is not blank, and the blank lines behind
it. -/
def splitBlankEnd : List Text → List Text × List Text
  | [] => ([], [])
  | line :: lines =>
    match splitBlankEnd lines with
    | ([], blank) => if Text.isBlankText line then ([], line :: blank) else ([line], blank)
    | (filled, blank) => (line :: filled, blank)

/-- The lines in front of the first one that is equal to the heading, apart from
blanks at its end, then this line, and the lines behind it. -/
def splitAtHeading? (heading : Text) : List Text → Option (List Text × Text × List Text)
  | [] => none
  | line :: lines =>
    if Text.trimEnd line = heading then some ([], line, lines)
    else (splitAtHeading? heading lines).map fun (before, found, after) =>
      (line :: before, found, after)

/-- Whether a line begins a section of the same or a higher level. -/
def closesSection (level : Nat) (line : Text) : Bool :=
  match Heading.level? line with
  | some l => l ≤ level
  | none => false

/-- A line feed, unless the line has one. -/
def missingLineFeed (line : Text) : Text := if line.getLast? = some '\n' then [] else ['\n']

/-- A note without the section, with the section and its first item. -/
def startSection (content heading link : Text) : Text :=
  let text := Text.trimEnd content
  let introduction := if text.isEmpty then [] else text ++ ['\n', '\n']
  introduction ++ heading ++ '\n' :: '\n' :: item link

/-- What follows the first item of an empty section: a blank line and the rest of
the note, unless the rest is blank. -/
def spacedRest (rest : Text) : Text :=
  if Text.isBlankText rest then []
  else if rest.head? = some '\n' then rest
  else '\n' :: rest

/-- The text with a link listed under a heading. -/
def listLink (content heading link : Text) : Text :=
  let heading := Text.trim heading
  let front := content.take (FrontMatter.bodyStart content)
  match splitAtHeading? heading (Text.lines (FrontMatter.body content)) with
  | none => startSection content heading link
  | some (before, line, after) =>
    let level := (Heading.level? heading).getD 6
    let inside := after.takeWhile fun l => !closesSection level l
    let behind := after.dropWhile fun l => !closesSection level l
    let (filled, blank) := splitBlankEnd inside
    let upTo := front ++ before.flatten ++ line
    let rest := (blank ++ behind).flatten
    match filled.getLast? with
    | some last => upTo ++ filled.flatten ++ missingLineFeed last ++ item link ++ rest
    | none => upTo ++ missingLineFeed line ++ '\n' :: item link ++ spacedRest rest

end NoteLinks.Insertion
