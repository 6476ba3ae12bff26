/-
# Mentions

A link is best placed where the text mentions what it is about. An anchor is a
phrase to look for; it is mentioned where the text has it, in any letter case,
outside existing links and heading lines. The link goes behind the word or
phrase in which the mention ends.

Positions count the characters in front of them.
-/
import NoteLinks.FrontMatter
import NoteLinks.Note.Heading
import NoteLinks.Note.Link
import NoteLinks.Text.Case

namespace NoteLinks.Insertion

/-! ## Where no mention counts -/

/-- An existing link of either kind at the start of a text. -/
def recogniseLink : Recogniser Unit := fun t =>
  let wiki : Option (Match Unit) := match t with
    | '[' :: '[' :: inside =>
      match inside.dropWhile (· != ']') with
      | ']' :: ']' :: rest => some ⟨(), t.length - rest.length⟩
      | _ => none
    | _ => none
  wiki <|> match Link.dropLabel? t with
    | some ('(' :: rest) =>
      match rest.dropWhile (· != ')') with
      | ')' :: after => some ⟨(), t.length - after.length⟩
      | _ => none
    | _ => none

/-- The spans of the heading lines among lines of which the first starts at a
position. A line feed stands between two lines. -/
def headingSpans (start : Nat) : List Text → List Span
  | [] => []
  | line :: lines =>
    let rest := headingSpans (start + line.length + 1) lines
    match Heading.level? line with
    | some _ => ⟨start, start + line.length⟩ :: rest
    | none => rest

/-- The spans of a body in which no mention counts: existing links and heading
lines. -/
def excludedSpans (body : Text) : List Span :=
  Text.spans recogniseLink body ++ headingSpans 0 (Text.splitOn '\n' body)

/-! ## Looking for anchors -/

/-- Whether the text begins with a phrase, in any letter case. -/
def beginsAlike : Text → Text → Bool
  | [], _ => true
  | _ :: _, [] => false
  | a :: phrase, c :: t => Text.alike a c && beginsAlike phrase t

/-- A phrase at the start of a text. -/
def recognisePhrase (phrase : Text) : Recogniser Unit := fun t =>
  if beginsAlike phrase t then some ⟨(), phrase.length⟩ else none

/-- The first mention of a phrase in a body. -/
def firstMention? (body phrase : Text) : Option Span :=
  let excluded := excludedSpans body
  (Text.spans (recognisePhrase phrase) body).find? fun span => !excluded.any span.overlaps

/-- The characters that end the phrase in which a mention ends, beside blanks. -/
def endsPhrase (c : Char) : Bool :=
  Text.isBlank c || c == ',' || c == ';' || c == '.' || c == '!' || c == '?' || c == ')'

/-- The position for a link behind the first mention of the first anchor that is
mentioned. The front matter is not looked at. -/
def linkPosition? (content : Text) (anchors : List Text) : Option Nat :=
  let body := FrontMatter.body content
  let start := FrontMatter.bodyStart content
  let phrases := (anchors.map Text.trim).filter fun phrase => !phrase.isEmpty
  (phrases.findSome? (firstMention? body)).map fun span =>
    let stop := start + span.stop
    stop + ((content.drop stop).takeWhile fun c => !endsPhrase c).length

/-- The text with a link at a position, behind a space. -/
def insertAt (content : Text) (position : Nat) (link : Text) : Text :=
  content.take position ++ ' ' :: link ++ content.drop position

end NoteLinks.Insertion
