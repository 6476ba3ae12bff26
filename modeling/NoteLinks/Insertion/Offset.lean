/-
# Where links go, in bytes

The place for a link lies at a byte offset in its note, like the parts of the
note. It is found in what is left behind the front matter, and then the end of
the phrase in what is left behind the mention. So the offset is the sum of where
the body starts, of where the mention stops in it, and of how far the phrase goes
on. A mention need not have as many bytes as the anchor: some letters have more
in the other case.
-/
import NoteLinks.FrontMatter.Location
import NoteLinks.Insertion.Plan

namespace NoteLinks.Insertion

/-! ## Where no mention counts -/

/-- The spans of the heading lines among lines of which the first starts at an
offset, in bytes. -/
def headingByteSpans (start : Nat) : List Text → List Span
  | [] => []
  | line :: lines =>
    let rest := headingByteSpans (start + Text.byteLength line + 1) lines
    match Heading.level? line with
    | some _ => ⟨start, start + Text.byteLength line⟩ :: rest
    | none => rest

/-- The spans of a body in which no mention counts, in bytes. -/
def excludedByteSpans (body : Text) : List Span :=
  Text.byteSpans recogniseLink body ++ headingByteSpans 0 (Text.splitOn '\n' body)

/-! ## Looking for anchors -/

/-- The first mention of a phrase in a body, in bytes. -/
def firstByteMention? (body phrase : Text) : Option Span :=
  let excluded := excludedByteSpans body
  (Text.byteSpans (recognisePhrase phrase) body).find? fun span => !excluded.any span.overlaps

/-- The offset at which the phrase ends that goes on at an offset. -/
def phraseEnd (content : Text) (stop : Nat) : Except BadOffset Nat := do
  match Text.offsetWhere? endsPhrase (← Text.behind stop content) with
  | some offset => return stop + offset
  | none => return Text.byteLength content

/-- The offset for a link behind the first mention of the first anchor that is
mentioned. -/
def linkOffset? (content : Text) (anchors : List Text) : Except BadOffset (Option Nat) := do
  let start ← FrontMatter.bodyOffset content
  let body ← Text.behind start content
  let phrases := (anchors.map Text.trim).filter fun phrase => !phrase.isEmpty
  match phrases.findSome? (firstByteMention? body) with
  | some span => return some (← phraseEnd content (start + span.stop))
  | none => return none

/-! ## Inserting links -/

/-- The text with a link at an offset, behind a space. -/
def insertAtOffset (content : Text) (offset : Nat) (link : Text) : Except BadOffset Text := do
  let before ← Text.upTo offset content
  return before ++ ' ' :: link ++ (← Text.behind offset content)

/-- The text with the link of a suggestion, put in at an offset or else into the
section of related notes; nothing if there is a link already. -/
def insertByOffset? (style : Style) (content : Text) (s : Suggestion) :
    Except BadOffset (Option (Text × Placement)) := do
  if linkExists content s.target s.targetTitle then return none
  else
    let link := style.format.render s.target s.targetTitle
    match ← linkOffset? content s.anchors with
    | some offset => return some (← insertAtOffset content offset link, .mention)
    | none => return some (listLink content style.heading link, .listing)

end NoteLinks.Insertion
