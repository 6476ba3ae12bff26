/-
# Planning the links of a note

Suggestions are inserted one after another, each into the text that the ones
before it have left. A suggestion whose link is there already is passed over.
-/
import NoteLinks.Insertion.Existing
import NoteLinks.Insertion.Listing
import NoteLinks.Insertion.Mention
import NoteLinks.LinkFormat
import NoteLinks.Suggestion.Basic

namespace NoteLinks.Insertion

/-- Where a link has been put. -/
inductive Placement
  /-- Behind a mention in the text. -/
  | mention
  /-- In the section of related notes. -/
  | listing
  deriving DecidableEq, Repr

/-- How links are inserted. -/
structure Style where
  format : LinkFormat := .markdown
  /-- The heading of the section of related notes. -/
  heading : Text := defaultHeading

/-- The text with the link of a suggestion, and where it has been put; nothing if
there is a link already. -/
def insert? (style : Style) (content : Text) (s : Suggestion) : Option (Text × Placement) :=
  if linkExists content s.target s.targetTitle then none
  else
    let link := style.format.render s.target s.targetTitle
    match linkPosition? content s.anchors with
    | some position => some (insertAt content position link, .mention)
    | none => some (listLink content style.heading link, .listing)

/-- A text into which links have been inserted. -/
structure Plan where
  content : Text
  /-- The number of links that have been inserted. -/
  links : Nat := 0
  /-- The number of links behind mentions. -/
  mentions : Nat := 0
  /-- The number of links in the section of related notes. -/
  listings : Nat := 0
  deriving DecidableEq, Repr

namespace Plan

/-- The plan with one more link, which has led to this text. -/
def count (p : Plan) (content : Text) : Placement → Plan
  | .mention => { p with content, links := p.links + 1, mentions := p.mentions + 1 }
  | .listing => { p with content, links := p.links + 1, listings := p.listings + 1 }

/-- The plan with one more suggestion. -/
def add (style : Style) (p : Plan) (s : Suggestion) : Plan :=
  match insert? style p.content s with
  | some (content, placement) => p.count content placement
  | none => p

/-- The plan for the suggestions of a note with this text. -/
def make (style : Style) (content : Text) (suggestions : List Suggestion) : Plan :=
  suggestions.foldl (add style) { content }

end Plan

end NoteLinks.Insertion
