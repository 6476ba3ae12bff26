/-
# Suggestions

A suggestion proposes to link a note to another one. It comes with the reasons
for it, with the strategies that found them, and with a score and a confidence
that say how good it is.
-/
import NoteLinks.Ordered.KeyMap
import NoteLinks.Path

namespace NoteLinks

/-- A way to find notes that belong together. -/
inductive Strategy
  | concept
  | tag
  | directory
  | title
  deriving DecidableEq, Repr

namespace Strategy

/-- All strategies, in the order in which they are listed. -/
def all : List Strategy := [.concept, .tag, .directory, .title]

/-- The name of a strategy. -/
def name : Strategy → Text
  | concept => "concept".toList
  | tag => "tag".toList
  | directory => "directory".toList
  | title => "title".toList

end Strategy

/-- What a reason says about two notes. -/
inductive ReasonKind
  | sharedConcept
  | sharedTag
  | sameDirectory
  | relatedDirectory
  | similarTitle
  deriving DecidableEq, Repr

namespace ReasonKind

/-- All kinds of reason. -/
def all : List ReasonKind :=
  [.sharedConcept, .sharedTag, .sameDirectory, .relatedDirectory, .similarTitle]

/-- The name of a kind in data files. -/
def name : ReasonKind → Text
  | sharedConcept => "shared_concept".toList
  | sharedTag => "shared_tag".toList
  | sameDirectory => "same_directory".toList
  | relatedDirectory => "related_directory".toList
  | similarTitle => "similar_title".toList

/-- The strategy that finds reasons of a kind. -/
def strategy : ReasonKind → Strategy
  | sharedConcept => .concept
  | sharedTag => .tag
  | sameDirectory | relatedDirectory => .directory
  | similarTitle => .title

end ReasonKind

/-- A reason to link two notes. -/
structure Reason where
  kind : ReasonKind
  /-- The concept, the tag, the directory or the words of the title. -/
  detail : Text
  deriving DecidableEq, Repr

namespace Reason

/-- The reason in words. -/
def describe (reason : Reason) : Text :=
  match reason.kind with
  | .sharedConcept => "shared concept: ".toList ++ reason.detail
  | .sharedTag => "shared tag: #".toList ++ reason.detail
  | .sameDirectory => "same directory: ".toList ++ reason.detail
  | .relatedDirectory => "related directory (".toList ++ reason.detail ++ [')']
  | .similarTitle => "similar title (".toList ++ reason.detail ++ [')']

/-- The phrase behind which the link may be placed in the text of the note. -/
def anchor? (reason : Reason) : Option Text :=
  let detail := Text.trim reason.detail
  if detail.isEmpty then none
  else match reason.kind with
    | .sharedConcept => some detail
    | .sharedTag => some ('#' :: detail)
    | .sameDirectory => if detail = Path.rootDirectory then none else some detail
    | .relatedDirectory | .similarTitle => none

end Reason

/-- How far a suggestion can be trusted. -/
inductive Confidence
  | low
  | medium
  | high
  deriving DecidableEq, Repr

namespace Confidence

/-- All degrees of confidence, from the lowest. -/
def all : List Confidence := [.low, .medium, .high]

/-- The name of a degree. -/
def name : Confidence → Text
  | low => "low".toList
  | medium => "medium".toList
  | high => "high".toList

/-- The place of a degree among all, from the lowest. -/
def rank : Confidence → Nat
  | low => 0
  | medium => 1
  | high => 2

/-- Whether the confidence is not below a floor. -/
def atLeast (c floor : Confidence) : Bool := floor.rank ≤ c.rank

/-- The confidence in a suggestion with this score, for which so many different
strategies speak. -/
def classify (score : Float) (strategies : Nat) : Confidence :=
  if score ≥ 0.7 && 3 ≤ strategies then .high
  else if score ≥ 0.5 && 2 ≤ strategies then .medium
  else .low

end Confidence

/-- A proposal to link a note to another. -/
structure Suggestion where
  /-- The path of the note to link to. -/
  target : Text
  targetTitle : Text
  score : Float
  reasons : List Reason
  strategies : List Strategy
  confidence : Confidence

namespace Suggestion

/-- The phrases behind which the link may be placed, in the order of the
reasons. -/
def anchors (s : Suggestion) : List Text := s.reasons.filterMap Reason.anchor?

end Suggestion

/-- The suggestions for each note, under its path. -/
abbrev SuggestionMap := KeyMap Text (List Suggestion)

namespace SuggestionMap

/-- The number of suggestions for all notes together. -/
def total (m : SuggestionMap) : Nat := m.values.flatten.length

/-- The suggestions that are not below a floor. Notes that have none left are
dropped. -/
def atLeast (floor : Confidence) (m : SuggestionMap) : SuggestionMap :=
  m.filterMap fun _ suggestions =>
    let kept := suggestions.filter fun s => s.confidence.atLeast floor
    if kept.isEmpty then none else some kept

end SuggestionMap

end NoteLinks
