/-
# Candidates

Four strategies look for notes that a note might link to: those with a concept
in common, those with a tag in common, those in the same or a related
directory, and those with a similar title. Each find is a candidate with a
weight. A note is no candidate for itself, nor for a note that links to it
already.
-/
import NoteLinks.Snapshot
import NoteLinks.Suggestion.Basic
import NoteLinks.Text.Piece

namespace NoteLinks

/-- A note to link to, with a reason and its weight. -/
structure Candidate where
  target : Text
  reason : Reason
  weight : Float

namespace Candidate

/-! ## What is linked already -/

/-- What an existing link refers to: the part in front of a hash, in lower case. -/
def linkedName (link : Text) : Text :=
  let name := match Text.cutAt? ['#'] link with
    | some (before, _) => before
    | none => link
  Text.lower (Text.trim name)

/-- The names under which a note may be linked: its path, the path without the
extension, its file name without the extension, and its title, all in lower
case. -/
def namesOf (path : Text) (title : Option Text) : List Text :=
  let path := Text.lower path
  let bare := (Text.dropSuffix? ('.' :: Path.noteExtension) path).getD path
  let titles := match title with
    | some title => [Text.lower (Text.trim title)]
    | none => []
  path :: bare :: Path.stem path :: titles

/-- Whether a note with these links may be linked to another one. -/
def accepts (path : Text) (links : List Text) (target : Text) (title : Option Text) : Bool :=
  let linked := (links.map linkedName).filter fun name => !name.isEmpty
  target ≠ path && !(namesOf target title).any linked.contains

/-- Whether a note of the snapshot may be linked to the note at a path. -/
def admits (s : Snapshot) (source : Text) (note : Note) (target : Text) : Bool :=
  accepts source note.links target ((s.files.find? target).map Note.title)

/-! ## The strategies -/

/-- The weight of a concept in common. -/
def conceptWeight : Float := 0.4

/-- The weight of a tag in common. -/
def tagWeight : Float := 0.3

/-- The weight of the same directory. -/
def sameDirectoryWeight : Float := 0.2

/-- The weight of a related directory. -/
def relatedDirectoryWeight : Float := 0.1

/-- The weight of the same title; a similar title has a part of it. -/
def titleWeight : Float := 0.3

/-- Titles with fewer words in common are not similar. -/
def minCommonWords : Nat := 2

/-- So many common words of a title are named in a reason. -/
def maxWordsNamed : Nat := 3

/-- The candidates that an index has under the keys of a note. -/
def byIndex (s : Snapshot) (source : Text) (note : Note) (index : Index) (keyOf : Text → Text)
    (kind : ReasonKind) (weight : Float) (details : List Text) : List Candidate :=
  details.flatMap fun detail =>
    match index.find? (keyOf detail) with
    | some paths =>
      (paths.toList.filter fun target => admits s source note target).map fun target =>
        ⟨target, ⟨kind, detail⟩, weight⟩
    | none => []

/-- The candidates with a concept in common, whatever its case. -/
def byConcept (s : Snapshot) (source : Text) (note : Note) : List Candidate :=
  byIndex s source note s.concepts Text.lower .sharedConcept conceptWeight note.concepts

/-- The candidates with a tag in common. -/
def byTag (s : Snapshot) (source : Text) (note : Note) : List Candidate :=
  byIndex s source note s.tags id .sharedTag tagWeight note.tags

/-- What the directories of two notes say about linking the first to the second. -/
def directoryReason? (own other : Text) : Option (Reason × Float) :=
  if own.isEmpty || other.isEmpty then none
  else if other = own then some (⟨.sameDirectory, own⟩, sameDirectoryWeight)
  else if Path.isAncestor own other || Path.isAncestor other own then
    some (⟨.relatedDirectory, other⟩, relatedDirectoryWeight)
  else none

/-- A run of word characters at the start of a text. -/
def recogniseWord : Recogniser Text := fun t =>
  let word := t.takeWhile Text.isWord
  if word.isEmpty then none else some ⟨word, word.length⟩

/-- The words of a title, in lower case. -/
def titleWords (title : Text) : KeySet Text :=
  KeySet.ofList (Text.hits recogniseWord (Text.lower title))

/-- What the titles of two notes say about linking the first to the second. -/
def titleReason? (own other : Text) : Option (Reason × Float) :=
  let ownWords := (titleWords own).toList
  let otherWords := (titleWords other).toList
  let common := ownWords.filter otherWords.contains
  if common.length < minCommonWords then none
  else
    let similarity := Float.ofNat common.length / Float.ofNat (max ownWords.length otherWords.length)
    let named := Text.join [',', ' '] (common.take maxWordsNamed)
    some (⟨.similarTitle, named⟩, titleWeight * similarity)

/-- The candidates that compare well with a note, judged by the records alone. -/
def byRecord (s : Snapshot) (source : Text) (note : Note)
    (reason? : Note → Option (Reason × Float)) : List Candidate :=
  s.files.entries.filterMap fun (target, other) =>
    if accepts source note.links target (some other.title) then
      (reason? other).map fun (reason, weight) => ⟨target, reason, weight⟩
    else none

/-- The candidates in the same or a related directory. -/
def byDirectory (s : Snapshot) (source : Text) (note : Note) : List Candidate :=
  byRecord s source note fun other => directoryReason? note.directory other.directory

/-- The candidates with a similar title. -/
def byTitle (s : Snapshot) (source : Text) (note : Note) : List Candidate :=
  byRecord s source note fun other => titleReason? note.title other.title

/-- All candidates for the note at a path, strategy by strategy. There are none
for a note that is not in the snapshot. -/
def all (s : Snapshot) (source : Text) : List Candidate :=
  match s.files.find? source with
  | some note =>
    byConcept s source note ++ byTag s source note ++ byDirectory s source note
      ++ byTitle s source note
  | none => []

end Candidate

end NoteLinks
