/-
# Snapshots of a vault

A snapshot holds the records of all notes of a vault, together with indexes that
say which notes have a concept or a tag and which links leave a note. Made from
records, it refers only to notes it holds. A snapshot that comes from a file
need not, and is checked before it is used.
-/
import NoteLinks.Note.Basic
import NoteLinks.Ordered.KeyMap
import NoteLinks.Text.Case

namespace NoteLinks

/-- Sets of texts under ascending keys. -/
abbrev Index := KeyMap Text (KeySet Text)

namespace Index

/-- The index with one more member under a key. -/
def add (key member : Text) (index : Index) : Index :=
  index.alter key fun members => (members.getD KeySet.empty).insert member

/-- The index of pairs of a key and a member. -/
def ofPairs (pairs : List (Text × Text)) : Index :=
  pairs.foldl (fun index (key, member) => index.add key member) KeyMap.empty

end Index

/-- Numbers about a vault. -/
structure Stats where
  totalFiles : Nat
  totalLinks : Nat
  filesWithLinks : Nat
  filesWithoutLinks : Nat
  linksPerFile : Float
  totalConcepts : Nat
  totalTags : Nat

/-- What is known about a vault. -/
structure Snapshot where
  files : KeyMap Text Note
  /-- The paths of the notes with a concept, under the concept in lower case. -/
  concepts : Index
  /-- The paths of the notes with a tag. -/
  tags : Index
  /-- The targets of the links of each note that has any. -/
  links : Index
  stats : Stats

/-- A reference to a note that is not there. -/
inductive DanglingReference
  | concept (concept path : Text)
  | tag (tag path : Text)
  | linkSource (path : Text)
  deriving DecidableEq, Repr

namespace Snapshot

/-- The numbers about a vault with so many files and these indexes. -/
def statsOf (totalFiles : Nat) (concepts tags links : Index) : Stats :=
  let totalLinks := (links.values.flatMap KeySet.toList).length
  let filesWithLinks := (links.values.filter fun targets => !targets.toList.isEmpty).length
  { totalFiles
    totalLinks
    filesWithLinks
    filesWithoutLinks := totalFiles - filesWithLinks
    linksPerFile :=
      if totalFiles = 0 then 0.0 else Float.ofNat totalLinks / Float.ofNat totalFiles
    totalConcepts := concepts.size
    totalTags := tags.size }

/-- The snapshot of some notes, which are given under their paths. -/
def ofNotes (files : KeyMap Text Note) : Snapshot :=
  let pairs (keys : Note → List Text) : List (Text × Text) :=
    files.entries.flatMap fun (path, note) => (keys note).map (·, path)
  let concepts := Index.ofPairs (pairs fun note => note.concepts.map Text.lower)
  let tags := Index.ofPairs (pairs Note.tags)
  let links := files.filterMap fun _ note =>
    if note.links.isEmpty then none else some (KeySet.ofList note.links)
  { files, concepts, tags, links, stats := statsOf files.size concepts tags links }

/-- The empty snapshot. -/
def empty : Snapshot := ofNotes KeyMap.empty

/-- The first entry of an index that refers to a note that is not there. -/
def danglingIn? (files : KeyMap Text Note) (index : Index) : Option (Text × Text) :=
  index.entries.findSome? fun (key, paths) =>
    (paths.toList.find? fun path => !files.contains path).map (key, ·)

/-- The first reference to a note that is not there. Concepts are looked at before
tags, and tags before links. -/
def dangling? (s : Snapshot) : Option DanglingReference :=
  match danglingIn? s.files s.concepts with
  | some (concept, path) => some (.concept concept path)
  | none =>
    match danglingIn? s.files s.tags with
    | some (tag, path) => some (.tag tag path)
    | none => (s.links.keys.find? fun path => !s.files.contains path).map .linkSource

end Snapshot

end NoteLinks
