/-
# Data files

Snapshots and suggestions are kept in files between one command and the next.
-/
import NoteLinks.Data.Suggestion
import NoteLinks.Json.Reader
import NoteLinks.Json.Writer
import NoteLinks.Tree.Paths

namespace NoteLinks

/-- The bytes of a file that holds a value. -/
def Json.fileBytes (j : Json) : ByteArray := Text.encode (Json.pretty 0 j ++ ['\n'])

namespace Snapshot

/-- The tree in which a file holds the snapshot. -/
def save (t : Tree) (here : Place) (path : Text) (s : Snapshot) : Except DiskError Tree :=
  t.write here path (Json.fileBytes s.toJson)

/-- The snapshot that a file holds. -/
def load (t : Tree) (here : Place) (path : Text) : Except Error Snapshot :=
  match t.locate here path with
  | .error _ => .error (.notFound path)
  | .ok place =>
    match t.find? place with
    | some (.file bytes) =>
      match (Json.ofBytes? bytes).bind ofJson? with
      | some s => .ok s
      | none => .error .malformedData
    | _ => .error (.notFound path)

end Snapshot

namespace SuggestionMap

/-- The tree in which a file holds the suggestions. -/
def save (t : Tree) (here : Place) (path : Text) (m : SuggestionMap) : Except DiskError Tree :=
  t.write here path (Json.fileBytes m.toJson)

/-- The suggestions in the text of a file. -/
def ofText? (t : Text) : Option SuggestionMap := (Json.ofText? t).bind ofJson?

end SuggestionMap

end NoteLinks
