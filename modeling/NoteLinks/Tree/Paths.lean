/-
# Following paths

A path is followed through a tree from the directory that one works in, or from
the root if it starts with a slash. Every step leads out of a directory. Empty
segments and single dots lead nowhere, and two dots lead one name back.
-/
import NoteLinks.Error
import NoteLinks.Text.Bytes
import NoteLinks.Tree.Basic

namespace NoteLinks.Tree

/-- The place that segments lead to from a place. -/
def follow (t : Tree) (place : Place) : List Text → Except DiskError Place
  | [] => .ok place
  | segment :: rest =>
    if !t.isDirectory place then .error .notDirectory
    else if segment.isEmpty || segment == ['.'] then t.follow place rest
    else if segment == ['.', '.'] then t.follow place.dropLast rest
    else if (t.find? (place ++ [segment])).isSome then t.follow (place ++ [segment]) rest
    else .error .notFound

/-- Where a path starts, for someone working in a directory. -/
def start (here : Place) : Text → Place
  | '/' :: _ => []
  | _ => here

/-- The place that a path leads to. -/
def locate (t : Tree) (here : Place) (path : Text) : Except DiskError Place :=
  if path.isEmpty then .error .notFound else t.follow (start here path) (Path.segments path)

/-- Whether a path leads anywhere. -/
def leads (t : Tree) (here : Place) (path : Text) : Bool :=
  match t.locate here path with
  | .ok _ => true
  | .error _ => false

/-! ## Reading and writing files -/

/-- The bytes of the file at a place. -/
def bytesAt (t : Tree) (place : Place) : Except DiskError ByteArray :=
  match t.find? place with
  | some (.file bytes) => .ok bytes
  | some .directory => .error .isDirectory
  | none => .error .notFound

/-- The text of the file at a place. -/
def textAt (t : Tree) (place : Place) : Except DiskError Text := do
  match Text.decode? (← t.bytesAt place) with
  | some text => .ok text
  | none => .error .notText

/-- The text of the file that a path leads to. -/
def readText (t : Tree) (here : Place) (path : Text) : Except DiskError Text := do
  t.textAt (← t.locate here path)

/-- The tree in which a file under a name in a directory has these bytes. -/
def writeAt (t : Tree) (dir : Place) (name : Text) (bytes : ByteArray) : Except DiskError Tree :=
  if h : t.HasRoom dir name then .ok (t.put dir name (.file bytes) h)
  else if t.isDirectory dir then .error .isDirectory
  else .error .notDirectory

/-- The tree in which the file that a path leads to has these bytes. The directory
of the file must be there, and a path that ends in a slash names no file. -/
def write (t : Tree) (here : Place) (path : Text) (bytes : ByteArray) : Except DiskError Tree :=
  match (Path.segments path).reverse.dropWhile List.isEmpty with
  | [] => .error (if path.isEmpty then .notFound else .isDirectory)
  | name :: above => do
    let dir ← t.follow (start here path) above.reverse
    if !t.isDirectory dir then .error .notDirectory
    else if path.getLast? == some '/' then .error .isDirectory
    else t.writeAt dir name bytes

end NoteLinks.Tree
