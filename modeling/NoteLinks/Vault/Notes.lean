/-
# The notes of a vault

A vault is a directory, and its notes are the files below it with the extension
of notes. Hidden files and directories are passed over, and so are directories
whose names are excluded. The name of the vault's own directory does not matter.
-/
import NoteLinks.Note.Reading
import NoteLinks.Snapshot
import NoteLinks.Tree.Paths

namespace NoteLinks

/-- A vault. -/
structure Vault where
  /-- The path by which its directory is known. -/
  path : Text
  /-- Where its directory is. -/
  place : Place

namespace Vault

/-- The vault whose directory a path leads to. -/
def find (t : Tree) (here : Place) (path : Text) : Except Error Vault :=
  match t.locate here path with
  | .ok place => if t.isDirectory place then .ok ⟨path, place⟩ else .error (.notFound path)
  | .error _ => .error (.notFound path)

/-- Whether a name marks something that is not to be seen. -/
def isHidden (name : Text) : Bool := name.head? == some '.'

/-- Whether a name is that of a note. -/
def isNoteName (name : Text) : Bool := Path.extension? name == some Path.noteExtension

/-- Whether the scan comes to what stands below the vault's directory under these
names. All of them but the last are names of directories. -/
def reaches (excluded : List Text) : Place → Bool
  | [] => false
  | [name] => !isHidden name
  | name :: rest => !isHidden name && !excluded.contains name && reaches excluded rest

/-- The notes with their bytes, under the names that lead to them from the vault's
directory. They are in ascending order of these names. -/
def notes (t : Tree) (v : Vault) (excluded : List Text) : List (Place × ByteArray) :=
  (t.below v.place).filterMap fun (names, e) =>
    match e, names.getLast? with
    | .file bytes, some name =>
      if reaches excluded names && isNoteName name then some (names, bytes) else none
    | _, _ => none

/-- The path of a file below the vault's directory. -/
def pathOf (v : Vault) (names : Place) : Text := Path.below v.path (Text.join ['/'] names)

/-- The key of a file below the vault's directory. -/
def key? (v : Vault) (names : Place) : Option Text := Path.key? v.path (v.pathOf names)

/-- The note under a key with these bytes. Of bytes that are no text nothing is
known. -/
def noteOf (key : Text) (bytes : ByteArray) : Note :=
  match Text.decode? bytes with
  | some content => Note.read key content
  | none => Note.empty

/-- The snapshot of a vault. -/
def analyze (t : Tree) (v : Vault) (excluded : List Text) : Snapshot :=
  Snapshot.ofNotes (KeyMap.ofList ((v.notes t excluded).filterMap fun (names, bytes) =>
    (v.key? names).map fun key => (key, noteOf key bytes)))

end Vault

end NoteLinks
