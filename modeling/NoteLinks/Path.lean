/-
# Paths

A note is known by its path below the vault's root, with `/` between the
segments. Paths of notes are texts and are compared as texts. Only where a
path is followed through a directory tree is it taken apart into components,
in which empty segments and single dots count for nothing.
-/
import NoteLinks.Text.Basic

namespace NoteLinks.Path

/-- The directory of notes that lie directly in the vault. -/
def rootDirectory : Text := ['.']

/-- The extension of notes. -/
def noteExtension : Text := ['m', 'd']

/-- The segments between the slashes. -/
def segments (path : Text) : List Text := Text.splitOn '/' path

/-- A file name without its last extension. A dot at the front of the name
begins no extension. -/
def nameStem (name : Text) : Text :=
  match Text.cutLast? '.' name with
  | some (stem, _) => if stem.isEmpty then name else stem
  | none => name

/-- The last extension of a file name. -/
def extension? (name : Text) : Option Text :=
  match Text.cutLast? '.' name with
  | some (stem, extension) => if stem.isEmpty then none else some extension
  | none => none

/-- The last segment of a path. -/
def fileName (path : Text) : Text :=
  match Text.cutLast? '/' path with
  | some (_, name) => name
  | none => path

/-- The last segment of a path without its extension. -/
def stem (path : Text) : Text := nameStem (fileName path)

/-- The directory part of a path, or the root directory if there is none. -/
def parent (path : Text) : Text :=
  match Text.cutLast? '/' path with
  | some (dir, _) => if dir.isEmpty then rootDirectory else dir
  | none => rootDirectory

/-- Whether a directory lies below another. The root directory does not count
as lying above anything. -/
def isAncestor (ancestor dir : Text) : Bool :=
  if ancestor.isEmpty || ancestor == rootDirectory then false
  else match Text.dropPrefix? ancestor dir with
    | some ('/' :: _) => true
    | _ => false

/-! ## Components -/

/-- A step of a path through a directory tree. -/
inductive Component
  /-- The root of all directories, for a path that starts with a slash. -/
  | root
  /-- A single dot at the very front. -/
  | here
  /-- Two dots. -/
  | up
  | name (n : Text)
  deriving DecidableEq, Repr

/-- The component that a segment behind the first stands for, if any. -/
def Component.ofSegment? (segment : Text) : Option Component :=
  if segment.isEmpty || segment == ['.'] then none
  else if segment == ['.', '.'] then some .up
  else some (.name segment)

/-- The components of a path. -/
def components (path : Text) : List Component :=
  let rest := (segments path).filterMap Component.ofSegment?
  match path with
  | '/' :: _ => .root :: rest
  | ['.'] | '.' :: '/' :: _ => .here :: rest
  | _ => rest

/-- What follows the components `p` in components that start with them. -/
def dropComponents? : List Component → List Component → Option (List Component)
  | [], cs => some cs
  | _ :: _, [] => none
  | p :: ps, c :: cs => if p = c then dropComponents? ps cs else none

/-- The name in a component. -/
def Component.name? : Component → Option Text
  | .name n => some n
  | _ => none

/-- The key of a file below a root: the names on the way from the root to the
file. There is none for a path that is not below the root. -/
def key? (root path : Text) : Option Text :=
  match dropComponents? (components root) (components path) with
  | some rest =>
    let names := rest.filterMap Component.name?
    if names.isEmpty then none else some (Text.join ['/'] names)
  | none => none

/-- A path below a directory. An absolute path stays what it is. -/
def below (dir path : Text) : Text :=
  match path with
  | '/' :: _ => path
  | _ => if dir.isEmpty || dir.getLast? == some '/' then dir ++ path else dir ++ '/' :: path

/-- The path of another file in the directory of a file. Segments that lead nowhere
are dropped at the end of the directory's path, except for its first segment. -/
def sibling (path name : Text) : Text :=
  let above := (segments path).dropLast
  let kept := (above.drop 1).reverse.dropWhile fun s => s.isEmpty || s == ['.']
  match above.take 1 ++ kept.reverse with
  | [[]] => '/' :: name
  | dir => Text.join ['/'] (dir ++ [name])

end NoteLinks.Path
