/-
# Building TOML tables

A table may be named before it is defined, and the tables in it may be defined
later than itself. But nothing is defined twice: a table that has a header gets
no second one and no dotted keys from elsewhere, and a table within braces is
complete.
-/
import NoteLinks.Toml.Basic

namespace NoteLinks.Toml

/-- Members in which the value of a key is made anew from the one that was there. -/
def alter? (key : Text) (f : Option Toml → Option Toml) : Members → Option Members
  | [] => (f none).map fun v => [(key, v)]
  | (k, v) :: rest =>
    if k = key then (f (some v)).map fun v => (k, v) :: rest
    else (alter? key f rest).map fun rest => (k, v) :: rest

/-- A change of a table with its origin. -/
abbrev Change := Origin → Members → Option Members

/-- A change of the table that keys lead to by way of headers. Tables that are not
there are implied, and of an array of tables the last is meant. -/
def changeAt? (change : Change) : (path : List Text) → Change
  | [], origin, members => change origin members
  | key :: path, _, members => alter? key (fun
    | none => (changeAt? change path .implied []).map (.table .implied)
    | some (.table .inline _) => none
    | some (.table origin members) => (changeAt? change path origin members).map (.table origin)
    | some (.tables last earlier) =>
      (changeAt? change path .header last).map fun last => .tables last earlier
    | some _ => none) members

/-- A change of the table that the front of a dotted key leads to. Only tables that
have no header of their own can be reached. -/
def changeByDots? (change : Change) : (path : List Text) → Change
  | [], origin, members => change origin members
  | key :: path, _, members => alter? key (fun
    | none => (changeByDots? change path .dotted []).map (.table .dotted)
    | some (.table .dotted members) =>
      (changeByDots? change path .dotted members).map (.table .dotted)
    | some (.table .implied members) =>
      (changeByDots? change path .implied members).map (.table .implied)
    | some (.tables last earlier) =>
      (changeByDots? change path .header last).map fun last => .tables last earlier
    | some _ => none) members

/-- Adds a value under a key that has none yet. -/
def addValue? (key : Text) (value : Toml) : Change := fun _ members =>
  alter? key (fun
    | none => some value
    | some _ => none) members

/-- Adds a value under a dotted key. The table it gets into must have been made by
dotted keys itself, unless it is the one that the key starts from. -/
def addPair? (path : List Text) (key : Text) (value : Toml) : Change :=
  if path.isEmpty then addValue? key value
  else changeByDots? (fun origin members =>
    if origin = .dotted then addValue? key value origin members else none) path

/-- Gives a table its header. -/
def addTable? (key : Text) : Change := fun _ members =>
  alter? key (fun
    | none => some (.table .header [])
    | some (.table .implied members) => some (.table .header members)
    | some _ => none) members

/-- Adds one more table to an array of tables. -/
def addToTables? (key : Text) : Change := fun _ members =>
  alter? key (fun
    | none => some (.tables [] [])
    | some (.tables last earlier) => some (.tables [] (last :: earlier))
    | some _ => none) members

/-- A statement of a document. The last key of a path is told apart from those in
front of it. -/
inductive Statement
  | pair (path : List Text) (key : Text) (value : Toml)
  | table (path : List Text) (key : Text)
  | tables (path : List Text) (key : Text)

/-- The members of the document whose statements follow those that led to the given
members. The path leads to the table that pairs belong to. -/
def build? (path : List Text) (members : Members) : List Statement → Option Members
  | [] => some members
  | .pair dots key value :: rest => do
    build? path (← changeAt? (addPair? dots key value) path .header members) rest
  | .table above key :: rest => do
    build? (above ++ [key]) (← changeAt? (addTable? key) above .header members) rest
  | .tables above key :: rest => do
    build? (above ++ [key]) (← changeAt? (addToTables? key) above .header members) rest

/-- The table within braces that has these pairs. -/
def inlineTable? (pairs : List (List Text × Text × Toml)) : Option Toml :=
  (pairs.foldlM (fun members (path, key, value) => addPair? path key value .header members)
    []).map (.table .inline)

end NoteLinks.Toml
