/-
# TOML values

A TOML document is a table. Tables are built up from statements that may stand
far apart, and how a table came to be decides what may still be added to it. So
every table remembers its origin until the document is complete.
-/
import NoteLinks.Text.Basic

namespace NoteLinks

namespace Toml

/-- How a table came to be. -/
inductive Origin
  /-- It has a header of its own, or it is the document. -/
  | header
  /-- A header of a table in it named it. -/
  | implied
  /-- A dotted key named it. -/
  | dotted
  /-- It is written within braces, and complete. -/
  | inline
  deriving DecidableEq, Repr

end Toml

/-- A TOML value. -/
inductive Toml
  | text (t : Text)
  | integer (n : Int)
  | float (x : Float)
  | bool (b : Bool)
  /-- A date, a time or both. -/
  | time
  | array (items : List Toml)
  | table (origin : Toml.Origin) (members : List (Text × Toml))
  /-- An array of tables each of which has a header: the last, and those before it
  from the last to the first. -/
  | tables (last : List (Text × Toml)) (earlier : List (List (Text × Toml)))

namespace Toml

/-- The members of a table, in the order in which they are named first. -/
abbrev Members := List (Text × Toml)

end Toml

end NoteLinks
