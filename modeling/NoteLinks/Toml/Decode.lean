/-
# Taking TOML values apart

Settings are read from values by small readers, one for each shape. Every reader
says nothing of a value that does not have its shape.

A record is written as a table. Members that do not belong to it are passed over,
and any of its members may be missing. A record may also be written as the array
of its values, and a date stands for a record without members.
-/
import NoteLinks.Ordered.KeyMap
import NoteLinks.Toml.Basic

namespace NoteLinks.Toml

/-- A reader of values. -/
abbrev Decoder (α : Type) := Toml → Option α

/-- A text. -/
def text? : Decoder Text
  | .text t => t
  | _ => none

/-- A truth value. -/
def bool? : Decoder Bool
  | .bool b => b
  | _ => none

/-- A natural number. -/
def count? : Decoder Nat
  | .integer n => if 0 ≤ n then some n.toNat else none
  | _ => none

/-- A number. -/
def number? : Decoder Float
  | .float x => x
  | .integer n => some (Float.ofInt n)
  | _ => none

/-- A list of values of one shape. -/
def list? {α : Type} (item : Decoder α) : Decoder (List α)
  | .array items => items.mapM item
  | .tables last earlier => ((last :: earlier).reverse.map (.table .header)).mapM item
  | _ => none

/-- Values of one shape under texts as keys. -/
def map? {α : Type} (value : Decoder α) : Decoder (KeyMap Text α)
  | .table _ members =>
    let entry? (m : Text × Toml) : Option (Text × α) := (value m.2).map (m.1, ·)
    (members.mapM entry?).map KeyMap.ofList
  | _ => none

/-- The values of a record whose fields have these names, in the order of the
names. -/
def fields? (names : List String) : Decoder (List (Option Toml))
  | .table _ members => some (names.map fun name => members.lookup name.toList)
  | .array items => some ((List.range names.length).map fun i => items[i]?)
  | .tables last earlier =>
    let items := (last :: earlier).reverse.map (Toml.table .header)
    some ((List.range names.length).map fun i => items[i]?)
  | .time => some (names.map fun _ => none)
  | _ => none

/-- The value of a field, or a default for a missing one. -/
def fieldOr {α : Type} (default : α) (value : Decoder α) : Option Toml → Option α
  | some v => value v
  | none => some default

/-- The value of a field, which may be missing. -/
def field? {α : Type} (value : Decoder α) : Option Toml → Option (Option α)
  | some v => (value v).map some
  | none => some none

end NoteLinks.Toml
