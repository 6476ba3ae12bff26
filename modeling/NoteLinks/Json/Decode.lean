/-
# Taking JSON values apart

What a data file holds is read from its value by small readers, one for each
shape. Every reader says nothing of a value that does not have its shape.

A record is written as an object, whose members may stand in any order. Members
that do not belong to the record are passed over, but none that does may be
repeated. A record may also be written as the array of its values.
-/
import NoteLinks.Json.Basic
import NoteLinks.Ordered.KeyMap

namespace NoteLinks.Json

/-- A reader of values. -/
abbrev Decoder (α : Type) := Json → Option α

/-- A text whose escapes spell characters. -/
def text? : Decoder Text
  | .text t => t
  | _ => none

/-- A natural number below a bound. -/
def natBelow? (bound : Nat) : Decoder Nat
  | .number n => n.natBelow? bound
  | _ => none

/-- A natural number of 64 bits. -/
def count? : Decoder Nat := natBelow? 0x10000000000000000

/-- A number that is not too large for a float. -/
def float? : Decoder Float
  | .number n => n.scaledFloat?
  | _ => none

/-- A list of values of one shape. -/
def list? {α : Type} (item : Decoder α) : Decoder (List α)
  | .array items => items.mapM item
  | _ => none

/-- One of some possibilities, written as its name, or as an object with its name
over `null`. -/
def choice? {α : Type} (nameOf : α → Text) (possibilities : List α) : Decoder α
  | .text (some name) | .object [(some name, .null)] =>
    possibilities.find? fun a => nameOf a == name
  | _ => none

/-- Values of one shape under texts as keys. Of several with the same key the last
counts. -/
def map? {α : Type} (value : Decoder α) : Decoder (KeyMap Text α)
  | .object members =>
    let entry? (m : Option Text × Json) : Option (Text × α) := do some (← m.1, ← value m.2)
    (members.mapM entry?).map KeyMap.ofList
  | _ => none

/-- The only value under a key, if there is one. The outer result is missing if
there are several. -/
def member? (members : List (Text × Json)) (key : Text) : Option (Option Json) :=
  match members.filter fun m => m.1 == key with
  | [] => some none
  | [m] => some (some m.2)
  | _ => none

/-- The values of a record whose fields have these names, in the order of the
names. Fields may be missing. -/
def fields? (names : List String) : Decoder (List (Option Json))
  | .array items =>
    if names.length < items.length then none
    else some (items.map some ++ List.replicate (names.length - items.length) none)
  | .object members => do
    let members ← members.mapM fun (m : Option Text × Json) => m.1.map (·, m.2)
    names.mapM fun name => member? members name.toList
  | _ => none

/-- The value of a field that must be there. -/
def required? {α : Type} (value : Decoder α) (field : Option Json) : Option α := field.bind value

/-- The value of a field that may be missing. -/
def optional? {α : Type} (value : Decoder α) (default : α) : Option Json → Option α
  | some j => value j
  | none => some default

end NoteLinks.Json
