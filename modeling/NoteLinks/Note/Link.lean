/-
# Links in a note

There are two kinds of link. A wikilink names a note by its title, perhaps with
an alias: `[[title]]` or `[[title|alias]]`. A markdown link names it by its
path: `[label](path.md)`.
-/
import NoteLinks.Ordered.KeySet
import NoteLinks.Text.Piece

namespace NoteLinks.Link

/-- An alias with its bar at the start of a text, and the text behind it. Of
other texts nothing is taken. -/
def dropAlias (t : Text) : Text :=
  match t with
  | '|' :: rest =>
    match rest.takeWhile (· != ']') with
    | [] => t
    | _ :: _ => rest.dropWhile (· != ']')
  | _ => t

/-- A wikilink at the start of a text; it means its target. -/
def recogniseWiki : Recogniser Text
  | '[' :: '[' :: t =>
    let isTarget (c : Char) : Bool := c != ']' && c != '|'
    let target := t.takeWhile isTarget
    match target, dropAlias (t.dropWhile isTarget) with
    | _ :: _, ']' :: ']' :: rest => some ⟨target, t.length + 2 - rest.length⟩
    | _, _ => none
  | _ => none

/-- A label in square brackets at the start of a text, not empty and without a
closing bracket, and the text behind it. -/
def dropLabel? : Text → Option Text
  | '[' :: t =>
    match t.takeWhile (· != ']'), t.dropWhile (· != ']') with
    | _ :: _, ']' :: rest => some rest
    | _, _ => none
  | _ => none

/-- A markdown link to a note at the start of a text; it means its target. -/
def recogniseMarkdown : Recogniser Text := fun t =>
  match dropLabel? t with
  | some ('(' :: rest) =>
    let target := rest.takeWhile (· != ')')
    match Text.dropSuffix? ['.', 'm', 'd'] target, rest.dropWhile (· != ')') with
    | some (_ :: _), ')' :: after => some ⟨target, t.length - after.length⟩
    | _, _ => none
  | _ => none

/-- The targets of the links in a body, in ascending order. -/
def targets (body : Text) : List Text :=
  let written := Text.hits recogniseWiki body ++ Text.hits recogniseMarkdown body
  (KeySet.ofList ((written.map Text.trim).filter fun target => !target.isEmpty)).toList

end NoteLinks.Link
