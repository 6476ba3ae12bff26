/-
# Patterns

A pattern says what is looked for by a list of parts. A part takes a run of characters of some
class, or it takes nothing and asks for the start or the end of a line. Of the matches at a
position the one counts in which the first run is as long as possible, then the second one, and
so on: a run gives characters back only where the parts behind it find nothing otherwise.

A text is searched from the left, and behind a match the search goes on. Patterns of which a
match may be empty are not searched for.
-/
import NoteLinks.Text.Piece

namespace NoteLinks

namespace Pattern

/-- A part of a pattern. -/
inductive Part
  /-- Nothing, where a line starts. -/
  | lineStart
  /-- Nothing, where a line ends. -/
  | lineEnd
  /-- Characters of a class, not less than the one number of them and not more than the other
  one. -/
  | run (inClass : Char → Bool) (least : Nat) (most : Option Nat)

end Pattern

/-- A pattern is the list of its parts. -/
abbrev Pattern := List Pattern.Part

/-- A match of a pattern in a text: where it starts, and what its runs take. -/
structure Finding where
  start : Nat
  runs : List Text
  deriving DecidableEq, Repr

namespace Finding

/-- The characters of a match. -/
def text (f : Finding) : Text := f.runs.flatten

/-- The range of positions of a match. -/
def span (f : Finding) : Span := ⟨f.start, f.start + f.text.length⟩

end Finding

namespace Pattern

/-- Whether a line starts behind a text, when it is known whether one starts in front of it. -/
def lineStartsBehind (starts : Bool) (t : Text) : Bool :=
  match t.getLast? with
  | some c => c == '\n'
  | none => starts

/-- Whether a line ends in front of a text. -/
def lineEndsBefore : Text → Bool
  | [] => true
  | c :: _ => c == '\n'

/-- The lengths that a run at the start of a text may have, from the greatest. -/
def lengths (inClass : Char → Bool) (least : Nat) (most : Option Nat) (t : Text) : List Nat :=
  let all := (t.takeWhile inClass).length
  let greatest := match most with
    | some n => min n all
    | none => all
  (List.range' least (greatest + 1 - least)).reverse

/-- What the runs of a pattern take at the start of a text, if it matches there. It is told
whether a line starts at this position. -/
def runs? : Pattern → (starts : Bool) → Text → Option (List Text)
  | [], _, _ => some []
  | .lineStart :: parts, starts, t => if starts then runs? parts starts t else none
  | .lineEnd :: parts, starts, t => if lineEndsBefore t then runs? parts starts t else none
  | .run inClass least most :: parts, starts, t =>
    (lengths inClass least most t).findSome? fun n =>
      (runs? parts (lineStartsBehind starts (t.take n)) (t.drop n)).map (t.take n :: ·)

/-- The matches in a text behind its first `skip` characters. The position of the text is told,
and whether a line starts there. -/
def findingsFrom (p : Pattern) (position skip : Nat) (starts : Bool) : Text → List Finding
  | [] => []
  | c :: t =>
    match skip with
    | skip + 1 => findingsFrom p (position + 1) skip (c == '\n') t
    | 0 =>
      match runs? p starts (c :: t) with
      | some runs =>
        ⟨position, runs⟩ :: findingsFrom p (position + 1) (runs.flatten.length - 1) (c == '\n') t
      | none => findingsFrom p (position + 1) 0 (c == '\n') t

/-- The leftmost matches of a pattern in a text, which do not overlap. -/
def findings (p : Pattern) (t : Text) : List Finding := findingsFrom p 0 0 true t

/-- A pattern for whole lines, of which the parts between start and end are given. -/
def wholeLine (parts : Pattern) : Pattern := .lineStart :: parts ++ [.lineEnd]

end Pattern

end NoteLinks
