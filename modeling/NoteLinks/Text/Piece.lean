/-
# Scanning a text for matches

Links, tags, bold spans and the like are all found in the same way: the text is
read from the left, at every position a recogniser says whether a match starts
there, and after a match the scan goes on behind it. So the matches found are
the leftmost ones and do not overlap.

The result is the text itself, cut into pieces: the matches, and between them
the characters that no match covers. Listing the matches, removing them and
saying where they lie are all read off the pieces.
-/
import NoteLinks.Text.Basic

namespace NoteLinks

/-- A match at the start of a text: what it means and how many characters it
takes. -/
structure Match (α : Type) where
  value : α
  length : Nat

/-- A recogniser looks for a match at the start of a text. -/
abbrev Recogniser (α : Type) := Text → Option (Match α)

/-- A part of a scanned text. -/
inductive Piece (α : Type)
  /-- A character that no match covers. -/
  | plain (c : Char)
  /-- The text of a match and what it means. -/
  | hit (text : Text) (value : α)

namespace Piece

variable {α : Type}

/-- The characters of a piece. -/
def text : Piece α → Text
  | plain c => [c]
  | hit t _ => t

/-- What the piece means, if it is a match. -/
def value? : Piece α → Option α
  | plain _ => none
  | hit _ v => some v

/-- The characters of a piece that no match covers. -/
def uncovered : Piece α → Text
  | plain c => [c]
  | hit _ _ => []

end Piece

/-- A range of positions in a text, with its end excluded. Positions count
characters. -/
structure Span where
  start : Nat
  stop : Nat
  deriving DecidableEq, Repr

namespace Span

/-- Whether two spans have a position in common, neither of them being empty. -/
def overlaps (a b : Span) : Bool := a.start < b.stop && b.start < a.stop

end Span

namespace Text

variable {α : Type}

/-- The pieces of a text behind its first `skip` characters. -/
def piecesFrom (recognise : Recogniser α) : Nat → Text → List (Piece α)
  | _, [] => []
  | skip + 1, _ :: t => piecesFrom recognise skip t
  | 0, c :: t =>
    match recognise (c :: t) with
    | some m => .hit ((c :: t).take m.length) m.value :: piecesFrom recognise (m.length - 1) t
    | none => .plain c :: piecesFrom recognise 0 t

/-- A text cut into its leftmost matches, which do not overlap, and the
characters between them. -/
def pieces (recognise : Recogniser α) (t : Text) : List (Piece α) := piecesFrom recognise 0 t

/-- What the matches in a text mean, in the order of the text. -/
def hits (recognise : Recogniser α) (t : Text) : List α :=
  (pieces recognise t).filterMap Piece.value?

/-- The text without its matches. -/
def withoutMatches (recognise : Recogniser α) (t : Text) : Text :=
  (pieces recognise t).flatMap Piece.uncovered

/-- The spans of the matches among pieces of which the first starts at a
position. -/
def spansFrom (start : Nat) : List (Piece α) → List Span
  | [] => []
  | .plain _ :: ps => spansFrom (start + 1) ps
  | .hit t _ :: ps => ⟨start, start + t.length⟩ :: spansFrom (start + t.length) ps

/-- The spans of the matches in a text, in ascending order. -/
def spans (recognise : Recogniser α) (t : Text) : List Span := spansFrom 0 (pieces recognise t)

/-- The longest run of characters of a class at the start of a text, and the
rest. -/
def run (inClass : Char → Bool) (t : Text) : Text × Text := (t.takeWhile inClass, t.dropWhile inClass)

end Text

end NoteLinks
