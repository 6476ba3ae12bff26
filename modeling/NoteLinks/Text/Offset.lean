/-
# Byte offsets

A place in a text can be given as the number of bytes in front of it. Not every
number is such a place: it may be too large, or lie within a character. A text
cannot be cut there.

What a search finds lies behind what it has passed over, so its offset is the sum
of the sizes of what is in front.
-/
import NoteLinks.Text.Piece

namespace NoteLinks

/-- An offset at which a text cannot be cut. -/
structure BadOffset where
  offset : Nat
  deriving DecidableEq, Repr

namespace Text

/-- A text cut into the characters that take up so many bytes at its front, and
the rest. -/
def cutAtOffset? : Nat → Text → Option (Text × Text)
  | 0, t => some ([], t)
  | _ + 1, [] => none
  | n + 1, c :: t =>
    if c.utf8Size ≤ n + 1 then
      (cutAtOffset? (n + 1 - c.utf8Size) t).map fun (before, after) => (c :: before, after)
    else none

/-- The text up to an offset. -/
def upTo (offset : Nat) (t : Text) : Except BadOffset Text :=
  match cutAtOffset? offset t with
  | some (before, _) => .ok before
  | none => .error ⟨offset⟩

/-- The text from an offset on. -/
def behind (offset : Nat) (t : Text) : Except BadOffset Text :=
  match cutAtOffset? offset t with
  | some (_, after) => .ok after
  | none => .error ⟨offset⟩

/-- The text between two offsets. -/
def between (start stop : Nat) (t : Text) : Except BadOffset Text := do
  behind start (← upTo stop t)

/-! ## Searches -/

/-- The offset of the first occurrence of `p` in a text. -/
def offsetOf? (p t : Text) : Option Nat := (cutAt? p t).map fun (before, _) => byteLength before

/-- The offset of the first character of a class in a text. -/
def offsetWhere? (inClass : Char → Bool) : Text → Option Nat
  | [] => none
  | c :: t => if inClass c then some 0 else (offsetWhere? inClass t).map (c.utf8Size + ·)

variable {α : Type}

/-- The spans of the matches among pieces of which the first starts at an offset.
Here positions count bytes. -/
def byteSpansFrom (start : Nat) : List (Piece α) → List Span
  | [] => []
  | .plain c :: ps => byteSpansFrom (start + c.utf8Size) ps
  | .hit t _ :: ps => ⟨start, start + byteLength t⟩ :: byteSpansFrom (start + byteLength t) ps

/-- The spans of the matches in a text, in bytes. -/
def byteSpans (recognise : Recogniser α) (t : Text) : List Span :=
  byteSpansFrom 0 (pieces recognise t)

end Text

end NoteLinks
