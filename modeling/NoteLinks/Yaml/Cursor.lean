/-
# Places in a YAML text

Reading goes from character to character and keeps count of lines and columns,
because columns are what the structure of a block depends on. Line endings are
made uniform beforehand, so that each is a single character.
-/
import NoteLinks.Text.Basic

namespace NoteLinks.Yaml

/-- Whether the character may occur in a YAML text at all. -/
def isAllowed (c : Char) : Bool :=
  let n := c.toNat
  n == 0x09 || n == 0x0A || n == 0x0D || (0x20 ≤ n && n ≤ 0x7E) || n == 0x85
    || (0xA0 ≤ n && n ≤ 0xD7FF) || (0xE000 ≤ n && n ≤ 0xFFFD) || 0x10000 ≤ n

/-- The text with every carriage return, next line, and pair of carriage return
and line feed made a line feed. The line and paragraph separators remain. -/
def uniformBreaks : Text → Text
  | [] => []
  | '\r' :: '\n' :: t => '\n' :: uniformBreaks t
  | c :: t => (if c == '\r' || c.toNat == 0x85 then '\n' else c) :: uniformBreaks t

/-- Whether the character ends a line, once line endings are uniform. -/
def isBreak (c : Char) : Bool := c == '\n' || c.toNat == 0x2028 || c.toNat == 0x2029

/-- Whether the character is a space or tab. -/
def isSpace (c : Char) : Bool := c == ' ' || c == '\t'

/-- Whether the text begins with a space, a tab, a line ending or its own end. -/
def atGap : Text → Bool
  | [] => true
  | c :: _ => isSpace c || isBreak c

/-- Whether a line that begins with this text marks the start or end of a
document. -/
def atDocumentMark : Text → Bool
  | '-' :: '-' :: '-' :: t => atGap t
  | '.' :: '.' :: '.' :: t => atGap t
  | _ => false

/-- The characters of names: letters and digits of ASCII, dashes and
underscores. -/
def isNameChar (c : Char) : Bool := c.isAlphanum || c == '-' || c == '_'

/-- A place in a text: what follows, and the line and column it starts at. -/
structure Cursor where
  rest : Text
  line : Nat
  column : Nat

namespace Cursor

/-- The cursor behind a number of characters that end no line. -/
def skip (n : Nat) (c : Cursor) : Cursor :=
  { c with rest := c.rest.drop n, column := c.column + n }

/-- The cursor behind the characters of a class, and these characters. No
character of the class ends a line. -/
def skipWhile (inClass : Char → Bool) (c : Cursor) : Text × Cursor :=
  let taken := c.rest.takeWhile inClass
  (taken, c.skip taken.length)

/-- The cursor at the end of the line. -/
def skipToBreak (c : Cursor) : Cursor := (c.skipWhile fun d => !isBreak d).2

/-- The cursor behind the line ending it stands at, if it stands at one. -/
def skipBreak (c : Cursor) : Cursor :=
  match c.rest with
  | d :: t => if isBreak d then ⟨t, c.line + 1, 0⟩ else c
  | [] => c

/-- The cursor at the start of the next line, if nothing but spaces and a comment
is left of this one. -/
def endLine? (c : Cursor) : Option Cursor :=
  let c := (c.skipWhile isSpace).2
  let c := match c.rest with
    | '#' :: _ => c.skipToBreak
    | _ => c
  match c.rest with
  | [] => some c
  | d :: _ => if isBreak d then some c.skipBreak else none

end Cursor

end NoteLinks.Yaml
