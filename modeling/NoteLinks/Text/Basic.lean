/-
# Texts

A note is a text, and a text is the list of its characters. Everything that
reads or changes a note works on that list by recursion, so that what a
function does to a text is visible in the shape of its definition and can be
proved by induction on it.

Strings occur only at the edge of the library, where bytes come in and go out.
-/

namespace NoteLinks

/-- A text is the list of its characters, ordered by their code points. -/
abbrev Text := List Char

namespace Text

/-! ## Blank characters -/

/-- A blank is a character with the Unicode property White_Space. -/
def isBlank (c : Char) : Bool :=
  let n := c.toNat
  (0x09 ≤ n && n ≤ 0x0D) || n == 0x20 || n == 0x85 || n == 0xA0 || n == 0x1680
    || (0x2000 ≤ n && n ≤ 0x200A) || n == 0x2028 || n == 0x2029 || n == 0x202F
    || n == 0x205F || n == 0x3000

/-- A text with nothing in it but blanks. -/
def isBlankText (t : Text) : Bool := t.all isBlank

/-- The text from its first character that is not a blank. -/
def trimStart (t : Text) : Text := t.dropWhile isBlank

/-- The text up to its last character that is not a blank. -/
def trimEnd : Text → Text
  | [] => []
  | c :: t => match trimEnd t with
    | [] => if isBlank c then [] else [c]
    | rest => c :: rest

/-- The text without the blanks at its two ends. -/
def trim (t : Text) : Text := trimEnd (trimStart t)

/-- The text without the characters of a class at its two ends. -/
def trimBoth (inClass : Char → Bool) (t : Text) : Text :=
  ((t.dropWhile inClass).reverse.dropWhile inClass).reverse

/-- The maximal runs of characters that are not blanks. -/
def words : Text → List Text
  | [] => []
  | c :: t =>
    if isBlank c then words t
    else match t, words t with
      | d :: _, w :: ws => if isBlank d then [c] :: w :: ws else (c :: w) :: ws
      | _, ws => [c] :: ws

/-- Texts put together with a separator between neighbours. -/
def join (sep : Text) : List Text → Text
  | [] => []
  | [t] => t
  | t :: u :: ts => t ++ sep ++ join sep (u :: ts)

/-! ## Taking texts apart -/

/-- What follows `p` in a text that starts with it. -/
def dropPrefix? : Text → Text → Option Text
  | [], t => some t
  | _ :: _, [] => none
  | p :: ps, c :: t => if p = c then dropPrefix? ps t else none

/-- Whether the text starts with `p`. -/
def startsWith (p t : Text) : Bool := (dropPrefix? p t).isSome

/-- What precedes `s` in a text that ends with it. -/
def dropSuffix? (s t : Text) : Option Text :=
  (dropPrefix? s.reverse t.reverse).map List.reverse

/-- The text before the first occurrence of `p`, and the text after it. -/
def cutAt? (p : Text) : Text → Option (Text × Text)
  | [] => match p with
    | [] => some ([], [])
    | _ :: _ => none
  | c :: t => match dropPrefix? p (c :: t) with
    | some after => some ([], after)
    | none => (cutAt? p t).map fun (before, after) => (c :: before, after)

/-- Whether `p` occurs somewhere in the text. -/
def contains (p t : Text) : Bool := (cutAt? p t).isSome

/-- The text before the last occurrence of a character, and the text after it. -/
def cutLast? (sep : Char) : Text → Option (Text × Text)
  | [] => none
  | c :: t => match cutLast? sep t with
    | some (before, after) => some (c :: before, after)
    | none => if c = sep then some ([], t) else none

/-- The pieces between the occurrences of a separator: one more than there are
separators. -/
def splitOn (sep : Char) : Text → List Text
  | [] => [[]]
  | c :: t =>
    if c = sep then [] :: splitOn sep t
    else match splitOn sep t with
      | [] => [[c]]
      | p :: ps => (c :: p) :: ps

/-- The lines of a text, each with the line feed that ends it. Only the last
line may lack one, and it is not empty. -/
def lines : Text → List Text
  | [] => []
  | c :: t =>
    if c = '\n' then ['\n'] :: lines t
    else match lines t with
      | [] => [[c]]
      | l :: ls => (c :: l) :: ls

/-- A line without its ending, a line feed or a carriage return with one. -/
def dropLineEnd (line : Text) : Text :=
  match dropSuffix? ['\n'] line with
  | some body => (dropSuffix? ['\r'] body).getD body
  | none => line

/-! ## Spelling -/

/-- The text with the letters A to Z in lower case. -/
def lowerAscii (t : Text) : Text := t.map Char.toLower

/-- The text with every occurrence of a character replaced. -/
def replaceChar (c : Char) (new : Text) (t : Text) : Text :=
  t.flatMap fun d => if d = c then new else [d]

/-- The text filled up with blanks on the right to a width. -/
def padRight (width : Nat) (t : Text) : Text :=
  t ++ List.replicate (width - t.length) ' '

/-- The decimal digits of a natural number. -/
def ofNat (n : Nat) : Text := Nat.toDigits 10 n

/-- The value of a hexadecimal digit. -/
def hexDigit? (c : Char) : Option Nat :=
  if '0' ≤ c ∧ c ≤ '9' then some (c.toNat - '0'.toNat)
  else if 'a' ≤ c ∧ c ≤ 'f' then some (c.toNat - 'a'.toNat + 10)
  else if 'A' ≤ c ∧ c ≤ 'F' then some (c.toNat - 'A'.toNat + 10)
  else none

/-- The number that hexadecimal digits spell, if they are such digits. -/
def hexValue? (digits : Text) : Option Nat :=
  digits.foldlM (fun n c => (hexDigit? c).map (16 * n + ·)) 0

/-- The character with a code point, if it is one. -/
def charOf? (n : Nat) : Option Char := if h : n.isValidChar then some (Char.ofNatAux n h) else none

/-- The length of the text in bytes of UTF-8. -/
def byteLength (t : Text) : Nat := t.foldr (fun c n => c.utf8Size + n) 0

end Text

end NoteLinks
