/-
# Reading JSON

A value is read from the front of a text, and what follows it is returned. A
JSON text is a single value with nothing but blanks around it. The depth of a
value is not limited.
-/
import NoteLinks.Json.Basic
import NoteLinks.Text.Bytes

namespace NoteLinks.Json

/-- The blanks that may stand between the parts of a JSON text. -/
def isBlank (c : Char) : Bool := c == ' ' || c == '\n' || c == '\t' || c == '\r'

/-- The text from its first character that is not a blank. -/
def skipBlanks (t : Text) : Text := t.dropWhile isBlank

/-! ## Numbers -/

/-- The digits at the front of a text, of which there must be one, and the rest. -/
def digits? (t : Text) : Option (Text × Text) :=
  let digits := t.takeWhile Char.isDigit
  if digits.isEmpty then none else some (digits, t.dropWhile Char.isDigit)

/-- The fraction at the front of a text. Without a point there is none. -/
def fraction? : Text → Option (Text × Text)
  | '.' :: t => digits? t
  | t => some ([], t)

/-- The exponent at the front of a text. Without its letter there is none. -/
def exponent? : Text → Option (Option (Bool × Text) × Text)
  | c :: t =>
    if c == 'e' || c == 'E' then
      match t with
      | '-' :: u => (digits? u).map fun (digits, rest) => (some (true, digits), rest)
      | '+' :: u => (digits? u).map fun (digits, rest) => (some (false, digits), rest)
      | _ => (digits? t).map fun (digits, rest) => (some (false, digits), rest)
    else some (none, c :: t)
  | [] => some (none, [])

/-- The numeral at the front of a text. No zero stands in front of its other
digits. -/
def numeral? (t : Text) : Option (Numeral × Text) := do
  let (negative, t) := match t with
    | '-' :: u => (true, u)
    | _ => (false, t)
  let (whole, t) ← digits? t
  if whole.length > 1 && whole.head? == some '0' then none
  else
    let (fraction, t) ← fraction? t
    let (exponent, t) ← exponent? t
    some ({ negative, whole, fraction, exponent }, t)

/-! ## Texts -/

/-- The characters that a backslash and a single character stand for. -/
def simpleEscape? : Char → Option Char
  | '"' => some '"'
  | '\\' => some '\\'
  | '/' => some '/'
  | 'b' => some '\x08'
  | 'f' => some '\x0c'
  | 'n' => some '\n'
  | 'r' => some '\r'
  | 't' => some '\t'
  | _ => none

/-- What is read of a text: its characters unless its escapes spell none, and
what follows it. -/
abbrev Quoted := Option (Option Text × Text)

namespace Quoted

/-- One more character in front. -/
def cons (c : Char) (q : Quoted) : Quoted := q.map fun (t, rest) => (t.map (c :: ·), rest)

/-- An escape in front that spells no character. -/
def spoil (q : Quoted) : Quoted := q.map fun (_, rest) => (none, rest)

/-- An escape in front. -/
def consEscape (c : Option Char) (q : Quoted) : Quoted :=
  match c with
  | some c => q.cons c
  | none => q.spoil

end Quoted

/-- Whether a number is the first of a pair. -/
def isHigh (n : Nat) : Bool := 0xD800 ≤ n && n ≤ 0xDBFF

/-- The character that a pair of numbers stands for. -/
def pairChar? (high low : Nat) : Option Char :=
  if 0xDC00 ≤ low && low ≤ 0xDFFF then
    Text.charOf? (0x10000 + (high - 0xD800) * 0x400 + (low - 0xDC00))
  else none

/-- A text behind its opening quotation mark. Characters beyond the first 65536
are escaped by pairs of numbers; `high` is the first number of a pair whose
second must come next. -/
def quoted? (high : Option Nat) : Text → Quoted
  | [] => none
  | '"' :: t => some (if high.isSome then none else some [], t)
  | '\\' :: 'u' :: a :: b :: c :: d :: t =>
    match Text.hexValue? [a, b, c, d] with
    | none => none
    | some n =>
      match high with
      | some h => (quoted? none t).consEscape (pairChar? h n)
      | none =>
        if isHigh n then quoted? (some n) t
        else (quoted? none t).consEscape (Text.charOf? n)
  | '\\' :: e :: t =>
    match simpleEscape? e with
    | some c => if high.isSome then (quoted? none t).spoil else (quoted? none t).cons c
    | none => none
  | c :: t =>
    if c.toNat < 0x20 || c == '\\' then none
    else if high.isSome then (quoted? none t).spoil
    else (quoted? none t).cons c

/-! ## Values -/

mutual

/-- The value at the front of a text, and what follows it. -/
def value? : (fuel : Nat) → Text → Option (Json × Text)
  | 0, _ => none
  | fuel + 1, t =>
    match t with
    | 'n' :: 'u' :: 'l' :: 'l' :: rest => some (.null, rest)
    | 't' :: 'r' :: 'u' :: 'e' :: rest => some (.bool true, rest)
    | 'f' :: 'a' :: 'l' :: 's' :: 'e' :: rest => some (.bool false, rest)
    | '"' :: rest => (quoted? none rest).map fun (t, rest) => (.text t, rest)
    | '[' :: rest =>
      match skipBlanks rest with
      | ']' :: rest => some (.array [], rest)
      | rest => (items? fuel rest).map fun (items, rest) => (.array items, rest)
    | '{' :: rest =>
      match skipBlanks rest with
      | '}' :: rest => some (.object [], rest)
      | rest => (members? fuel rest).map fun (members, rest) => (.object members, rest)
    | _ => (numeral? t).map fun (n, rest) => (.number n, rest)

/-- The items of an array from the first, up to the closing bracket. -/
def items? : (fuel : Nat) → Text → Option (List Json × Text)
  | 0, _ => none
  | fuel + 1, t => do
    let (item, rest) ← value? fuel t
    match skipBlanks rest with
    | ',' :: rest =>
      let (items, rest) ← items? fuel (skipBlanks rest)
      some (item :: items, rest)
    | ']' :: rest => some ([item], rest)
    | _ => none

/-- The members of an object from the first, up to the closing brace. -/
def members? : (fuel : Nat) → Text → Option (List (Option Text × Json) × Text)
  | 0, _ => none
  | fuel + 1, t =>
    match t with
    | '"' :: rest => do
      let (key, rest) ← quoted? none rest
      match skipBlanks rest with
      | ':' :: rest =>
        let (value, rest) ← value? fuel (skipBlanks rest)
        match skipBlanks rest with
        | ',' :: rest =>
          let (members, rest) ← members? fuel (skipBlanks rest)
          some ((key, value) :: members, rest)
        | '}' :: rest => some ([(key, value)], rest)
        | _ => none
      | _ => none
    | _ => none

end

/-- The value of a JSON text. -/
def ofText? (t : Text) : Option Json := do
  let (value, rest) ← value? (t.length + 1) (skipBlanks t)
  if (skipBlanks rest).isEmpty then some value else none

/-- The value of a JSON text in a file. A byte that belongs to no character counts as
escapes that spell none: it spoils the text it is in, and is not JSON elsewhere. -/
def ofBytes? (bytes : ByteArray) : Option Json :=
  match Text.decode? bytes with
  | some t => ofText? t
  | none =>
    ofText? ((Text.charsFrom bytes bytes.size 0).flatMap fun
      | some c => [c]
      | none => "\\udc00\\udc00".toList)

end NoteLinks.Json
