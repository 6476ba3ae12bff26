/-
# Reading TOML

A document is a sequence of lines, each with a pair of key and value, with the
header of a table, or with neither. Values are read from the front of a text, and
what follows them is returned. Arrays and tables may lie within one another only
up to a certain depth, and keys may have only so many parts.
-/
import NoteLinks.Toml.Lexeme
import NoteLinks.Toml.Table

namespace NoteLinks.Toml

/-- The least depth and the least number of parts of a key that is refused. -/
def depthLimit : Nat := 80

/-! ## Keys -/

/-- Whether the character may stand in a key without quotation marks. -/
def isKeyChar (c : Char) : Bool := c.isAlphanum || c == '-' || c == '_'

/-- A part of a key, and what follows it. -/
def keyPart? (t : Text) : Option (Text × Text) :=
  match t with
  | '"' :: t => basic? t
  | '\'' :: t => literal? t
  | _ =>
    let part := t.takeWhile isKeyChar
    if part.isEmpty then none else some (part, t.dropWhile isKeyChar)

/-- The parts of a key between dots, and what follows it and the spaces behind it. -/
def keyParts? : (fuel : Nat) → Text → Option (List Text × Text)
  | 0, _ => none
  | fuel + 1, t => do
    let (part, rest) ← keyPart? (skipSpaces t)
    match skipSpaces rest with
    | '.' :: rest => (keyParts? fuel rest).map fun (parts, rest) => (part :: parts, rest)
    | rest => some ([part], rest)

/-- A key: the path to its table and its last part, and what follows it. -/
def key? (t : Text) : Option (List Text × Text × Text) := do
  let (parts, rest) ← keyParts? depthLimit t
  if parts.length < depthLimit then some (parts.dropLast, ← parts.getLast?, rest) else none

/-- A key with the sign of equality behind it, and what follows the spaces after
that. -/
def keyOfPair? (t : Text) : Option (List Text × Text × Text) := do
  let (path, key, rest) ← key? t
  some (path, key, skipSpaces (← expect? '=' rest))

/-! ## Values -/

mutual

/-- The value at the front of a text, and what follows it. The depth counts the
arrays and tables that it lies in. -/
def value? (depth : Nat) : (fuel : Nat) → Text → Option (Toml × Text)
  | 0, _ => none
  | fuel + 1, t =>
    match t with
    | '[' :: rest =>
      if depthLimit ≤ depth + 1 then none
      else (items? (depth + 1) fuel rest).map fun (items, rest) => (.array items, rest)
    | '{' :: rest =>
      if depthLimit ≤ depth + 1 then none
      else match skipSpaces rest with
        | '}' :: rest => some (.table .inline [], rest)
        | rest => do
          let (pairs, rest) ← pairs? (depth + 1) fuel rest
          some (← inlineTable? pairs, rest)
    | _ => scalar? t

/-- The items of an array up to its closing bracket. There may be a comma behind the
last. -/
def items? (depth : Nat) : (fuel : Nat) → Text → Option (List Toml × Text)
  | 0, _ => none
  | fuel + 1, t => do
    match ← skipGaps? false t with
    | ']' :: rest => some ([], rest)
    | t =>
      let (item, rest) ← value? depth fuel t
      match ← skipGaps? false rest with
      | ',' :: rest => (items? depth fuel rest).map fun (items, rest) => (item :: items, rest)
      | ']' :: rest => some ([item], rest)
      | _ => none

/-- The pairs of a table within braces from the first, up to the closing brace. -/
def pairs? (depth : Nat) : (fuel : Nat) → Text → Option (List (List Text × Text × Toml) × Text)
  | 0, _ => none
  | fuel + 1, t => do
    let (path, key, rest) ← keyOfPair? t
    let (value, rest) ← value? depth fuel rest
    match skipSpaces rest with
    | ',' :: rest =>
      (pairs? depth fuel rest).map fun (pairs, rest) => ((path, key, value) :: pairs, rest)
    | '}' :: rest => some ([(path, key, value)], rest)
    | _ => none

end

/-! ## Documents -/

/-- The statement at the front of a text, and what follows its line. -/
def statement? (t : Text) : Option (Statement × Text) :=
  match t with
  | '[' :: '[' :: t => do
    let (path, key, rest) ← key? t
    some (.tables path key, ← endLine? (← expect? ']' (← expect? ']' rest)))
  | '[' :: t => do
    let (path, key, rest) ← key? t
    some (.table path key, ← endLine? (← expect? ']' rest))
  | _ => do
    let (path, key, rest) ← keyOfPair? t
    let (value, rest) ← value? 0 (rest.length + 1) rest
    some (.pair path key value, ← endLine? rest)

/-- The statements of a document. -/
def statements? : (fuel : Nat) → Text → Option (List Statement)
  | 0, _ => none
  | fuel + 1, t =>
    match skipSpaces t with
    | [] => some []
    | '#' :: t => (endLine? ('#' :: t)).bind (statements? fuel)
    | '\n' :: t => statements? fuel t
    | '\r' :: t => (expect? '\n' t).bind (statements? fuel)
    | t => do
      let (statement, rest) ← statement? t
      (statements? fuel rest).map (statement :: ·)

/-- The members of the table that a document is. A mark of the byte order in front
counts for nothing. -/
def document? (t : Text) : Option Members :=
  let t := match t with
    | '\ufeff' :: u => u
    | _ => t
  (statements? (t.length + 1) t).bind (build? [] [])

end NoteLinks.Toml
