/-
# YAML tokens

A YAML text is first cut into tokens. Besides the punctuation and the scalars
there are tokens for structure that nothing is written for: blocks begin where
a line is indented further than the block around it, and they end where a line
is indented less.

That a scalar is a key is known only when the colon behind it is seen. So the
place of every scalar that may turn out to be a key is remembered, one for each
level of brackets, and the tokens for the key and for the beginning of its
block are put in at that place. Such a key lies within one line and is not
longer than 1024 characters.
-/
import NoteLinks.Yaml.Scalar
import NoteLinks.Yaml.Tag

namespace NoteLinks.Yaml

/-- A token of a YAML text. -/
inductive Token
  | versionDirective (major minor : Nat)
  | tagDirective (handle leading : Text)
  | documentStart
  | documentEnd
  | blockSequenceStart
  | blockMappingStart
  | blockEnd
  | flowSequenceStart
  | flowSequenceEnd
  | flowMappingStart
  | flowMappingEnd
  | blockEntry
  | flowEntry
  | key
  | value
  | alias (name : Text)
  | anchor (name : Text)
  | tag (handle suffix : Text)
  | scalar (plain : Bool) (text : Text)
  deriving DecidableEq, Repr

/-- The place of what may turn out to be a key. -/
structure PossibleKey where
  /-- How many tokens precede it. -/
  place : Nat
  line : Nat
  column : Nat
  /-- Whether nothing but a key can stand there. -/
  required : Bool

/-- What is known while a text is cut into tokens. -/
structure Scanner where
  cursor : Cursor
  /-- The tokens so far, the last one first. -/
  tokens : List Token := []
  /-- The indentation of the innermost block, or less than none. -/
  indent : Int := -1
  /-- The indentations of the blocks around it. -/
  outerIndents : List Int := []
  /-- Whether a key may start here. -/
  keyAllowed : Bool := true
  /-- The possible key of the innermost brackets. -/
  possibleKey : Option PossibleKey := none
  /-- The possible keys of the brackets around them, and of the block around
  all brackets. -/
  outerKeys : List (Option PossibleKey) := []

namespace Scanner

/-- Whether the place is inside brackets. -/
def inFlow (s : Scanner) : Bool := !s.outerKeys.isEmpty

/-- One more token. -/
def push (s : Scanner) (t : Token) : Scanner := { s with tokens := t :: s.tokens }

/-- A token put in behind the first `place` tokens. -/
def insertAt (s : Scanner) (place : Nat) (t : Token) : Scanner :=
  let later := s.tokens.length - place
  { s with tokens := s.tokens.take later ++ t :: s.tokens.drop later }

/-- The ends of the blocks that are indented further than a column. -/
def unrollIndents (column : Int) (indent : Int) (tokens : List Token) :
    List Int → Int × List Int × List Token
  | [] => (indent, [], tokens)
  | outer :: outers =>
    if column < indent then unrollIndents column outer (.blockEnd :: tokens) outers
    else (indent, outer :: outers, tokens)

/-- Outside brackets, the blocks that are indented further than a column end. -/
def unroll (s : Scanner) (column : Int) : Scanner :=
  if s.inFlow then s
  else
    let (indent, outerIndents, tokens) := unrollIndents column s.indent s.tokens s.outerIndents
    { s with indent, outerIndents, tokens }

/-- Outside brackets, a block begins if the column lies further inside than the
innermost block. Its token is put in at a place. -/
def roll (s : Scanner) (column : Nat) (place : Nat) (t : Token) : Scanner :=
  if !s.inFlow && s.indent < column then
    { s.insertAt place t with indent := column, outerIndents := s.indent :: s.outerIndents }
  else s

/-- No key can start at the remembered place. That is wrong if a key is
required there. -/
def dropKey? (s : Scanner) : Option Scanner :=
  match s.possibleKey with
  | some key => if key.required then none else some { s with possibleKey := none }
  | none => some s

/-- The present place is remembered for a key, if one may start here. -/
def saveKey? (s : Scanner) : Option Scanner :=
  if s.keyAllowed then
    s.dropKey?.map fun s =>
      let key : PossibleKey := {
        place := s.tokens.length
        line := s.cursor.line
        column := s.cursor.column
        required := !s.inFlow && s.indent == s.cursor.column }
      { s with possibleKey := some key }
  else some s

/-- Whether the place is too far behind for a key that started there. -/
def isStale (cursor : Cursor) (key : PossibleKey) : Bool :=
  key.line < cursor.line || key.column + 1024 < cursor.column

/-- Keys that started too far behind are given up. -/
def dropStaleKeys? (s : Scanner) : Option Scanner := do
  let renew : Option PossibleKey → Option (Option PossibleKey)
    | some key => if isStale s.cursor key then (if key.required then none else some none) else some key
    | none => some none
  let possibleKey ← renew s.possibleKey
  let outerKeys ← s.outerKeys.mapM renew
  some { s with possibleKey, outerKeys }

/-- Blanks, comments and line endings are passed over. Outside brackets a key
may start on a new line, and a tab must not stand where a key may start. -/
def toNextToken : (fuel : Nat) → Scanner → Scanner
  | 0, s => s
  | fuel + 1, s =>
    let passes (c : Char) : Bool := c == ' ' || (c == '\t' && (s.inFlow || !s.keyAllowed))
    let cursor := (s.cursor.skipWhile passes).2
    let cursor := match cursor.rest with
      | '#' :: _ => cursor.skipToBreak
      | _ => cursor
    match cursor.rest with
    | c :: _ =>
      if isBreak c then
        toNextToken fuel
          { s with cursor := cursor.skipBreak, keyAllowed := !s.inFlow || s.keyAllowed }
      else { s with cursor }
    | [] => { s with cursor }

/-- A token of a number of characters is taken. -/
def take (s : Scanner) (length : Nat) (t : Token) : Scanner :=
  { s with cursor := s.cursor.skip length, tokens := t :: s.tokens }

/-- A bracket opens, which may itself begin a key. -/
def openFlow? (s : Scanner) (t : Token) : Option Scanner :=
  s.saveKey?.map fun s =>
    { s.take 1 t with
      outerKeys := s.possibleKey :: s.outerKeys
      possibleKey := none
      keyAllowed := true }

/-- A bracket closes. -/
def closeFlow? (s : Scanner) (t : Token) : Option Scanner :=
  s.dropKey?.map fun s =>
    let s := { s.take 1 t with keyAllowed := false }
    match s.outerKeys with
    | key :: keys => { s with possibleKey := key, outerKeys := keys }
    | [] => s

/-- A dash in front of an entry, or a question mark in front of a key. Outside
brackets it begins a block. -/
def blockMark? (s : Scanner) (start t : Token) (keyAllowed : Bool) : Option Scanner :=
  if !s.inFlow && !s.keyAllowed then none
  else
    let s := s.roll s.cursor.column s.tokens.length start
    s.dropKey?.map fun s => { s.take 1 t with keyAllowed }

/-- A colon. If a key may have started before it on the line, it did. -/
def valueMark? (s : Scanner) : Option Scanner :=
  match s.possibleKey with
  | some key =>
    let s := (s.insertAt key.place .key).roll key.column key.place .blockMappingStart
    some { s.take 1 .value with possibleKey := none, keyAllowed := false }
  | none =>
    if !s.inFlow && !s.keyAllowed then none
    else
      let s := s.roll s.cursor.column s.tokens.length .blockMappingStart
      some { s.take 1 .value with keyAllowed := !s.inFlow }

/-- A directive or a document mark ends everything in front of it. -/
def endBlocks? (s : Scanner) : Option Scanner :=
  (s.unroll (-1)).dropKey?.map fun s => { s with keyAllowed := false }

/-- A version number of at most nine digits. -/
def number? (cursor : Cursor) : Option (Nat × Cursor) :=
  let (digits, next) := cursor.skipWhile Char.isDigit
  if digits.isEmpty || digits.length > 9 then none
  else some (digits.foldl (fun n c => 10 * n + (c.toNat - '0'.toNat)) 0, next)

/-- A line with a directive. -/
def directive? (s : Scanner) : Option Scanner := do
  let s ← s.endBlocks?
  let (name, cursor) := (s.cursor.skip 1).skipWhile isNameChar
  if name.isEmpty || !atGap cursor.rest then none
  else
    let cursor := (cursor.skipWhile isSpace).2
    let (token, cursor) ←
      if name = "YAML".toList then do
        let (major, cursor) ← number? cursor
        if cursor.rest.head? != some '.' then none
        else
          let (minor, cursor) ← number? (cursor.skip 1)
          some (Token.versionDirective major minor, cursor)
      else if name = "TAG".toList then do
        let (handle, cursor) ← tagHandle? cursor
        let closed := handle.length == 1 || handle.getLast? == some '!'
        let blank := match cursor.rest with
          | c :: _ => isSpace c
          | [] => false
        if !closed || !blank then none
        else
          let (leading, cursor) ← tagSuffix? true (cursor.skipWhile isSpace).2
          if atGap cursor.rest then some (Token.tagDirective handle leading, cursor) else none
      else none
    let cursor ← cursor.endLine?
    some { s.push token with cursor }

/-- A name behind an ampersand or a star. -/
def anchor? (s : Scanner) (token : Text → Token) : Option Scanner := do
  let s ← s.saveKey?
  let (name, cursor) := (s.cursor.skip 1).skipWhile isNameChar
  let closed := atGap cursor.rest || match cursor.rest with
    | c :: _ => ['?', ':', ',', ']', '}', '%', '@', '`'].contains c
    | [] => false
  if name.isEmpty || !closed then none
  else some { s.push (token name) with cursor, keyAllowed := false }

/-- The characters that mean something of their own where a scalar may start. -/
def indicators : List Char :=
  ['-', '?', ':', ',', '[', ']', '{', '}', '#', '&', '*', '!', '|', '>', '\'', '"', '%', '@', '`']

/-- Whether a plain scalar starts at this text. -/
def startsPlain (inFlow : Bool) : Text → Bool
  | [] => false
  | c :: t =>
    let next := match t with
      | d :: _ => isSpace d
      | [] => false
    !(isSpace c || isBreak c || indicators.contains c)
      || (c == '-' && !next)
      || (!inFlow && (c == '?' || c == ':') && !atGap t)

/-- A scalar outside quotes. -/
def plain? (s : Scanner) : Option Scanner := do
  let s ← s.saveKey?
  let (text, cursor, overBreak) ←
    plainFrom s.inFlow (s.indent + 1) [] .nothing s.cursor.rest s.cursor.line s.cursor.column
  some { s.push (.scalar true text) with cursor, keyAllowed := overBreak }

/-- A scalar in quotes. -/
def quoted? (s : Scanner) (double : Bool) : Option Scanner := do
  let s ← s.saveKey?
  let start := s.cursor.skip 1
  let (text, cursor) ← quotedFrom double [] .nothing 0 start.rest start.line start.column
  some { s.push (.scalar false text) with cursor, keyAllowed := false }

/-- A scalar that is an indented block. -/
def blockScalar? (s : Scanner) (literal : Bool) : Option Scanner := do
  let s ← s.dropKey?
  let (text, cursor) ← block? literal s.indent (s.cursor.skip 1)
  some { s.push (.scalar false text) with cursor, keyAllowed := true }

/-- The token at the present place, which is not the end of the text. -/
def next? (s : Scanner) : Option Scanner :=
  let rest := s.cursor.rest
  let atStart := s.cursor.column == 0
  match rest with
  | [] => some s
  | c :: t =>
    if atStart && c == '%' then s.directive?
    else if atStart && atDocumentMark rest then
      s.endBlocks?.map fun s =>
        s.take 3 (if c == '-' then .documentStart else .documentEnd)
    else if c == '[' then s.openFlow? .flowSequenceStart
    else if c == '{' then s.openFlow? .flowMappingStart
    else if c == ']' then s.closeFlow? .flowSequenceEnd
    else if c == '}' then s.closeFlow? .flowMappingEnd
    else if c == ',' then
      s.dropKey?.map fun s => { s.take 1 .flowEntry with keyAllowed := true }
    else if c == '-' && atGap t then s.blockMark? .blockSequenceStart .blockEntry true
    else if c == '?' && (s.inFlow || atGap t) then
      s.blockMark? .blockMappingStart .key !s.inFlow
    else if c == ':' && (s.inFlow || atGap t) then s.valueMark?
    else if c == '*' then s.anchor? .alias
    else if c == '&' then s.anchor? .anchor
    else if c == '!' then do
      let s ← s.saveKey?
      let (handle, suffix, cursor) ← tag? s.inFlow s.cursor
      some { s.push (.tag handle suffix) with cursor, keyAllowed := false }
    else if c == '|' && !s.inFlow then s.blockScalar? true
    else if c == '>' && !s.inFlow then s.blockScalar? false
    else if c == '\'' then s.quoted? false
    else if c == '"' then s.quoted? true
    else if startsPlain s.inFlow rest then s.plain?
    else none

/-- The tokens up to the end of the text, the last one first. -/
def run? : (fuel : Nat) → Scanner → Option (List Token)
  | 0, _ => none
  | fuel + 1, s => do
    let s := s.toNextToken (s.cursor.rest.length + 1)
    let s ← s.dropStaleKeys?
    let s := s.unroll s.cursor.column
    if s.cursor.rest.isEmpty then
      let s ← (s.unroll (-1)).dropKey?
      some s.tokens
    else
      let s ← s.next?
      run? fuel s

end Scanner

/-- The tokens of a YAML text, or nothing if it cannot be cut into tokens. A byte
order mark at the very front is passed over. -/
def tokens? (t : Text) : Option (List Token) :=
  if t.all isAllowed then
    let t := uniformBreaks t
    let cursor : Cursor := match t with
      | '\uFEFF' :: rest => ⟨rest, 0, 1⟩
      | _ => ⟨t, 0, 0⟩
    (Scanner.run? (t.length + 2) { cursor }).map List.reverse
  else none

end NoteLinks.Yaml
