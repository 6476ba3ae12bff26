/-
# The text of YAML scalars

A scalar is written plain, in quotes, or as an indented block. Plain and quoted
scalars may run over several lines, which are folded: one line ending becomes a
space, and of several all but the first are kept. Blocks keep their line
endings, or fold them between lines that are not indented any further.
-/
import NoteLinks.Yaml.Cursor

namespace NoteLinks.Yaml

/-- What lies between two words of a scalar. -/
inductive Gap
  | nothing
  /-- Spaces and tabs within a line, the last one first. -/
  | spaces (reversed : Text)
  /-- Line endings: the first, unless it was escaped, and the others, the last
  one first. -/
  | breaks (first : Option Char) (reversed : Text)

namespace Gap

/-- The gap with one more space or tab. At the start of a line they count for
nothing. -/
def addSpace (c : Char) : Gap → Gap
  | nothing => .spaces [c]
  | spaces reversed => .spaces (c :: reversed)
  | breaks first reversed => .breaks first reversed

/-- The gap with one more line ending. Spaces in front of it count for
nothing. -/
def addBreak (c : Char) : Gap → Gap
  | breaks first reversed => .breaks first (c :: reversed)
  | _ => .breaks (some c) []

/-- Whether the gap goes over the end of a line. -/
def hasBreak : Gap → Bool
  | breaks _ _ => true
  | _ => false

/-- What the gap is folded to, the last character first. -/
def folded : Gap → Text
  | nothing => []
  | spaces reversed => reversed
  | breaks first reversed =>
    match first with
    | none => reversed
    | some '\n' => if reversed.isEmpty then [' '] else reversed
    | some c => reversed ++ [c]

end Gap

/-! ## Plain scalars -/

/-- Whether a plain scalar ends at this text, inside brackets or outside. -/
def endsPlain (inFlow : Bool) : Text → Bool
  | ':' :: t => atGap t
  | c :: _ => inFlow && (c == ',' || c == '[' || c == ']' || c == '{' || c == '}')
  | [] => true

/-- Whether the text is a colon where a plain scalar inside brackets must have
none. -/
def isMisplacedColon : Text → Bool
  | ':' :: c :: _ => c == ',' || c == '?' || c == '[' || c == ']' || c == '{' || c == '}'
  | _ => false

/-- A plain scalar from the middle: `out` is what has been read, the last
character first. The result is the scalar, the place behind it and the blanks
that follow, and whether these go over the end of a line. -/
def plainFrom (inFlow : Bool) (indent : Int) (out : Text) (gap : Gap) :
    Text → Nat → Nat → Option (Text × Cursor × Bool)
  | [], line, column => some (out.reverse, ⟨[], line, column⟩, gap.hasBreak)
  | c :: t, line, column =>
    if isBreak c then plainFrom inFlow indent out (gap.addBreak c) t (line + 1) 0
    else if isSpace c then
      if gap.hasBreak && (column : Int) < indent && c == '\t' then none
      else plainFrom inFlow indent out (gap.addSpace c) t line (column + 1)
    else
      let resumes := match gap with
        | .nothing => true
        | _ => (inFlow || indent ≤ column) && !(column == 0 && atDocumentMark (c :: t)) && c != '#'
      if !resumes || endsPlain inFlow (c :: t) then
        some (out.reverse, ⟨c :: t, line, column⟩, gap.hasBreak)
      else if inFlow && isMisplacedColon (c :: t) then none
      else plainFrom inFlow indent (c :: (gap.folded ++ out)) .nothing t line (column + 1)

/-! ## Quoted scalars -/

/-- The characters that a backslash and a single character stand for. -/
def simpleEscape? : Char → Option Char
  | '0' => some '\x00'
  | 'a' => some '\x07'
  | 'b' => some '\x08'
  | 't' | '\t' => some '\t'
  | 'n' => some '\n'
  | 'v' => some '\x0b'
  | 'f' => some '\x0c'
  | 'r' => some '\r'
  | 'e' => some '\x1b'
  | ' ' => some ' '
  | '"' => some '"'
  | '/' => some '/'
  | '\\' => some '\\'
  | 'N' => some '\u0085'
  | '_' => some '\u00a0'
  | 'L' => some '\u2028'
  | 'P' => some '\u2029'
  | _ => none

/-- What a backslash stands for together with the characters behind it. -/
inductive Escape
  /-- Nothing: the line ending behind it counts for nothing. -/
  | lineEnd
  /-- A character, which is spelled by a number of characters. -/
  | char (c : Char) (length : Nat)

/-- The escape whose backslash precedes this text. -/
def escape? : Text → Option Escape
  | [] => none
  | c :: t =>
    let coded (digits : Nat) : Option Escape :=
      if t.length < digits then none
      else do
        let code ← Text.hexValue? (t.take digits)
        let d ← Text.charOf? code
        some (.char d (digits + 1))
    if isBreak c then some .lineEnd
    else match c with
      | 'x' => coded 2
      | 'u' => coded 4
      | 'U' => coded 8
      | _ => (simpleEscape? c).map (.char · 1)

/-- A quoted scalar from the middle. The first `skip` characters belong to what
has been read, and the line and column are those behind them. The result is the
scalar and the place behind the closing quote. -/
def quotedFrom (double : Bool) (out : Text) (gap : Gap) :
    (skip : Nat) → Text → Nat → Nat → Option (Text × Cursor)
  | _, [], _, _ => none
  | skip + 1, _ :: t, line, column => quotedFrom double out gap skip t line column
  | 0, c :: t, line, column =>
    if isBreak c then quotedFrom double out (gap.addBreak c) 0 t (line + 1) 0
    else if isSpace c then quotedFrom double out (gap.addSpace c) 0 t line (column + 1)
    else if column == 0 && atDocumentMark (c :: t) then none
    else
      let joined := gap.folded ++ out
      if !double && c == '\'' then
        if t.head? == some '\'' then
          quotedFrom double ('\'' :: joined) .nothing 1 t line (column + 2)
        else some (joined.reverse, ⟨t, line, column + 1⟩)
      else if double && c == '"' then some (joined.reverse, ⟨t, line, column + 1⟩)
      else if double && c == '\\' then
        match escape? t with
        | some .lineEnd => quotedFrom double joined (.breaks none []) 1 t (line + 1) 0
        | some (.char e n) => quotedFrom double (e :: joined) .nothing n t line (column + 1 + n)
        | none => none
      else quotedFrom double (c :: joined) .nothing 0 t line (column + 1)

/-! ## Blocks -/

/-- What becomes of the line endings at the end of a block. -/
inductive Chomping
  | strip
  | clip
  | keep
  deriving DecidableEq

/-- The line endings of empty lines, the last one first, the widest indentation
seen, and the place of the first line that is not empty. An indentation of zero
is not known yet. Tabs must not indent. -/
def blockGap (indent : Nat) (widest : Nat) (reversed : Text) :
    Text → Nat → Nat → Option (Text × Nat × Cursor)
  | [], line, column => some (reversed, max widest column, ⟨[], line, column⟩)
  | c :: t, line, column =>
    let inside := indent == 0 || column < indent
    if c == ' ' && inside then blockGap indent widest reversed t line (column + 1)
    else if c == '\t' && inside then none
    else if isBreak c then blockGap indent (max widest column) (c :: reversed) t (line + 1) 0
    else some (reversed, max widest column, ⟨c :: t, line, column⟩)

/-- What a block has before its next line. -/
structure BlockState where
  /-- What has been read, the last character first. -/
  out : Text
  /-- The ending of the last line. -/
  ending : Text
  /-- The endings of the empty lines behind it, the last one first. -/
  empties : Text
  /-- Whether the last line began with a space or tab. -/
  indented : Bool

/-- The lines of a block, each indented by `indent` columns. -/
def blockLines (literal : Bool) (indent : Nat) :
    (fuel : Nat) → BlockState → Cursor → Option (BlockState × Cursor)
  | 0, _, _ => none
  | fuel + 1, s, cursor =>
    match cursor.rest with
    | [] => some (s, cursor)
    | c :: _ =>
      if cursor.column ≠ indent then some (s, cursor)
      else
        let indented := isSpace c
        let folds := !literal && s.ending == ['\n'] && !s.indented && !indented
        let joint := if folds then (if s.empties.isEmpty then [' '] else []) else s.ending
        let (content, atEnd) := cursor.skipWhile fun d => !isBreak d
        let after := atEnd.skipBreak
        do
          let (empties, _, next) ← blockGap indent 0 [] after.rest after.line after.column
          blockLines literal indent fuel
            { out := content.reverse ++ (s.empties ++ (joint ++ s.out))
              ending := atEnd.rest.take 1
              empties
              indented }
            next

/-- The chomping and the indentation that the header of a block states. -/
def blockHeader? (cursor : Cursor) : Option (Chomping × Option Nat × Cursor) :=
  let chomping? : Text → Option Chomping
    | '+' :: _ => some .keep
    | '-' :: _ => some .strip
    | _ => none
  let digit? : Text → Option Nat
    | c :: _ => if c.isDigit then some (c.toNat - '0'.toNat) else none
    | [] => none
  match chomping? cursor.rest with
  | some chomping =>
    let next := cursor.skip 1
    match digit? next.rest with
    | some 0 => none
    | some n => some (chomping, some n, next.skip 1)
    | none => some (chomping, none, next)
  | none =>
    match digit? cursor.rest with
    | some 0 => none
    | some n =>
      let next := cursor.skip 1
      match chomping? next.rest with
      | some chomping => some (chomping, some n, next.skip 1)
      | none => some (.clip, some n, next)
    | none => some (.clip, none, cursor)

/-- A block behind its indicator, where the surrounding block is indented by
`parent` columns, or by less than none at the top. -/
def block? (literal : Bool) (parent : Int) (cursor : Cursor) : Option (Text × Cursor) := do
  let (chomping, stated, cursor) ← blockHeader? cursor
  let start ← cursor.endLine?
  let known : Nat := match stated with
    | some n => (max parent 0).toNat + n
    | none => 0
  let (empties, widest, first) ← blockGap known 0 [] start.rest start.line start.column
  let indent := if known = 0 then max widest (max (parent + 1) 1).toNat else known
  let (s, after) ← blockLines literal indent (start.rest.length + 1)
    { out := [], ending := [], empties, indented := false } first
  let reversed := match chomping with
    | .strip => s.out
    | .clip => s.ending ++ s.out
    | .keep => s.empties ++ (s.ending ++ s.out)
  some (reversed.reverse, after)

end NoteLinks.Yaml
