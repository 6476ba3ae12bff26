/-
# The smallest parts of TOML

Texts stand between quotation marks of four kinds. Every other value without
parts is a run of characters without a gap, except that a date and a time may
have a space between them.
-/
import NoteLinks.Decimal.Numeral
import NoteLinks.Toml.Basic

namespace NoteLinks.Toml

/-! ## Gaps -/

/-- Whether the character is a space or tab. -/
def isSpace (c : Char) : Bool := c == ' ' || c == '\t'

/-- Whether the character may stand in a comment or for itself in a text on one
line. Control characters may not, except for the tab. -/
def isTextChar (c : Char) : Bool := c == '\t' || 0x20 ≤ c.toNat && c.toNat != 0x7F

/-- The text behind spaces and tabs. -/
def skipSpaces (t : Text) : Text := t.dropWhile isSpace

/-- What follows a line ending. -/
def newline? : Text → Option Text
  | '\n' :: t => some t
  | '\r' :: '\n' :: t => some t
  | _ => none

/-- What follows the rest of a line on which nothing but a comment is left. The last
line may lack its ending. -/
def endLine? (t : Text) : Option Text :=
  let t := skipSpaces t
  let t := match t with
    | '#' :: u => u.dropWhile isTextChar
    | _ => t
  if t.isEmpty then some [] else newline? t

/-- What follows spaces, line endings and comments with their line endings. -/
def skipGaps? (inComment : Bool) : Text → Option Text
  | [] => if inComment then none else some []
  | '\n' :: t => skipGaps? false t
  | '\r' :: t => match t with
    | '\n' :: u => skipGaps? false u
    | _ => none
  | c :: t =>
    if inComment then
      if isTextChar c then skipGaps? true t else none
    else if isSpace c then skipGaps? false t
    else if c == '#' then skipGaps? true t
    else some (c :: t)

/-! ## Texts -/

/-- The characters that a backslash and a single character stand for. -/
def simpleEscape? : Char → Option Char
  | 'b' => some '\x08'
  | 't' => some '\t'
  | 'n' => some '\n'
  | 'f' => some '\x0c'
  | 'r' => some '\r'
  | '"' => some '"'
  | '\\' => some '\\'
  | _ => none

/-- The character whose code point hexadecimal digits spell. -/
def charOfHex? (digits : Text) : Option Char := (Text.hexValue? digits).bind Text.charOf?

/-- What is read of a text, and what follows it. -/
abbrev Quoted := Option (Text × Text)

/-- A character in front of what is read. -/
def Quoted.cons (c : Option Char) (q : Quoted) : Quoted :=
  match c, q with
  | some c, some (t, rest) => some (c :: t, rest)
  | _, _ => none

/-- A text on one line with escapes, behind its quotation mark. -/
def basic? : Text → Quoted
  | [] => none
  | '"' :: t => some ([], t)
  | '\\' :: 'u' :: a :: b :: c :: d :: t => (basic? t).cons (charOfHex? [a, b, c, d])
  | '\\' :: 'U' :: a :: b :: c :: d :: e :: f :: g :: h :: t =>
    (basic? t).cons (charOfHex? [a, b, c, d, e, f, g, h])
  | '\\' :: c :: t => (basic? t).cons (simpleEscape? c)
  | c :: t => if isTextChar c && c != '\\' then (basic? t).cons (some c) else none

/-- A text on one line without escapes, behind its quotation mark. -/
def literal? : Text → Quoted
  | [] => none
  | '\'' :: t => some ([], t)
  | c :: t => if isTextChar c then (literal? t).cons (some c) else none

/-- Whether only spaces are left on the line that the text is the rest of. -/
def atLineEnd (t : Text) : Bool := (newline? (skipSpaces t)).isSome

/-- A text on several lines with escapes, behind its quotation marks. Up to two more
quotation marks in front of the closing ones belong to the text. A backslash at
the end of a line hides the gap up to the next character; `gap` tells whether
such a gap is open. -/
def basicLines? (gap : Bool) : Text → Quoted
  | [] => none
  | '"' :: '"' :: '"' :: '"' :: '"' :: t => some (['"', '"'], t)
  | '"' :: '"' :: '"' :: '"' :: t => some (['"'], t)
  | '"' :: '"' :: '"' :: t => some ([], t)
  | '\n' :: t => if gap then basicLines? true t else (basicLines? false t).cons (some '\n')
  | '\r' :: '\n' :: t => if gap then basicLines? true t else (basicLines? false t).cons (some '\n')
  | '\\' :: 'u' :: a :: b :: c :: d :: t => (basicLines? false t).cons (charOfHex? [a, b, c, d])
  | '\\' :: 'U' :: a :: b :: c :: d :: e :: f :: g :: h :: t =>
    (basicLines? false t).cons (charOfHex? [a, b, c, d, e, f, g, h])
  | '\\' :: c :: t =>
    if atLineEnd (c :: t) then
      if isSpace c || c == '\n' then basicLines? true t
      else match t with
        | _ :: u => basicLines? true u
        | [] => none
    else (basicLines? false t).cons (simpleEscape? c)
  | c :: t =>
    if gap && isSpace c then basicLines? true t
    else if isTextChar c && c != '\\' then (basicLines? false t).cons (some c)
    else none

/-- A text on several lines without escapes, behind its quotation marks. Up to two
more quotation marks in front of the closing ones belong to the text. -/
def literalLines? : Text → Quoted
  | [] => none
  | '\'' :: '\'' :: '\'' :: '\'' :: '\'' :: t => some (['\'', '\''], t)
  | '\'' :: '\'' :: '\'' :: '\'' :: t => some (['\''], t)
  | '\'' :: '\'' :: '\'' :: t => some ([], t)
  | '\n' :: t => (literalLines? t).cons (some '\n')
  | '\r' :: '\n' :: t => (literalLines? t).cons (some '\n')
  | c :: t => if isTextChar c then (literalLines? t).cons (some c) else none

/-- The text without a line ending at its front. -/
def dropNewline (t : Text) : Text := (newline? t).getD t

/-- A text of any kind at the front of a text, with its quotation marks. -/
def quoted? : Text → Quoted
  | '"' :: '"' :: '"' :: t => basicLines? false (dropNewline t)
  | '"' :: t => basic? t
  | '\'' :: '\'' :: '\'' :: t => literalLines? (dropNewline t)
  | '\'' :: t => literal? t
  | _ => none

/-! ## Numbers -/

/-- The digits of a number, between which single underscores may stand. -/
def digits? (isDigit : Char → Bool) (t : Text) : Option Text :=
  let groups := Text.splitOn '_' t
  if groups.all fun g => !g.isEmpty && g.all isDigit then some groups.flatten else none

/-- Decimal digits without a zero in front of others. -/
def wholeDigits? (t : Text) : Option Text :=
  if t.length > 1 && t.head? == some '0' then none else digits? Char.isDigit t

/-- Whether the number is minus, and its text without the sign. -/
def unsigned : Text → Bool × Text
  | '-' :: t => (true, t)
  | '+' :: t => (false, t)
  | t => (false, t)

/-- The number that digits spell to a base. -/
def valueOfDigits (base : Nat) (digits : Text) : Nat :=
  digits.foldl (fun n c => base * n + (Text.hexDigit? c).getD 0) 0

/-- A number if it has 64 bits with its sign. -/
def integerWithin? (n : Int) : Option Int :=
  if -0x8000000000000000 ≤ n ∧ n < 0x8000000000000000 then some n else none

/-- The integer that a run of characters is. -/
def integer? (t : Text) : Option Int :=
  let ofBase (base : Nat) (isDigit : Char → Bool) (t : Text) : Option Int :=
    (digits? isDigit t).bind fun digits => integerWithin? (valueOfDigits base digits)
  match t with
  | '0' :: 'x' :: t => ofBase 16 (fun c => (Text.hexDigit? c).isSome) t
  | '0' :: 'o' :: t => ofBase 8 (fun c => '0' ≤ c && c ≤ '7') t
  | '0' :: 'b' :: t => ofBase 2 (fun c => c == '0' || c == '1') t
  | _ =>
    let (negative, t) := unsigned t
    (wholeDigits? t).bind fun digits =>
      let n : Int := natOfDigits digits
      integerWithin? (if negative then -n else n)

/-- The fraction and the exponent that the rest of a number is. -/
def fractionAndExponent? (t : Text) : Option (Text × Option (Bool × Text)) := do
  let isGroupChar (c : Char) : Bool := c.isDigit || c == '_'
  let (fraction, t) ← match t with
    | '.' :: t => (digits? Char.isDigit (t.takeWhile isGroupChar)).map (·, t.dropWhile isGroupChar)
    | _ => some ([], t)
  match t with
  | [] => some (fraction, none)
  | c :: t =>
    if c == 'e' || c == 'E' then
      let (negative, t) := unsigned t
      some (fraction, some (negative, ← digits? Char.isDigit t))
    else none

/-- The float that a run of characters is. It may be too large only if it is
negative. -/
def float? (t : Text) : Option Float :=
  let (negative, t) := unsigned t
  let sign (x : Float) : Float := if negative then -x else x
  if t = ['i', 'n', 'f'] then some (sign (1.0 / 0.0))
  else if t = ['n', 'a', 'n'] then some (0.0 / 0.0)
  else do
    let isGroupChar (c : Char) : Bool := c.isDigit || c == '_'
    let whole ← wholeDigits? (t.takeWhile isGroupChar)
    let (fraction, exponent) ← fractionAndExponent? (t.dropWhile isGroupChar)
    if fraction.isEmpty && exponent.isNone then none
    else
      let x := ({ negative, whole, fraction, exponent } : Numeral).exactFloat
      if x.isInf && !negative then none else some x

/-! ## Dates and times -/

/-- A number of a fixed count of digits in a range at the front of a text, and what
follows it. -/
def fixedNumber? (count low high : Nat) (t : Text) : Option (Nat × Text) :=
  let digits := t.take count
  let n := natOfDigits digits
  if digits.length = count ∧ digits.all Char.isDigit ∧ low ≤ n ∧ n ≤ high then some (n, t.drop count)
  else none

/-- What follows a character that must stand in front. -/
def expect? (c : Char) : Text → Option Text
  | d :: t => if d = c then some t else none
  | [] => none

/-- The number of days of a month. -/
def daysOfMonth (year month : Nat) : Nat :=
  if month = 2 then
    if year % 4 = 0 ∧ (year % 100 ≠ 0 ∨ year % 400 = 0) then 29 else 28
  else if month = 4 ∨ month = 6 ∨ month = 9 ∨ month = 11 then 30
  else 31

/-- What follows a date. -/
def date? (t : Text) : Option Text := do
  let (year, t) ← fixedNumber? 4 0 9999 t
  let (month, t) ← fixedNumber? 2 1 12 (← expect? '-' t)
  let (_, t) ← fixedNumber? 2 1 (daysOfMonth year month) (← expect? '-' t)
  some t

/-- What follows a time of day. -/
def timeOfDay? (t : Text) : Option Text := do
  let (_, t) ← fixedNumber? 2 0 23 t
  let (_, t) ← fixedNumber? 2 0 59 (← expect? ':' t)
  let (_, t) ← fixedNumber? 2 0 60 (← expect? ':' t)
  match t with
  | '.' :: d :: u => if d.isDigit then some (u.dropWhile Char.isDigit) else none
  | _ => some t

/-- What follows the distance from universal time, if it is told. -/
def offset? : Text → Option Text
  | [] => some []
  | c :: t =>
    if c == 'Z' || c == 'z' then some t
    else if c == '+' || c == '-' then do
      let (_, t) ← fixedNumber? 2 0 23 t
      let (_, t) ← fixedNumber? 2 0 59 (← expect? ':' t)
      some t
    else none

/-- Whether a run of characters is a time of day with its distance from universal
time, if that is told. -/
def isTimeWithOffset (t : Text) : Bool := ((timeOfDay? t).bind offset?) == some []

/-- Whether a run of characters is a date, a time of day or both. -/
def isTime (t : Text) : Bool :=
  match date? t with
  | some [] => true
  | some (c :: rest) => (c == 'T' || c == 't') && isTimeWithOffset rest
  | none => timeOfDay? t == some []

/-! ## Values without parts -/

/-- Whether the character may stand in a value without quotation marks. -/
def isBareChar (c : Char) : Bool :=
  c.isAlphanum || c == '+' || c == '-' || c == '.' || c == '_' || c == ':'

/-- The value that a run of characters is. -/
def bare? (t : Text) : Option Toml :=
  if t = ['t', 'r', 'u', 'e'] then some (.bool true)
  else if t = ['f', 'a', 'l', 's', 'e'] then some (.bool false)
  else if isTime t then some .time
  else match integer? t with
    | some n => some (.integer n)
    | none => (float? t).map .float

/-- A value without parts at the front of a text, and what follows it. -/
def scalar? (t : Text) : Option (Toml × Text) :=
  match t with
  | '"' :: _ | '\'' :: _ => (quoted? t).map fun (t, rest) => (.text t, rest)
  | _ => do
    let run := t.takeWhile isBareChar
    let rest := t.dropWhile isBareChar
    let value ← bare? run
    match rest with
    | ' ' :: u =>
      if date? run == some [] && isTimeWithOffset (u.takeWhile isBareChar) then
        some (value, u.dropWhile isBareChar)
      else some (value, rest)
    | _ => some (value, rest)

end NoteLinks.Toml
