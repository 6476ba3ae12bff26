/-
# YAML values

What a YAML document says: nothing, truth values, numbers, texts, sequences and
mappings. Plain scalars are told apart by their spelling, in the core schema of
YAML 1.2. A tag may demand a kind of scalar, or set a value apart as one of its
own.

A document has no value if a mapping has the same key twice, if it is nested
more than 128 deep, or if its aliases are followed too often for its size.
-/
import NoteLinks.Decimal.Layout
import NoteLinks.Yaml.Node

namespace NoteLinks.Yaml

/-- What a YAML node says. -/
inductive Value
  | null
  | bool (b : Bool)
  | integer (n : Int)
  | float (x : Float)
  | text (t : Text)
  | sequence (items : List Value)
  | mapping (entries : List (Value × Value))
  | tagged (tag : Text) (value : Value)

namespace Value

/-- Whether two values nested at most `depth` deep are the same. The order of a
mapping does not matter. -/
def same : (depth : Nat) → Value → Value → Bool
  | 0, _, _ => false
  | depth + 1, a, b =>
    match a, b with
    | null, null => true
    | bool p, bool q => p == q
    | integer m, integer n => m == n
    | float x, float y => x == y || (x.isNaN && y.isNaN)
    | text s, text t => s == t
    | sequence xs, sequence ys =>
      xs.length == ys.length && (xs.zip ys).all fun (x, y) => same depth x y
    | mapping xs, mapping ys =>
      xs.length == ys.length && xs.all fun (k, v) =>
        ys.any fun (l, w) => same depth k l && same depth v w
    | tagged s x, tagged t y => s == t && same depth x y
    | _, _ => false

/-- The text of a truth value, a number or a text. -/
def scalarText? : Value → Option Text
  | bool b => some (if b then "true".toList else "false".toList)
  | integer n => some (withSign (n < 0) (Text.ofNat n.natAbs))
  | float x =>
    some (match Float.numeral? x with
      | some n => n.text
      | none => if x.isNaN then ".nan".toList else withSign (x < 0) ".inf".toList)
  | text t => some t
  | _ => none

end Value

/-! ## Scalars -/

/-- The truth value that is spelled. -/
def bool? (t : Text) : Option Bool :=
  if ["true".toList, "True".toList, "TRUE".toList].contains t then some true
  else if ["false".toList, "False".toList, "FALSE".toList].contains t then some false
  else none

/-- Whether nothing is spelled. -/
def isNull (t : Text) : Bool :=
  ["null".toList, "Null".toList, "NULL".toList, "~".toList].contains t

/-- Digits behind a leading zero. They are a text, not a number. -/
def isZeroPadded (t : Text) : Bool :=
  let digits := match t with
    | '-' :: rest | '+' :: rest => rest
    | _ => t
  match digits with
  | '0' :: d :: rest => (d :: rest).all Char.isDigit
  | _ => false

/-- The natural number that digits of a base spell. -/
def natOfBase? (base : Nat) (digits : Text) : Option Nat :=
  if digits.isEmpty then none
  else digits.foldlM (fun n c => do
    let d ← Text.hexDigit? c
    if d < base then some (base * n + d) else none) 0

/-- The natural number that is spelled behind the mark of its base. -/
def natWithBase? : Text → Option Nat
  | '0' :: 'x' :: digits => natOfBase? 16 digits
  | '0' :: 'o' :: digits => natOfBase? 8 digits
  | '0' :: 'b' :: digits => natOfBase? 2 digits
  | _ => none

/-- The magnitude and sign of an integer that is spelled. -/
def integer? (t : Text) : Option (Bool × Nat) :=
  let (negative, digits) := match t with
    | '-' :: rest => (true, rest)
    | '+' :: rest => (false, rest)
    | _ => (false, t)
  match natWithBase? digits with
  | some n => some (negative, n)
  | none => if isZeroPadded t then none else (natOfBase? 10 digits).map (negative, ·)

/-- A number with a point or an exponent: digits on one side of the point at
least, and digits in the exponent if there is one. -/
def floatNumeral? (t : Text) : Option Numeral :=
  let (negative, t) := match t with
    | '-' :: rest => (true, rest)
    | '+' :: rest => (false, rest)
    | _ => (false, t)
  let whole := t.takeWhile Char.isDigit
  let (fraction, rest) := match t.dropWhile Char.isDigit with
    | '.' :: rest => (rest.takeWhile Char.isDigit, rest.dropWhile Char.isDigit)
    | rest => ([], rest)
  if whole.isEmpty && fraction.isEmpty then none
  else match rest with
    | [] => some { negative, whole, fraction, exponent := none }
    | e :: rest =>
      if e ≠ 'e' ∧ e ≠ 'E' then none
      else
        let (down, digits) := match rest with
          | '-' :: rest => (true, rest)
          | '+' :: rest => (false, rest)
          | _ => (false, rest)
        if digits.isEmpty || !digits.all Char.isDigit then none
        else some { negative, whole, fraction, exponent := some (down, digits) }

/-- The float that is spelled. Numbers too large for a float are not spelled by
digits. -/
def float? (t : Text) : Option Float :=
  let unsigned := match t with
    | '+' :: rest => rest
    | _ => t
  let doubled := match t with
    | '+' :: '+' :: _ | '+' :: '-' :: _ => true
    | _ => false
  if doubled then none
  else if [".inf".toList, ".Inf".toList, ".INF".toList].contains unsigned then some (1.0 / 0.0)
  else if ["-.inf".toList, "-.Inf".toList, "-.INF".toList].contains t then some (-1.0 / 0.0)
  else if [".nan".toList, ".NaN".toList, ".NAN".toList].contains t then some (0.0 / 0.0)
  else do
    let x := (← floatNumeral? unsigned).exactFloat
    if x.isInf then none else some x

/-- The number that is spelled. The outer result is missing if it is an integer
that neither 64 bits nor a float is meant for: one of more than 64 bits and at
most 128. -/
def number? (t : Text) : Option (Option Value) :=
  let asFloat : Option Value := if isZeroPadded t then none else (float? t).map .float
  match integer? t with
  | none => some asFloat
  | some (negative, n) =>
    let bound (bits : Nat) : Nat := if negative then Nat.pow 2 (bits - 1) + 1 else Nat.pow 2 bits
    if n < bound 64 then some (some (.integer (if negative then -(n : Int) else n)))
    else if n < bound 128 then none
    else some asFloat

/-- What a plain scalar says. -/
def plainValue? (t : Text) : Option Value :=
  if t.isEmpty || isNull t then some .null
  else match bool? t with
    | some b => some (.bool b)
    | none => (number? t).map fun number => number.getD (.text t)

/-- The kinds of scalar that a tag may demand. -/
def standardTag (kind : String) : Text := "tag:yaml.org,2002:".toList ++ kind.toList

/-- What a scalar says. A tag in `tag` demands a kind of scalar, unless it has
set the value apart already. -/
def scalarValue? (tag : Option Text) (plain : Bool) (t : Text) : Option Value :=
  match tag with
  | none => if plain then plainValue? t else some (.text t)
  | some tag =>
    if tag == standardTag "bool" then (bool? t).map .bool
    else if tag == standardTag "int" then
      match number? t with
      | some (some (.integer n)) => some (.integer n)
      | _ => none
    else if tag == standardTag "float" then (float? t).map .float
    else if tag == standardTag "null" then if isNull t then some .null else none
    else some (.text t)

/-! ## Documents -/

/-- The name of a tag that sets a value apart. A second exclamation mark in front
of it makes no difference. -/
def ownTag? : Option Text → Option Text
  | some ['!'] | some ['!', '!'] => some ['!']
  | some ('!' :: '!' :: name) | some ('!' :: name) => some name
  | _ => none

/-- A value with the tag that sets it apart, if there is one. -/
def withOwnTag (tag : Option Text) (value : Value) : Value :=
  match ownTag? tag with
  | some name => .tagged name value
  | none => value

/-- Whether a key is among the keys of some entries. -/
def hasKey (entries : List (Value × Value)) (key : Value) : Bool :=
  entries.any fun (k, _) => Value.same 260 k key

/-- Reading values, where the number of aliases followed so far is counted. -/
abbrev Evaluate := StateT Nat Option

/-- The node that is meant: the target of an alias, or the node itself. -/
def follow (d : Document) (node : Node) : Evaluate Node := do
  match node with
  | .alias number =>
    let followed ← modifyGet fun n => (n + 1, n + 1)
    if followed > 100 * d.events then failure
    else match d.target? number with
      | some target => return target
      | none => failure
  | _ => return node

/-- What a node says that is nested at most `depth` deep. The entries of a mapping
are read in order, and no key may be there already. -/
def valueOf (d : Document) : (depth : Nat) → Node → Evaluate Value
  | depth, node => do
    match ← follow d node, depth with
    | .scalar tag plain t, _ =>
      match ownTag? tag with
      | some name => return .tagged name (← if plain then plainValue? t else some (.text t))
      | none => scalarValue? tag plain t
    | .sequence tag items, depth + 1 =>
      return withOwnTag tag (.sequence (← items.mapM (valueOf d depth)))
    | .mapping tag entries, depth + 1 =>
      let read ← entries.foldlM (fun read (keyNode, valueNode) => do
        let key ← valueOf d depth keyNode
        if hasKey read key then failure
        else return (key, ← valueOf d depth valueNode) :: read) []
      return withOwnTag tag (.mapping read.reverse)
    | _, _ => failure
termination_by structural depth => depth

/-- What a YAML text says, or nothing if it is not YAML. A text without a
document says nothing, which is `null`. -/
def Value.ofText? (t : Text) : Option Value := do
  match ← Document.ofText? t with
  | none => some .null
  | some d => (valueOf d 128 d.root).run' 0

/-- The value at a key of a mapping. -/
def Value.at? (key : Text) (entries : List (Value × Value)) : Option Value :=
  (entries.find? fun
    | (.text t, _) => t == key
    | _ => false).map (·.2)

end NoteLinks.Yaml
