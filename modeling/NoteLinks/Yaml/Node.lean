/-
# YAML nodes

Tokens are put together to a tree of scalars, sequences and mappings. A node may
bear a tag and an anchor. An alias refers to an anchored node by a number: the
number of different names that had been used for anchors before it. A name that
is used again is counted once only, so that a number may be given twice; then it
stands for the node that begins last.

Where a node is missing, as behind a key without a value, there is an empty
plain scalar.
-/
import NoteLinks.Yaml.Token

namespace NoteLinks.Yaml

/-- A node of a YAML document, with its tag if it has one. -/
inductive Node
  | scalar (tag : Option Text) (plain : Bool) (text : Text)
  | sequence (tag : Option Text) (items : List Node)
  | mapping (tag : Option Text) (entries : List (Node × Node))
  | alias (number : Nat)

namespace Node

/-- The scalar that stands for a missing node. -/
def missing : Node := .scalar none true []

end Node

/-- What is known while tokens are put together. -/
structure Composer where
  tokens : List Token
  /-- The prefixes of tag handles. -/
  handles : List (Text × Text) := []
  /-- The numbers of the anchor names, the latest first. -/
  names : List (Text × Nat) := []
  /-- The anchored nodes with their numbers, and how many scalars, aliases and
  ends of collections the document has in front of each. -/
  anchored : List (Nat × Nat × Node) := []
  /-- How many beginnings and ends of nodes the document has so far. -/
  events : Nat := 0

/-- Putting tokens together, which may fail. -/
abbrev Compose := StateT Composer Option

namespace Compose

/-- The next token. There is none at the end of the text. -/
def peek : Compose (Option Token) := do return (← get).tokens.head?

/-- The next token is passed over. -/
def skip : Compose Unit := modify fun s => { s with tokens := s.tokens.tail }

/-- One more beginning or end of a node; the result is how many there were. -/
def countEvent : Compose Nat :=
  modifyGet fun s => (s.events, { s with events := s.events + 1 })

/-- The missing node. -/
def missing : Compose Node := do
  let _ ← countEvent
  return .missing

/-- The number for a new anchor. -/
def nameAnchor (name : Text) : Compose Nat := do
  let names := (← get).names
  let number := (names.map (·.1)).eraseDups.length
  modify fun s => { s with names := (name, number) :: names }
  return number

/-- The tag that a handle and a suffix stand for. -/
def expandTag (handle suffix : Text) : Compose Text := do
  if handle.isEmpty then return suffix
  else match (← get).handles.lookup handle with
    | some leading => return leading ++ suffix
    | none => failure

/-- The anchor and the tag in front of a node, in either order. -/
def properties : Compose (Option Text × Option Text) := do
  let anchor? : Compose (Option Text) := do
    match ← peek with
    | some (.anchor name) => skip; return some name
    | _ => return none
  let tag? : Compose (Option Text) := do
    match ← peek with
    | some (.tag handle suffix) => skip; return some (← expandTag handle suffix)
    | _ => return none
  match ← anchor? with
  | some name => return (some name, ← tag?)
  | none =>
    let tag ← tag?
    return (← anchor?, tag)

/-- Where a node stands, which decides what it may be. -/
structure Position where
  /-- Whether it may be an indented block. -/
  block : Bool
  /-- Whether it may be a sequence whose dashes are not indented. -/
  flushSequence : Bool

/-- Whether a node is missing in front of a token, since it is one of `ends`. -/
def isMissingAt (ends : List Token) : Option Token → Bool
  | some t => ends.contains t
  | none => false

mutual

/-- A node with its properties. -/
def node : (fuel : Nat) → Position → Compose Node
  | 0, _ => failure
  | fuel + 1, position => do
    match ← peek with
    | some (.alias name) =>
      skip
      let _ ← countEvent
      match (← get).names.lookup name with
      | some number => return .alias number
      | none => failure
    | _ =>
      let (anchor, tag) ← properties
      let number ← anchor.mapM nameAnchor
      let start ← countEvent
      let result ← content fuel position (anchor.isSome || tag.isSome) tag
      if let some number := number then
        modify fun s => { s with anchored := (number, start, result) :: s.anchored }
      return result

/-- A node behind its properties. It may be missing if there are any. -/
def content : (fuel : Nat) → Position → (marked : Bool) → (tag : Option Text) → Compose Node
  | 0, _, _, _ => failure
  | fuel + 1, position, marked, tag => do
    match ← peek with
    | some (.scalar plain text) =>
      skip
      return .scalar (if tag == some ['!'] then none else tag) plain text
    | some .flowSequenceStart => skip; .sequence tag <$> flowSequence fuel true
    | some .flowMappingStart => skip; .mapping tag <$> flowMapping fuel true
    | some .blockEntry =>
      if position.flushSequence then .sequence tag <$> flushSequence fuel
      else if marked then return .scalar tag true [] else failure
    | some .blockSequenceStart =>
      if position.block then do skip; .sequence tag <$> blockSequence fuel
      else if marked then return .scalar tag true [] else failure
    | some .blockMappingStart =>
      if position.block then do skip; .mapping tag <$> blockMapping fuel
      else if marked then return .scalar tag true [] else failure
    | _ => if marked then return .scalar tag true [] else failure

/-- The entries of an indented sequence, up to its end. -/
def blockSequence : (fuel : Nat) → Compose (List Node)
  | 0 => failure
  | fuel + 1 => do
    match ← peek with
    | some .blockEntry =>
      skip
      let item ← if isMissingAt [.blockEntry, .blockEnd] (← peek) then missing
        else node fuel ⟨true, false⟩
      return item :: (← blockSequence fuel)
    | some .blockEnd => skip; let _ ← countEvent; return []
    | _ => failure

/-- The entries of a sequence that is not indented. -/
def flushSequence : (fuel : Nat) → Compose (List Node)
  | 0 => failure
  | fuel + 1 => do
    match ← peek with
    | some .blockEntry =>
      skip
      let item ← if isMissingAt [.blockEntry, .key, .value, .blockEnd] (← peek) then missing
        else node fuel ⟨true, false⟩
      return item :: (← flushSequence fuel)
    | _ => let _ ← countEvent; return []

/-- The entries of an indented mapping, up to its end. -/
def blockMapping : (fuel : Nat) → Compose (List (Node × Node))
  | 0 => failure
  | fuel + 1 => do
    match ← peek with
    | some .key =>
      skip
      let key ← if isMissingAt [.key, .value, .blockEnd] (← peek) then missing
        else node fuel ⟨true, true⟩
      let value ← match ← peek with
        | some .value =>
          skip
          if isMissingAt [.key, .value, .blockEnd] (← peek) then missing
          else node fuel ⟨true, true⟩
        | _ => missing
      return (key, value) :: (← blockMapping fuel)
    | some .blockEnd => skip; let _ ← countEvent; return []
    | _ => failure

/-- The entries of a sequence in brackets. Behind the first a comma stands in
front of each, and perhaps of the closing bracket. An entry may be a single key
with its value. -/
def flowSequence : (fuel : Nat) → (first : Bool) → Compose (List Node)
  | 0, _ => failure
  | fuel + 1, first => do
    let close : Compose (List Node) := do skip; let _ ← countEvent; return []
    if (← peek) == some .flowSequenceEnd then close
    else
      unless first do
        if (← peek) == some .flowEntry then skip else failure
      match ← peek with
      | some .flowSequenceEnd => close
      | some .key =>
        skip
        let _ ← countEvent
        let key ← if isMissingAt [.value, .flowEntry, .flowSequenceEnd] (← peek) then
            do skip; missing
          else node fuel ⟨false, false⟩
        let value ← if (← peek) == some .value then do
            skip
            if isMissingAt [.flowEntry, .flowSequenceEnd] (← peek) then missing
            else node fuel ⟨false, false⟩
          else missing
        let _ ← countEvent
        return .mapping none [(key, value)] :: (← flowSequence fuel false)
      | _ =>
        let item ← node fuel ⟨false, false⟩
        return item :: (← flowSequence fuel false)

/-- The entries of a mapping in brackets. Behind the first a comma stands in
front of each, and perhaps of the closing bracket. -/
def flowMapping : (fuel : Nat) → (first : Bool) → Compose (List (Node × Node))
  | 0, _ => failure
  | fuel + 1, first => do
    let close : Compose (List (Node × Node)) := do skip; let _ ← countEvent; return []
    if (← peek) == some .flowMappingEnd then close
    else
      unless first do
        if (← peek) == some .flowEntry then skip else failure
      match ← peek with
      | some .flowMappingEnd => close
      | some .key =>
        skip
        let key ← if isMissingAt [.value, .flowEntry, .flowMappingEnd] (← peek) then missing
          else node fuel ⟨false, false⟩
        let value ← if (← peek) == some .value then do
            skip
            if isMissingAt [.flowEntry, .flowMappingEnd] (← peek) then missing
            else node fuel ⟨false, false⟩
          else missing
        return (key, value) :: (← flowMapping fuel false)
      | _ =>
        let key ← node fuel ⟨false, false⟩
        let value ← missing
        return (key, value) :: (← flowMapping fuel false)

end

/-! ## Documents -/

/-- The handles that need not be declared. -/
def defaultHandles : List (Text × Text) :=
  [(['!'], ['!']), (['!', '!'], "tag:yaml.org,2002:".toList)]

/-- The directives in front of a document. A version is stated once at most, and
every handle is declared once at most. -/
def directives : (fuel : Nat) → (versioned : Bool) → Compose Unit
  | 0, _ => failure
  | fuel + 1, versioned => do
    match ← peek with
    | some (.versionDirective major minor) =>
      skip
      if versioned || major ≠ 1 || (minor ≠ 1 && minor ≠ 2) then failure
      else directives fuel true
    | some (.tagDirective handle leading) =>
      skip
      if ((← get).handles.lookup handle).isSome then failure
      else
        modify fun s => { s with handles := (handle, leading) :: s.handles }
        directives fuel versioned
    | _ => return ()

/-- The only document of a text, or nothing if the text has none. Nothing may
come behind it but marks of its end. -/
def document (fuel : Nat) : Compose (Option Node) := do
  let withDefaults : Compose Unit := modify fun s => { s with handles := s.handles ++ defaultHandles }
  match ← peek with
  | none => return none
  | some token =>
    let isExplicit := match token with
      | .versionDirective .. | .tagDirective .. | .documentStart => true
      | _ => false
    let root ←
      if isExplicit then do
        directives fuel false
        withDefaults
        if (← peek) == some .documentStart then skip else failure
        match ← peek with
        | none | some .documentStart | some .documentEnd
        | some (.versionDirective ..) | some (.tagDirective ..) => missing
        | _ => node fuel ⟨true, false⟩
      else do
        withDefaults
        node fuel ⟨true, false⟩
    if (← get).tokens.all (· == .documentEnd) then return some root else failure

end Compose

/-- A document with what its aliases may refer to. -/
structure Document where
  root : Node
  anchored : List (Nat × Nat × Node)
  events : Nat

/-- The node that an alias with this number refers to: of several the one that
begins last. -/
def Document.target? (d : Document) (number : Nat) : Option Node :=
  let candidates := d.anchored.filter (·.1 == number)
  (candidates.foldl (fun best candidate =>
    match best with
    | none => some candidate.2
    | some (start, _) => if start < candidate.2.1 then some candidate.2 else best) none).map (·.2)

/-- The document of a YAML text. The outer result is missing if the text is not
YAML, the inner one if it has no document. -/
def Document.ofText? (t : Text) : Option (Option Document) := do
  let tokens ← tokens? t
  let (root, s) ← (Compose.document (4 * tokens.length + 8)).run { tokens }
  some (root.map fun root => { root, anchored := s.anchored, events := s.events })

end NoteLinks.Yaml
