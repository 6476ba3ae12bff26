/-
# Where front matter lies

The parts of a note lie at byte offsets in its text. Each of them is found by a
search in what is left of the text: behind the dashes at its front, behind its
first line, behind the dashes that close the block. So the offset of a part is
the sum of where the search starts and of how far it gets, and the text can be
cut at the offsets only if these sums come out right.
-/
import NoteLinks.FrontMatter
import NoteLinks.Text.Offset

namespace NoteLinks.FrontMatter

/-- Where the parts of a note with front matter lie, in bytes. -/
structure Location where
  yamlStart : Nat
  yamlStop : Nat
  bodyStart : Nat
  deriving DecidableEq, Repr

/-- The offset behind the first line, if it opens front matter. -/
def behindOpening? (content : Text) : Except BadOffset (Option Nat) :=
  match Text.dropPrefix? delimiter content with
  | none => return none
  | some opened =>
    match Text.offsetOf? ['\n'] opened with
    | none => return none
    | some lineEnd => do
      let blanks ← Text.upTo lineEnd opened
      return if Text.isBlankText blanks then some (3 + lineEnd + 1) else none

/-- Where YAML that starts at an offset stops, and where the dashes stop that
close the block. The block may be closed before there is any YAML. -/
def closing? (content : Text) (yamlStart : Nat) : Except BadOffset (Option (Nat × Nat)) := do
  let opened ← Text.behind yamlStart content
  if Text.startsWith delimiter opened then
    return some (yamlStart, yamlStart + 3)
  else
    return (Text.offsetOf? ('\n' :: delimiter) opened).map fun position =>
      (yamlStart + position, yamlStart + position + 4)

/-- The offset behind the line that goes on at an offset. -/
def behindLine (content : Text) (offset : Nat) : Except BadOffset Nat := do
  match Text.offsetOf? ['\n'] (← Text.behind offset content) with
  | some position => return offset + position + 1
  | none => return Text.byteLength content

/-- Where the parts of a note lie, if it opens with a block that is closed. -/
def locate? (content : Text) : Except BadOffset (Option Location) := do
  match ← behindOpening? content with
  | none => return none
  | some yamlStart =>
    match ← closing? content yamlStart with
    | none => return none
    | some (yamlStop, closed) =>
      return some { yamlStart, yamlStop, bodyStart := ← behindLine content closed }

/-- The YAML and the body of a note, cut out of its text. -/
def cutOut? (content : Text) : Except BadOffset (Option (Text × Text)) := do
  match ← locate? content with
  | none => return none
  | some place =>
    let yaml ← Text.between place.yamlStart place.yamlStop content
    return some (yaml, ← Text.behind place.bodyStart content)

/-- The offset at which the body of a note starts. -/
def bodyOffset (content : Text) : Except BadOffset Nat := do
  match ← locate? content with
  | none => return 0
  | some place => return place.bodyStart

end NoteLinks.FrontMatter
