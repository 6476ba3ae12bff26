/-
# Front matter

A note may open with a block of YAML between two lines that start with three
dashes. Only its title and its tags are of interest. If the block is not a YAML
mapping, it is read line by line instead, so that a stray colon does not hide
the title of a note.

The block is found by its delimiters alone, whatever stands in it: `split?`
accepts a text exactly if it has an opening and a closing delimiter, and what
it returns are parts of the text.
-/
import NoteLinks.Yaml.Value

namespace NoteLinks

/-- The front matter of a note, as far as it is of interest. -/
structure FrontMatter where
  title : Option Text := none
  tags : List Text := []
  deriving DecidableEq, Repr

namespace FrontMatter

/-! ## The block -/

/-- The three dashes of a delimiter. -/
def delimiter : Text := ['-', '-', '-']

/-- What follows the first line feed of a text: the text without its first
line. -/
def afterLine (t : Text) : Text :=
  match Text.cutAt? ['\n'] t with
  | some (_, rest) => rest
  | none => []

/-- The front matter's YAML and the body behind it, if the text opens with a
block that is closed. -/
def split? (content : Text) : Option (Text × Text) := do
  let opened ← Text.dropPrefix? delimiter content
  let (blanks, rest) ← Text.cutAt? ['\n'] opened
  if Text.isBlankText blanks then
    match Text.dropPrefix? delimiter rest with
    | some tail => some ([], afterLine tail)
    | none => (Text.cutAt? ('\n' :: delimiter) rest).map fun (yaml, tail) => (yaml, afterLine tail)
  else none

/-- The part of a note behind its front matter. -/
def body (content : Text) : Text :=
  match split? content with
  | some (_, body) => body
  | none => content

/-- The number of characters in front of the body. -/
def bodyStart (content : Text) : Nat := content.length - (body content).length

/-! ## The fields -/

/-- Whether the character is a quotation mark. -/
def isQuote (c : Char) : Bool := c == '"' || c == '\''

/-- A text without the blanks and quotation marks around it. -/
def cleanTag (t : Text) : Text := Text.trim (Text.trimBoth isQuote (Text.trim t))

/-- A text without the quotation marks around it, and then without blanks. -/
def unquote (t : Text) : Text := Text.trim (Text.trimBoth isQuote t)

/-- The tags among some texts, cleaned. -/
def cleanTags (ts : List Text) : List Text := (ts.map cleanTag).filter fun t => !t.isEmpty

/-- The entries of a list that is written with commas, in brackets or not. -/
def inlineList (t : Text) : List Text :=
  let t := Text.trim t
  let t := (Text.dropPrefix? ['['] t).getD t
  let t := (Text.dropSuffix? [']'] t).getD t
  cleanTags (Text.splitOn ',' t)

/-- The tags that a YAML value stands for. -/
def tagsOf : Yaml.Value → List Text
  | .sequence items => cleanTags (items.filterMap Yaml.Value.scalarText?)
  | .text t => inlineList t
  | _ => []

/-- The title that a YAML value stands for. -/
def titleOf? (value : Yaml.Value) : Option Text :=
  match value.scalarText? with
  | some t =>
    let title := Text.trim t
    if title.isEmpty then none else some title
  | none => none

/-- The front matter with the field on one more line. The first title that is
not empty counts, and the last list of tags. -/
def addLine (fields : FrontMatter) (line : Text) : FrontMatter :=
  match Text.cutAt? [':'] line with
  | none => fields
  | some (key, value) =>
    let key := Text.trim key
    let value := Text.trim value
    if key = "title".toList && fields.title.isNone then
      let title := unquote value
      if title.isEmpty then fields else { fields with title := some title }
    else if key = "tags".toList && value.head? == some '[' then
      { fields with tags := inlineList value }
    else fields

/-- The fields of a block that is read line by line. -/
def ofLines (yaml : Text) : FrontMatter :=
  ((Text.lines yaml).map Text.dropLineEnd).foldl addLine {}

/-- The fields of a block. -/
def ofYaml (yaml : Text) : FrontMatter :=
  match Yaml.Value.ofText? yaml with
  | some (.mapping entries) =>
    { title := (Yaml.Value.at? "title".toList entries).bind titleOf?
      tags := ((Yaml.Value.at? "tags".toList entries).map tagsOf).getD [] }
  | some .null => {}
  | _ => ofLines yaml

/-- The front matter of a note; that of a note without a block is empty. -/
def read (content : Text) : FrontMatter :=
  match split? content with
  | some (yaml, _) => ofYaml yaml
  | none => {}

end FrontMatter

end NoteLinks
