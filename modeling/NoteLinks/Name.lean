/-
# Choosing by name

Settings and commands choose among a few possibilities by name. Letter case does
not matter.
-/
import NoteLinks.Error
import NoteLinks.LinkFormat
import NoteLinks.Suggestion.Review
import NoteLinks.Suggestion.Thresholds

namespace NoteLinks

/-- The possibility with a name, which is given in lower case. -/
def named? {α : Type} (nameOf : α → Text) (possibilities : List α) (name : Text) : Option α :=
  possibilities.find? fun a => nameOf a == name

/-- What is found, or else the error that a name is unknown. -/
def orUnknown {α : Type} (found : Option α) (kind : NameKind) (name : Text) : Except Error α :=
  match found with
  | some a => .ok a
  | none => .error (.unknownName kind name)

/-- The degree of confidence with a name. -/
def Confidence.ofName (name : Text) : Except Error Confidence :=
  let name := Text.lowerAscii name
  orUnknown (named? Confidence.name Confidence.all name) .confidence name

/-- The degree of eagerness with a name. An unknown name is reported as it is
written. -/
def Eagerness.ofName (name : Text) : Except Error Eagerness :=
  orUnknown (named? Eagerness.name Eagerness.all (Text.lowerAscii name)) .strategy name

/-- The link format with a name. -/
def LinkFormat.ofName (name : Text) : Except Error LinkFormat :=
  let name := Text.lowerAscii name
  orUnknown (named? LinkFormat.name LinkFormat.all name) .linkFormat name

/-- The output format with a name. For one of them there is a short name. -/
def OutputFormat.ofName (name : Text) : Except Error OutputFormat :=
  let name := Text.lowerAscii name
  if name = ['m', 'd'] then .ok .markdown
  else orUnknown (named? OutputFormat.name OutputFormat.all name) .outputFormat name

end NoteLinks
