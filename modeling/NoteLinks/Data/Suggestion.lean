/-
# Suggestions in data files
-/
import NoteLinks.Data.Snapshot
import NoteLinks.Suggestion.Basic

namespace NoteLinks

namespace Reason

/-- A reason as a value. -/
def toJson (r : Reason) : Json :=
  .ofFields [("kind", .ofText r.kind.name), ("detail", .ofText r.detail)]

/-- The reason in a value. -/
def ofJson? (j : Json) : Option Reason := do
  match ← Json.fields? ["kind", "detail"] j with
  | [kind, detail] =>
    some { kind := ← Json.required? (Json.choice? ReasonKind.name ReasonKind.all) kind
           detail := ← Json.required? Json.text? detail }
  | _ => none

end Reason

namespace Suggestion

/-- A suggestion as a value. -/
def toJson (s : Suggestion) : Json :=
  .ofFields [
    ("target", .ofText s.target),
    ("target_title", .ofText s.targetTitle),
    ("score", .ofFloat s.score),
    ("reasons", .array (s.reasons.map Reason.toJson)),
    ("strategies", .array (s.strategies.map fun strategy => .ofText strategy.name)),
    ("confidence", .ofText s.confidence.name)]

/-- The suggestion in a value. -/
def ofJson? (j : Json) : Option Suggestion := do
  match ← Json.fields? ["target", "target_title", "score", "reasons", "strategies",
      "confidence"] j with
  | [target, title, score, reasons, strategies, confidence] =>
    some { target := ← Json.required? Json.text? target
           targetTitle := ← Json.required? Json.text? title
           score := ← Json.required? Json.float? score
           reasons := ← Json.required? (Json.list? Reason.ofJson?) reasons
           strategies :=
             ← Json.required? (Json.list? (Json.choice? Strategy.name Strategy.all)) strategies
           confidence :=
             ← Json.required? (Json.choice? Confidence.name Confidence.all) confidence }
  | _ => none

end Suggestion

namespace SuggestionMap

/-- Suggestions for notes as a value. -/
def toJson (m : SuggestionMap) : Json :=
  Json.ofMap (fun suggestions => .array (suggestions.map Suggestion.toJson)) m

/-- The suggestions for notes in a value. -/
def ofJson? (j : Json) : Option SuggestionMap := Json.map? (Json.list? Suggestion.ofJson?) j

end SuggestionMap

end NoteLinks
