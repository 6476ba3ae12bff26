/-
# Suggestions and their values

Suggestions are read from the value that was made of them, but for their scores: these come back
as the floats that are read from their numerals.
-/
import NoteLinks.Data.Suggestion
import NoteLinks.Proofs.Data.Snapshot

namespace NoteLinks

/-! ## Names -/

section Names

theorem Reason.choice?_kind (kind : ReasonKind) :
    Json.choice? ReasonKind.name ReasonKind.all (.ofText kind.name) = some kind := by
  cases kind <;> rfl

theorem Suggestion.choice?_strategy (strategy : Strategy) :
    Json.choice? Strategy.name Strategy.all (.ofText strategy.name) = some strategy := by
  cases strategy <;> rfl

theorem Suggestion.choice?_confidence (confidence : Confidence) :
    Json.choice? Confidence.name Confidence.all (.ofText confidence.name) = some confidence := by
  cases confidence <;> rfl

end Names

/-! ## Reasons -/

namespace Reason

theorem isProper_toJson (r : Reason) : r.toJson.IsProper :=
  .ofFields (by simp [Json.IsProper.ofText])

theorem ofJson?_toJson (r : Reason) : ofJson? r.toJson = some r := by
  rw [ofJson?, toJson, Json.fields?_ofFields]
  · simp [Json.required?, choice?_kind]
  · rfl
  · decide

end Reason

/-! ## Suggestions -/

namespace Suggestion

theorem isProper_toJson (s : Suggestion) : s.toJson.IsProper := by
  have hreasons : (Json.array (s.reasons.map Reason.toJson)).IsProper :=
    .arrayMap fun r _ => r.isProper_toJson
  have hstrategies :
      (Json.array (s.strategies.map fun strategy => .ofText strategy.name)).IsProper :=
    .arrayMap fun _ _ => .ofText _
  exact .ofFields (by simp [Json.IsProper.ofText, Json.isProper_ofFloat, hreasons, hstrategies])

/-- The suggestion with its score put through a function. -/
def rescore (f : Float → Float) (s : Suggestion) : Suggestion := { s with score := f s.score }

/-- A suggestion is read from its value, but for the score. -/
theorem ofJson?_toJson {s : Suggestion} {f : Float → Float}
    (hscore : Json.float? (.ofFloat s.score) = some (f s.score)) :
    ofJson? s.toJson = some (s.rescore f) := by
  have hreasons : Json.list? Reason.ofJson? (.array (s.reasons.map Reason.toJson)) =
      some s.reasons := Json.list?_array fun r _ => r.ofJson?_toJson
  have hstrategies : Json.list? (Json.choice? Strategy.name Strategy.all)
      (.array (s.strategies.map fun strategy => .ofText strategy.name)) = some s.strategies :=
    Json.list?_array fun strategy _ => choice?_strategy strategy
  rw [ofJson?, toJson, Json.fields?_ofFields]
  · simp [Json.required?, hscore, hreasons, hstrategies, choice?_confidence, rescore]
  · rfl
  · decide

end Suggestion

/-! ## Suggestions for notes -/

namespace SuggestionMap

theorem isProper_toJson (m : SuggestionMap) : (toJson m).IsProper :=
  .ofMap fun _ _ => .arrayMap fun s _ => s.isProper_toJson

/-- The suggestions with their scores put through a function. -/
def rescore (f : Float → Float) (m : SuggestionMap) : SuggestionMap :=
  m.map fun suggestions => suggestions.map (Suggestion.rescore f)

/-- Suggestions for notes are read from their value, but for the scores. -/
theorem ofJson?_toJson {m : SuggestionMap} {f : Float → Float}
    (hscores : ∀ e ∈ m.entries, ∀ s ∈ e.2,
      Json.float? (.ofFloat s.score) = some (f s.score)) :
    ofJson? (toJson m) = some (m.rescore f) :=
  Json.map?_ofMap_map fun e he =>
    Json.list?_array_map fun s hs => Suggestion.ofJson?_toJson (hscores e he s hs)

theorem rescore_id (m : SuggestionMap) : m.rescore id = m :=
  (congrArg m.map (funext fun suggestions => List.map_id suggestions)).trans m.map_id

end SuggestionMap

end NoteLinks
