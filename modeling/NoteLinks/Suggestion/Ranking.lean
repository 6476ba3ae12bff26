/-
# Ranking

All candidates with the same target make one suggestion. Its score is the sum of
their weights, at most one, and the suggestions with the best scores come first.
-/
import NoteLinks.Decimal.Binary
import NoteLinks.Suggestion.Candidate
import NoteLinks.Suggestion.Thresholds

namespace NoteLinks

/-- The place of a float in the total order of all floats, from the negative
ones that are no numbers to the positive ones. -/
def totalOrderKey (x : Float) : Int :=
  let bits := x.toBits.toNat
  if bits < 0x8000000000000000 then bits else -((bits - 0x8000000000000000 : Nat) : Int) - 1

namespace Ranking

/-- A sum of weights as a score: at most one, and rounded to six places, so that
the order of the summands does not show. -/
def scoreOf (weight : Float) : Float :=
  let capped := if weight < 0.0 then 0.0 else if weight > 1.0 then 1.0 else weight
  roundToWhole (capped * 1000000.0) / 1000000.0

/-- The candidates under their targets, in their order. -/
def gather (candidates : List Candidate) : KeyMap Text (List Candidate) :=
  candidates.foldl (fun groups c => groups.alter c.target fun group => group.getD [] ++ [c])
    KeyMap.empty

/-- The title of the note at a path, or its file name if it has none. -/
def titleOf (s : Snapshot) (path : Text) : Text :=
  match s.files.find? path with
  | some note =>
    let title := Text.trim note.title
    if title.isEmpty then Path.stem path else title
  | none => Path.stem path

/-- The strategies that speak for candidates, each once, in their order. -/
def strategiesOf (candidates : List Candidate) : List Strategy :=
  Strategy.all.filter fun strategy => candidates.any fun c => c.reason.kind.strategy == strategy

/-- The suggestion that candidates with the same target make. -/
def suggestionOf (s : Snapshot) (target : Text) (candidates : List Candidate) : Suggestion :=
  let score := scoreOf (candidates.foldl (fun sum c => sum + c.weight) 0.0)
  let strategies := strategiesOf candidates
  { target
    targetTitle := titleOf s target
    score
    reasons := candidates.map Candidate.reason
    strategies
    confidence := .classify score strategies.length }

/-- Whether a suggestion does not come behind another: it has the better score, or
the same and a target that does not come later. -/
def precedes (a b : Suggestion) : Bool :=
  totalOrderKey b.score < totalOrderKey a.score
    || (totalOrderKey a.score == totalOrderKey b.score && !(b.target < a.target))

/-- The suggestions that candidates make, the best first. -/
def rank (s : Snapshot) (candidates : List Candidate) : List Suggestion :=
  ((gather candidates).entries.map fun (target, group) => suggestionOf s target group).mergeSort
    precedes

/-- The suggestions within the thresholds. -/
def select (thresholds : Thresholds) (ranked : List Suggestion) : List Suggestion :=
  (ranked.filter fun s => s.score ≥ thresholds.minScore).take thresholds.maxLinks

end Ranking

namespace Snapshot

/-- The suggestions for the note at a path. -/
def suggestionsFor (s : Snapshot) (thresholds : Thresholds) (path : Text) : List Suggestion :=
  Ranking.select thresholds (Ranking.rank s (Candidate.all s path))

/-- The suggestions for all notes that have any. -/
def suggestions (s : Snapshot) (thresholds : Thresholds) : SuggestionMap :=
  s.files.filterMap fun path _ =>
    let found := s.suggestionsFor thresholds path
    if found.isEmpty then none else some found

end Snapshot

end NoteLinks
