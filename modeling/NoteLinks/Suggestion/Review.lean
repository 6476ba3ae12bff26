/-
# Reviewing suggestions

Suggestions are shown for inspection as a table, as a markdown table or as the
data that is kept in files. Both tables have one line for each suggestion, with
the same six cells.
-/
import NoteLinks.Decimal.Layout
import NoteLinks.Suggestion.Basic

namespace NoteLinks

/-- How suggestions are shown. -/
inductive OutputFormat
  | json
  | table
  | markdown
  deriving DecidableEq, Repr

namespace OutputFormat

/-- All formats. -/
def all : List OutputFormat := [.json, .table, .markdown]

/-- The name of a format. -/
def name : OutputFormat → Text
  | json => "json".toList
  | table => "table".toList
  | markdown => "markdown".toList

end OutputFormat

namespace Review

/-- The headings of the six columns. -/
def columns : List Text :=
  ["source".toList, "target".toList, "score".toList, "confidence".toList, "strategies".toList,
    "reasons".toList]

/-- The cells of a suggestion for a note. -/
def row (source : Text) (s : Suggestion) : List Text :=
  [source, s.target, Float.fixedText 2 s.score, s.confidence.name,
    Text.join [','] (s.strategies.map Strategy.name),
    Text.join [';', ' '] (s.reasons.map Reason.describe)]

/-- The cells of all suggestions, from the first note to the last. -/
def rows (m : SuggestionMap) : List (List Text) :=
  m.entries.flatMap fun (source, suggestions) => suggestions.map (row source)

/-! ## The plain table -/

/-- The widths of the columns: each has room for its heading and all its cells. -/
def widths (rows : List (List Text)) : List Nat :=
  rows.foldl (fun widths row => List.zipWith (fun w cell => max w cell.length) widths row)
    (columns.map List.length)

/-- A line of the table, with the cells filled up to the widths of their
columns. -/
def tableLine (widths : List Nat) (cells : List Text) : Text :=
  Text.trimEnd (Text.join [' ', '|', ' '] (List.zipWith Text.padRight widths cells)) ++ ['\n']

/-- The line under the headings. -/
def tableRule (widths : List Nat) : Text :=
  Text.join ['-', '+', '-'] (widths.map fun w => List.replicate w '-') ++ ['\n']

/-- Rows as a plain table. -/
def table (rows : List (List Text)) : Text :=
  if rows.isEmpty then "(no suggestions)".toList
  else
    let widths := widths rows
    tableLine widths columns ++ tableRule widths ++ rows.flatMap (tableLine widths)

/-! ## The markdown table -/

/-- A cell of a markdown table, in which bars are escaped. -/
def escapeBars (cell : Text) : Text := Text.replaceChar '|' ['\\', '|'] cell

/-- A line of a markdown table. -/
def markdownLine (cells : List Text) : Text :=
  '|' :: ' ' :: Text.join [' ', '|', ' '] cells ++ [' ', '|', '\n']

/-- Rows as a markdown table. -/
def markdown (rows : List (List Text)) : Text :=
  if rows.isEmpty then "*No suggestions*\n".toList
  else
    markdownLine columns ++ markdownLine (columns.map fun _ => ['-', '-', '-'])
      ++ rows.flatMap fun row => markdownLine (row.map escapeBars)

end Review

end NoteLinks
