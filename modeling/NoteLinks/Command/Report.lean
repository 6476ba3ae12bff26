/-
# What commands print

Every command ends by saying what it has done.
-/
import NoteLinks.Decimal.Layout
import NoteLinks.Data.File
import NoteLinks.Suggestion.Review
import NoteLinks.Suggestion.Thresholds
import NoteLinks.Vault.Apply

namespace NoteLinks

/-- Texts as lines. -/
def Text.ofLines (lines : List Text) : Text := lines.flatMap fun line => line ++ ['\n']

/-- A line with a number under a label. -/
def Text.countLine (label : String) (n : Nat) : Text :=
  ' ' :: ' ' :: label.toList ++ ':' :: ' ' :: Text.ofNat n

/-- The line that says where results are kept. -/
def Text.savedLine (path : Text) : Text := "Results saved to: ".toList ++ path

/-- What is printed about a snapshot that is kept in a file. -/
def Snapshot.summary (s : Snapshot) (output : Text) : Text :=
  Text.ofLines [
    "Analysis complete".toList,
    Text.countLine "total_files" s.stats.totalFiles,
    Text.countLine "total_links" s.stats.totalLinks,
    Text.countLine "files_with_links" s.stats.filesWithLinks,
    Text.countLine "files_without_links" s.stats.filesWithoutLinks,
    "  avg_links_per_file: ".toList ++ Float.fixedText 2 s.stats.linksPerFile,
    Text.countLine "total_concepts" s.stats.totalConcepts,
    Text.countLine "total_tags" s.stats.totalTags,
    Text.savedLine output]

/-- What is printed about suggestions that are kept in a file. -/
def SuggestionMap.summary (m : SuggestionMap) (eagerness : Eagerness) (output : Text) : Text :=
  Text.ofLines [
    "Link suggestions generated".toList,
    Text.countLine "Files with suggestions" m.size,
    Text.countLine "Total suggestions" m.total,
    "  Strategy: ".toList ++ eagerness.name,
    Text.savedLine output]

namespace Report

/-- The lines about a note that has been changed. -/
def Change.lines (dryRun : Bool) (c : Change) : List Text :=
  let verb := if dryRun then "[dry run] Would update: " else "Updated: "
  let counts := " (+".toList ++ Text.ofNat c.links ++ " links, ".toList ++ Text.ofNat c.mentions
    ++ " inline, ".toList ++ Text.ofNat c.listings ++ " in section)".toList
  let line := verb.toList ++ c.key ++ counts
  match c.backup with
  | some backup => [line, "  backup: ".toList ++ backup]
  | none => [line]

/-- What is printed about the notes into which links are inserted. -/
def summary (r : Report) : Text :=
  let closing := if r.dryRun then "[dry run] Link addition complete" else "Link addition complete"
  let hint := "Run without --dry-run to apply changes".toList
  Text.ofLines (r.missing.map ("File not found: ".toList ++ ·)
    ++ r.failed.map (fun (key, e) => "Error updating ".toList ++ key ++ ':' :: ' ' :: e.message)
    ++ r.changes.flatMap (Change.lines r.dryRun)
    ++ [closing.toList, Text.countLine "Files modified" r.filesModified,
        Text.countLine "Links added" r.linksAdded]
    ++ if r.dryRun && 0 < r.linksAdded then [hint] else [])

end Report

/-- What is printed to review suggestions. -/
def SuggestionMap.review (m : SuggestionMap) : OutputFormat → Text
  | .json => Json.pretty 0 m.toJson
  | .table => Review.table (Review.rows m)
  | .markdown => Review.markdown (Review.rows m)

end NoteLinks
