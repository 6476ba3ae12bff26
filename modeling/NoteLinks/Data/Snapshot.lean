/-
# Snapshots in data files
-/
import NoteLinks.Data.Note
import NoteLinks.Decimal.Layout
import NoteLinks.Snapshot

namespace NoteLinks

/-- A float as a value. There is no numeral for infinities and what is no number,
so they become `null`. -/
def Json.ofFloat (x : Float) : Json :=
  match Float.numeral? x with
  | some n => .number n
  | none => .null

/-- A map as a value. -/
def Json.ofMap {α : Type} (value : α → Json) (m : KeyMap Text α) : Json :=
  .object (m.entries.map fun (key, a) => (some key, value a))

namespace Index

/-- An index as a value. -/
def toJson (index : Index) : Json := Json.ofMap (fun members => Note.textsToJson members.toList) index

/-- The index in a value. -/
def ofJson? (j : Json) : Option Index :=
  Json.map? (fun j => (Json.list? Json.text? j).map KeySet.ofList) j

end Index

namespace Stats

/-- The names of the numbers about a vault. -/
def fieldNames : List String :=
  ["total_files", "total_links", "files_with_links", "files_without_links", "avg_links_per_file",
    "total_concepts", "total_tags"]

/-- The numbers about a vault as a value. -/
def toJson (s : Stats) : Json :=
  .ofFields (fieldNames.zip
    [.ofNat s.totalFiles, .ofNat s.totalLinks, .ofNat s.filesWithLinks, .ofNat s.filesWithoutLinks,
      .ofFloat s.linksPerFile, .ofNat s.totalConcepts, .ofNat s.totalTags])

/-- The numbers in a value. -/
def ofJson? (j : Json) : Option Stats := do
  let count := Json.required? Json.count?
  match ← Json.fields? fieldNames j with
  | [files, links, linked, unlinked, average, concepts, tags] =>
    some { totalFiles := ← count files
           totalLinks := ← count links
           filesWithLinks := ← count linked
           filesWithoutLinks := ← count unlinked
           linksPerFile := ← Json.required? Json.float? average
           totalConcepts := ← count concepts
           totalTags := ← count tags }
  | _ => none

end Stats

namespace Snapshot

/-- The names of the parts of a snapshot. -/
def fieldNames : List String := ["files", "concept_index", "tag_index", "link_graph", "stats"]

/-- A snapshot as a value. -/
def toJson (s : Snapshot) : Json :=
  .ofFields (fieldNames.zip
    [Json.ofMap Note.toJson s.files, s.concepts.toJson, s.tags.toJson, s.links.toJson,
      s.stats.toJson])

/-- The snapshot in a value. -/
def ofJson? (j : Json) : Option Snapshot := do
  match ← Json.fields? fieldNames j with
  | [files, concepts, tags, links, stats] =>
    some { files := ← Json.required? (Json.map? Note.ofJson?) files
           concepts := ← Json.required? Index.ofJson? concepts
           tags := ← Json.required? Index.ofJson? tags
           links := ← Json.required? Index.ofJson? links
           stats := ← Json.required? Stats.ofJson? stats }
  | _ => none

end Snapshot

end NoteLinks
