/-
# Snapshots and their values

A snapshot is read from the value that was made of it, record by record. Two things are needed of
the snapshot. Its counts and levels must have as many bits as the reader gives them. And since
the reader of floats is not exact, the average comes back as the float that is read from its
numeral, whichever that is.
-/
import NoteLinks.Proofs.Decimal.Shortest
import NoteLinks.Proofs.Json.Decode

namespace NoteLinks

namespace Json

/-- What a data file has for a float is proper, also where it is no number. -/
theorem isProper_ofFloat (x : Float) : (ofFloat x).IsProper := by
  rw [ofFloat]
  split
  next h => exact .number (Float.isProper_numeral? h)
  next => exact .null

theorem isProper_textsToJson (ts : List Text) : (Note.textsToJson ts).IsProper :=
  .arrayMap fun t _ => .ofText t

theorem list?_textsToJson (ts : List Text) : list? text? (Note.textsToJson ts) = some ts :=
  list?_array fun _ _ => rfl

end Json

/-! ## Notes -/

namespace Heading

theorem isProper_toJson (h : Heading) : h.toJson.IsProper :=
  .ofFields (by simp [Json.IsProper.ofNat, Json.IsProper.ofText])

theorem ofJson?_toJson {h : Heading} (hlevel : h.level < 256) : ofJson? h.toJson = some h := by
  rw [ofJson?, toJson, Json.fields?_ofFields]
  · simp [Json.required?, Json.natBelow?_ofNat hlevel]
  · rfl
  · decide

end Heading

namespace Note

/-- A record whose numbers have as many bits as the reader gives them. -/
structure Fits (n : Note) : Prop where
  level : ∀ h ∈ n.headings, h.level < 256
  wordCount : n.wordCount < 0x10000000000000000

theorem isProper_toJson (n : Note) : n.toJson.IsProper := by
  refine .ofFields ?_
  have hheadings : (Json.array (n.headings.map Heading.toJson)).IsProper :=
    .arrayMap fun h _ => h.isProper_toJson
  simp [Json.IsProper.ofNat, Json.IsProper.ofText, Json.isProper_textsToJson, hheadings]

theorem ofJson?_toJson {n : Note} (hn : n.Fits) : ofJson? n.toJson = some n := by
  have hheadings : Json.list? Heading.ofJson? (.array (n.headings.map Heading.toJson)) =
      some n.headings := Json.list?_array fun h hh => Heading.ofJson?_toJson (hn.level h hh)
  rw [ofJson?, toJson, Json.fields?_ofFields]
  · simp [Json.required?, Json.optional?, Json.list?_textsToJson, hheadings, Json.count?,
      Json.natBelow?_ofNat hn.wordCount]
  · rfl
  · decide

end Note

/-! ## Indexes -/

namespace Index

theorem isProper_toJson (index : Index) : index.toJson.IsProper :=
  .ofMap fun _ _ => Json.isProper_textsToJson _

theorem ofJson?_toJson (index : Index) : ofJson? index.toJson = some index :=
  Json.map?_ofMap fun _ _ => by
    rw [Json.list?_textsToJson, Option.map_some, KeySet.ofList_toList]

end Index

/-! ## Numbers about a vault -/

namespace Stats

/-- Numbers that have as many bits as the reader gives them. -/
structure Fits (s : Stats) : Prop where
  totalFiles : s.totalFiles < 0x10000000000000000
  totalLinks : s.totalLinks < 0x10000000000000000
  filesWithLinks : s.filesWithLinks < 0x10000000000000000
  filesWithoutLinks : s.filesWithoutLinks < 0x10000000000000000
  totalConcepts : s.totalConcepts < 0x10000000000000000
  totalTags : s.totalTags < 0x10000000000000000

theorem isProper_toJson (s : Stats) : s.toJson.IsProper :=
  .ofFields (by simp [fieldNames, Json.IsProper.ofNat, Json.isProper_ofFloat])

theorem ofJson?_toJson {s : Stats} (hs : s.Fits) {average : Float}
    (haverage : Json.float? (.ofFloat s.linksPerFile) = some average) :
    ofJson? s.toJson = some { s with linksPerFile := average } := by
  rw [ofJson?, toJson, Json.fields?_ofFields]
  · simp [fieldNames, Json.required?, Json.count?, haverage, Json.natBelow?_ofNat hs.totalFiles,
      Json.natBelow?_ofNat hs.totalLinks, Json.natBelow?_ofNat hs.filesWithLinks,
      Json.natBelow?_ofNat hs.filesWithoutLinks, Json.natBelow?_ofNat hs.totalConcepts,
      Json.natBelow?_ofNat hs.totalTags]
  · rfl
  · decide

end Stats

/-! ## Snapshots -/

namespace Snapshot

/-- A snapshot whose numbers have as many bits as the reader gives them. -/
structure Fits (s : Snapshot) : Prop where
  files : ∀ e ∈ s.files.entries, e.2.Fits
  stats : s.stats.Fits

theorem isProper_toJson (s : Snapshot) : s.toJson.IsProper := by
  have hfiles : (Json.ofMap Note.toJson s.files).IsProper := .ofMap fun e _ => e.2.isProper_toJson
  exact .ofFields (by simp [fieldNames, hfiles, Index.isProper_toJson, Stats.isProper_toJson])

/-- A snapshot is read from its value, but for the average. -/
theorem ofJson?_toJson {s : Snapshot} (hs : s.Fits) {average : Float}
    (haverage : Json.float? (.ofFloat s.stats.linksPerFile) = some average) :
    ofJson? s.toJson = some { s with stats := { s.stats with linksPerFile := average } } := by
  have hfiles : Json.map? Note.ofJson? (Json.ofMap Note.toJson s.files) = some s.files :=
    Json.map?_ofMap fun e he => Note.ofJson?_toJson (hs.files e he)
  rw [ofJson?, toJson, Json.fields?_ofFields]
  · simp [fieldNames, Json.required?, hfiles, Index.ofJson?_toJson,
      Stats.ofJson?_toJson hs.stats haverage]
  · rfl
  · decide

end Snapshot

end NoteLinks
