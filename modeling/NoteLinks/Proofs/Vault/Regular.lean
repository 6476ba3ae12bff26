/-
# Vaults whose links are read back

A vault is regular if the names of its notes come through a link as they are, and if what
speaks for a link can be looked for in a note: its anchors keep to a line and are not made of
hashes alone. It is unlinked if it has no brackets that might make links of their own, and no
two paths that pass for each other in a markdown link.
-/
import NoteLinks.Proofs.Insertion.Identity
import NoteLinks.Proofs.Insertion.Linked
import NoteLinks.Proofs.Note.Concept
import NoteLinks.Proofs.Suggestion.Ranking
import NoteLinks.Proofs.Vault.Notes

namespace NoteLinks

open Insertion (IsLineAnchor Spells)
open Link (NoteNames)

/-! ## Anchors -/

namespace Insertion

theorem isLineAnchor_of_mem {anchor : Text} {c : Char} (hline : '\n' ∉ anchor) (hmem : c ∈ anchor)
    (hc : c ≠ '#') (hblank : Text.isBlank c = false) : IsLineAnchor anchor :=
  ⟨Text.not_mem_trim hline, c, Text.mem_trim_of_mem hmem hblank, hc⟩

/-- Behind a hash or not, what is left of a text without hashes is looked for on a line. -/
theorem isLineAnchor_append_trim {start t : Text} (hstart : '\n' ∉ start) (hne : Text.trim t ≠ [])
    (hclear : '#' ∉ t) (hline : '\n' ∉ t) : IsLineAnchor (start ++ Text.trim t) := by
  obtain ⟨c, hlast⟩ := Option.ne_none_iff_exists'.mp (mt List.getLast?_eq_none_iff.mp hne)
  have hmem := List.mem_of_getLast? hlast
  refine isLineAnchor_of_mem ?_ (List.mem_append_right start hmem) ?_
    (Text.not_isBlank_of_getLast?_trimEnd hlast)
  · rw [List.mem_append, not_or]
    exact ⟨hstart, Text.not_mem_trim hline⟩
  · rintro rfl
    exact Text.not_mem_trim hclear hmem

end Insertion

/-- A record from which anchors are made that can be looked for on a line. -/
structure Note.HasLineAnchors (note : Note) : Prop where
  concepts : ∀ concept ∈ note.concepts, '\n' ∉ concept ∧
    ∃ c ∈ concept, c ≠ '#' ∧ Text.isBlank c = false
  tags : ∀ tag ∈ note.tags, '#' ∉ tag ∧ '\n' ∉ tag
  directory : '#' ∉ note.directory ∧ '\n' ∉ note.directory

/-- Only three kinds of reason have an anchor. -/
theorem Reason.anchor?_eq_some {reason : Reason} {anchor : Text}
    (h : reason.anchor? = some anchor) :
    Text.trim reason.detail ≠ [] ∧
      (reason.kind = .sharedTag ∧ anchor = ['#'] ++ Text.trim reason.detail ∨
        (reason.kind = .sharedConcept ∨ reason.kind = .sameDirectory) ∧
          anchor = [] ++ Text.trim reason.detail) := by
  simp only [anchor?] at h
  split at h
  next => cases h
  next hempty =>
    refine ⟨by simpa using hempty, ?_⟩
    split at h
    next hkind => exact .inr ⟨.inl hkind, (Option.some.inj h).symm⟩
    next hkind => exact .inl ⟨hkind, (Option.some.inj h).symm⟩
    next hkind =>
      split at h
      next => cases h
      next => exact .inr ⟨.inr hkind, (Option.some.inj h).symm⟩
    next => cases h
    next => cases h

namespace Candidate

/-- The details of the reasons are the concepts and the tags of the note, or its directory. -/
theorem detail_mem_of_mem_reasons {own other : Note} {reason : Reason}
    (h : reason ∈ (reasons own other).map Prod.fst) :
    (reason.kind = .sharedConcept → reason.detail ∈ own.concepts) ∧
      (reason.kind = .sharedTag → reason.detail ∈ own.tags) ∧
      (reason.kind = .sameDirectory → reason.detail = own.directory) := by
  obtain ⟨⟨reason, weight⟩, hmem, rfl⟩ := List.mem_map.mp h
  simp only [reasons, List.mem_append, List.mem_map, Option.mem_toList] at hmem
  rcases hmem with ((⟨concept, hconcept, heq⟩ | ⟨tag, htag, heq⟩) | hdirectory) | htitle
  · cases heq
    refine ⟨fun _ => (List.mem_filter.mp hconcept).1, ?_, ?_⟩ <;> intro hkind <;> cases hkind
  · cases heq
    refine ⟨?_, fun _ => (List.mem_filter.mp htag).1, ?_⟩ <;> intro hkind <;> cases hkind
  · unfold directoryReason? at hdirectory
    split at hdirectory
    next => cases hdirectory
    next =>
      split at hdirectory
      next =>
        cases hdirectory
        refine ⟨?_, ?_, fun _ => rfl⟩ <;> intro hkind <;> cases hkind
      next =>
        split at hdirectory
        next =>
          cases hdirectory
          refine ⟨?_, ?_, ?_⟩ <;> intro hkind <;> cases hkind
        next => cases hdirectory
  · simp only [titleReason?] at htitle
    split at htitle
    next => cases htitle
    next =>
      cases htitle
      refine ⟨?_, ?_, ?_⟩ <;> intro hkind <;> cases hkind

theorem isLineAnchor_of_mem_reasons {own other : Note} (h : own.HasLineAnchors) {reason : Reason}
    (hreason : reason ∈ (reasons own other).map Prod.fst) {anchor : Text}
    (hanchor : reason.anchor? = some anchor) : IsLineAnchor anchor := by
  obtain ⟨hconcept, htag, hdirectory⟩ := detail_mem_of_mem_reasons hreason
  obtain ⟨hne, ⟨hkind, rfl⟩ | ⟨hkind | hkind, rfl⟩⟩ := Reason.anchor?_eq_some hanchor
  · obtain ⟨hclear, hline⟩ := h.tags _ (htag hkind)
    exact Insertion.isLineAnchor_append_trim (by decide) hne hclear hline
  · obtain ⟨hline, c, hmem, hc, hblank⟩ := h.concepts _ (hconcept hkind)
    exact Insertion.isLineAnchor_of_mem (Text.not_mem_trim hline)
      (Text.mem_trim_of_mem hmem hblank) hc hblank
  · have hdetail := hdirectory hkind
    refine Insertion.isLineAnchor_append_trim List.not_mem_nil hne ?_ ?_
    · rw [hdetail]
      exact h.directory.1
    · rw [hdetail]
      exact h.directory.2

end Candidate

theorem Path.not_mem_parent {path : Text} {c : Char} (hc : c ≠ '.') (h : c ∉ path) :
    c ∉ parent path := by
  have hroot : c ∉ rootDirectory := by simpa [rootDirectory] using hc
  rw [parent]
  split
  next dir name hcut =>
    rw [Text.eq_append_of_cutLast? hcut, List.mem_append, not_or] at h
    split
    · exact hroot
    · exact h.1
  next => exact hroot

/-! ## Regular vaults -/

namespace Vault

/-- A vault whose notes can be linked so that they stay what they are. -/
structure IsRegular (t : Tree) (v : Vault) (excluded : List Text) : Prop where
  names : ∀ e ∈ (v.analyze t excluded).files.entries, NoteNames e.1 e.2.title
  tags : ∀ e ∈ (v.analyze t excluded).files.entries,
    ∀ tag ∈ e.2.tags, '#' ∉ tag ∧ '\n' ∉ tag
  /-- No concept is made of hashes and spaces alone. -/
  concepts : ∀ e ∈ (v.analyze t excluded).files.entries,
    ∀ concept ∈ e.2.concepts, ∃ c ∈ concept, c ∉ ['#', ' ']

/-- A vault without links, in which a link to one note is not taken for one to another. -/
structure IsUnlinked (t : Tree) (v : Vault) (excluded : List Text) (format : LinkFormat) :
    Prop where
  brackets : ∀ e ∈ v.notes t excluded, ∀ content ∈ Text.decode? e.2, '[' ∉ content
  /-- No path can be read as another one in a markdown link. -/
  spelled : format = .markdown → ∀ e ∈ (v.analyze t excluded).files.entries,
    ∀ e' ∈ (v.analyze t excluded).files.entries, Spells e.1 e'.1 → e.1 = e'.1

instance (t : Tree) (v : Vault) (excluded : List Text) : Decidable (v.IsRegular t excluded) :=
  have : ∀ concept : Text, Decidable (∃ c ∈ concept, c ∉ ['#', ' ']) := fun concept =>
    List.decidableBEx (· ∉ ['#', ' ']) concept
  decidable_of_iff
    ((∀ e ∈ (v.analyze t excluded).files.entries, NoteNames e.1 e.2.title) ∧
      (∀ e ∈ (v.analyze t excluded).files.entries,
        ∀ tag ∈ e.2.tags, '#' ∉ tag ∧ '\n' ∉ tag) ∧
      ∀ e ∈ (v.analyze t excluded).files.entries,
        ∀ concept ∈ e.2.concepts, ∃ c ∈ concept, c ∉ ['#', ' '])
    ⟨fun ⟨hnames, htags, hconcepts⟩ => ⟨hnames, htags, hconcepts⟩,
      fun ⟨hnames, htags, hconcepts⟩ => ⟨hnames, htags, hconcepts⟩⟩

instance (t : Tree) (v : Vault) (excluded : List Text) (format : LinkFormat) :
    Decidable (v.IsUnlinked t excluded format) :=
  decidable_of_iff
    ((∀ e ∈ v.notes t excluded, ∀ content ∈ Text.decode? e.2, '[' ∉ content) ∧
      (format = .markdown → ∀ e ∈ (v.analyze t excluded).files.entries,
        ∀ e' ∈ (v.analyze t excluded).files.entries, Spells e.1 e'.1 → e.1 = e'.1))
    ⟨fun ⟨hbrackets, hspelled⟩ => ⟨hbrackets, hspelled⟩,
      fun ⟨hbrackets, hspelled⟩ => ⟨hbrackets, hspelled⟩⟩

variable {t : Tree} {v : Vault} {excluded : List Text} {format : LinkFormat} {key : Text}
  {note : Note}

namespace IsRegular

variable (h : v.IsRegular t excluded)
include h

theorem noteNames (hfind : (v.analyze t excluded).files.find? key = some note) :
    NoteNames key note.title :=
  h.names _ (KeyMap.find?_eq_some_iff.mp hfind)

theorem isReadable : v.IsReadable t excluded := by
  intro names bytes hmem
  have hfind := find?_analyze.mpr ⟨names, bytes, hmem, rfl, rfl⟩
  have htitle := (h.noteNames hfind).title.ne_nil
  rw [noteOf] at htitle
  cases hdecode : Text.decode? bytes with
  | none =>
      rw [hdecode] at htitle
      exact absurd rfl htitle
  | some content => rfl

theorem hasLineAnchors (hfind : (v.analyze t excluded).files.find? key = some note) :
    note.HasLineAnchors := by
  have hentry := KeyMap.find?_eq_some_iff.mp hfind
  have hpath := (h.noteNames hfind).path
  obtain ⟨names, content, rfl, -, rfl⟩ := exists_hasNote hfind h.isReadable
  refine ⟨?_, h.tags _ hentry, ?_⟩
  · intro concept hconcept
    have hblank := Concept.isBlank_eq_false_of_mem hconcept
    refine ⟨fun hline => ?_, ?_⟩
    · rcases hblank _ hline with heq | heq <;> cases heq
    · obtain ⟨c, hmem, hc⟩ := h.concepts _ hentry concept hconcept
      simp only [List.mem_cons, List.not_mem_nil, not_or] at hc
      exact ⟨c, hmem, hc.1, (hblank c hmem).resolve_left hc.2.1⟩
  · exact ⟨Path.not_mem_parent (by decide) (hpath.not_mem (by decide)),
      Path.not_mem_parent (by decide) (hpath.not_mem (by decide))⟩

end IsRegular

theorem IsUnlinked.bracket_not_mem (h : v.IsUnlinked t excluded format) {names : Place}
    {content : Text} (hnote : HasNote t v excluded names content) : '[' ∉ content := by
  obtain ⟨hplace, bytes, hfind, hdecode⟩ := hnote
  exact h.brackets (names, bytes) (mem_notes_iff.mpr ⟨hplace, hfind⟩) content hdecode

end Vault

end NoteLinks
