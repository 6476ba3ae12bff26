/-
# What a second scan finds

After all that is suggested for a vault has been applied to it, a second scan finds the same
notes. Each has kept its title, its tags and its directory, all its headings and at most one
more, and none of the notes that were suggested to it is a candidate for it any more.
-/
import NoteLinks.Proofs.Vault.Regular
import NoteLinks.Proofs.Vault.Update

namespace NoteLinks

open Insertion (IsLineAnchor IsSectionHeading Pass Plan pass_make)
open Link (NoteNames)

/-- The heading of the section of related notes. -/
def sectionHeading : Heading := ⟨2, "Related Notes".toList⟩

theorem isSectionHeading_default :
    IsSectionHeading (Text.trim Insertion.defaultHeading) sectionHeading :=
  ⟨by decide, by decide, by decide, by decide⟩

theorem Snapshot.targetTitle_suggestionBetween {files : KeyMap Text Note} {target : Text}
    {own other : Note} (hother : files.find? target = some other)
    (htitle : Link.IsName other.title) :
    ((Snapshot.ofNotes files).suggestionBetween own target other).targetTitle = other.title := by
  have hfind : (Snapshot.ofNotes files).files.find? target = some other := hother
  show Ranking.titleOf (Snapshot.ofNotes files) target = other.title
  rw [Ranking.titleOf, hfind]
  simp only [htitle.trimmed]
  rw [if_neg (by simpa using htitle.ne_nil)]

namespace Vault

/-- The tree after all that is suggested for a vault has been applied to it. -/
def linked (t : Tree) (v : Vault) (excluded : List Text) (thresholds : Thresholds)
    (format : LinkFormat) (clock : Clock) : Tree :=
  (v.apply t { floor := .low, style := { format } } clock
    ((v.analyze t excluded).suggestions thresholds)).1

/-- What is known of a vault after all that is suggested for it has been applied to it. -/
abbrev rescan (t : Tree) (v : Vault) (excluded : List Text) (thresholds : Thresholds)
    (format : LinkFormat) (clock : Clock) : Snapshot :=
  v.analyze (v.linked t excluded thresholds format clock) excluded

variable {t : Tree} {v : Vault} {excluded : List Text} {thresholds : Thresholds}
  {format : LinkFormat} {clock : Clock} {key content : Text} {names : Place} {note : Note}

/-- Suggestions are only made to notes that are texts: for what is not, nothing speaks. -/
theorem exists_hasNote_of_mem_keys :
    ∀ key ∈ ((v.analyze t excluded).suggestions thresholds).keys,
      ∃ names content, keyOf names = key ∧ HasNote t v excluded names content := by
  intro key hmem
  rw [KeyMap.mem_keys_iff, Snapshot.suggestions, KeyMap.find?_filterMap] at hmem
  obtain ⟨_, hsome⟩ := Option.isSome_iff_exists.mp hmem
  obtain ⟨note, -, hfound⟩ := Option.bind_eq_some_iff.mp hsome
  rw [Option.ite_none_left_eq_some, Bool.not_eq_true, List.isEmpty_eq_false_iff] at hfound
  obtain ⟨x, hx⟩ := List.exists_mem_of_ne_nil _ hfound.1
  have hx : x ∈ (Snapshot.ofNotes (v.analyze t excluded).files).suggestionsFor thresholds key := hx
  obtain ⟨own, target, other, hown, -, -, hreasons, -⟩ := Snapshot.exists_of_mem_suggestionsFor hx
  obtain ⟨names, bytes, hnote, hkey, rfl⟩ := find?_analyze.mp hown
  obtain ⟨hplace, hfind⟩ := mem_notes_iff.mp hnote
  cases hdecode : Text.decode? bytes with
  | some content => exact ⟨names, content, hkey, hplace, bytes, hfind, hdecode⟩
  | none =>
      rw [noteOf, hdecode] at hreasons
      exact absurd (Candidate.reasons_empty other) hreasons

theorem accepted_low (style : Insertion.Style) (suggestions : List Suggestion) :
    accepted { floor := .low, style } suggestions = suggestions := accepted_of_low rfl suggestions

/-- The notes of the linked vault. -/
theorem hasNote_linked_iff :
    HasNote (v.linked t excluded thresholds format clock) v excluded names content ↔
      ∃ old, HasNote t v excluded names old ∧
        content = (Plan.make { format } old
          ((v.analyze t excluded).suggestionsFor thresholds (keyOf names))).content := by
  have hfor : (((v.analyze t excluded).suggestions thresholds).find? (keyOf names)).getD [] =
      (v.analyze t excluded).suggestionsFor thresholds (keyOf names) :=
    Snapshot.getD_find?_suggestions ..
  rw [linked, hasNote_apply_iff clock rfl rfl exists_hasNote_of_mem_keys]
  simp only [accepted_low]
  rw [hfor]

theorem isReadable_linked (thresholds : Thresholds) (format : LinkFormat) (clock : Clock)
    (hreadable : v.IsReadable t excluded) :
    v.IsReadable (v.linked t excluded thresholds format clock) excluded :=
  isReadable_apply clock rfl rfl exists_hasNote_of_mem_keys hreadable

/-- What a second scan finds of a note comes from a pass over the note. -/
theorem exists_pass (hreadable : v.IsReadable t excluded)
    (h : (v.rescan t excluded thresholds format clock).files.find? key = some note) :
    ∃ names old final links, keyOf names = key ∧ HasNote t v excluded names old ∧
      Pass { format } old ((v.analyze t excluded).suggestionsFor thresholds key) links final ∧
      note = Note.read key final := by
  obtain ⟨names, final, rfl, hnote, rfl⟩ :=
    exists_hasNote h (isReadable_linked thresholds format clock hreadable)
  obtain ⟨old, hold, rfl⟩ := hasNote_linked_iff.mp hnote
  exact ⟨names, old, _, _, rfl, hold, pass_make _ _ _, rfl⟩

/-- What a second scan finds of a note that was there. -/
theorem find?_rescan (hnote : HasNote t v excluded names content) :
    (v.rescan t excluded thresholds format clock).files.find? (keyOf names) =
      some (Note.read (keyOf names) (Plan.make { format } content
        ((v.analyze t excluded).suggestionsFor thresholds (keyOf names))).content) :=
  find?_analyze_of_hasNote (hasNote_linked_iff.mpr ⟨content, hnote, rfl⟩)

/-- A second scan finds as many notes as the first one. -/
theorem size_rescan (hreadable : v.IsReadable t excluded) :
    (v.rescan t excluded thresholds format clock).files.size =
      (v.analyze t excluded).files.size := by
  have hkeys (key : Text) : key ∈ (v.rescan t excluded thresholds format clock).files.keys ↔
      key ∈ (v.analyze t excluded).files.keys := by
    rw [KeyMap.mem_keys_iff, KeyMap.mem_keys_iff, Option.isSome_iff_exists,
      Option.isSome_iff_exists]
    constructor
    · rintro ⟨note, hfind⟩
      obtain ⟨names, old, final, links, rfl, hnote, -, -⟩ := exists_pass hreadable hfind
      exact ⟨_, find?_analyze_of_hasNote hnote⟩
    · rintro ⟨note, hfind⟩
      obtain ⟨names, old, rfl, hnote, -⟩ := exists_hasNote hfind hreadable
      exact ⟨_, find?_rescan hnote⟩
  have hperm := (List.perm_ext_iff_of_nodup (KeyMap.nodup_keys _) (KeyMap.nodup_keys _)).mpr hkeys
  have hlength := hperm.length_eq
  rwa [KeyMap.keys, KeyMap.keys, List.length_map, List.length_map] at hlength

/-- What speaks for a suggestion in a vault. -/
theorem exists_of_suggests {source target : Text}
    (h : (v.analyze t excluded).Suggests thresholds source target) :
    ∃ own other, (v.analyze t excluded).files.find? source = some own ∧
      (v.analyze t excluded).files.find? target = some other ∧
      Candidate.accepts source own.links target (some other.title) = true ∧
      Candidate.reasons own other ≠ [] ∧ Candidate.score own other ≥ thresholds.minScore := by
  have h : (Snapshot.ofNotes (v.analyze t excluded).files).Suggests thresholds source target := h
  exact Snapshot.exists_of_suggests h

/-! ## Regular vaults -/

section Regular

variable (h : v.IsRegular t excluded)
include h

/-- A suggestion has the title of its note, and anchors that can be looked for. -/
theorem IsRegular.suggestion {x : Suggestion}
    (hx : x ∈ (v.analyze t excluded).suggestionsFor thresholds key) :
    ∃ other, (v.analyze t excluded).files.find? x.target = some other ∧
      x.targetTitle = other.title ∧ ∀ anchor ∈ x.anchors, IsLineAnchor anchor := by
  have hx : x ∈ (Snapshot.ofNotes (v.analyze t excluded).files).suggestionsFor thresholds key := hx
  obtain ⟨own, target, other, hown, hother, -, -, -, rfl⟩ :=
    Snapshot.exists_of_mem_suggestionsFor hx
  refine ⟨other, hother,
    Snapshot.targetTitle_suggestionBetween hother (h.noteNames hother).title, ?_⟩
  intro anchor hanchor
  rw [Suggestion.anchors, Snapshot.reasons_suggestionBetween] at hanchor
  obtain ⟨reason, hreason, hsome⟩ := List.mem_filterMap.mp hanchor
  exact Candidate.isLineAnchor_of_mem_reasons (h.hasLineAnchors hown) hreason hsome

theorem IsRegular.noteNames_suggestion :
    ∀ x ∈ (v.analyze t excluded).suggestionsFor thresholds key,
      NoteNames x.target x.targetTitle := by
  intro x hx
  obtain ⟨other, hother, htitle, -⟩ := h.suggestion hx
  rw [htitle]
  exact h.noteNames hother

/-- A note is the same in a second scan, but for its links, its concepts and one heading. -/
theorem IsRegular.exists_before {own' : Note}
    (hfind : (v.rescan t excluded thresholds format clock).files.find? key = some own') :
    ∃ own, (v.analyze t excluded).files.find? key = some own ∧
      own'.title = own.title ∧ own'.tags = own.tags ∧ own'.directory = own.directory ∧
      (own'.headings = own.headings ∨ own'.headings = own.headings ++ [sectionHeading]) := by
  obtain ⟨names, old, final, links, rfl, hnote, hpass, rfl⟩ := exists_pass h.isReadable hfind
  have hclear : ∀ x ∈ (v.analyze t excluded).suggestionsFor thresholds (keyOf names),
      ∀ c ∈ ['#', '\n'], c ∉ x.target ∧ c ∉ x.targetTitle := by
    intro x hx c hc
    have hnames := h.noteNames_suggestion x hx
    have hall : ['#', '\n'] ⊆ ['[', ']', '(', ')', '#', '|', '\n'] := by simp
    exact ⟨hnames.path.not_mem (hall hc), hnames.title.not_mem (hall hc)⟩
  have hanchors : ∀ x ∈ (v.analyze t excluded).suggestionsFor thresholds (keyOf names),
      ∀ anchor ∈ x.anchors, IsLineAnchor anchor := by
    intro x hx
    obtain ⟨_, -, -, hanchors⟩ := h.suggestion hx
    exact hanchors
  obtain ⟨htitle, htags, hdirectory, hheadings⟩ :=
    hpass.note_eq isSectionHeading_default (by decide) hclear hanchors (keyOf names)
  exact ⟨_, find?_analyze_of_hasNote hnote, htitle, htags, hdirectory,
    hheadings.imp_right And.right⟩

variable (hunlinked : v.IsUnlinked t excluded format)
include hunlinked

theorem IsUnlinked.links_eq_nil (hfind : (v.analyze t excluded).files.find? key = some note) :
    note.links = [] := by
  obtain ⟨names, content, rfl, hnote, rfl⟩ := exists_hasNote hfind h.isReadable
  have hwoven : Insertion.Woven format [] (FrontMatter.body content) :=
    .bare (FrontMatter.not_mem_body (hunlinked.bracket_not_mem hnote))
  exact hwoven.targets_eq (by simp)

/-- What was suggested to a note is linked when it is scanned again. -/
theorem IsUnlinked.accepts_eq_false {own' : Note}
    (hfind : (v.rescan t excluded thresholds format clock).files.find? key = some own') :
    ∀ x ∈ (v.analyze t excluded).suggestionsFor thresholds key,
      Candidate.accepts key own'.links x.target (some x.targetTitle) = false := by
  obtain ⟨names, old, final, links, rfl, hnote, hpass, rfl⟩ := exists_pass h.isReadable hfind
  have hopen : '[' ∉ Insertion.defaultHeading := by decide
  refine hpass.accepts_eq_false (hunlinked.bracket_not_mem hnote) hopen
    isSectionHeading_default.single isSectionHeading_default.delimiter_not_prefix
    h.noteNames_suggestion ?_
  intro hformat x hx x' hx'
  obtain ⟨other, hother, -⟩ := h.suggestion hx
  obtain ⟨other', hother', -⟩ := h.suggestion hx'
  exact hunlinked.spelled hformat _ (KeyMap.find?_eq_some_iff.mp hother) _
    (KeyMap.find?_eq_some_iff.mp hother')

end Regular

end Vault

end NoteLinks
