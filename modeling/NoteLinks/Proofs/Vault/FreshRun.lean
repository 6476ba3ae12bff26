/-
# A fresh run

A run scans a vault, suggests links and applies all of them; a fresh run starts from what the
first one has left. What was suggested is linked by then. So a fresh run suggests something
only if something else speaks for it than before, and titles, tags and directories are the
same. What may be new are concepts.

In a vault without stars and backquotes there is just one such concept. The heading of the
section of related notes is read back like any other heading, and so the notes that the first
run has given this section have a concept in common, whatever they are about.
-/
import NoteLinks.Proofs.Vault.Rescan

namespace NoteLinks

open Candidate (commonConcepts)
open Insertion (Plan)

/-- The concepts of a note that another note has too. -/
def Snapshot.sharedConcepts (s : Snapshot) (source target : Text) : List Text :=
  match s.files.find? source, s.files.find? target with
  | some own, some other => commonConcepts own other
  | _, _ => []

theorem Snapshot.sharedConcepts_eq {s : Snapshot} {source target : Text} {own other : Note}
    (hown : s.files.find? source = some own) (hother : s.files.find? target = some other) :
    s.sharedConcepts source target = commonConcepts own other := by
  rw [sharedConcepts, hown, hother]

/-- A note is linked to another one, or is that very note. -/
def Snapshot.Links (s : Snapshot) (source target : Text) : Prop :=
  ∃ own other, s.files.find? source = some own ∧ s.files.find? target = some other ∧
    Candidate.accepts source own.links target (some other.title) = false

/-- The concept that the heading of the section of related notes makes. -/
def sectionConcept : Text := "Related Notes".toList

theorem clean_sectionHeading : Concept.clean sectionHeading.text = sectionConcept := by decide

/-- In a note without stars and backquotes the concepts come from the headings. -/
theorem Note.mem_concepts_iff (path concept : Text) {content : Text}
    (h : '*' ∉ content ∧ '`' ∉ content) :
    concept ∈ (Note.read path content).concepts ↔
      ∃ heading ∈ (Note.read path content).headings,
        Concept.clean heading.text = concept ∧ Concept.minLength ≤ concept.length :=
  Concept.mem_all_iff (FrontMatter.not_mem_body h.1) (FrontMatter.not_mem_body h.2)

namespace Vault

/-- A vault without stars and backquotes, in which there are no phrases but headings. -/
structure IsUnmarked (t : Tree) (v : Vault) (excluded : List Text) : Prop where
  notes : ∀ e ∈ v.notes t excluded, ∀ content ∈ Text.decode? e.2,
    '*' ∉ content ∧ '`' ∉ content
  names : ∀ e ∈ (v.analyze t excluded).files.entries,
    ('*' ∉ e.1 ∧ '*' ∉ e.2.title) ∧ '`' ∉ e.1 ∧ '`' ∉ e.2.title

instance (t : Tree) (v : Vault) (excluded : List Text) : Decidable (v.IsUnmarked t excluded) :=
  decidable_of_iff
    ((∀ e ∈ v.notes t excluded, ∀ content ∈ Text.decode? e.2, '*' ∉ content ∧ '`' ∉ content) ∧
      ∀ e ∈ (v.analyze t excluded).files.entries,
        ('*' ∉ e.1 ∧ '*' ∉ e.2.title) ∧ '`' ∉ e.1 ∧ '`' ∉ e.2.title)
    ⟨fun ⟨hnotes, hnames⟩ => ⟨hnotes, hnames⟩, fun ⟨hnotes, hnames⟩ => ⟨hnotes, hnames⟩⟩

variable {t : Tree} {v : Vault} {excluded : List Text} {thresholds : Thresholds}
  {format : LinkFormat} {clock : Clock} {key source target : Text}

theorem IsUnmarked.of_hasNote (h : v.IsUnmarked t excluded) {names : Place} {content : Text}
    (hnote : HasNote t v excluded names content) : '*' ∉ content ∧ '`' ∉ content := by
  obtain ⟨hplace, bytes, hfind, hdecode⟩ := hnote
  exact h.notes (names, bytes) (mem_notes_iff.mpr ⟨hplace, hfind⟩) content hdecode

/-- The concepts of a note are listed once each. -/
theorem nodup_concepts (hreadable : v.IsReadable t excluded) {note : Note}
    (hfind : (v.analyze t excluded).files.find? key = some note) : note.concepts.Nodup := by
  obtain ⟨names, content, rfl, -, rfl⟩ := exists_hasNote hfind hreadable
  exact KeySet.nodup_toList _

section Regular

variable (h : v.IsRegular t excluded)
include h

/-- What a fresh run suggests has been suggested or was linked before, or the notes have come
to share more or fewer concepts. -/
theorem IsRegular.suggests_cases
    (hmax : (v.analyze t excluded).files.size ≤ thresholds.maxLinks)
    (hsuggests :
      (v.rescan t excluded thresholds format clock).Suggests thresholds source target) :
    ((v.rescan t excluded thresholds format clock).sharedConcepts source target).length ≠
        ((v.analyze t excluded).sharedConcepts source target).length ∨
      (v.analyze t excluded).Suggests thresholds source target ∨
      (v.analyze t excluded).Links source target := by
  obtain ⟨own', other', hown', hother', -, hne', hscore'⟩ := exists_of_suggests hsuggests
  obtain ⟨own, hown, htitle, htags, hdirectory, -⟩ := h.exists_before hown'
  obtain ⟨other, hother, htitle', htags', hdirectory', -⟩ := h.exists_before hother'
  rw [Snapshot.sharedConcepts_eq hown' hother', Snapshot.sharedConcepts_eq hown hother,
    or_iff_not_imp_left, not_ne_iff]
  intro hlength
  -- The same speaks for the link as before.
  have hweights := Candidate.map_snd_reasons_congr hlength ⟨htags, htags'⟩
    ⟨hdirectory, hdirectory'⟩ ⟨htitle, htitle'⟩
  have hscore : Candidate.score own' other' = Candidate.score own other := by
    rw [Candidate.score, Candidate.score, hweights]
  have hne : Candidate.reasons own other ≠ [] := by
    intro hnil
    rw [hnil] at hweights
    exact hne' (List.map_eq_nil_iff.mp hweights)
  cases haccepts : Candidate.accepts source own.links target (some other.title) with
  | true =>
      exact .inl ⟨_, Snapshot.mem_suggestionsFor hmax hown hother haccepts hne (hscore ▸ hscore'),
        rfl⟩
  | false => exact .inr ⟨own, other, hown, hother, haccepts⟩

/-- In an unlinked vault what a fresh run suggests has come to share more or fewer concepts. -/
theorem IsUnlinked.length_sharedConcepts_ne (hunlinked : v.IsUnlinked t excluded format)
    (hmax : (v.analyze t excluded).files.size ≤ thresholds.maxLinks)
    (hsuggests :
      (v.rescan t excluded thresholds format clock).Suggests thresholds source target) :
    ((v.rescan t excluded thresholds format clock).sharedConcepts source target).length ≠
      ((v.analyze t excluded).sharedConcepts source target).length := by
  obtain ⟨own', other', hown', hother', haccepts', -⟩ := exists_of_suggests hsuggests
  obtain ⟨other₂, hother₂, htitle', -⟩ := h.exists_before hother'
  rcases h.suggests_cases hmax hsuggests with
    hlength | ⟨x, hx, rfl⟩ | ⟨own, other, hown, hother, hlinked⟩
  · exact hlength
  · obtain ⟨other, hother, htitle, -⟩ := h.suggestion hx
    obtain rfl : other = other₂ := Option.some.inj (hother.symm.trans hother₂)
    have hnone := hunlinked.accepts_eq_false h hown' x hx
    rw [htitle, ← htitle', haccepts'] at hnone
    cases hnone
  · exfalso
    simp only [Candidate.accepts, Bool.and_eq_true] at haccepts'
    simp [Candidate.accepts, hunlinked.links_eq_nil h hown,
      of_decide_eq_true haccepts'.1] at hlinked

/-- In a vault without markup the first run adds one concept to a note at most. -/
theorem IsUnmarked.concepts_subset (hunmarked : v.IsUnmarked t excluded) {own own' : Note}
    (hown : (v.analyze t excluded).files.find? key = some own)
    (hown' : (v.rescan t excluded thresholds format clock).files.find? key = some own') :
    own.concepts ⊆ own'.concepts ∧ own'.concepts ⊆ sectionConcept :: own.concepts := by
  obtain ⟨own₂, hown₂, -, -, -, hheadings⟩ := h.exists_before hown'
  obtain rfl : own = own₂ := Option.some.inj (hown.symm.trans hown₂)
  obtain ⟨names, old, final, links, rfl, hnote, hpass, rfl⟩ := exists_pass h.isReadable hown'
  obtain rfl : own = Note.read (keyOf names) old :=
    Option.some.inj (hown.symm.trans (find?_analyze_of_hasNote hnote))
  -- The first run has put no markup into the note either.
  have hnames : ∀ x ∈ (v.analyze t excluded).suggestionsFor thresholds (keyOf names),
      ('*' ∉ x.target ∧ '*' ∉ x.targetTitle) ∧ '`' ∉ x.target ∧ '`' ∉ x.targetTitle := by
    intro x hx
    obtain ⟨other, hother, htitle, -⟩ := h.suggestion hx
    rw [htitle]
    exact hunmarked.names _ (KeyMap.find?_eq_some_iff.mp hother)
  have hstar : '*' ∉ final :=
    hpass.not_mem (by decide) (show '*' ∉ Insertion.defaultHeading by decide)
      (hunmarked.of_hasNote hnote).1 fun x hx => (hnames x hx).1
  have hquote : '`' ∉ final :=
    hpass.not_mem (by decide) (show '`' ∉ Insertion.defaultHeading by decide)
      (hunmarked.of_hasNote hnote).2 fun x hx => (hnames x hx).2
  have hbefore (concept : Text) :=
    Note.mem_concepts_iff (keyOf names) concept (hunmarked.of_hasNote hnote)
  have hafter (concept : Text) :=
    Note.mem_concepts_iff (keyOf names) concept ⟨hstar, hquote⟩
  constructor
  · intro concept hmem
    obtain ⟨heading, hheading, hclean⟩ := (hbefore concept).mp hmem
    refine (hafter concept).mpr ⟨heading, ?_, hclean⟩
    rcases hheadings with hsame | hmore
    · rwa [hsame]
    · rw [hmore]
      exact List.mem_append_left _ hheading
  · intro concept hmem
    obtain ⟨heading, hheading, hclean⟩ := (hafter concept).mp hmem
    rcases hheadings with hsame | hmore
    · rw [hsame] at hheading
      exact List.mem_cons_of_mem _ ((hbefore concept).mpr ⟨heading, hheading, hclean⟩)
    · rw [hmore, List.mem_append, List.mem_singleton] at hheading
      rcases hheading with hheading | rfl
      · exact List.mem_cons_of_mem _ ((hbefore concept).mpr ⟨heading, hheading, hclean⟩)
      · rw [← hclean.1, clean_sectionHeading]
        exact List.mem_cons_self

/-- In a vault without markup a fresh run suggests nothing but notes that have come to share
the heading of the section of related notes. -/
theorem IsUnmarked.shares_sectionConcept (hunmarked : v.IsUnmarked t excluded)
    (hunlinked : v.IsUnlinked t excluded format)
    (hmax : (v.analyze t excluded).files.size ≤ thresholds.maxLinks)
    (hsuggests :
      (v.rescan t excluded thresholds format clock).Suggests thresholds source target) :
    (∃ concept ∈ (v.rescan t excluded thresholds format clock).sharedConcepts source target,
        Text.lower concept = Text.lower sectionConcept) ∧
      sectionConcept ∉ (v.analyze t excluded).sharedConcepts source target := by
  have hlength := hunlinked.length_sharedConcepts_ne h hmax hsuggests
  obtain ⟨own', other', hown', hother', -⟩ := exists_of_suggests hsuggests
  obtain ⟨own, hown, -⟩ := h.exists_before hown'
  obtain ⟨other, hother, -⟩ := h.exists_before hother'
  rw [Snapshot.sharedConcepts_eq hown' hother', Snapshot.sharedConcepts_eq hown hother] at hlength ⊢
  exact Candidate.shares_of_length_ne (nodup_concepts h.isReadable hown)
    (nodup_concepts (isReadable_linked thresholds format clock h.isReadable) hown')
    (hunmarked.concepts_subset h hown hown') (hunmarked.concepts_subset h hother hother') hlength

end Regular

/-- A fresh run suggests a note to another one only if the first run has suggested it already,
if it was linked before, or if the first run has changed the number of concepts that the two
share. In an unlinked vault it is the number of concepts, and if that has not changed anywhere
nothing is suggested. In a vault without stars and backquotes the two then share the heading
of the section of related notes, which they did not share before. -/
theorem fresh_run_suggests_by_new_concepts (t : Tree) (v : Vault) (excluded : List Text)
    (thresholds : Thresholds) (format : LinkFormat) (clock : Clock)
    (hregular : v.IsRegular t excluded)
    (hmax : (v.analyze t excluded).files.size ≤ thresholds.maxLinks) :
    (∀ source target,
        (v.rescan t excluded thresholds format clock).Suggests thresholds source target →
          ((v.rescan t excluded thresholds format clock).sharedConcepts source target).length ≠
              ((v.analyze t excluded).sharedConcepts source target).length ∨
            (v.analyze t excluded).Suggests thresholds source target ∨
            (v.analyze t excluded).Links source target) ∧
      (v.IsUnlinked t excluded format →
        (∀ source target,
          (v.rescan t excluded thresholds format clock).Suggests thresholds source target →
            ((v.rescan t excluded thresholds format clock).sharedConcepts source target).length ≠
              ((v.analyze t excluded).sharedConcepts source target).length) ∧
        ((∀ source target,
            ((v.rescan t excluded thresholds format clock).sharedConcepts source target).length =
              ((v.analyze t excluded).sharedConcepts source target).length) →
          ((v.rescan t excluded thresholds format clock).suggestions thresholds).entries = []) ∧
        (v.IsUnmarked t excluded → ∀ source target,
          (v.rescan t excluded thresholds format clock).Suggests thresholds source target →
            (∃ concept ∈ (v.rescan t excluded thresholds format clock).sharedConcepts source target,
                Text.lower concept = Text.lower sectionConcept) ∧
              sectionConcept ∉ (v.analyze t excluded).sharedConcepts source target)) := by
  refine ⟨fun source target => hregular.suggests_cases hmax, fun hunlinked => ⟨?_, ?_, ?_⟩⟩
  · exact fun source target => hunlinked.length_sharedConcepts_ne hregular hmax
  · exact fun hsame => Snapshot.entries_suggestions_eq_nil_iff.mpr fun source target hsuggests =>
      hunlinked.length_sharedConcepts_ne hregular hmax hsuggests (hsame source target)
  · exact fun hunmarked source target =>
      hunmarked.shares_sectionConcept hregular hunlinked hmax

/-- Two notes with the same words in their titles. Both have the section already. -/
def foxesWithSections : Tree :=
  treeOf [("a.md".toList, "# Red Fox\n## Related Notes\n".toList),
    ("b.md".toList, "# Fox Red\n## Related Notes\n".toList)]

/-- The two notes are suggested to each other, but not again by a fresh run. -/
theorem fresh_run_of_sectioned_notes :
    (atRoot.analyze foxesWithSections []).Suggests Eagerness.balanced.thresholds
        "a.md".toList "b.md".toList ∧
      ((atRoot.rescan foxesWithSections [] Eagerness.balanced.thresholds .markdown
        (.still [])).suggestions Eagerness.balanced.thresholds).entries = [] := by
  have hregular : atRoot.IsRegular foxesWithSections [] := by decide +kernel
  have hunlinked : atRoot.IsUnlinked foxesWithSections [] .markdown := by decide +kernel
  have hunmarked : atRoot.IsUnmarked foxesWithSections [] := by decide +kernel
  have hmax : (atRoot.analyze foxesWithSections []).files.size ≤
      Eagerness.balanced.thresholds.maxLinks := by decide +kernel
  have hshared : ∀ e ∈ (atRoot.analyze foxesWithSections []).files.entries,
      ∀ e' ∈ (atRoot.analyze foxesWithSections []).files.entries,
        sectionConcept ∈ (atRoot.analyze foxesWithSections []).sharedConcepts e.1 e'.1 := by
    decide +kernel
  have hfirst : (atRoot.analyze foxesWithSections []).files.find? "a.md".toList =
      some (Note.read "a.md".toList "# Red Fox\n## Related Notes\n".toList) := by decide +kernel
  have hsecond : (atRoot.analyze foxesWithSections []).files.find? "b.md".toList =
      some (Note.read "b.md".toList "# Fox Red\n## Related Notes\n".toList) := by decide +kernel
  have hfresh := fresh_run_suggests_by_new_concepts foxesWithSections atRoot []
    Eagerness.balanced.thresholds .markdown (.still []) hregular hmax
  refine ⟨⟨_, Snapshot.mem_suggestionsFor hmax hfirst hsecond (by decide +kernel)
    (by decide +kernel) (by decide +kernel), rfl⟩, ?_⟩
  refine Snapshot.entries_suggestions_eq_nil_iff.mpr fun source target hsuggests => ?_
  have hnew := ((hfresh.2 hunlinked).2.2 hunmarked source target hsuggests).2
  obtain ⟨own', other', hown', hother', -⟩ := exists_of_suggests hsuggests
  obtain ⟨own, hown, -⟩ := hregular.exists_before hown'
  obtain ⟨other, hother, -⟩ := hregular.exists_before hother'
  exact hnew (hshared _ (KeyMap.find?_eq_some_iff.mp hown) _ (KeyMap.find?_eq_some_iff.mp hother))

/-- Two notes with the same words in their titles, and one that has nothing to do with them but
the section. -/
def foxesAndSection : Tree :=
  treeOf [("a.md".toList, "# Red Fox\n".toList), ("b.md".toList, "# Fox Red\n".toList),
    ("c.md".toList, "## Related Notes\n".toList)]

theorem isRegular_foxesAndSection : atRoot.IsRegular foxesAndSection [] := by decide +kernel

theorem size_foxesAndSection :
    (atRoot.analyze foxesAndSection []).files.size ≤ Eagerness.balanced.thresholds.maxLinks := by
  decide +kernel

/-- The second note is suggested to the first one, which gets the section for it. -/
theorem find?_rescan_foxesAndSection_first :
    (atRoot.rescan foxesAndSection [] Eagerness.balanced.thresholds .markdown
        (.still [])).files.find? "a.md".toList =
      some (Note.read "a.md".toList
        "# Red Fox\n\n## Related Notes\n\n- [Fox Red](b.md)\n".toList) := by
  have hfind : (atRoot.analyze foxesAndSection []).files.find? "a.md".toList =
      some (Note.read "a.md".toList "# Red Fox\n".toList) := by decide +kernel
  have hsuggestible : Snapshot.suggestible (atRoot.analyze foxesAndSection []).files
      Eagerness.balanced.thresholds "a.md".toList
      (Note.read "a.md".toList "# Red Fox\n".toList) =
        [("b.md".toList, Note.read "b.md".toList "# Fox Red\n".toList)] := by decide +kernel
  have hperm := Snapshot.suggestionsFor_perm size_foxesAndSection hfind
  rw [hsuggestible] at hperm
  have hfor : (atRoot.analyze foxesAndSection []).suggestionsFor Eagerness.balanced.thresholds
      "a.md".toList = [(atRoot.analyze foxesAndSection []).suggestionBetween
        (Note.read "a.md".toList "# Red Fox\n".toList) "b.md".toList
        (Note.read "b.md".toList "# Fox Red\n".toList)] := List.perm_singleton.mp hperm
  have hplan : (Plan.make { format := .markdown } "# Red Fox\n".toList
      [(atRoot.analyze foxesAndSection []).suggestionBetween
        (Note.read "a.md".toList "# Red Fox\n".toList) "b.md".toList
        (Note.read "b.md".toList "# Fox Red\n".toList)]).content =
      "# Red Fox\n\n## Related Notes\n\n- [Fox Red](b.md)\n".toList := by decide +kernel
  have hnote : HasNote foxesAndSection atRoot [] ["a.md".toList] "# Red Fox\n".toList :=
    ⟨⟨by decide, _, rfl, by decide⟩, _, by decide +kernel, Text.decode?_encode _⟩
  rw [← hplan, ← hfor]
  exact find?_rescan hnote

/-- Nothing is suggested to the third note, which stays as it is. -/
theorem find?_rescan_foxesAndSection_third :
    (atRoot.rescan foxesAndSection [] Eagerness.balanced.thresholds .markdown
        (.still [])).files.find? "c.md".toList =
      some (Note.read "c.md".toList "## Related Notes\n".toList) := by
  have hfind : (atRoot.analyze foxesAndSection []).files.find? "c.md".toList =
      some (Note.read "c.md".toList "## Related Notes\n".toList) := by decide +kernel
  have hsuggestible : Snapshot.suggestible (atRoot.analyze foxesAndSection []).files
      Eagerness.balanced.thresholds "c.md".toList
      (Note.read "c.md".toList "## Related Notes\n".toList) = [] := by decide +kernel
  have hperm := Snapshot.suggestionsFor_perm size_foxesAndSection hfind
  rw [hsuggestible] at hperm
  have hfor : (atRoot.analyze foxesAndSection []).suggestionsFor Eagerness.balanced.thresholds
      "c.md".toList = [] := List.perm_nil.mp hperm
  have hplan : (Plan.make { format := .markdown } "## Related Notes\n".toList []).content =
      "## Related Notes\n".toList := rfl
  have hnote : HasNote foxesAndSection atRoot [] ["c.md".toList] "## Related Notes\n".toList :=
    ⟨⟨by decide, _, rfl, by decide⟩, _, by decide +kernel, Text.decode?_encode _⟩
  rw [← hplan, ← hfor]
  exact find?_rescan hnote

/-- The links of the two notes to each other are put into a section. This is what they share
with the third note, and a fresh run suggests it. -/
theorem fresh_run_suggests_section_sharer :
    (atRoot.IsRegular foxesAndSection [] ∧ atRoot.IsUnlinked foxesAndSection [] .markdown ∧
        (atRoot.analyze foxesAndSection []).files.size ≤ Eagerness.balanced.thresholds.maxLinks ∧
        ∀ e ∈ atRoot.notes foxesAndSection [], ∀ content ∈ Text.decode? e.2,
          FrontMatter.split? content = none) ∧
      (atRoot.rescan foxesAndSection [] Eagerness.balanced.thresholds .markdown
        (.still [])).Suggests Eagerness.balanced.thresholds "a.md".toList "c.md".toList ∧
      ((atRoot.rescan foxesAndSection [] Eagerness.balanced.thresholds .markdown
        (.still [])).suggestions Eagerness.balanced.thresholds).entries ≠ [] := by
  have hmax : (atRoot.rescan foxesAndSection [] Eagerness.balanced.thresholds .markdown
      (.still [])).files.size ≤ Eagerness.balanced.thresholds.maxLinks := by
    rw [size_rescan isRegular_foxesAndSection.isReadable]
    exact size_foxesAndSection
  have hsuggests : (atRoot.rescan foxesAndSection [] Eagerness.balanced.thresholds .markdown
      (.still [])).Suggests Eagerness.balanced.thresholds "a.md".toList "c.md".toList :=
    ⟨_, Snapshot.mem_suggestionsFor hmax find?_rescan_foxesAndSection_first
      find?_rescan_foxesAndSection_third (by decide +kernel) (by decide +kernel)
      (by decide +kernel), rfl⟩
  refine ⟨⟨isRegular_foxesAndSection, by decide +kernel, size_foxesAndSection,
    by decide +kernel⟩, hsuggests, ?_⟩
  exact fun hnil => Snapshot.entries_suggestions_eq_nil_iff.mp hnil _ _ hsuggests

end Vault

end NoteLinks
