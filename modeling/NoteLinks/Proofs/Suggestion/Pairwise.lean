/-
# Candidates without indexes

The candidates for a note could be found without any index, by comparing the note with every
other note of the vault. This module writes that comparison down, strategy by strategy, and
proves that the indexes give the same candidates, each as often and in the same order. A note
is then only ever compared with one other note at a time, so what is found for a target, and its
entry in the ranking, does not depend on any third note.

The root of the vault does not count as lying above any directory. This is part of the
comparison: going by the segments alone, the root would lie above every directory that is
spelled with a dot in front.
-/
import NoteLinks.Proofs.Ordered.KeySet
import NoteLinks.Proofs.Suggestion.Ranking
import NoteLinks.Proofs.Text.Cutting
import NoteLinks.Proofs.Text.Splitting

namespace NoteLinks

/-! ## Directories -/

namespace Path

variable {ancestor dir : Text}

/-- The segments of one path are the first segments of a longer one. -/
def IsAbove (ancestor dir : Text) : Prop :=
  segments ancestor <+: segments dir ∧ ancestor ≠ dir

instance : DecidableRel IsAbove := fun _ _ => inferInstanceAs (Decidable (_ ∧ _))

/-- A directory lies above another one: its segments are the first ones of the other, and it
is neither empty nor the root of the vault. -/
def IsProperlyAbove (ancestor dir : Text) : Prop :=
  ancestor ≠ [] ∧ ancestor ≠ rootDirectory ∧ IsAbove ancestor dir

instance : DecidableRel IsProperlyAbove := fun _ _ => inferInstanceAs (Decidable (_ ∧ _ ∧ _))

theorem isAncestor_iff : isAncestor ancestor dir = true ↔ IsProperlyAbove ancestor dir := by
  have habove : IsAbove ancestor dir ↔ ∃ behind, dir = ancestor ++ '/' :: behind :=
    Text.exists_append_cons_iff.symm
  rw [isAncestor, IsProperlyAbove, habove]
  by_cases hempty : ancestor = []
  · simp [hempty]
  · by_cases hroot : ancestor = rootDirectory
    · simp [hroot]
    · rw [if_neg (by simp [hempty, hroot])]
      cases hdrop : Text.dropPrefix? ancestor dir with
      | none =>
          have hno := Text.dropPrefix?_eq_none_iff.mp hdrop
          simp only [Bool.false_eq_true, false_iff, not_and, not_exists]
          rintro - - behind rfl
          exact hno (List.prefix_append ..)
      | some rest =>
          obtain rfl := Text.dropPrefix?_eq_some_iff.mp hdrop
          simp only [List.append_cancel_left_eq]
          constructor
          · intro h
            split at h
            next behind heq => exact ⟨hempty, hroot, behind, Option.some.inj heq⟩
            next => cases h
          · rintro ⟨-, -, behind, rfl⟩
            rfl

theorem not_isProperlyAbove_nil : ¬ IsProperlyAbove ancestor [] := by
  rw [← isAncestor_iff, isAncestor]
  cases ancestor <;> simp [Text.dropPrefix?]

end Path

namespace Candidate

open Ranking (rank)

/-! ## The comparison -/

/-- The notes that a note may be linked to, with their paths in ascending order. -/
def accepted (files : KeyMap Text Note) (source : Text) (note : Note) : List (Text × Note) :=
  files.entries.filter fun e => accepts source note.links e.1 (some e.2.title)

/-- The words that two titles have in common. -/
def commonWords (own other : Text) : List Text :=
  (titleWords own).toList.filter fun word => word ∈ (titleWords other).toList

/-- The greater number of words in two titles. -/
def wordCount (own other : Text) : Nat :=
  max (titleWords own).toList.length (titleWords other).toList.length

/-- What the directories of two notes have to do with each other: they are the same, or one lies
above the other. -/
def sharedDirectory? (above : Text → Text → Prop) [DecidableRel above] (own other : Text) :
    Option (Reason × Float) :=
  if other = own ∧ own ≠ [] then some (⟨.sameDirectory, own⟩, sameDirectoryWeight)
  else if above own other ∨ above other own then
    some (⟨.relatedDirectory, other⟩, relatedDirectoryWeight)
  else none

/-- What the titles of two notes have to do with each other: they have two words in common. -/
def sharedTitle? (own other : Text) : Option (Reason × Float) :=
  if 2 ≤ (commonWords own other).length then
    some (⟨.similarTitle, Text.join [',', ' '] ((commonWords own other).take 3)⟩,
      titleWeight * (Float.ofNat (commonWords own other).length /
        Float.ofNat (wordCount own other)))
  else none

/-- The candidates for a note, by comparing it with one note after another: for every concept
the notes with the same concept in whatever case, for every tag the notes with this tag, then
the notes in the same directory or one that lies above or below, and then the notes with two
words of the title in common. -/
def pairwise (above : Text → Text → Prop) [DecidableRel above] (files : KeyMap Text Note)
    (source : Text) (note : Note) : List Candidate :=
  (note.concepts.flatMap fun concept =>
    ((accepted files source note).filter fun e =>
      ∃ other ∈ e.2.concepts, Text.lower other = Text.lower concept).map fun e =>
        ⟨e.1, ⟨.sharedConcept, concept⟩, conceptWeight⟩) ++
  (note.tags.flatMap fun tag =>
    ((accepted files source note).filter fun e => tag ∈ e.2.tags).map fun e =>
      ⟨e.1, ⟨.sharedTag, tag⟩, tagWeight⟩) ++
  ((accepted files source note).filterMap fun e =>
    (sharedDirectory? above note.directory e.2.directory).map fun r => ⟨e.1, r.1, r.2⟩) ++
  ((accepted files source note).filterMap fun e =>
    (sharedTitle? note.title e.2.title).map fun r => ⟨e.1, r.1, r.2⟩)

section

variable {files files' : KeyMap Text Note} {source target : Text} {note other : Note}

/-! ## Indexes -/

/-- A note may be linked to the notes that are accepted for it. -/
theorem mem_accepted_iff : (target, other) ∈ accepted files source note ↔
    files.find? target = some other ∧ admits (.ofNotes files) source note target = true := by
  rw [accepted, List.mem_filter, KeyMap.find?_eq_some_iff]
  apply and_congr_right
  intro hmem
  rw [admits_ofNotes source note (KeyMap.find?_eq_some_iff.mpr hmem)]

/-- The notes that an index has under the keys of a note are those that have the keys. -/
theorem byIndex_eq {index : Index} {keyOf : Text → Text} (has : Text → Note → Bool)
    (hhas : ∀ detail path, index.Has (keyOf detail) path ↔
      ∃ other, files.find? path = some other ∧ has detail other = true)
    (kind : ReasonKind) (weight : Float) (details : List Text) :
    byIndex (.ofNotes files) source note index keyOf kind weight details =
      details.flatMap fun detail =>
        ((accepted files source note).filter fun e => has detail e.2).map fun e =>
          ⟨e.1, ⟨kind, detail⟩, weight⟩ := by
  rw [byIndex]
  apply List.flatMap_congr
  intro detail _
  have hascending : (((accepted files source note).filter fun e => has detail e.2).map
      Prod.fst).Pairwise (· < ·) := by
    rw [List.pairwise_map]
    exact (files.ascending.filter _).filter _
  have hmem (path : Text) :
      path ∈ ((accepted files source note).filter fun e => has detail e.2).map Prod.fst ↔
        index.Has (keyOf detail) path ∧ admits (.ofNotes files) source note path = true := by
    simp only [List.mem_map, List.mem_filter, Prod.exists, exists_and_right, exists_eq_right,
      mem_accepted_iff, hhas]
    constructor
    · rintro ⟨other, ⟨hfind, hadmits⟩, hdetail⟩
      exact ⟨⟨other, hfind, hdetail⟩, hadmits⟩
    · rintro ⟨⟨other, hfind, hdetail⟩, hadmits⟩
      exact ⟨other, ⟨hfind, hadmits⟩, hdetail⟩
  -- Both sides list their targets in ascending order, so it is enough that these are the same.
  have htargets (paths : List Text) (h : paths = ((accepted files source note).filter fun e =>
      has detail e.2).map Prod.fst) :
      paths.map (fun target => (⟨target, ⟨kind, detail⟩, weight⟩ : Candidate)) =
        ((accepted files source note).filter fun e => has detail e.2).map fun e =>
          ⟨e.1, ⟨kind, detail⟩, weight⟩ := by
    rw [h, List.map_map]
    rfl
  split
  next paths hfind =>
    apply htargets
    apply KeySet.eq_of_mem_iff (paths.ascending.filter _) hascending
    intro path
    rw [hmem, List.mem_filter, Index.Has, hfind]
    simp
  next hfind =>
    apply htargets []
    rw [eq_comm, List.eq_nil_iff_forall_not_mem]
    intro path hpath
    obtain ⟨⟨paths, hsome, -⟩, -⟩ := (hmem path).mp hpath
    cases hfind.symm.trans hsome

theorem byConcept_eq (files : KeyMap Text Note) (source : Text) (note : Note) :
    byConcept (.ofNotes files) source note = note.concepts.flatMap fun concept =>
      ((accepted files source note).filter fun e =>
        ∃ other ∈ e.2.concepts, Text.lower other = Text.lower concept).map fun e =>
          ⟨e.1, ⟨.sharedConcept, concept⟩, conceptWeight⟩ := by
  apply byIndex_eq fun concept other =>
    decide (∃ c ∈ other.concepts, Text.lower c = Text.lower concept)
  intro concept path
  rw [Snapshot.has_concepts]
  simp

theorem byTag_eq (files : KeyMap Text Note) (source : Text) (note : Note) :
    byTag (.ofNotes files) source note = note.tags.flatMap fun tag =>
      ((accepted files source note).filter fun e => tag ∈ e.2.tags).map fun e =>
        ⟨e.1, ⟨.sharedTag, tag⟩, tagWeight⟩ := by
  apply byIndex_eq fun tag other => decide (tag ∈ other.tags)
  intro tag path
  rw [id, Snapshot.has_tags]
  simp

/-! ## Records -/

theorem byRecord_eq (files : KeyMap Text Note) (source : Text) (note : Note)
    (reason? : Note → Option (Reason × Float)) :
    byRecord (.ofNotes files) source note reason? = (accepted files source note).filterMap
      fun e => (reason? e.2).map fun r => ⟨e.1, r.1, r.2⟩ := by
  rw [accepted, List.filterMap_filter]
  rfl

theorem directoryReason?_eq (own other : Text) :
    directoryReason? own other = sharedDirectory? Path.IsProperlyAbove own other := by
  rw [directoryReason?, sharedDirectory?]
  by_cases hown : own = []
  · subst hown
    have hleft : ¬ Path.IsProperlyAbove [] other := fun h => h.1 rfl
    simp [hleft, Path.not_isProperlyAbove_nil]
  · by_cases hother : other = []
    · subst hother
      have hleft : ¬ Path.IsProperlyAbove [] own := fun h => h.1 rfl
      simp [hleft, Path.not_isProperlyAbove_nil, Ne.symm hown]
    · simp [hown, hother, Path.isAncestor_iff]

theorem titleReason?_eq (own other : Text) : titleReason? own other = sharedTitle? own other := by
  have hcommon : (titleWords own).toList.filter (titleWords other).toList.contains =
      commonWords own other := by
    apply List.filter_congr
    intro word _
    rw [List.contains_eq_mem]
  rw [titleReason?, sharedTitle?, minCommonWords, maxWordsNamed, wordCount]
  simp only [hcommon]
  by_cases htwo : 2 ≤ (commonWords own other).length
  · rw [if_pos htwo, if_neg (Nat.not_lt.mpr htwo)]
  · rw [if_neg htwo, if_pos (Nat.lt_of_not_le htwo)]

/-- The indexes give what the comparison gives. -/
theorem all_eq_pairwise (hsource : files.find? source = some note) :
    all (.ofNotes files) source = pairwise Path.IsProperlyAbove files source note := by
  have hall : all (.ofNotes files) source =
      byConcept (.ofNotes files) source note ++ byTag (.ofNotes files) source note ++
        byDirectory (.ofNotes files) source note ++ byTitle (.ofNotes files) source note := by
    have hfind : (Snapshot.ofNotes files).files.find? source = some note := hsource
    rw [all, hfind]
  simp only [hall, byConcept_eq, byTag_eq, byDirectory, byTitle, byRecord_eq, directoryReason?_eq,
    titleReason?_eq, pairwise]

/-! ## Entries of the ranking -/

theorem suggestionBetween_congr (h : files'.find? target = files.find? target) (own other : Note) :
    (Snapshot.ofNotes files').suggestionBetween own target other =
      (Snapshot.ofNotes files).suggestionBetween own target other := by
  have htitle :
      Ranking.titleOf (.ofNotes files') target = Ranking.titleOf (.ofNotes files) target := by
    have hfind : (Snapshot.ofNotes files').files.find? target =
      (Snapshot.ofNotes files).files.find? target := h
    rw [Ranking.titleOf, Ranking.titleOf, hfind]
  rw [Snapshot.suggestionBetween, Snapshot.suggestionBetween, Ranking.suggestionOf,
    Ranking.suggestionOf, htitle]

/-- The entry for a target is made from the reasons between the two notes. -/
theorem filter_rank_all (hsource : files.find? source = some note)
    (htarget : files.find? target = some other) :
    (rank (.ofNotes files) (all (.ofNotes files) source)).filter (fun x => x.target = target) =
      if accepts source note.links target (some other.title) = true ∧ reasons note other ≠ [] then
        [(Snapshot.ofNotes files).suggestionBetween note target other]
      else [] := by
  rw [Ranking.filter_rank, filter_all hsource htarget]
  cases haccepts : accepts source note.links target (some other.title) with
  | false => simp
  | true =>
      by_cases hnil : reasons note other = []
      · simp [hnil]
      · simp [hnil, Snapshot.suggestionBetween]

/-- There is no entry for what is no note. -/
theorem filter_rank_all_of_find?_eq_none (htarget : files.find? target = none) :
    (rank (.ofNotes files) (all (.ofNotes files) source)).filter (fun x => x.target = target) =
      [] := by
  rw [Ranking.filter_rank, if_pos]
  rw [List.filter_eq_nil_iff]
  intro c hc heq
  obtain ⟨other, hother⟩ := exists_note_of_mem_all hc
  rw [of_decide_eq_true heq, htarget] at hother
  cases hother

/-- The indexes of a vault give the candidates that the comparison with one note after another
gives, each as often and in the same order. So the entry for a target in the ranking is the
same in all vaults that agree on the source and the target. -/
theorem candidates_are_pairwise (files : KeyMap Text Note) (source : Text) (note : Note)
    (hsource : files.find? source = some note) :
    all (.ofNotes files) source = pairwise Path.IsProperlyAbove files source note ∧
      ∀ (files' : KeyMap Text Note) (target : Text), files'.find? source = some note →
        files'.find? target = files.find? target →
        (rank (.ofNotes files') (all (.ofNotes files') source)).filter
            (fun x => x.target = target) =
          (rank (.ofNotes files) (all (.ofNotes files) source)).filter
            (fun x => x.target = target) := by
  refine ⟨all_eq_pairwise hsource, ?_⟩
  intro files' target hsource' hsame
  cases htarget : files.find? target with
  | none =>
      rw [filter_rank_all_of_find?_eq_none htarget,
        filter_rank_all_of_find?_eq_none (hsame.trans htarget)]
  | some other =>
      rw [filter_rank_all hsource htarget, filter_rank_all hsource' (hsame.trans htarget),
        suggestionBetween_congr hsame]

end

/-- A note with a concept in two cases, a note with the same concept in a third case, and some
other note. -/
def casedConcepts (third : Note) : KeyMap Text Note :=
  KeyMap.ofList [
    ("a.md".toList, { Note.empty with concepts := ["Rust".toList, "rust".toList] }),
    ("b.md".toList, { Note.empty with concepts := ["RUST".toList] }),
    ("c.md".toList, third)]

/-- The second note is a candidate once for each case, and the third one has no part in it. -/
theorem candidates_among_cases :
    let other : Note := { Note.empty with concepts := ["rust".toList, "Rust".toList] }
    let source : Note := { Note.empty with concepts := ["Rust".toList, "rust".toList] }
    ((casedConcepts Note.empty).find? "a.md".toList = some source ∧
        (casedConcepts other).find? "a.md".toList = some source ∧
        (casedConcepts other).find? "b.md".toList =
          (casedConcepts Note.empty).find? "b.md".toList) ∧
      (all (.ofNotes (casedConcepts Note.empty)) "a.md".toList).map
          (fun c => (c.target, c.reason)) =
        [("b.md".toList, ⟨.sharedConcept, "Rust".toList⟩),
          ("b.md".toList, ⟨.sharedConcept, "rust".toList⟩)] ∧
      (rank (.ofNotes (casedConcepts other)) (all (.ofNotes (casedConcepts other))
          "a.md".toList)).filter (fun x => x.target = "b.md".toList) =
        (rank (.ofNotes (casedConcepts Note.empty)) (all (.ofNotes (casedConcepts Note.empty))
          "a.md".toList)).filter (fun x => x.target = "b.md".toList) := by
  intro other source
  have hsource : (casedConcepts Note.empty).find? "a.md".toList = some source := rfl
  have hsource' : (casedConcepts other).find? "a.md".toList = some source := rfl
  have hsame : (casedConcepts other).find? "b.md".toList =
      (casedConcepts Note.empty).find? "b.md".toList := rfl
  obtain ⟨hall, hrank⟩ := candidates_are_pairwise _ _ _ hsource
  refine ⟨⟨hsource, hsource', hsame⟩, ?_, hrank _ _ hsource' hsame⟩
  rw [hall]
  decide +kernel

/-- Two notes, of which one has the root of the vault for its directory and the other one a
directory that starts with the root. -/
def rootAndBelow : KeyMap Text Note :=
  KeyMap.ofList [("a.md".toList, { Note.empty with directory := ".".toList }),
    ("b.md".toList, { Note.empty with directory := "./x".toList })]

/-- It is not enough for a related directory that its segments are the first ones of the other
directory: the root of the vault has no related directories. -/
theorem root_has_no_related_directory :
    ¬ ∀ (files : KeyMap Text Note) (source : Text) (note : Note),
      files.find? source = some note →
        all (.ofNotes files) source = pairwise Path.IsAbove files source note := by
  intro h
  have hall := h rootAndBelow "a.md".toList { Note.empty with directory := ".".toList } rfl
  have hlength : (all (.ofNotes rootAndBelow) "a.md".toList).length ≠
      (pairwise Path.IsAbove rootAndBelow "a.md".toList
        { Note.empty with directory := ".".toList }).length := by
    decide +kernel
  exact hlength (congrArg List.length hall)

end Candidate

end NoteLinks
