/-
# Candidates, pair by pair

Candidates are found through the indexes of a snapshot and by going through all records. What
is found for two notes depends on these two notes alone: the concepts and tags that they have
in common, their directories and their titles, in this order, and all of it or nothing, as the
one note may be linked to the other or not.
-/
import NoteLinks.Proofs.Snapshot.Closure
import NoteLinks.Suggestion.Candidate

namespace NoteLinks.Candidate

/-! ## What speaks for a link -/

/-- The concepts of a note that another note has too, whatever their case. -/
def commonConcepts (own other : Note) : List Text :=
  own.concepts.filter fun concept => (other.concepts.map Text.lower).contains (Text.lower concept)

/-- The tags of a note that another note has too. -/
def commonTags (own other : Note) : List Text := own.tags.filter other.tags.contains

/-- All that speaks for linking a note to another one, with the weights. -/
def reasons (own other : Note) : List (Reason × Float) :=
  (commonConcepts own other).map (fun concept => (⟨.sharedConcept, concept⟩, conceptWeight)) ++
    (commonTags own other).map (fun tag => (⟨.sharedTag, tag⟩, tagWeight)) ++
    (directoryReason? own.directory other.directory).toList ++
    (titleReason? own.title other.title).toList

/-- Nothing speaks for linking a note of which nothing is known. -/
theorem reasons_empty (other : Note) : reasons Note.empty other = [] := rfl

/-- What the weights depend on: the number of common concepts and tags, the directories and
the titles. -/
theorem map_snd_reasons_congr {own other own' other' : Note}
    (hconcepts : (commonConcepts own' other').length = (commonConcepts own other).length)
    (htags : own'.tags = own.tags ∧ other'.tags = other.tags)
    (hdirectories : own'.directory = own.directory ∧ other'.directory = other.directory)
    (htitles : own'.title = own.title ∧ other'.title = other.title) :
    (reasons own' other').map Prod.snd = (reasons own other).map Prod.snd := by
  have hshared (notes : Note × Note) :
      ((commonConcepts notes.1 notes.2).map fun concept =>
          ((⟨.sharedConcept, concept⟩ : Reason), conceptWeight)).map Prod.snd =
        List.replicate (commonConcepts notes.1 notes.2).length conceptWeight := by
    rw [List.map_map]
    exact List.map_const' ..
  have hweights := hshared (own', other')
  rw [hconcepts, ← hshared (own, other)] at hweights
  simp only [reasons, List.map_append, hweights, commonTags, htags, hdirectories, htitles]

/-! ## Concepts in common -/

theorem mem_commonConcepts_iff {own other : Note} {concept : Text} :
    concept ∈ commonConcepts own other ↔
      concept ∈ own.concepts ∧ ∃ c ∈ other.concepts, Text.lower c = Text.lower concept := by
  rw [commonConcepts, List.mem_filter, List.contains_iff_mem, List.mem_map]

/-- If notes gain one concept at most, it takes this concept to change how many they have in
common: they share it afterwards, and they did not before. -/
theorem shares_of_length_ne {own other own' other' : Note} {concept : Text}
    (hnodup : own.concepts.Nodup) (hnodup' : own'.concepts.Nodup)
    (hown : own.concepts ⊆ own'.concepts ∧ own'.concepts ⊆ concept :: own.concepts)
    (hother : other.concepts ⊆ other'.concepts ∧ other'.concepts ⊆ concept :: other.concepts)
    (hne : (commonConcepts own' other').length ≠ (commonConcepts own other).length) :
    (∃ c ∈ commonConcepts own' other', Text.lower c = Text.lower concept) ∧
      concept ∉ commonConcepts own other := by
  have hkept : commonConcepts own other ⊆ commonConcepts own' other' := by
    intro c hc
    obtain ⟨hmem, d, hd, hlower⟩ := mem_commonConcepts_iff.mp hc
    exact mem_commonConcepts_iff.mpr ⟨hown.1 hmem, d, hother.1 hd, hlower⟩
  have hsame : ¬ commonConcepts own' other' ⊆ commonConcepts own other := by
    intro hback
    have hperm : (commonConcepts own' other').Perm (commonConcepts own other) :=
      (List.perm_ext_iff_of_nodup (hnodup'.filter _) (hnodup.filter _)).mpr
        fun c => ⟨fun hc => hback hc, fun hc => hkept hc⟩
    exact hne hperm.length_eq
  constructor
  · by_contra hnone
    refine hsame fun c hc => ?_
    have hlowers : Text.lower c ≠ Text.lower concept := fun heq => hnone ⟨c, hc, heq⟩
    obtain ⟨hmem, d, hd, hlower⟩ := mem_commonConcepts_iff.mp hc
    refine mem_commonConcepts_iff.mpr ⟨?_, d, ?_, hlower⟩
    · rcases List.mem_cons.mp (hown.2 hmem) with rfl | hmem
      · exact absurd rfl hlowers
      · exact hmem
    · rcases List.mem_cons.mp (hother.2 hd) with rfl | hd
      · exact absurd hlower.symm hlowers
      · exact hd
  · intro hshared
    obtain ⟨hfirst, e, he, heq⟩ := mem_commonConcepts_iff.mp hshared
    refine hsame fun c hc => ?_
    obtain ⟨hmem, d, hd, hlower⟩ := mem_commonConcepts_iff.mp hc
    refine mem_commonConcepts_iff.mpr ⟨?_, ?_⟩
    · rcases List.mem_cons.mp (hown.2 hmem) with rfl | hmem
      · exact hfirst
      · exact hmem
    · rcases List.mem_cons.mp (hother.2 hd) with rfl | hd
      · exact ⟨e, he, heq.trans hlower⟩
      · exact ⟨d, hd, hlower⟩

/-! ## What is found for two notes -/

section Found

variable {files : KeyMap Text Note} {source target : Text} {note other : Note}

section Index

variable {s : Snapshot} {index : Index} {keyOf : Text → Text} {kind : ReasonKind} {weight : Float}
  {has : Text → Bool}

/-- A target is found in an index under one key once or not at all. -/
theorem filter_byIndex_singleton {detail : Text}
    (hhas : index.Has (keyOf detail) target ↔ has detail = true) :
    (byIndex s source note index keyOf kind weight [detail]).filter (fun c => c.target = target) =
      if admits s source note target && has detail then [⟨target, ⟨kind, detail⟩, weight⟩]
      else [] := by
  rw [byIndex, List.flatMap_singleton]
  split
  next paths hfind =>
    have hmem : target ∈ paths.toList ↔ has detail = true := by
      rw [← hhas, Index.Has, hfind]
      simp
    have hswap : (paths.toList.filter fun path =>
        decide (path = target) && admits s source note path) =
        (paths.toList.filter fun path => path = target).filter (admits s source note) := by
      rw [List.filter_filter]
      exact List.filter_congr fun path _ => Bool.and_comm ..
    simp only [List.filter_map, List.filter_filter, Function.comp_def]
    rw [hswap, paths.filter_toList_eq target]
    cases hdetail : has detail with
    | false => simp [hmem, hdetail]
    | true => cases hadmits : admits s source note target <;> simp [hmem, hdetail, hadmits]
  next hfind =>
    have hno : has detail = false := by
      rw [← Bool.not_eq_true, ← hhas, Index.Has, hfind]
      simp
    simp [hno]

/-- The candidates for a target that an index has under the keys of a note. -/
theorem filter_byIndex {details : List Text}
    (hhas : ∀ detail, index.Has (keyOf detail) target ↔ has detail = true) :
    (byIndex s source note index keyOf kind weight details).filter (fun c => c.target = target) =
      if admits s source note target then
        (details.filter has).map fun detail => ⟨target, ⟨kind, detail⟩, weight⟩
      else [] := by
  induction details with
  | nil => simp [byIndex]
  | cons detail details ih =>
      have hcons : byIndex s source note index keyOf kind weight (detail :: details) =
          byIndex s source note index keyOf kind weight [detail] ++
            byIndex s source note index keyOf kind weight details := by
        simp [byIndex]
      rw [hcons, List.filter_append, filter_byIndex_singleton (hhas detail), ih]
      cases hadmits : admits s source note target with
      | false => simp
      | true => cases hdetail : has detail <;> simp [hdetail]

end Index

/-- The candidate for a target that compares well with a note. -/
theorem filter_byRecord {reason? : Note → Option (Reason × Float)}
    (htarget : files.find? target = some other) :
    (byRecord (.ofNotes files) source note reason?).filter (fun c => c.target = target) =
      if accepts source note.links target (some other.title) then
        (reason? other).toList.map fun (reason, weight) => ⟨target, reason, weight⟩
      else [] := by
  have hentries := files.filter_entries target
  rw [htarget] at hentries
  -- A candidate that a record makes has the path of the record for its target.
  have hkeyed (f : Text × Note → Option Candidate)
      (hf : ∀ e c, f e = some c → c.target = e.1) :
      (files.entries.filterMap f).filter (fun c => c.target = target) =
        (files.entries.filter fun e => e.1 = target).filterMap f := by
    rw [List.filter_filterMap, List.filterMap_filter]
    refine List.filterMap_congr fun e _ => ?_
    cases hc : f e with
    | none => simp
    | some c => simp [Option.filter, hf e c hc]
  rw [byRecord]
  refine (hkeyed _ ?_).trans ?_
  · rintro ⟨path, record⟩ c hc
    simp only [Option.ite_none_right_eq_some, Option.map_eq_some_iff] at hc
    obtain ⟨-, _, -, rfl⟩ := hc
    rfl
  · rw [hentries]
    cases haccepts : accepts source note.links target (some other.title) with
    | false => simp [haccepts]
    | true => cases hreason : reason? other <;> simp [haccepts, hreason]

theorem admits_ofNotes (source : Text) (note : Note) (htarget : files.find? target = some other) :
    admits (.ofNotes files) source note target =
      accepts source note.links target (some other.title) := by
  rw [admits]
  show accepts source note.links target ((files.find? target).map Note.title) = _
  rw [htarget, Option.map_some]

theorem filter_byConcept (htarget : files.find? target = some other) :
    (byConcept (.ofNotes files) source note).filter (fun c => c.target = target) =
      if accepts source note.links target (some other.title) then
        (commonConcepts note other).map fun concept =>
          ⟨target, ⟨.sharedConcept, concept⟩, conceptWeight⟩
      else [] := by
  have hhas (concept : Text) :
      (Snapshot.ofNotes files).concepts.Has (Text.lower concept) target ↔
        (other.concepts.map Text.lower).contains (Text.lower concept) = true := by
    rw [Snapshot.has_concepts, htarget, List.contains_iff_mem]
    simp
  rw [← admits_ofNotes source note htarget]
  exact filter_byIndex hhas

theorem filter_byTag (htarget : files.find? target = some other) :
    (byTag (.ofNotes files) source note).filter (fun c => c.target = target) =
      if accepts source note.links target (some other.title) then
        (commonTags note other).map fun tag => ⟨target, ⟨.sharedTag, tag⟩, tagWeight⟩
      else [] := by
  have hhas (tag : Text) :
      (Snapshot.ofNotes files).tags.Has (id tag) target ↔ other.tags.contains tag = true := by
    rw [Snapshot.has_tags, htarget, List.contains_iff_mem]
    simp
  rw [← admits_ofNotes source note htarget]
  exact filter_byIndex hhas

/-- The candidates for a target are its reasons, if the note may be linked to it. -/
theorem filter_all (hsource : files.find? source = some note)
    (htarget : files.find? target = some other) :
    (all (.ofNotes files) source).filter (fun c => c.target = target) =
      if accepts source note.links target (some other.title) then
        (reasons note other).map fun (reason, weight) => ⟨target, reason, weight⟩
      else [] := by
  have hdirectory : (byDirectory (.ofNotes files) source note).filter
      (fun c => c.target = target) = _ := filter_byRecord htarget
  have htitle : (byTitle (.ofNotes files) source note).filter
      (fun c => c.target = target) = _ := filter_byRecord htarget
  have hfind : (Snapshot.ofNotes files).files.find? source = some note := hsource
  rw [all, hfind]
  simp only [List.filter_append, filter_byConcept htarget, filter_byTag htarget, hdirectory, htitle]
  cases haccepts : accepts source note.links target (some other.title) with
  | false => rfl
  | true => simp [reasons, Function.comp_def]

end Found

/-! ## Who is a candidate -/

theorem all_of_find?_eq_none {files : KeyMap Text Note} {source : Text}
    (h : files.find? source = none) : all (.ofNotes files) source = [] := by
  have hfind : (Snapshot.ofNotes files).files.find? source = none := h
  rw [all, hfind]

/-- What is found through an index that refers to notes of the snapshot only is such a note, and
may be linked to. -/
theorem admits_of_mem_byIndex {s : Snapshot} {source : Text} {note : Note} {index : Index}
    {keyOf : Text → Text} {kind : ReasonKind} {weight : Float} {details : List Text} {c : Candidate}
    (hknown : ∀ key path, index.Has key path → path ∈ s.files.keys)
    (h : c ∈ byIndex s source note index keyOf kind weight details) :
    c.target ∈ s.files.keys ∧ admits s source note c.target = true := by
  rw [byIndex, List.mem_flatMap] at h
  obtain ⟨detail, -, h⟩ := h
  split at h
  next paths hfind =>
    obtain ⟨path, hpath, rfl⟩ := List.mem_map.mp h
    obtain ⟨hmem, hadmits⟩ := List.mem_filter.mp hpath
    exact ⟨hknown (keyOf detail) path ⟨paths, hfind, hmem⟩, hadmits⟩
  next => cases h

theorem admits_of_mem_byRecord {s : Snapshot} {source : Text} {note : Note}
    {reason? : Note → Option (Reason × Float)} {c : Candidate}
    (h : c ∈ byRecord s source note reason?) :
    c.target ∈ s.files.keys ∧ admits s source note c.target = true := by
  rw [byRecord, List.mem_filterMap] at h
  obtain ⟨⟨path, other⟩, hentry, hc⟩ := h
  simp only [Option.ite_none_right_eq_some, Option.map_eq_some_iff] at hc
  obtain ⟨haccepts, _, -, rfl⟩ := hc
  have hfind := KeyMap.find?_eq_some_iff.mpr hentry
  refine ⟨KeyMap.mem_keys_iff.mpr (by rw [hfind]; rfl), ?_⟩
  rw [admits, hfind]
  exact haccepts

/-- The candidates for a note of a closed snapshot are notes of the snapshot that the note may be
linked to. -/
theorem admits_of_mem_all {s : Snapshot} (hclosed : s.IsClosed) {source : Text} {c : Candidate}
    (h : c ∈ all s source) : ∃ own, s.files.find? source = some own ∧
      c.target ∈ s.files.keys ∧ admits s source own c.target = true := by
  rw [all] at h
  split at h
  next own hown =>
    refine ⟨own, hown, ?_⟩
    simp only [List.mem_append] at h
    rcases h with ((h | h) | h) | h
    · exact admits_of_mem_byIndex hclosed.concepts h
    · exact admits_of_mem_byIndex hclosed.tags h
    · exact admits_of_mem_byRecord h
    · exact admits_of_mem_byRecord h
  next => cases h

/-- Only notes of the snapshot are candidates. -/
theorem exists_note_of_mem_all {files : KeyMap Text Note} {source : Text} {c : Candidate}
    (h : c ∈ all (.ofNotes files) source) : ∃ other, files.find? c.target = some other := by
  have hclosed := Snapshot.dangling?_eq_none_iff.mp (Snapshot.dangling?_ofNotes files)
  obtain ⟨_, -, hmem, -⟩ := admits_of_mem_all hclosed h
  exact Option.isSome_iff_exists.mp (KeyMap.mem_keys_iff.mp hmem)

end NoteLinks.Candidate
