/-
# What is read is in order

The record of a note is in order whatever its text is. Tags, concepts and links are in ascending
order, without any twice, and nothing in the record is empty or has blanks around it that should
have none. Only the name of the file may be missing, since a path may end in a slash, and the
title of a note is its last resort.
-/
import NoteLinks.Note.Reading
import NoteLinks.Proofs.FrontMatter.Fields
import NoteLinks.Proofs.Note.Cleaning
import NoteLinks.Proofs.Note.Heading
import NoteLinks.Proofs.Note.Scans
import NoteLinks.Proofs.Note.Tag
import NoteLinks.Proofs.Path

namespace NoteLinks

variable {body path tag link concept : Text} {headings : List Heading}

/-- A heading with one to six hashes and a text without blanks around it. -/
structure Heading.IsNormal (heading : Heading) : Prop where
  level : 1 ≤ heading.level ∧ heading.level ≤ 6
  text_ne_nil : heading.text ≠ []
  text_trimmed : Text.trim heading.text = heading.text

/-- A key phrase that is long enough, has single spaces only, and is free of markup. -/
structure Concept.IsNormal (concept : Text) : Prop where
  length : 3 ≤ concept.length
  spaces : Text.IsSingleSpaced concept
  markup : ¬ HasMarkup concept

/-- The record of a note that is in order. -/
structure Note.IsNormal (note : Note) : Prop where
  tags_ascending : note.tags.Pairwise (· < ·)
  concepts_ascending : note.concepts.Pairwise (· < ·)
  links_ascending : note.links.Pairwise (· < ·)
  tags : ∀ tag ∈ note.tags, tag ≠ []
  links : ∀ link ∈ note.links, link ≠ [] ∧ Text.trim link = link
  concepts : ∀ concept ∈ note.concepts, Concept.IsNormal concept
  headings : ∀ heading ∈ note.headings, Heading.IsNormal heading
  title : Path.fileName note.path ≠ [] → note.title ≠ []

/-! ## The parts of the record -/

theorem Heading.isNormal_of_mem_all {heading : Heading} (h : heading ∈ Heading.all body) :
    heading.IsNormal := by
  obtain ⟨row, -, hread⟩ := List.mem_filterMap.mp h
  obtain ⟨hlevel, hne, htrimmed⟩ := normal_of_read? hread
  exact ⟨hlevel, hne, htrimmed⟩

theorem Concept.isNormal_of_mem_all (h : concept ∈ Concept.all body headings) :
    Concept.IsNormal concept := by
  rw [all, KeySet.mem_toList_ofList, List.mem_filter, decide_eq_true_eq] at h
  obtain ⟨hmem, hlength⟩ := h
  obtain ⟨phrase, -, rfl⟩ := List.mem_map.mp hmem
  exact ⟨hlength, isSingleSpaced_clean phrase, not_hasMarkup_clean phrase⟩

/-- A link target is written between brackets, but is recorded without the blanks around it. -/
theorem Link.trimmed_of_mem_targets (h : link ∈ Link.targets body) :
    link ≠ [] ∧ Text.trim link = link := by
  rw [targets, KeySet.mem_toList_ofList, List.mem_filter] at h
  obtain ⟨hmem, hne⟩ := h
  obtain ⟨written, -, rfl⟩ := List.mem_map.mp hmem
  exact ⟨by simpa using hne, Text.trim_trim written⟩

/-- A hash alone is no tag. -/
theorem Tag.ne_nil_of_mem_hits (h : tag ∈ Text.hits Tag.recognise body) : tag ≠ [] := by
  obtain ⟨t, m, hm, rfl⟩ := Text.exists_match_of_mem_hits h
  unfold recognise at hm
  split at hm
  next rest =>
    dsimp only at hm
    split at hm
    next => cases hm
    next hempty =>
      obtain rfl := Option.some.inj hm
      simpa using hempty
  next => cases hm

theorem Tag.ne_nil_of_mem_all {declared : List Text} (hdeclared : [] ∉ declared)
    (h : tag ∈ Tag.all declared body) : tag ≠ [] := by
  rw [all, KeySet.mem_toList_ofList, List.mem_append] at h
  rcases h with h | h
  · rintro rfl
    exact hdeclared h
  · exact ne_nil_of_mem_hits h

/-- A title that is not declared is that of a heading or the name of the file. -/
theorem Note.titleFrom_ne_nil {declared : Option Text} (hdeclared : declared ≠ some [])
    (hheadings : ∀ heading ∈ headings, Heading.IsNormal heading) (hname : Path.fileName path ≠ []) :
    titleFrom declared headings path ≠ [] := by
  unfold titleFrom
  split
  next title =>
    rintro rfl
    exact hdeclared rfl
  next =>
    split
    next heading hfind => exact (hheadings heading (List.mem_of_find?_eq_some hfind)).text_ne_nil
    next => exact Path.stem_ne_nil hname

/-! ## The whole record -/

/-- Every note that is read has a record that is in order, under its own path. -/
theorem Note.read_isNormal (path content : Text) :
    (Note.read path content).path = path ∧ (Note.read path content).IsNormal := by
  have hfields := FrontMatter.isNormal_read content
  have hheadings (heading : Heading) (h : heading ∈ (Note.read path content).headings) :
      heading.IsNormal := Heading.isNormal_of_mem_all h
  refine ⟨rfl, ?_⟩
  exact {
    tags_ascending := KeySet.ascending _
    concepts_ascending := KeySet.ascending _
    links_ascending := KeySet.ascending _
    tags _ := Tag.ne_nil_of_mem_all hfields.tags
    links _ := Link.trimmed_of_mem_targets
    concepts _ := Concept.isNormal_of_mem_all
    headings := hheadings
    title := Note.titleFrom_ne_nil hfields.title hheadings }

/-- A title of blanks does not count, so that the name of the file is left, here with nothing in
front of its dot. The tag that is taken out of the bold phrase goes over the end of a line, and the
brackets that stay behind have nothing between them. -/
theorem Note.isNormal_of_blank_title :
    let note := Note.read "drafts/.md".toList
      "---\ntitle: ' '\ntags: [b, '']\n---\n#  \n## Sub<hr>\n**<i\n>x<>y \t z** #a".toList
    note.title = ".md".toList ∧ note.tags = ["a".toList, "b".toList] ∧
      note.concepts = ["Sub".toList, "x<>y z".toList] ∧ note.title ≠ [] ∧ note.IsNormal := by
  intro note
  obtain ⟨-, hnormal⟩ : note.path = _ ∧ note.IsNormal := Note.read_isNormal _ _
  refine ⟨?_, ?_, ?_, hnormal.title ?_, hnormal⟩
  all_goals decide +kernel

end NoteLinks
