/-
# Proposals go both ways

If two notes may be linked to each other, what speaks for a link from the first to the second
speaks for a link back. What two notes have in common is found from either side: the tags of a
note that has been read are in ascending order, so the common ones are the same list, and so are
the common words of the titles. Only common concepts are named as the one or the other note spells
them, and a related directory is named by where the link leads.
-/
import NoteLinks.Note.Reading
import NoteLinks.Proofs.Ordered.KeySet
import NoteLinks.Proofs.Suggestion.Candidate

namespace NoteLinks.Candidate

variable {files : KeyMap Text Note} {source target : Text} {note other : Note}

/-! ## Concepts and tags -/

/-- If a note has a concept of another one, this one has a concept of the first. -/
theorem commonConcepts_ne_nil_comm :
    commonConcepts note other ≠ [] ↔ commonConcepts other note ≠ [] := by
  have hback {own other : Note} (h : commonConcepts own other ≠ []) :
      commonConcepts other own ≠ [] := by
    obtain ⟨concept, hmem⟩ := List.exists_mem_of_ne_nil _ h
    obtain ⟨hown, shared, hother, hlower⟩ := mem_commonConcepts_iff.mp hmem
    exact List.ne_nil_of_mem (mem_commonConcepts_iff.mpr ⟨hother, concept, hown, hlower.symm⟩)
  exact ⟨hback, hback⟩

/-- A note that may be linked to is a candidate by concept if there is a concept in common. -/
theorem exists_mem_byConcept_iff (htarget : files.find? target = some other)
    (haccepts : accepts source note.links target (some other.title) = true) :
    (∃ c ∈ byConcept (.ofNotes files) source note, c.target = target) ↔
      commonConcepts note other ≠ [] := by
  have hfound : (∃ c ∈ byConcept (.ofNotes files) source note, c.target = target) ↔
      (byConcept (.ofNotes files) source note).filter (fun c => c.target = target) ≠ [] := by
    simp [List.filter_eq_nil_iff]
  rw [hfound, filter_byConcept htarget, if_pos haccepts, ne_eq, List.map_eq_nil_iff]

theorem ascending_tags (path content : Text) : (Note.read path content).tags.Pairwise (· < ·) :=
  KeySet.ascending _

theorem commonTags_comm (hown : note.tags.Pairwise (· < ·)) (hother : other.tags.Pairwise (· < ·)) :
    commonTags note other = commonTags other note :=
  KeySet.filter_contains_comm hown hother

/-! ## Directories and titles -/

/-- Two directories are equal or related from either side, with the same weight. -/
theorem directoryReason?_comm (own other : Text) :
    (directoryReason? own other).map (fun r => (r.1.kind, r.2)) =
      (directoryReason? other own).map (fun r => (r.1.kind, r.2)) := by
  by_cases heq : own = other
  · rw [heq]
  · rw [directoryReason?, directoryReason?, Bool.or_comm own.isEmpty,
      Bool.or_comm (Path.isAncestor own other), if_neg (Ne.symm heq), if_neg heq]
    split
    · rfl
    · split
      · rfl
      · rfl

theorem titleReason?_comm (own other : Text) : titleReason? own other = titleReason? other own := by
  rw [titleReason?, titleReason?, Nat.max_comm,
    KeySet.filter_contains_comm (titleWords own).ascending (titleWords other).ascending]

/-! ## Two notes -/

/-- Where neither of two notes is linked to the other already, each is a candidate by concept of
the other or neither is, the reasons by tag are the same list, the reason by directory has the
same kind and weight, and the reason by title is the same with the same weight. -/
theorem proposals_are_mutual (files : KeyMap Text Note) (a b contentA contentB : Text)
    (ha : files.find? a = some (Note.read a contentA))
    (hb : files.find? b = some (Note.read b contentB))
    (hab : accepts a (Note.read a contentA).links b (some (Note.read b contentB).title) = true)
    (hba : accepts b (Note.read b contentB).links a (some (Note.read a contentA).title) = true) :
    let s := Snapshot.ofNotes files
    let noteA := Note.read a contentA
    let noteB := Note.read b contentB
    ((∃ c ∈ byConcept s a noteA, c.target = b) ↔ ∃ c ∈ byConcept s b noteB, c.target = a) ∧
    ((byTag s a noteA).filter (fun c => c.target = b)).map Candidate.reason =
      ((byTag s b noteB).filter (fun c => c.target = a)).map Candidate.reason ∧
    ((byDirectory s a noteA).filter (fun c => c.target = b)).map
        (fun c => (c.reason.kind, c.weight)) =
      ((byDirectory s b noteB).filter (fun c => c.target = a)).map
        (fun c => (c.reason.kind, c.weight)) ∧
    ((byTitle s a noteA).filter (fun c => c.target = b)).map (fun c => (c.reason, c.weight)) =
      ((byTitle s b noteB).filter (fun c => c.target = a)).map
        (fun c => (c.reason, c.weight)) := by
  intro s noteA noteB
  refine ⟨?_, ?_, ?_, ?_⟩
  · rw [exists_mem_byConcept_iff hb hab, exists_mem_byConcept_iff ha hba,
      commonConcepts_ne_nil_comm]
  · rw [filter_byTag hb, filter_byTag ha, if_pos hab, if_pos hba,
      commonTags_comm (ascending_tags a contentA) (ascending_tags b contentB),
      List.map_map, List.map_map]
    rfl
  · have hcomm := congrArg Option.toList (directoryReason?_comm noteA.directory noteB.directory)
    rw [Option.toList_map, Option.toList_map] at hcomm
    rw [byDirectory, byDirectory, filter_byRecord hb, filter_byRecord ha, if_pos hab, if_pos hba,
      List.map_map, List.map_map]
    exact hcomm
  · rw [byTitle, byTitle, filter_byRecord hb, filter_byRecord ha, if_pos hab, if_pos hba,
      titleReason?_comm, List.map_map, List.map_map]
    rfl

/-- The text of a note on borrowing. -/
def borrowing : Text := "# Rust memory safety\n**Borrow Checker** #sys #lang\n".toList

/-- The text of a note on the same matter, in other words. -/
def ownership : Text := "# Safety of memory\n**borrow checker** #lang #sys\n".toList

/-- Each of two notes is a candidate of the other by concept, although they spell the concept in
different cases. The tags are given in ascending order, and the directories are related. -/
theorem proposals_between_two_notes :
    let a := "x/a.md".toList
    let b := "x/y/b.md".toList
    let noteA := Note.read a borrowing
    let noteB := Note.read b ownership
    let s := Snapshot.ofNotes (KeyMap.ofList [(a, noteA), (b, noteB)])
    (accepts a noteA.links b (some noteB.title) = true ∧
        accepts b noteB.links a (some noteA.title) = true) ∧
      (∃ c ∈ byConcept s a noteA, c.target = b) ∧
      (∃ c ∈ byConcept s b noteB, c.target = a) ∧
      ((byTag s b noteB).filter (fun c => c.target = a)).map Candidate.reason =
        [⟨.sharedTag, "lang".toList⟩, ⟨.sharedTag, "sys".toList⟩] ∧
      ((byDirectory s b noteB).filter (fun c => c.target = a)).map
        (fun c => (c.reason.kind, c.weight)) = [(.relatedDirectory, relatedDirectoryWeight)] ∧
      (((byTitle s a noteA).filter (fun c => c.target = b)).map (fun c => (c.reason, c.weight)) =
          ((byTitle s b noteB).filter (fun c => c.target = a)).map
            (fun c => (c.reason, c.weight)) ∧
        ((byTitle s a noteA).filter (fun c => c.target = b)).map Candidate.reason =
          [⟨.similarTitle, "memory, safety".toList⟩]) := by
  intro a b noteA noteB s
  have hab : accepts a noteA.links b (some noteB.title) = true := by decide +kernel
  have hba : accepts b noteB.links a (some noteA.title) = true := by decide +kernel
  obtain ⟨hconcept, htags, hdirectory, htitle⟩ :=
    proposals_are_mutual (KeyMap.ofList [(a, noteA), (b, noteB)]) a b borrowing ownership
      (by decide +kernel) (by decide +kernel) hab hba
  have hfound : ∃ c ∈ byConcept s a noteA, c.target = b := by decide +kernel
  refine ⟨⟨hab, hba⟩, hfound, hconcept.mp hfound, ?_, ?_, htitle, by decide +kernel⟩
  · rw [← htags]
    decide +kernel
  · rw [← hdirectory]
    rfl

end NoteLinks.Candidate
