/-
# What is in the indexes

An index that is made from pairs has the members that the pairs have under its keys. So the
indexes of a snapshot that is made from notes say no more and no less than the notes: a note
is under a concept if it has the concept, in whatever case, and under a tag if it has the tag.
-/
import NoteLinks.Proofs.Ordered.KeyMap
import NoteLinks.Snapshot

namespace NoteLinks

namespace Index

/-- A member is under a key. -/
def Has (index : Index) (key member : Text) : Prop :=
  ∃ members, index.find? key = some members ∧ member ∈ members.toList

theorem has_add {index : Index} {key member k x : Text} :
    (index.add key member).Has k x ↔ (k = key ∧ x = member) ∨ index.Has k x := by
  simp only [Has, add, KeyMap.find?_alter]
  split
  next heq =>
    subst heq
    simp only [Option.some.injEq, exists_eq_left', KeySet.mem_toList_insert, true_and]
    cases index.find? k with
    | none => simp [KeySet.empty]
    | some members => simp
  next hne => simp [hne]

theorem has_ofPairs {pairs : List (Text × Text)} {key member : Text} :
    (ofPairs pairs).Has key member ↔ (key, member) ∈ pairs := by
  induction pairs using List.reverseRecOn with
  | nil => simp [ofPairs, Has]
  | append_singleton pairs pair ih =>
      obtain ⟨k, x⟩ := pair
      have hlast : ofPairs (pairs ++ [(k, x)]) = (ofPairs pairs).add k x := by
        rw [ofPairs, List.foldl_append]
        rfl
      rw [hlast, has_add, ih, List.mem_append, List.mem_singleton, Prod.mk.injEq, or_comm]

end Index

namespace Snapshot

variable {files : KeyMap Text Note} {path : Text}

/-- What the notes have is under it in the index. -/
theorem mem_pairs_iff (keys : Note → List Text) {key : Text} :
    (key, path) ∈ files.entries.flatMap (fun (path, note) => (keys note).map (·, path)) ↔
      ∃ note, files.find? path = some note ∧ key ∈ keys note := by
  simp only [List.mem_flatMap, List.mem_map, KeyMap.find?_eq_some_iff, Prod.mk.injEq]
  constructor
  · rintro ⟨⟨path', note⟩, hmem, _, hkey, rfl, rfl⟩
    exact ⟨note, hmem, hkey⟩
  · rintro ⟨note, hmem, hkey⟩
    exact ⟨(path, note), hmem, key, hkey, rfl, rfl⟩

theorem has_concepts {concept : Text} :
    (ofNotes files).concepts.Has concept path ↔
      ∃ note, files.find? path = some note ∧ concept ∈ note.concepts.map Text.lower :=
  Index.has_ofPairs.trans (mem_pairs_iff fun note => note.concepts.map Text.lower)

theorem has_tags {tag : Text} :
    (ofNotes files).tags.Has tag path ↔
      ∃ note, files.find? path = some note ∧ tag ∈ note.tags :=
  Index.has_ofPairs.trans (mem_pairs_iff Note.tags)

/-! ## References -/

theorem danglingIn?_eq_none {index : Index}
    (h : ∀ key path, index.Has key path → ∃ note, files.find? path = some note) :
    danglingIn? files index = none := by
  rw [danglingIn?, List.findSome?_eq_none_iff]
  rintro ⟨key, paths⟩ hmem
  rw [Option.map_eq_none_iff, List.find?_eq_none]
  intro path hpath
  obtain ⟨note, hnote⟩ := h key path ⟨paths, KeyMap.find?_eq_some_iff.mpr hmem, hpath⟩
  simp [KeyMap.contains, hnote]

/-- A snapshot that is made from notes refers to no other notes. -/
theorem dangling?_ofNotes (files : KeyMap Text Note) : (ofNotes files).dangling? = none := by
  have hconcepts : danglingIn? files (ofNotes files).concepts = none :=
    danglingIn?_eq_none fun _ _ hhas => (has_concepts.mp hhas).imp fun _ => And.left
  have htags : danglingIn? files (ofNotes files).tags = none :=
    danglingIn?_eq_none fun _ _ hhas => (has_tags.mp hhas).imp fun _ => And.left
  have hlinks : (ofNotes files).links.keys.find? (fun path => !files.contains path) = none := by
    rw [List.find?_eq_none]
    intro path hmem
    rw [KeyMap.mem_keys_iff] at hmem
    obtain ⟨targets, htargets⟩ := Option.isSome_iff_exists.mp hmem
    rw [ofNotes, KeyMap.find?_filterMap] at htargets
    obtain ⟨note, hnote, -⟩ := Option.bind_eq_some_iff.mp htargets
    simp [KeyMap.contains, hnote]
  have hfiles : (ofNotes files).files = files := rfl
  rw [dangling?, hfiles, hconcepts, htags, hlinks]
  rfl

end Snapshot

end NoteLinks
