/-
# Exact indexes and closed snapshots

A snapshot keeps the same facts twice: in the records, and in the indexes and numbers that are
made from them. This module says what a snapshot that is made from notes keeps, in terms of the
notes alone. Every number is the length of a list without repetitions that the notes determine.

A snapshot from a file keeps what it likes. The check for dangling references asks just for its
closure: whoever is in an index or has links is a note of the snapshot. If the check fails, it
names a reference that dangles.
-/
import Mathlib.Data.List.Dedup
import NoteLinks.Proofs.Snapshot

namespace NoteLinks

namespace Index

variable {pairs : List (Text × Text)} {key : Text}

/-- Nothing is under a key of an index without a member. -/
theorem exists_has_of_find?_ofPairs {members : KeySet Text}
    (h : (ofPairs pairs).find? key = some members) : ∃ member, member ∈ members.toList := by
  induction pairs using List.reverseRecOn generalizing members with
  | nil => simp [ofPairs] at h
  | append_singleton pairs pair ih =>
      obtain ⟨k, x⟩ := pair
      have hlast : ofPairs (pairs ++ [(k, x)]) = (ofPairs pairs).add k x := by
        rw [ofPairs, List.foldl_append]
        rfl
      rw [hlast, add, KeyMap.find?_alter] at h
      split at h
      next =>
        obtain rfl := Option.some.inj h
        exact ⟨x, KeySet.mem_toList_insert.mpr (.inl rfl)⟩
      next => exact ih h

theorem mem_keys_ofPairs : key ∈ (ofPairs pairs).keys ↔ key ∈ pairs.map Prod.fst := by
  rw [KeyMap.mem_keys_iff, Option.isSome_iff_exists, List.mem_map]
  constructor
  · rintro ⟨members, hfind⟩
    obtain ⟨member, hmem⟩ := exists_has_of_find?_ofPairs hfind
    exact ⟨(key, member), has_ofPairs.mp ⟨members, hfind, hmem⟩, rfl⟩
  · rintro ⟨⟨k, member⟩, hpair, rfl⟩
    obtain ⟨members, hfind, -⟩ := has_ofPairs.mpr hpair
    exact ⟨members, hfind⟩

/-- An index has as many entries as there are different keys. -/
theorem size_ofPairs (pairs : List (Text × Text)) :
    (ofPairs pairs).size = (pairs.map Prod.fst).dedup.length := by
  have hperm : (ofPairs pairs).keys.Perm (pairs.map Prod.fst).dedup := by
    refine (List.perm_ext_iff_of_nodup (KeyMap.nodup_keys _) (List.nodup_dedup _)).mpr fun key => ?_
    rw [mem_keys_ofPairs, List.mem_dedup]
  rw [← hperm.length_eq, KeyMap.keys, List.length_map, KeyMap.size]

/-- The keys of an index with their members, one pair for each. -/
def memberships (index : Index) : List (Text × Text) :=
  index.entries.flatMap fun e => e.2.toList.map (e.1, ·)

theorem mem_memberships_iff {index : Index} {member : Text} :
    (key, member) ∈ index.memberships ↔ index.Has key member := by
  simp only [memberships, List.mem_flatMap, List.mem_map, Prod.mk.injEq, Has,
    KeyMap.find?_eq_some_iff]
  constructor
  · rintro ⟨⟨k, members⟩, hentry, _, hmem, rfl, rfl⟩
    exact ⟨members, hentry, hmem⟩
  · rintro ⟨members, hentry, hmem⟩
    exact ⟨(key, members), hentry, member, hmem, rfl, rfl⟩

theorem nodup_memberships (index : Index) : index.memberships.Nodup := by
  rw [memberships, List.nodup_flatMap]
  constructor
  · rintro ⟨k, members⟩ -
    exact (members.nodup_toList).map fun _ _ h => (Prod.mk.inj h).2
  · refine index.ascending.imp fun {e f} hlt => ?_
    show List.Disjoint _ _
    rw [List.disjoint_left]
    rintro ⟨k, member⟩ he hf
    obtain ⟨_, -, he⟩ := List.mem_map.mp he
    obtain ⟨_, -, hf⟩ := List.mem_map.mp hf
    exact LawfulKey.ne_of_lt hlt ((Prod.mk.inj he).1.trans (Prod.mk.inj hf).1.symm)

theorem length_memberships (index : Index) :
    index.memberships.length = (index.values.flatMap KeySet.toList).length := by
  simp only [memberships, KeyMap.values, List.length_flatMap, List.map_map, List.length_map]
  rfl

end Index

/-- References to missing concepts are found first, and those of links last. -/
def DanglingReference.stage : DanglingReference → Nat
  | concept .. => 0
  | tag .. => 1
  | linkSource _ => 2

namespace Snapshot

variable {files : KeyMap Text Note} {path : Text}

/-! ## What a snapshot of notes keeps -/

/-- The links of all notes, each with the path of its note. -/
def linksOf (files : KeyMap Text Note) : List (Text × Text) :=
  files.entries.flatMap fun e => e.2.links.map (e.1, ·)

/-- A snapshot keeps what notes have, no more and no less, and its numbers are those of the
notes. -/
structure IsExact (s : Snapshot) (files : KeyMap Text Note) : Prop where
  records : s.files = files
  concepts : ∀ concept path, s.concepts.Has concept path ↔
    ∃ note, files.find? path = some note ∧ ∃ c ∈ note.concepts, Text.lower c = concept
  tags : ∀ tag path, s.tags.Has tag path ↔
    ∃ note, files.find? path = some note ∧ tag ∈ note.tags
  linkSources : ∀ path, path ∈ s.links.keys ↔
    ∃ note, files.find? path = some note ∧ note.links ≠ []
  links : ∀ path target, s.links.Has path target ↔
    ∃ note, files.find? path = some note ∧ target ∈ note.links
  nowhereEmpty : ∀ index ∈ [s.concepts, s.tags, s.links], ∀ members ∈ index.values,
    members.toList ≠ []
  totalFiles : s.stats.totalFiles = files.size
  /-- A link that a note has several times counts once. -/
  totalLinks : s.stats.totalLinks = (linksOf files).dedup.length
  filesWithLinks : s.stats.filesWithLinks =
    (files.values.filter fun note => note.links ≠ []).length
  linkedOrNot : s.stats.filesWithLinks + s.stats.filesWithoutLinks = s.stats.totalFiles
  /-- A concept in several cases counts once. -/
  totalConcepts : s.stats.totalConcepts =
    ((files.values.flatMap Note.concepts).map Text.lower).dedup.length
  totalTags : s.stats.totalTags = (files.values.flatMap Note.tags).dedup.length

theorem find?_links : (ofNotes files).links.find? path =
    (files.find? path).bind fun note =>
      if note.links.isEmpty then none else some (KeySet.ofList note.links) :=
  KeyMap.find?_filterMap ..

theorem mem_keys_links : path ∈ (ofNotes files).links.keys ↔
    ∃ note, files.find? path = some note ∧ note.links ≠ [] := by
  simp [KeyMap.mem_keys_iff, find?_links, Option.isSome_iff_exists, Option.bind_eq_some_iff]

theorem has_links {target : Text} : (ofNotes files).links.Has path target ↔
    ∃ note, files.find? path = some note ∧ target ∈ note.links := by
  simp only [Index.Has, find?_links, Option.bind_eq_some_iff, Option.ite_none_left_eq_some,
    Option.some.injEq]
  constructor
  · rintro ⟨_, ⟨note, hfind, -, rfl⟩, hmem⟩
    exact ⟨note, hfind, KeySet.mem_toList_ofList.mp hmem⟩
  · rintro ⟨note, hfind, hmem⟩
    refine ⟨_, ⟨note, hfind, ?_, rfl⟩, KeySet.mem_toList_ofList.mpr hmem⟩
    simp [List.ne_nil_of_mem hmem]

theorem ne_nil_of_mem_values_ofPairs {pairs : List (Text × Text)} {members : KeySet Text}
    (h : members ∈ (Index.ofPairs pairs).values) : members.toList ≠ [] := by
  obtain ⟨⟨key, _⟩, hentry, rfl⟩ := List.mem_map.mp h
  obtain ⟨member, hmem⟩ := Index.exists_has_of_find?_ofPairs (KeyMap.find?_eq_some_iff.mpr hentry)
  exact List.ne_nil_of_mem hmem

theorem ne_nil_of_mem_values_links {members : KeySet Text}
    (h : members ∈ (ofNotes files).links.values) : members.toList ≠ [] := by
  obtain ⟨⟨path, _⟩, hentry, rfl⟩ := List.mem_map.mp h
  have hfind := KeyMap.find?_eq_some_iff.mpr hentry
  simp only [find?_links, Option.bind_eq_some_iff, Option.ite_none_left_eq_some,
    Option.some.injEq] at hfind
  obtain ⟨note, -, hlinks, rfl⟩ := hfind
  obtain ⟨target, rest, heq⟩ := List.exists_cons_of_ne_nil (mt List.isEmpty_iff.mpr hlinks)
  exact List.ne_nil_of_mem (KeySet.mem_toList_ofList.mpr (heq ▸ List.mem_cons_self))

/-- The first parts of what the notes have are what they have. -/
theorem map_fst_pairs (keys : Note → List Text) :
    (files.entries.flatMap fun (path, note) => (keys note).map (·, path)).map Prod.fst =
      files.values.flatMap keys := by
  simp only [List.map_flatMap, List.map_map, Function.comp_def, List.map_id', KeyMap.values,
    List.flatMap_map]

theorem length_memberships_links :
    (ofNotes files).links.memberships.length = (linksOf files).dedup.length := by
  apply List.Perm.length_eq
  refine (List.perm_ext_iff_of_nodup (Index.nodup_memberships _) (List.nodup_dedup _)).mpr ?_
  rintro ⟨path, target⟩
  rw [Index.mem_memberships_iff, has_links, List.mem_dedup, linksOf, List.mem_flatMap]
  simp only [List.mem_map, Prod.mk.injEq, KeyMap.find?_eq_some_iff]
  constructor
  · rintro ⟨note, hentry, hmem⟩
    exact ⟨(path, note), hentry, target, hmem, rfl, rfl⟩
  · rintro ⟨⟨path, note⟩, hentry, _, hmem, rfl, rfl⟩
    exact ⟨note, hentry, hmem⟩

/-- Every entry of the links is that of a note with links. -/
theorem filesWithLinks_ofNotes : (ofNotes files).stats.filesWithLinks =
    (files.values.filter fun note => note.links ≠ []).length := by
  have hall : (ofNotes files).links.values.filter (fun targets => !targets.toList.isEmpty) =
      (ofNotes files).links.values := by
    rw [List.filter_eq_self]
    intro targets hmem
    simpa using ne_nil_of_mem_values_links hmem
  show ((ofNotes files).links.values.filter _).length = _
  rw [hall, KeyMap.values, List.length_map, KeyMap.values, List.filter_map, List.length_map]
  show (files.entries.filterMap _).length = _
  rw [List.length_filterMap_eq_countP, List.countP_eq_length_filter]
  congr 1
  apply List.filter_congr
  rintro ⟨path, note⟩ -
  cases hlinks : note.links <;> simp [hlinks]

/-- A snapshot that is made from notes is exact. -/
theorem isExact_ofNotes (files : KeyMap Text Note) : (ofNotes files).IsExact files where
  records := rfl
  concepts concept path := by
    rw [has_concepts]
    simp only [List.mem_map]
  tags _ _ := has_tags
  linkSources _ := mem_keys_links
  links _ _ := has_links
  nowhereEmpty := by
    intro index hindex members hmem
    simp only [List.mem_cons, List.not_mem_nil, or_false] at hindex
    rcases hindex with rfl | rfl | rfl
    · exact ne_nil_of_mem_values_ofPairs hmem
    · exact ne_nil_of_mem_values_ofPairs hmem
    · exact ne_nil_of_mem_values_links hmem
  totalFiles := rfl
  totalLinks := (Index.length_memberships _).symm.trans length_memberships_links
  filesWithLinks := filesWithLinks_ofNotes
  linkedOrNot := by
    have hle : (ofNotes files).stats.filesWithLinks ≤ files.size := by
      rw [filesWithLinks_ofNotes]
      exact (List.length_filter_le ..).trans (by rw [KeyMap.values, List.length_map, KeyMap.size])
    exact Nat.add_sub_cancel' hle
  totalConcepts := by
    refine (Index.size_ofPairs _).trans ?_
    rw [List.map_flatMap (g := Note.concepts)]
    exact congrArg (·.dedup.length) (map_fst_pairs fun note => note.concepts.map Text.lower)
  totalTags := by
    refine (Index.size_ofPairs _).trans ?_
    exact congrArg (·.dedup.length) (map_fst_pairs Note.tags)

/-! ## References that dangle -/

/-- A reference of the snapshot leads to a note that it does not have. -/
def Dangles (s : Snapshot) : DanglingReference → Prop
  | .concept key path => s.concepts.Has key path ∧ path ∉ s.files.keys
  | .tag key path => s.tags.Has key path ∧ path ∉ s.files.keys
  | .linkSource path => path ∈ s.links.keys ∧ path ∉ s.files.keys

/-- Whoever is in an index or has links is a note of the snapshot. -/
structure IsClosed (s : Snapshot) : Prop where
  concepts : ∀ key path, s.concepts.Has key path → path ∈ s.files.keys
  tags : ∀ key path, s.tags.Has key path → path ∈ s.files.keys
  links : ∀ path ∈ s.links.keys, path ∈ s.files.keys

theorem isClosed_iff {s : Snapshot} : s.IsClosed ↔ ∀ r, ¬ s.Dangles r := by
  constructor
  · rintro hclosed (⟨key, path⟩ | ⟨key, path⟩ | path) ⟨hhas, hnot⟩
    · exact hnot (hclosed.concepts key path hhas)
    · exact hnot (hclosed.tags key path hhas)
    · exact hnot (hclosed.links path hhas)
  · intro hnone
    exact {
      concepts := fun key path hhas => by_contra fun hnot => hnone (.concept key path) ⟨hhas, hnot⟩
      tags := fun key path hhas => by_contra fun hnot => hnone (.tag key path) ⟨hhas, hnot⟩
      links := fun path hhas => by_contra fun hnot => hnone (.linkSource path) ⟨hhas, hnot⟩ }

theorem not_contains_iff : (!files.contains path) = true ↔ path ∉ files.keys := by
  rw [KeyMap.mem_keys_iff, KeyMap.contains, Bool.not_eq_true', Bool.not_eq_true]

theorem not_mem_keys_of_find? {paths : List Text}
    (h : paths.find? (fun path => !files.contains path) = some path) : path ∉ files.keys := by
  have hnot := List.find?_some (p := fun path => !files.contains path) h
  exact not_contains_iff.mp hnot

theorem dangles_of_danglingIn? {index : Index} {key : Text}
    (h : danglingIn? files index = some (key, path)) :
    index.Has key path ∧ path ∉ files.keys := by
  obtain ⟨⟨k, paths⟩, hentry, h⟩ := List.exists_of_findSome?_eq_some h
  obtain ⟨p, hfind, heq⟩ := Option.map_eq_some_iff.mp h
  obtain ⟨rfl, rfl⟩ := Prod.mk.inj heq
  exact ⟨⟨paths, KeyMap.find?_eq_some_iff.mpr hentry, List.mem_of_find?_eq_some hfind⟩,
    not_mem_keys_of_find? hfind⟩

theorem mem_keys_of_danglingIn?_eq_none {index : Index} {key : Text}
    (h : danglingIn? files index = none) (hhas : index.Has key path) : path ∈ files.keys := by
  obtain ⟨paths, hfind, hmem⟩ := hhas
  have hentry := List.findSome?_eq_none_iff.mp h _ (KeyMap.find?_eq_some_iff.mp hfind)
  have hpath := List.find?_eq_none.mp (Option.map_eq_none_iff.mp hentry) path hmem
  by_contra hnot
  exact hpath (not_contains_iff.mpr hnot)

/-- What the check finds dangles, and nothing dangles that it would have found before. -/
theorem dangles_of_dangling? {s : Snapshot} {r : DanglingReference} (h : s.dangling? = some r) :
    s.Dangles r ∧ ∀ other, s.Dangles other → r.stage ≤ other.stage := by
  rw [dangling?] at h
  split at h
  next key path hconcepts =>
    obtain rfl := Option.some.inj h
    exact ⟨dangles_of_danglingIn? hconcepts, fun _ _ => Nat.zero_le _⟩
  next hconcepts =>
    have hconcept {key path : Text} : ¬ s.Dangles (.concept key path) := fun hdangles =>
      hdangles.2 (mem_keys_of_danglingIn?_eq_none hconcepts hdangles.1)
    split at h
    next key path htags =>
      obtain rfl := Option.some.inj h
      refine ⟨dangles_of_danglingIn? htags, ?_⟩
      rintro (_ | _ | _) hother
      · exact absurd hother hconcept
      · exact Nat.le_refl 1
      · exact Nat.le_succ 1
    next htags =>
      have htag {key path : Text} : ¬ s.Dangles (.tag key path) := fun hdangles =>
        hdangles.2 (mem_keys_of_danglingIn?_eq_none htags hdangles.1)
      obtain ⟨path, hfind, rfl⟩ := Option.map_eq_some_iff.mp h
      refine ⟨⟨List.mem_of_find?_eq_some hfind, not_mem_keys_of_find? hfind⟩, ?_⟩
      rintro (_ | _ | _) hother
      · exact absurd hother hconcept
      · exact absurd hother htag
      · exact Nat.le_refl 2

theorem dangling?_eq_none_iff {s : Snapshot} : s.dangling? = none ↔ s.IsClosed := by
  constructor
  · intro h
    rw [dangling?] at h
    split at h
    next => cases h
    next hconcepts =>
      split at h
      next => cases h
      next htags =>
        refine ⟨fun _ _ => mem_keys_of_danglingIn?_eq_none hconcepts,
          fun _ _ => mem_keys_of_danglingIn?_eq_none htags, fun path hmem => ?_⟩
        have hpath := List.find?_eq_none.mp (Option.map_eq_none_iff.mp h) path hmem
        by_contra hnot
        exact hpath (not_contains_iff.mpr hnot)
  · intro hclosed
    rw [Option.eq_none_iff_forall_ne_some]
    exact fun r hr => isClosed_iff.mp hclosed r (dangles_of_dangling? hr).1

/-- The indexes and numbers of a snapshot that is made from notes are exact, and nothing in it
dangles. In any snapshot whatever, the check finds nothing exactly if the snapshot is closed;
what it finds dangles, and belongs to the first stage of the check at which anything does. -/
theorem indexes_exact_and_closed :
    (∀ files : KeyMap Text Note, (ofNotes files).IsExact files ∧ (ofNotes files).dangling? = none) ∧
      ∀ s : Snapshot, (s.dangling? = none ↔ s.IsClosed) ∧
        ∀ r, s.dangling? = some r →
          s.Dangles r ∧ ∀ other, s.Dangles other → r.stage ≤ other.stage :=
  ⟨fun files => ⟨isExact_ofNotes files, dangling?_ofNotes files⟩,
    fun _ => ⟨dangling?_eq_none_iff, fun _ => dangles_of_dangling?⟩⟩

/-- The snapshot of a note with a concept in two cases, with a tag of a note that is not there
and the links of another one added to it. -/
def withUnknownNotes : Snapshot :=
  let note : Note := { Note.empty with concepts := ["Rust".toList, "rust".toList] }
  let s := ofNotes (KeyMap.ofList [("a.md".toList, note)])
  { s with
    tags := s.tags.add "x".toList "ghost.md".toList
    links := s.links.add "gone.md".toList "a.md".toList }

/-- The tag is named and not the links, which dangle too. -/
theorem unknown_tag_found_before_links :
    withUnknownNotes.dangling? = some (.tag "x".toList "ghost.md".toList) ∧
      withUnknownNotes.Dangles (.tag "x".toList "ghost.md".toList) ∧
        ¬ withUnknownNotes.IsClosed ∧ withUnknownNotes.stats.totalConcepts = 1 := by
  have hfound : withUnknownNotes.dangling? = some (.tag "x".toList "ghost.md".toList) := rfl
  obtain ⟨hexact, hchecked⟩ := indexes_exact_and_closed
  obtain ⟨hiff, hnamed⟩ := hchecked withUnknownNotes
  refine ⟨hfound, (hnamed _ hfound).1, fun hclosed => ?_, ?_⟩
  · cases hfound.symm.trans (hiff.mpr hclosed)
  · exact (hexact _).1.totalConcepts

end Snapshot

end NoteLinks
