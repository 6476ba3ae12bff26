/-
# What is known of a vault

The notes of a vault are the files at places that its scan comes to. A snapshot has one record
for each of them, under the key that leads there, and the record is read from the text of the
file. So what is known of a vault is known as soon as the texts of its notes are.
-/
import NoteLinks.Proofs.Ordered.KeyMap
import NoteLinks.Proofs.Tree.Target
import NoteLinks.Proofs.Vault.Keys

namespace NoteLinks

namespace Tree

variable {t : Tree} {dir names : Place} {e : Entry}

theorem mem_below_iff :
    (names, e) ∈ t.below dir ↔ names ≠ [] ∧ t.find? (dir ++ names) = some e := by
  rw [below, List.mem_filterMap, find?, KeyMap.find?_eq_some_iff]
  constructor
  · rintro ⟨⟨place, e'⟩, hmem, heq⟩
    rw [Option.ite_none_right_eq_some, Bool.and_eq_true, List.isPrefixOf_iff_prefix,
      decide_eq_true_eq] at heq
    obtain ⟨⟨⟨rest, rfl⟩, hlength⟩, heq⟩ := heq
    rw [List.drop_left, Option.some.injEq, Prod.mk.injEq] at heq
    obtain ⟨rfl, rfl⟩ := heq
    refine ⟨?_, hmem⟩
    rintro rfl
    simp at hlength
  · rintro ⟨hne, hmem⟩
    refine ⟨_, hmem, ?_⟩
    have hlength : 0 < names.length := List.length_pos_iff.mpr hne
    simp [hlength]

/-- There is a file at a place, and it has this text. -/
def HasText (t : Tree) (place : Place) (content : Text) : Prop :=
  ∃ bytes, t.find? place = some (.file bytes) ∧ Text.decode? bytes = some content

theorem HasText.isSome {place : Place} {content : Text} (h : t.HasText place content) :
    (t.find? place).isSome := by
  obtain ⟨bytes, hfind, -⟩ := h
  rw [hfind]
  rfl

theorem HasText.of_find?_eq {t' : Tree} {place : Place} {content : Text}
    (h : t.HasText place content) (heq : t'.find? place = t.find? place) :
    t'.HasText place content := by
  rwa [HasText, heq]

theorem HasText.unique {place : Place} {content content' : Text} (h : t.HasText place content)
    (h' : t.HasText place content') : content = content' := by
  obtain ⟨bytes, hfind, hdecode⟩ := h
  obtain ⟨bytes', hfind', hdecode'⟩ := h'
  obtain rfl : bytes = bytes' := by simpa using hfind.symm.trans hfind'
  exact Option.some.inj (hdecode.symm.trans hdecode')

end Tree

namespace Vault

variable {t : Tree} {v : Vault} {excluded : List Text} {names : Place} {bytes : ByteArray}
  {key content : Text}

/-- The scan of a vault comes to these names, and they are those of a note. -/
def IsNotePlace (excluded : List Text) (names : Place) : Prop :=
  reaches excluded names = true ∧ ∃ name, names.getLast? = some name ∧ isNoteName name = true

theorem IsNotePlace.ne_nil (h : IsNotePlace excluded names) : names ≠ [] := by
  rintro rfl
  obtain ⟨-, name, hlast, -⟩ := h
  cases hlast

theorem mem_notes_iff :
    (names, bytes) ∈ v.notes t excluded ↔
      IsNotePlace excluded names ∧ t.find? (v.place ++ names) = some (.file bytes) := by
  rw [notes, List.mem_filterMap]
  constructor
  · rintro ⟨⟨names', e⟩, hmem, heq⟩
    obtain ⟨-, hfind⟩ := Tree.mem_below_iff.mp hmem
    dsimp only at heq
    split at heq
    next bytes' name hlast =>
      rw [Option.ite_none_right_eq_some, Bool.and_eq_true, Option.some.injEq, Prod.mk.injEq] at heq
      obtain ⟨⟨hreaches, hname⟩, rfl, rfl⟩ := heq
      exact ⟨⟨hreaches, name, hlast, hname⟩, hfind⟩
    next => cases heq
  · rintro ⟨hplace, hfind⟩
    refine ⟨_, Tree.mem_below_iff.mpr ⟨hplace.ne_nil, hfind⟩, ?_⟩
    obtain ⟨hreaches, name, hlast, hname⟩ := hplace
    simp [hlast, hreaches, hname]

theorem isName_of_mem_notes (h : (names, bytes) ∈ v.notes t excluded) :
    ∀ name ∈ names, isName name = true := by
  have hsome : (t.find? (v.place ++ names)).isSome := by
    rw [(mem_notes_iff.mp h).2]
    rfl
  exact Tree.isName_of_isSome hsome

theorem key?_of_mem_notes (h : (names, bytes) ∈ v.notes t excluded) :
    v.key? names = some (keyOf names) :=
  v.key?_eq (mem_notes_iff.mp h).1.ne_nil (isName_of_mem_notes h)

/-! ## The directory of a vault -/

theorem find_eq_directory? (t : Tree) (here : Place) (path : Text) :
    find t here path =
      match if path.isEmpty then none
        else t.directory? (Tree.start here path) (Path.segments path) with
      | some place => .ok ⟨path, place⟩
      | none => .error (.notFound path) := by
  rw [find, Tree.locate, Tree.directory?]
  by_cases hpath : path.isEmpty
  · rw [if_pos hpath, if_pos hpath]
  · rw [if_neg hpath, if_neg hpath]
    cases t.follow (Tree.start here path) (Path.segments path) with
    | error e => rfl
    | ok place => by_cases hdir : t.isDirectory place <;> simp [hdir]

/-- Whether there is a vault depends on the directories only. -/
theorem find_congr {t' : Tree} (hdir : ∀ p, t'.isDirectory p = t.isDirectory p) (here : Place)
    (path : Text) : find t' here path = find t here path := by
  rw [find_eq_directory?, find_eq_directory?, Tree.directory?_congr hdir]

/-! ## Notes and their texts -/

/-- A note stands below the vault's directory under these names, and it has this text. -/
structure HasNote (t : Tree) (v : Vault) (excluded : List Text) (names : Place) (content : Text) :
    Prop where
  place : IsNotePlace excluded names
  text : t.HasText (v.place ++ names) content

/-- What a scan files under a key, before any of it is overwritten. -/
theorem mem_filed_iff {note : Note} :
    (key, note) ∈ ((v.notes t excluded).filterMap fun (names, bytes) =>
        (v.key? names).map fun key => (key, noteOf key bytes)) ↔
      ∃ names bytes, (names, bytes) ∈ v.notes t excluded ∧ keyOf names = key ∧
        noteOf key bytes = note := by
  rw [List.mem_filterMap]
  constructor
  · rintro ⟨⟨names, bytes⟩, hmem, heq⟩
    dsimp only at heq
    rw [key?_of_mem_notes hmem] at heq
    cases heq
    exact ⟨names, bytes, hmem, rfl, rfl⟩
  · rintro ⟨names, bytes, hmem, rfl, rfl⟩
    refine ⟨(names, bytes), hmem, ?_⟩
    dsimp only
    rw [key?_of_mem_notes hmem]
    rfl

theorem find?_analyze {note : Note} :
    (v.analyze t excluded).files.find? key = some note ↔
      ∃ names bytes, (names, bytes) ∈ v.notes t excluded ∧ keyOf names = key ∧
        noteOf key bytes = note := by
  show (KeyMap.ofList _).find? key = some note ↔ _
  rw [KeyMap.find?_ofList_eq_some_iff, mem_filed_iff]
  intro key first second hfirst hsecond
  obtain ⟨names, bytes, hmem, rfl, rfl⟩ := mem_filed_iff.mp hfirst
  obtain ⟨names', bytes', hmem', heq, rfl⟩ := mem_filed_iff.mp hsecond
  obtain rfl := keyOf_injective (mem_notes_iff.mp hmem').1.ne_nil (mem_notes_iff.mp hmem).1.ne_nil
    (isName_of_mem_notes hmem') (isName_of_mem_notes hmem) heq
  have hbytes := (mem_notes_iff.mp hmem).2.symm.trans (mem_notes_iff.mp hmem').2
  cases hbytes
  rfl

/-- What is known of a note is read from its text. -/
theorem find?_analyze_of_hasNote (h : HasNote t v excluded names content) :
    (v.analyze t excluded).files.find? (keyOf names) =
      some (Note.read (keyOf names) content) := by
  obtain ⟨hplace, bytes, hfind, hdecode⟩ := h
  refine find?_analyze.mpr ⟨names, bytes, mem_notes_iff.mpr ⟨hplace, hfind⟩, rfl, ?_⟩
  rw [noteOf, hdecode]

/-- All notes of a vault are texts. -/
def IsReadable (t : Tree) (v : Vault) (excluded : List Text) : Prop :=
  ∀ names bytes, (names, bytes) ∈ v.notes t excluded → (Text.decode? bytes).isSome

/-- What is known of a readable vault is known of notes that have a text. -/
theorem exists_hasNote {note : Note} (h : (v.analyze t excluded).files.find? key = some note)
    (hreadable : v.IsReadable t excluded) :
    ∃ names content, keyOf names = key ∧ HasNote t v excluded names content ∧
      note = Note.read key content := by
  obtain ⟨names, bytes, hmem, hkey, rfl⟩ := find?_analyze.mp h
  obtain ⟨content, hdecode⟩ := Option.isSome_iff_exists.mp (hreadable names bytes hmem)
  obtain ⟨hplace, hfind⟩ := mem_notes_iff.mp hmem
  refine ⟨names, content, hkey, ⟨hplace, bytes, hfind, hdecode⟩, ?_⟩
  rw [noteOf, hdecode]

/-! ## Small vaults -/

/-- The vault whose directory is the root of the tree. -/
def atRoot : Vault := ⟨['/'], []⟩

/-- A tree with some files in its root. -/
def treeOf : List (Text × Text) → Tree
  | [] => .empty
  | (name, content) :: rest =>
    if h : (treeOf rest).HasRoom [] name then
      (treeOf rest).put [] name (.file (Text.encode content)) h
    else treeOf rest

end Vault

end NoteLinks
