/-
# The walk through a vault

The notes of a vault are found by going through its directory: what is in a directory is taken
in the order of the names, and where a name is that of a directory, what is in it comes next. A
directory that is passed over is not entered, so nothing below it is found. The list of notes is
what this walk finds. It is in the order of the names that lead to the notes, so a file and a
directory beside it stand as their names do, and the order is the same if the names are compared
as bytes.
-/
import NoteLinks.Proofs.Ordered.KeyMap
import NoteLinks.Proofs.Text.ByteOrder
import NoteLinks.Proofs.Tree.Following
import NoteLinks.Proofs.Vault.Notes

namespace NoteLinks

/-! ## What is in a directory -/

theorem append_lt_append_iff {κ : Type} [LT κ] [LawfulKey κ] (above : List κ) {a b : List κ} :
    above ++ a < above ++ b ↔ a < b := by
  induction above with
  | nil => rfl
  | cons x above ih =>
      rw [List.cons_append, List.cons_append, List.cons_lt_cons_iff, ih]
      simp [LawfulKey.irrefl x]

namespace Tree

variable {t : Tree} {dir : Place} {name : Text} {e : Entry}

/-- What stands below a directory is in the order of the names that lead to it. -/
theorem ascending_below (t : Tree) (dir : Place) : (t.below dir).Pairwise (·.1 < ·.1) := by
  refine List.Pairwise.filterMap _ ?_ t.entries.ascending
  rintro ⟨place, e⟩ ⟨place', e'⟩ hlt x hx y hy
  rw [Option.ite_none_right_eq_some, Bool.and_eq_true, List.isPrefixOf_iff_prefix] at hx hy
  obtain ⟨⟨⟨names, rfl⟩, -⟩, hx⟩ := hx
  obtain ⟨⟨⟨names', rfl⟩, -⟩, hy⟩ := hy
  rw [List.drop_left] at hx hy
  cases hx
  cases hy
  exact (append_lt_append_iff dir).mp hlt

/-- What is in a directory itself, in the order of the names. -/
def children (t : Tree) (dir : Place) : List (Text × Entry) :=
  (t.below dir).filterMap fun (names, e) =>
    match names with
    | [name] => some (name, e)
    | _ => none

theorem mem_children_iff : (name, e) ∈ t.children dir ↔ t.find? (dir ++ [name]) = some e := by
  rw [children, List.mem_filterMap]
  constructor
  · rintro ⟨⟨names, e'⟩, hmem, heq⟩
    dsimp only at heq
    split at heq
    next =>
      cases heq
      exact (mem_below_iff.mp hmem).2
    next => cases heq
  · intro hfind
    exact ⟨([name], e), mem_below_iff.mpr ⟨List.cons_ne_nil _ _, hfind⟩, rfl⟩

theorem ascending_children (t : Tree) (dir : Place) : (t.children dir).Pairwise (·.1 < ·.1) := by
  refine List.Pairwise.filterMap _ ?_ (t.ascending_below dir)
  rintro ⟨names, e⟩ ⟨names', e'⟩ hlt x hx y hy
  dsimp only at hx hy
  split at hx
  next name =>
    split at hy
    next name' =>
      cases hx
      cases hy
      simpa [List.cons_lt_cons_iff] using hlt
    next => cases hy
  next => cases hx

/-- What stands below something in a directory stands below the directory, under names of which
the first leads there. -/
theorem below_concat (t : Tree) (dir : Place) (name : Text) :
    t.below (dir ++ [name]) = (t.below dir).filterMap fun (names, e) =>
      if [name].isPrefixOf names && 1 < names.length then some (names.drop 1, e) else none := by
  rw [below, below, List.filterMap_filterMap]
  refine List.filterMap_congr ?_
  rintro ⟨place, e⟩ -
  by_cases hprefix : dir <+: place
  · obtain ⟨names, rfl⟩ := hprefix
    have hsame : (dir ++ [name]).isPrefixOf (dir ++ names) = [name].isPrefixOf names := by
      rw [Bool.eq_iff_iff, List.isPrefixOf_iff_prefix, List.isPrefixOf_iff_prefix,
        List.prefix_append_right_inj]
    cases names with
    | nil => simp
    | cons first rest => simp [hsame]
  · have hnot : ¬ dir ++ [name] <+: place := fun h => hprefix ((List.prefix_append _ _).trans h)
    simp [List.isPrefixOf_iff_prefix, hprefix, hnot]

/-- The walk goes down: below what is in a directory there is less than below the directory. -/
theorem length_below_lt (h : (name, e) ∈ t.children dir) :
    (t.below (dir ++ [name])).length < (t.below dir).length := by
  have hmem : ([name], e) ∈ t.below dir :=
    mem_below_iff.mpr ⟨List.cons_ne_nil _ _, mem_children_iff.mp h⟩
  rw [below_concat, List.length_filterMap_lt_length_iff_exists]
  exact ⟨([name], e), hmem, by simp⟩

end Tree

namespace Vault

variable {t : Tree} {v : Vault} {excluded : List Text} {dir names : Place} {name : Text}
  {bytes : ByteArray}

/-! ## The walk -/

/-- The notes that the walk finds under a name. If it is the name of a directory, they are those
that are found in the directory, unless it is passed over. -/
def visit (excluded : List Text) (inside : List (Place × ByteArray)) (name : Text) :
    Entry → List (Place × ByteArray)
  | .file bytes => if !isHidden name && isNoteName name then [([name], bytes)] else []
  | .directory =>
    if !isHidden name && !excluded.contains name then
      inside.map fun (names, bytes) => (name :: names, bytes)
    else []

/-- The notes that the walk through a directory finds, under the names that lead to them from
there. -/
def walk (t : Tree) (excluded : List Text) (dir : Place) : List (Place × ByteArray) :=
  (t.children dir).attach.flatMap fun ⟨(name, e), _⟩ =>
    visit excluded (walk t excluded (dir ++ [name])) name e
termination_by (t.below dir).length
decreasing_by exact Tree.length_below_lt ‹_›

theorem walk_eq_flatMap (t : Tree) (excluded : List Text) (dir : Place) :
    walk t excluded dir = (t.children dir).flatMap fun child =>
      visit excluded (walk t excluded (dir ++ [child.1])) child.1 child.2 := by
  conv_rhs => rw [← List.attach_map_subtype_val (t.children dir), List.flatMap_map]
  rw [walk]

theorem mem_visit_iff {inside : List (Place × ByteArray)} {e : Entry} :
    (names, bytes) ∈ visit excluded inside name e ↔
      (names = [name] ∧ e = .file bytes ∧ isHidden name = false ∧ isNoteName name = true) ∨
      ∃ rest, names = name :: rest ∧ e = .directory ∧ isHidden name = false ∧
        excluded.contains name = false ∧ (rest, bytes) ∈ inside := by
  cases e with
  | file bytes' =>
      rw [visit]
      constructor
      · intro h
        split at h
        next hvisible =>
          rw [Bool.and_eq_true, Bool.not_eq_true'] at hvisible
          cases List.mem_singleton.mp h
          exact .inl ⟨rfl, rfl, hvisible⟩
        next => cases h
      · rintro (⟨rfl, heq, hhidden, hname⟩ | ⟨rest, -, heq, -⟩)
        · cases heq
          simp [hhidden, hname]
        · cases heq
  | directory =>
      rw [visit]
      constructor
      · intro h
        split at h
        next hentered =>
          simp only [Bool.and_eq_true, Bool.not_eq_true'] at hentered
          obtain ⟨⟨rest, bytes'⟩, hmem, heq⟩ := List.mem_map.mp h
          cases heq
          exact .inr ⟨rest, rfl, rfl, hentered.1, hentered.2, hmem⟩
        next => cases h
      · rintro (⟨-, heq, -⟩ | ⟨rest, rfl, -, hhidden, hexcluded, hmem⟩)
        · cases heq
        · rw [hhidden, hexcluded]
          exact List.mem_map_of_mem hmem

theorem isNotePlace_cons_iff {rest : Place} :
    IsNotePlace excluded (name :: rest) ↔
      isHidden name = false ∧ (rest = [] ∧ isNoteName name = true ∨
        excluded.contains name = false ∧ IsNotePlace excluded rest) := by
  cases rest with
  | nil => simp [IsNotePlace, reaches]
  | cons next rest => simp [IsNotePlace, reaches, and_assoc]

/-- The walk finds the files that a scan comes to. -/
theorem mem_walk_iff :
    (names, bytes) ∈ walk t excluded dir ↔
      IsNotePlace excluded names ∧ t.find? (dir ++ names) = some (.file bytes) := by
  induction names generalizing dir with
  | nil =>
      constructor
      · intro h
        rw [walk_eq_flatMap, List.mem_flatMap] at h
        obtain ⟨child, -, hvisit⟩ := h
        rcases mem_visit_iff.mp hvisit with ⟨heq, -⟩ | ⟨rest, heq, -⟩
        · cases heq
        · cases heq
      · rintro ⟨hplace, -⟩
        exact absurd rfl hplace.ne_nil
  | cons name rest ih =>
      rw [walk_eq_flatMap, List.mem_flatMap, isNotePlace_cons_iff]
      constructor
      · rintro ⟨⟨other, e⟩, hmem, hvisit⟩
        have hfind := Tree.mem_children_iff.mp hmem
        rcases mem_visit_iff.mp hvisit with
          ⟨heq, rfl, hhidden, hname⟩ | ⟨below, heq, rfl, hhidden, hexcluded, hbelow⟩
        -- Either the name is that of the note, or the walk has entered the directory.
        · cases heq
          exact ⟨⟨hhidden, .inl ⟨rfl, hname⟩⟩, hfind⟩
        · cases heq
          obtain ⟨hplace, hfile⟩ := ih.mp hbelow
          rw [List.append_assoc] at hfile
          exact ⟨⟨hhidden, .inr ⟨hexcluded, hplace⟩⟩, hfile⟩
      · rintro ⟨⟨hhidden, ⟨rfl, hname⟩ | ⟨hexcluded, hplace⟩⟩, hfind⟩
        · refine ⟨(name, .file bytes), Tree.mem_children_iff.mpr hfind, ?_⟩
          exact mem_visit_iff.mpr (.inl ⟨rfl, rfl, hhidden, hname⟩)
        · obtain ⟨next, rest, rfl⟩ := List.exists_cons_of_ne_nil hplace.ne_nil
          rw [List.append_cons] at hfind
          -- What has something below it is a directory, so the walk does enter it.
          have hdir : t.find? (dir ++ [name]) = some .directory := by
            have hsome : (t.find? (dir ++ [name] ++ next :: rest)).isSome := by
              rw [hfind]
              rfl
            exact of_decide_eq_true (Tree.isDirectory_of_append_cons hsome)
          refine ⟨(name, .directory), Tree.mem_children_iff.mpr hdir, ?_⟩
          exact mem_visit_iff.mpr
            (.inr ⟨_, rfl, rfl, hhidden, hexcluded, ih.mpr ⟨hplace, hfind⟩⟩)

/-! ## The order of notes -/

theorem exists_eq_cons_of_mem_visit {inside : List (Place × ByteArray)} {e : Entry}
    (h : (names, bytes) ∈ visit excluded inside name e) : ∃ rest, names = name :: rest := by
  rcases mem_visit_iff.mp h with ⟨heq, -⟩ | ⟨rest, heq, -⟩
  · exact ⟨[], heq⟩
  · exact ⟨rest, heq⟩

theorem ascending_visit {inside : List (Place × ByteArray)} (h : inside.Pairwise (·.1 < ·.1))
    (excluded : List Text) (name : Text) (e : Entry) :
    (visit excluded inside name e).Pairwise (·.1 < ·.1) := by
  cases e with
  | file bytes =>
      rw [visit]
      split
      · exact List.pairwise_singleton _ _
      · exact .nil
  | directory =>
      rw [visit]
      split
      · refine List.pairwise_map.mpr (h.imp fun hlt => ?_)
        exact List.cons_lt_cons_iff.mpr (.inr ⟨rfl, hlt⟩)
      · exact .nil

/-- The walk comes to the notes in the order of their names. What it finds under different names
of a directory differs in the first name already. -/
theorem ascending_walk (t : Tree) (excluded : List Text) (dir : Place) :
    (walk t excluded dir).Pairwise (·.1 < ·.1) := by
  induction dir using walk.induct t with
  | case1 dir ih =>
      rw [walk_eq_flatMap, List.pairwise_flatMap]
      constructor
      · rintro ⟨name, e⟩ hmem
        exact ascending_visit (ih name e hmem) excluded name e
      · refine (t.ascending_children dir).imp ?_
        rintro ⟨name, e⟩ ⟨name', e'⟩ hlt ⟨names, bytes⟩ hmem ⟨names', bytes'⟩ hmem'
        obtain ⟨rest, rfl⟩ := exists_eq_cons_of_mem_visit hmem
        obtain ⟨rest', rfl⟩ := exists_eq_cons_of_mem_visit hmem'
        exact List.cons_lt_cons_iff.mpr (.inl hlt)

theorem ascending_notes (t : Tree) (v : Vault) (excluded : List Text) :
    (v.notes t excluded).Pairwise (·.1 < ·.1) := by
  refine List.Pairwise.filterMap _ ?_ (t.ascending_below v.place)
  rintro ⟨names, e⟩ ⟨names', e'⟩ hlt x hx y hy
  dsimp only at hx hy
  split at hx
  next =>
    rw [Option.ite_none_right_eq_some] at hx
    split at hy
    next =>
      rw [Option.ite_none_right_eq_some] at hy
      cases hx.2
      cases hy.2
      exact hlt
    next => cases hy
  next => cases hx

/-- The notes of a vault are what a walk through its directory finds. -/
theorem notes_eq_walk (t : Tree) (v : Vault) (excluded : List Text) :
    v.notes t excluded = walk t excluded v.place := by
  let found : KeyMap Place ByteArray := ⟨walk t excluded v.place, ascending_walk t excluded v.place⟩
  let listed : KeyMap Place ByteArray := ⟨v.notes t excluded, ascending_notes t v excluded⟩
  have hsame : listed = found := KeyMap.ext_mem fun _ => mem_notes_iff.trans mem_walk_iff.symm
  exact congrArg KeyMap.entries hsame

/-! ## What a scan finds -/

theorem isHidden_eq_false_iff : isHidden name = false ↔ name.head? ≠ some '.' := by
  rw [isHidden, beq_eq_false_iff_ne]

/-- A scan comes to names none of which is hidden, if those of the directories on the way are not
excluded. -/
theorem reaches_iff :
    reaches excluded names = true ↔
      names ≠ [] ∧ (∀ name ∈ names, name.head? ≠ some '.') ∧
        ∀ name ∈ names.dropLast, name ∉ excluded := by
  induction names with
  | nil => simp [reaches]
  | cons name rest ih =>
      cases rest with
      | nil => simp [reaches, isHidden_eq_false_iff]
      | cons next rest =>
          have hstep : reaches excluded (name :: next :: rest) = true ↔
              (name.head? ≠ some '.' ∧ name ∉ excluded) ∧
                reaches excluded (next :: rest) = true := by
            simp [reaches, isHidden_eq_false_iff]
          rw [hstep, ih, List.dropLast_cons_cons]
          constructor
          · rintro ⟨⟨hname, hnot⟩, -, hrest, hnots⟩
            exact ⟨List.cons_ne_nil _ _, List.forall_mem_cons.mpr ⟨hname, hrest⟩,
              List.forall_mem_cons.mpr ⟨hnot, hnots⟩⟩
          · rintro ⟨-, hvisible, hentered⟩
            obtain ⟨hname, hrest⟩ := List.forall_mem_cons.mp hvisible
            obtain ⟨hnot, hnots⟩ := List.forall_mem_cons.mp hentered
            exact ⟨⟨hname, hnot⟩, List.cons_ne_nil _ _, hrest, hnots⟩

/-- A path that leads to a directory leads to a vault, whatever the name of the directory is. Its
notes are what a walk through the directory finds. They are the files below it that have the
extension of notes, none of whose names is hidden, and none of whose directories is excluded. Each
is found once, and they are in the order of their names, where names are compared as bytes. Under
the keys that the names make up, and under no other, a snapshot has what is read from the texts of
the notes, and nothing where a note is no text. -/
theorem notes_are_visible_files (t : Tree) (here place : Place) (path : Text)
    (excluded : List Text) (hpath : t.locate here path = .ok place)
    (hdir : t.isDirectory place = true) :
    let v : Vault := ⟨path, place⟩
    find t here path = .ok v ∧
    v.notes t excluded = walk t excluded place ∧
    (∀ names bytes, (names, bytes) ∈ v.notes t excluded ↔
      t.find? (place ++ names) = some (.file bytes) ∧
      (∃ name, names.getLast? = some name ∧ Path.extension? name = some ['m', 'd']) ∧
      (∀ name ∈ names, name.head? ≠ some '.') ∧
      ∀ name ∈ names.dropLast, name ∉ excluded) ∧
    (v.notes t excluded).Pairwise (fun a b => a.1.map Text.bytes < b.1.map Text.bytes) ∧
    ∀ key note, (v.analyze t excluded).files.find? key = some note ↔
      ∃ names bytes, (names, bytes) ∈ v.notes t excluded ∧ v.key? names = some key ∧
        key = Text.join ['/'] names ∧
        note = match Text.decode? bytes with
          | some content => Note.read key content
          | none => Note.empty := by
  intro v
  refine ⟨?_, notes_eq_walk t v excluded, ?_, ?_, ?_⟩
  · rw [find, hpath]
    exact if_pos hdir
  · intro names bytes
    rw [mem_notes_iff, IsNotePlace, reaches_iff]
    constructor
    · rintro ⟨⟨⟨-, hvisible, hentered⟩, name, hlast, hname⟩, hfind⟩
      exact ⟨hfind, ⟨name, hlast, beq_iff_eq.mp hname⟩, hvisible, hentered⟩
    · rintro ⟨hfind, ⟨name, hlast, hname⟩, hvisible, hentered⟩
      refine ⟨⟨⟨?_, hvisible, hentered⟩, name, hlast, beq_iff_eq.mpr hname⟩, hfind⟩
      rintro rfl
      cases hlast
  · exact (ascending_notes t v excluded).imp Text.map_bytes_lt_of_lt
  · intro key note
    rw [find?_analyze]
    constructor
    · rintro ⟨names, bytes, hmem, rfl, rfl⟩
      exact ⟨names, bytes, hmem, key?_of_mem_notes hmem, rfl, rfl⟩
    · rintro ⟨names, bytes, hmem, -, rfl, rfl⟩
      exact ⟨names, bytes, hmem, rfl, rfl⟩

/-- A vault in a hidden directory. It has a note in a directory, a note of almost the same name
beside the directory, which is no text, and a note in another directory. -/
def nestedVault : Tree :=
  let t := Tree.empty.put [] ".v".toList .directory (by decide +kernel)
  let t := t.put [".v".toList] "a.md".toList (.file ⟨#[0xff]⟩) (by decide +kernel)
  let t := t.put [".v".toList] "a".toList .directory (by decide +kernel)
  let t := t.put [".v".toList, "a".toList] "z.md".toList (.file ⟨#[]⟩) (by decide +kernel)
  let t := t.put [".v".toList] "b".toList .directory (by decide +kernel)
  t.put [".v".toList, "b".toList] "n.md".toList (.file ⟨#[]⟩) (by decide +kernel)

/-- The note in the directory comes first. A file may have an excluded name, but what is in an
excluded directory is not found. -/
theorem notes_of_nestedVault :
    let v : Vault := ⟨"/.v".toList, [".v".toList]⟩
    let excluded := ["b".toList, "a.md".toList]
    (nestedVault.locate [] v.path = .ok v.place ∧ nestedVault.isDirectory v.place = true) ∧
      find nestedVault [] v.path = .ok v ∧
      (walk nestedVault excluded v.place).map (·.1) =
        [["a".toList, "z.md".toList], ["a.md".toList]] ∧
      (["a.md".toList], ⟨#[0xff]⟩) ∈ v.notes nestedVault excluded ∧
      (["b".toList, "n.md".toList], ⟨#[]⟩) ∉ v.notes nestedVault excluded ∧
      (v.analyze nestedVault excluded).files.find? "a.md".toList = some Note.empty := by
  intro v excluded
  have hpath : nestedVault.locate [] v.path = .ok v.place := by rfl
  have hdir : nestedVault.isDirectory v.place = true := by decide +kernel
  obtain ⟨hfind, hwalk, hnotes, -, hfiles⟩ :=
    notes_are_visible_files nestedVault [] v.place v.path excluded hpath hdir
  have hmem : (["a.md".toList], ⟨#[0xff]⟩) ∈ v.notes nestedVault excluded :=
    (hnotes _ _).mpr ⟨by rfl, ⟨_, rfl, by decide⟩, by decide, by decide⟩
  refine ⟨⟨hpath, hdir⟩, hfind, ?_, hmem, ?_, ?_⟩
  · rw [← hwalk]
    decide +kernel
  · intro hentered
    obtain ⟨-, -, -, hexcluded⟩ := (hnotes _ _).mp hentered
    exact hexcluded "b".toList (by decide) (by decide)
  · exact (hfiles _ _).mpr ⟨_, _, hmem, by rfl, rfl, by rfl⟩

end Vault

end NoteLinks
