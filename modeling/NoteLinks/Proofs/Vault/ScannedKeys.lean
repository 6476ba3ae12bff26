/-
# The keys of a scan

A scan names every note by a key, and a run takes keys for paths below the vault's directory.
These two translations fit together for every vault and by whatever path the vault is known: the
scan gives each note a key of its own, and followed as a path the key leads to the file that the
record was read from. Suggestions are only made to notes whose files are texts. So a run over the
suggestions of a scan finds all its files and can read them, and what it writes to are notes of
the scan and the copies of these notes.
-/
import NoteLinks.Proofs.Vault.Copies
import NoteLinks.Proofs.Vault.Rescan

namespace NoteLinks.Vault

open Insertion (Plan)

variable {t : Tree} {here place : Place} {v : Vault} {o : ApplyOptions} {clock : Clock}
  {key content : Text} {excluded : List Text} {thresholds : Thresholds} {names : Place}
  {bytes : ByteArray} {suggestions : List Suggestion}

/-! ## Notes and their keys -/

theorem targets_of_mem_notes (h : (names, bytes) ∈ v.notes t excluded) :
    Targets v (keyOf names) (v.place ++ names) :=
  targets_keyOf v (mem_notes_iff.mp h).1.ne_nil (isName_of_mem_notes h)

/-- The key of a note leads to the note. -/
theorem leadsTo_of_mem_notes (h : (names, bytes) ∈ v.notes t excluded) :
    v.leadsTo t (keyOf names) (v.place ++ names) = true :=
  (leadsTo_iff_targets (Tree.isFile_iff.mpr ⟨bytes, (mem_notes_iff.mp h).2⟩)).mpr
    (targets_of_mem_notes h)

/-- The path of a note leads to the note. -/
theorem locate_pathOf (hvault : find t here v.path = .ok v)
    (h : (names, bytes) ∈ v.notes t excluded) :
    t.locate here (v.pathOf names) = .ok (v.place ++ names) := by
  obtain ⟨hadmits, hlocate⟩ := leadsTo_iff.mp (leadsTo_of_mem_notes h)
  rw [pathOf, Tree.locate_below (locate_of_find hvault).2 (admits_iff.mp hadmits).2.1]
  exact hlocate

/-! ## Suggestions of a scan -/

theorem exists_mem_notes_of_hasNote (h : HasNote t v excluded names content) :
    ∃ bytes, (names, bytes) ∈ v.notes t excluded := by
  obtain ⟨hplace, bytes, hfind, -⟩ := h
  exact ⟨bytes, mem_notes_iff.mpr ⟨hplace, hfind⟩⟩

/-- The keys of the suggestions are those of different notes. -/
theorem areNoteKeys_suggestions :
    AreNoteKeys v ((v.analyze t excluded).suggestions thresholds).keys := by
  apply areNoteKeys_of_notes
  intro key hmem
  obtain ⟨names, content, hkey, hnote⟩ := exists_hasNote_of_mem_keys key hmem
  obtain ⟨bytes, hmem⟩ := exists_mem_notes_of_hasNote hnote
  exact ⟨names, hnote.place, isName_of_mem_notes hmem, hkey⟩

/-- Of a text that a key leads to, nothing else is foreseen than that it is changed or not. -/
theorem foreseen_of_hasText (hleads : v.leadsTo t key place = true)
    (htext : t.HasText place content) (o : ApplyOptions) (accepted : List Suggestion) :
    (∃ links mentions listings,
        v.foreseen t o key accepted = .changed links mentions listings none) ∨
      v.foreseen t o key accepted = .unchanged := by
  by_cases hsame : (Plan.make o.style content accepted).content = content
  · exact .inr (foreseen_eq (.unchanged hleads htext hsame))
  · obtain ⟨bytes, hfind, hdecode⟩ := htext
    exact .inl ⟨_, _, _, foreseen_eq (.replaced hleads hfind hdecode hsame)⟩

/-- All notes with suggestions are found and can be read. -/
theorem changed_or_unchanged_of_mem_outcomes {x : Outcome}
    (hroom : HasRoomForCopies t v o clock ((v.analyze t excluded).suggestions thresholds).keys)
    (hmem : (key, x) ∈
      v.outcomes t o clock ((v.analyze t excluded).suggestions thresholds)) :
    (∃ links mentions listings backup, x = .changed links mentions listings backup) ∨
      x = .unchanged := by
  have hforeseen : (key, x.withoutCopy) ∈
      (v.outcomes t o clock ((v.analyze t excluded).suggestions thresholds)).map
        fun e => (e.1, e.2.withoutCopy) := List.mem_map_of_mem hmem
  rw [map_withoutCopy_outcomes areNoteKeys_suggestions hroom] at hforeseen
  obtain ⟨⟨key', suggestions⟩, hasked, heq⟩ := List.mem_map.mp hforeseen
  obtain ⟨rfl, houtcome⟩ := Prod.mk.inj heq
  obtain ⟨names, content, rfl, hnote⟩ :=
    exists_hasNote_of_mem_keys key' (List.mem_map_of_mem (List.mem_filter.mp hasked).1)
  obtain ⟨bytes, hnotes⟩ := exists_mem_notes_of_hasNote hnote
  rcases foreseen_of_hasText (leadsTo_of_mem_notes hnotes) hnote.text o (accepted o suggestions)
    with ⟨links, mentions, listings, hchanged⟩ | hsame
  · rw [hchanged] at houtcome
    exact .inl ⟨links, mentions, listings, Outcome.withoutCopy_eq_changed_iff.mp houtcome.symm⟩
  · rw [hsame] at houtcome
    exact .inr (Outcome.withoutCopy_eq_unchanged_iff.mp houtcome.symm)

/-- What a run over the suggestions of a scan changes are notes of the scan, and it reports them,
and the copies of these notes. -/
theorem exists_change_of_find?_ne {p : Place}
    (h : (v.apply t o clock ((v.analyze t excluded).suggestions thresholds)).1.find? p ≠
      t.find? p) :
    ∃ names bytes, (names, bytes) ∈ v.notes t excluded ∧
      ∃ change ∈ (v.apply t o clock ((v.analyze t excluded).suggestions thresholds)).2.changes,
        v.key? names = some change.key ∧
        (p = v.place ++ names ∨
          o.backup = true ∧ p = copyPlace (clock.stamp change.key) (v.place ++ names)) := by
  by_contra hnone
  apply h
  rw [fst_apply]
  apply find?_updateAll
  intro key links mentions listings backup place hmem htargets htouches
  apply hnone
  obtain ⟨suggestions, hasked⟩ := exists_asked_of_mem_updateAll hmem
  obtain ⟨names, content, rfl, hnote⟩ :=
    exists_hasNote_of_mem_keys key (List.mem_map_of_mem (List.mem_filter.mp hasked).1)
  obtain ⟨bytes, hnotes⟩ := exists_mem_notes_of_hasNote hnote
  obtain rfl := (targets_of_mem_notes hnotes).unique htargets
  exact ⟨names, bytes, hnotes, ⟨_, links, mentions, listings, backup⟩,
    tells_apply.mem_changes_iff.mpr hmem, key?_of_mem_notes hnotes, htouches⟩

/-- By whatever path a vault is known, its scan gives each note a key of its own, which leads to
the file that the record under it was read from, and has no records but these. The snapshot of
the scan passes the check for suggestions, and a run over all that is suggested misses no file
and fails at none; it changes nothing but notes of the scan, which it reports, and their copies. -/
theorem scanned_keys_lead_to_notes (t : Tree) (here : Place) (v : Vault) (excluded : List Text)
    (hvault : find t here v.path = .ok v) :
    (∀ names bytes, (names, bytes) ∈ v.notes t excluded →
      ∃ key, v.key? names = some key ∧ admits key = true ∧
        t.locate here (Path.below v.path key) = .ok (v.place ++ names) ∧
        t.locate here (v.pathOf names) = .ok (v.place ++ names) ∧
        t.find? (v.place ++ names) = some (.file bytes) ∧
        (v.analyze t excluded).files.find? key = some (noteOf key bytes)) ∧
    (∀ names bytes names' bytes', (names, bytes) ∈ v.notes t excluded →
      (names', bytes') ∈ v.notes t excluded → v.key? names = v.key? names' → names = names') ∧
    (∀ key note, (v.analyze t excluded).files.find? key = some note →
      ∃ names bytes, (names, bytes) ∈ v.notes t excluded ∧ v.key? names = some key ∧
        note = noteOf key bytes) ∧
    (v.analyze t excluded).dangling? = none ∧
    ∀ thresholds o clock,
      HasRoomForCopies t v o clock ((v.analyze t excluded).suggestions thresholds).keys →
      (v.apply t o clock ((v.analyze t excluded).suggestions thresholds)).2.missing = [] ∧
      (v.apply t o clock ((v.analyze t excluded).suggestions thresholds)).2.failed = [] ∧
      ∀ p, (v.apply t o clock ((v.analyze t excluded).suggestions thresholds)).1.find? p ≠
          t.find? p →
        ∃ names bytes, (names, bytes) ∈ v.notes t excluded ∧
          ∃ change ∈ (v.apply t o clock
              ((v.analyze t excluded).suggestions thresholds)).2.changes,
            v.key? names = some change.key ∧
            (p = v.place ++ names ∨
              o.backup = true ∧ p = copyPlace (clock.stamp change.key) (v.place ++ names)) := by
  refine ⟨?_, ?_, ?_, Snapshot.dangling?_ofNotes _, ?_⟩
  · intro names bytes hmem
    have hpath := locate_pathOf hvault hmem
    exact ⟨keyOf names, key?_of_mem_notes hmem, (targets_of_mem_notes hmem).admits, hpath, hpath,
      (mem_notes_iff.mp hmem).2, find?_analyze.mpr ⟨names, bytes, hmem, rfl, rfl⟩⟩
  · intro names bytes names' bytes' hmem hmem' heq
    rw [key?_of_mem_notes hmem, key?_of_mem_notes hmem', Option.some.injEq] at heq
    exact keyOf_injective (mem_notes_iff.mp hmem).1.ne_nil (mem_notes_iff.mp hmem').1.ne_nil
      (isName_of_mem_notes hmem) (isName_of_mem_notes hmem') heq
  · intro key note hfind
    obtain ⟨names, bytes, hmem, rfl, rfl⟩ := find?_analyze.mp hfind
    exact ⟨names, bytes, hmem, key?_of_mem_notes hmem, rfl⟩
  · intro thresholds o clock hroom
    refine ⟨?_, ?_, fun p => exists_change_of_find?_ne⟩
    · rw [List.eq_nil_iff_forall_not_mem]
      intro key hmem
      have houtcome :=
        changed_or_unchanged_of_mem_outcomes hroom (tells_apply.mem_missing_iff.mp hmem)
      rcases houtcome with ⟨links, mentions, listings, backup, heq⟩ | heq
      · cases heq
      · cases heq
    · rw [List.eq_nil_iff_forall_not_mem]
      rintro ⟨key, e⟩ hmem
      have houtcome :=
        changed_or_unchanged_of_mem_outcomes hroom (tells_apply.mem_failed_iff.mp hmem)
      rcases houtcome with ⟨links, mentions, listings, backup, heq⟩ | heq
      · cases heq
      · cases heq

/-- A vault with two notes and, in a directory of its own, a note that is no text. -/
def vaultWithBytes : Tree :=
  let t := vaultOfTwo.put ["v".toList] "sub".toList .directory (by decide +kernel)
  t.put ["v".toList, "sub".toList] "c.md".toList (.file ⟨#[0xff]⟩) (by decide +kernel)

/-- The note that is no text has a key that leads to it, nothing is known of it, and a run with
copies over all suggestions fails nowhere. -/
theorem scan_of_bytes :
    let v : Vault := ⟨"./v/".toList, ["v".toList]⟩
    let o : ApplyOptions := { floor := .low, backup := true }
    let clock := Clock.still "20240101_120000".toList
    let thresholds := Eagerness.balanced.thresholds
    let m := (v.analyze vaultWithBytes []).suggestions thresholds
    (find vaultWithBytes [] v.path = .ok v ∧
        (["sub".toList, "c.md".toList], ⟨#[0xff]⟩) ∈ v.notes vaultWithBytes [] ∧
        HasRoomForCopies vaultWithBytes v o clock m.keys) ∧
      vaultWithBytes.locate [] (Path.below v.path "sub/c.md".toList) =
        .ok ["v".toList, "sub".toList, "c.md".toList] ∧
      (v.analyze vaultWithBytes []).files.find? "sub/c.md".toList = some Note.empty ∧
      (v.apply vaultWithBytes o clock m).2.missing = [] ∧
      (v.apply vaultWithBytes o clock m).2.failed = [] := by
  intro v o clock thresholds m
  have hvault : find vaultWithBytes [] v.path = .ok v := by rfl
  have hmem : (["sub".toList, "c.md".toList], ⟨#[0xff]⟩) ∈ v.notes vaultWithBytes [] := by
    apply mem_notes_iff.mpr
    exact ⟨⟨by decide, _, rfl, by decide⟩, by rfl⟩
  have hroom : HasRoomForCopies vaultWithBytes v o clock m.keys := by
    intro _ _ key hkey place hleads hfile
    have hstamp : '/' ∉ "20240101_120000".toList := by decide
    refine ⟨hstamp, ?_⟩
    obtain ⟨bytes, hfind⟩ := Tree.isFile_iff.mp hfile
    have hfree : ∀ e ∈ vaultWithBytes.entries.entries,
        vaultWithBytes.isDirectory (copyPlace "20240101_120000".toList e.1) = false := by
      decide +kernel
    exact hfree _ (KeyMap.find?_eq_some_iff.mp hfind)
  obtain ⟨hnotes, -, -, -, hrun⟩ := scanned_keys_lead_to_notes vaultWithBytes [] v [] hvault
  obtain ⟨hmissing, hfailed, -⟩ := hrun thresholds o clock hroom
  obtain ⟨key, hkey, -, hpath, -, -, hrecord⟩ := hnotes _ _ hmem
  obtain rfl : "sub/c.md".toList = key := Option.some.inj hkey
  exact ⟨⟨hvault, hmem, hroom⟩, hpath, hrecord, hmissing, hfailed⟩

end NoteLinks.Vault
