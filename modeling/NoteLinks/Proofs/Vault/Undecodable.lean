/-
# Notes that are no text

A scan does not fail at a note that is no text. It files an empty record for it, and an empty
record takes no part in suggestions. So it makes no difference to what is suggested which bytes
such a note has, nor whether it is there at all.
-/
import NoteLinks.Proofs.Suggestion.EmptyNotes
import NoteLinks.Proofs.Vault.ScannedKeys

namespace NoteLinks

theorem Tree.find?_removeFile {t : Tree} {place : Place} (h : t.isDirectory place = false)
    (p : Place) : (t.removeFile place).find? p = if p = place then none else t.find? p := by
  have hne : t.find? place ≠ some .directory := by simpa [isDirectory] using h
  rw [removeFile, dif_neg hne]
  exact KeyMap.find?_erase ..

namespace Vault

variable {t t' : Tree} {here : Place} {path key : Text} {v : Vault} {excluded : List Text}
  {names : Place} {bytes : ByteArray}

theorem noteOf_of_undecodable (key : Text) (h : Text.decode? bytes = none) :
    noteOf key bytes = Note.empty := by
  rw [noteOf, h]

/-- What stands at a place, if anything, is a file that is no text. -/
def HasNoText (t : Tree) (place : Place) : Prop :=
  ∀ e, t.find? place = some e → ∃ bytes, e = .file bytes ∧ Text.decode? bytes = none

theorem HasNoText.isDirectory_eq_false {place : Place} (h : HasNoText t place) :
    t.isDirectory place = false := by
  rw [Tree.isDirectory, decide_eq_false_iff_not]
  intro hdir
  obtain ⟨bytes, heq, -⟩ := h _ hdir
  cases heq

theorem hasNoText_of_find?_eq_none {place : Place} (h : t.find? place = none) :
    HasNoText t place := by
  intro e he
  cases h.symm.trans he

theorem hasNoText_of_undecodable {place : Place} (hfind : t.find? place = some (.file bytes))
    (hbytes : Text.decode? bytes = none) : HasNoText t place := by
  intro e he
  exact ⟨bytes, Option.some.inj (he.symm.trans hfind), hbytes⟩

/-- Two trees are the same but for a place at which neither has a text. -/
structure SameTexts (t t' : Tree) (place : Place) : Prop where
  elsewhere : ∀ p, p ≠ place → t'.find? p = t.find? p
  before : HasNoText t place
  after : HasNoText t' place

theorem SameTexts.symm {place : Place} (h : SameTexts t t' place) : SameTexts t' t place :=
  ⟨fun p hp => (h.elsewhere p hp).symm, h.after, h.before⟩

theorem sameTexts_removeFile {place : Place} (h : HasNoText t place) :
    SameTexts t (t.removeFile place) place := by
  have hfind := Tree.find?_removeFile h.isDirectory_eq_false
  refine ⟨fun p hp => ?_, h, hasNoText_of_find?_eq_none ?_⟩
  · rw [hfind, if_neg hp]
  · rw [hfind, if_pos rfl]

theorem sameTexts_overwrite {place : Place} (h : HasNoText t place)
    (hfile : t.isFile place = true) (hbytes : Text.decode? bytes = none) :
    SameTexts t (t.overwrite place bytes) place := by
  have hfind (p : Place) : (t.overwrite place bytes).find? p = _ := Tree.find?_overwrite hfile p
  have hself : (t.overwrite place bytes).find? place = some (.file bytes) := by
    rw [hfind, if_pos rfl]
  refine ⟨fun p hp => ?_, h, hasNoText_of_undecodable hself hbytes⟩
  rw [hfind, if_neg hp]

theorem SameTexts.isDirectory_eq {place : Place} (h : SameTexts t t' place) (p : Place) :
    t'.isDirectory p = t.isDirectory p := by
  by_cases hp : p = place
  · rw [hp, h.before.isDirectory_eq_false, h.after.isDirectory_eq_false]
  · rw [Tree.isDirectory, Tree.isDirectory, h.elsewhere p hp]

theorem SameTexts.find?_analyze {note : Note} (h : SameTexts t t' (v.place ++ names))
    (hfind : (v.analyze t excluded).files.find? key = some note) (hne : note ≠ Note.empty) :
    (v.analyze t' excluded).files.find? key = some note := by
  obtain ⟨names', bytes, hmem, hkey, rfl⟩ := Vault.find?_analyze.mp hfind
  obtain ⟨hplace, hfile⟩ := mem_notes_iff.mp hmem
  have hother : v.place ++ names' ≠ v.place ++ names := by
    intro heq
    obtain ⟨_, hbytes, hnone⟩ := h.before _ (heq ▸ hfile)
    cases hbytes
    exact hne (noteOf_of_undecodable key hnone)
  exact Vault.find?_analyze.mpr
    ⟨names', bytes, mem_notes_iff.mpr ⟨hplace, (h.elsewhere _ hother).trans hfile⟩, hkey, rfl⟩

/-- Nothing is known of what is no text. -/
theorem SameTexts.knowSame (h : SameTexts t t' (v.place ++ names)) :
    Snapshot.KnowSame (v.analyze t excluded).files (v.analyze t' excluded).files :=
  fun _ _ hne =>
    ⟨fun hfind => h.find?_analyze hfind hne, fun hfind => h.symm.find?_analyze hfind hne⟩

/-- A note that is no text has an empty record in the snapshot of its vault, and the snapshot
passes the check. Nothing is suggested to the note, and it is suggested to no other note. And
there are the same suggestions if the file is taken away or has other bytes that are no text. -/
theorem undecodable_note_takes_no_part (hvault : find t here path = .ok v)
    (hnote : (names, bytes) ∈ v.notes t excluded) (hbytes : Text.decode? bytes = none) :
    ∃ key, v.key? names = some key ∧
      (v.analyze t excluded).files.find? key = some Note.empty ∧
      (v.analyze t excluded).dangling? = none ∧
      (∀ thresholds, ((v.analyze t excluded).suggestions thresholds).find? key = none ∧
        ∀ source found,
          ((v.analyze t excluded).suggestions thresholds).find? source = some found →
            ∀ x ∈ found, x.target ≠ key) ∧
      ∀ t', (t' = t.removeFile (v.place ++ names) ∨
          ∃ bytes', Text.decode? bytes' = none ∧ t' = t.overwrite (v.place ++ names) bytes') →
        find t' here path = .ok v ∧
        ∀ thresholds, (v.analyze t' excluded).suggestions thresholds =
          (v.analyze t excluded).suggestions thresholds := by
  have hempty : (v.analyze t excluded).files.find? (keyOf names) = some Note.empty :=
    find?_analyze.mpr ⟨names, bytes, hnote, rfl, noteOf_of_undecodable _ hbytes⟩
  refine ⟨keyOf names, key?_of_mem_notes hnote, hempty, Snapshot.dangling?_ofNotes _,
    fun thresholds => ⟨Snapshot.find?_suggestions_empty hempty, ?_⟩, fun t' ht' => ?_⟩
  · intro source found hfound x hx
    obtain ⟨rfl, -⟩ := Snapshot.find?_suggestions_eq_some_iff.mp hfound
    exact Snapshot.target_ne_of_empty hempty hx
  · have hfind := (mem_notes_iff.mp hnote).2
    have hnone := hasNoText_of_undecodable hfind hbytes
    have hsame : SameTexts t t' (v.place ++ names) := by
      rcases ht' with rfl | ⟨bytes', hbytes', rfl⟩
      · exact sameTexts_removeFile hnone
      · exact sameTexts_overwrite hnone (Tree.isFile_iff.mpr ⟨bytes, hfind⟩) hbytes'
    refine ⟨(find_congr hsame.isDirectory_eq here path).trans hvault, fun thresholds => ?_⟩
    exact (hsame.knowSame.suggestions_eq thresholds).symm

/-- Without the note that is no text, or with other bytes in it, the vault has the same
suggestions. -/
theorem suggestions_without_bytes :
    let v : Vault := ⟨"./v/".toList, ["v".toList]⟩
    let place : Place := ["v".toList, "sub".toList, "c.md".toList]
    (find vaultWithBytes [] "./v/".toList = .ok v ∧
        (["sub".toList, "c.md".toList], ⟨#[0xff]⟩) ∈ v.notes vaultWithBytes [] ∧
        Text.decode? ⟨#[0xff]⟩ = none) ∧
      (∀ thresholds, (v.analyze (vaultWithBytes.removeFile place) []).suggestions thresholds =
        (v.analyze vaultWithBytes []).suggestions thresholds) ∧
      ∀ thresholds,
        (v.analyze (vaultWithBytes.overwrite place ⟨#[0x61, 0xc3]⟩) []).suggestions thresholds =
          (v.analyze vaultWithBytes []).suggestions thresholds := by
  intro v place
  have hvault : find vaultWithBytes [] "./v/".toList = .ok v := by rfl
  have hmem : (["sub".toList, "c.md".toList], ⟨#[0xff]⟩) ∈ v.notes vaultWithBytes [] := by
    apply mem_notes_iff.mpr
    exact ⟨⟨by decide, _, rfl, by decide⟩, by rfl⟩
  have hbytes : Text.decode? ⟨#[0xff]⟩ = none := by decide +kernel
  obtain ⟨-, -, -, -, -, hsame⟩ := undecodable_note_takes_no_part hvault hmem hbytes
  exact ⟨⟨hvault, hmem, hbytes⟩, (hsame _ (.inl rfl)).2,
    (hsame _ (.inr ⟨⟨#[0x61, 0xc3]⟩, by decide +kernel, rfl⟩)).2⟩

end Vault

end NoteLinks
