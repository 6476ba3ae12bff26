/-
# Directories above and below

One directory lies above another one if its segments are the first ones of the other. It is told
from the texts: one of them goes on with a slash where the other one ends. The slash keeps apart
names of which one only begins like the other, and an empty segment counts like any other, so
this is the same thing for all texts. Going on takes at least one segment more. Hence no directory
lies above itself, and of two directories only one can lie above the other.

The notes of a vault are gone through once, so a note is proposed for its directory at most once.
-/
import NoteLinks.Proofs.Suggestion.Pairwise

namespace NoteLinks

namespace Path

variable {a b c dir : Text}

/-! ## Segments -/

theorem segments_inj : segments a = segments b ↔ a = b := by
  constructor
  · intro h
    rw [← Text.join_splitOn '/' a, ← Text.join_splitOn '/' b]
    exact congrArg (Text.join ['/']) h
  · rintro rfl
    rfl

/-- A directory has fewer segments than one that lies below it. -/
theorem IsAbove.length_lt (h : IsAbove a b) : (segments a).length < (segments b).length := by
  obtain ⟨hfront, hne⟩ := h
  refine Nat.lt_of_le_of_ne hfront.length_le fun hlength => hne ?_
  exact segments_inj.mp (hfront.eq_of_length hlength)

theorem IsProperlyAbove.trans (hab : IsProperlyAbove a b) (hbc : IsProperlyAbove b c) :
    IsProperlyAbove a c := by
  obtain ⟨hempty, hroot, hab⟩ := hab
  obtain ⟨-, -, hbc⟩ := hbc
  refine ⟨hempty, hroot, hab.1.trans hbc.1, ?_⟩
  rintro rfl
  exact absurd (hab.length_lt.trans hbc.length_lt) (Nat.lt_irrefl _)

theorem isAncestor_iff_segments : isAncestor a dir = true ↔
    a ≠ [] ∧ a ≠ rootDirectory ∧ segments a <+: segments dir ∧ segments a ≠ segments dir := by
  rw [isAncestor_iff, IsProperlyAbove, IsAbove, ne_eq (segments a), segments_inj]

theorem isAncestor_self (dir : Text) : isAncestor dir dir = false := by
  rw [← Bool.not_eq_true, isAncestor_iff]
  exact fun h => h.2.2.2 rfl

theorem isAncestor_trans (hab : isAncestor a b = true) (hbc : isAncestor b c = true) :
    isAncestor a c = true :=
  isAncestor_iff.mpr ((isAncestor_iff.mp hab).trans (isAncestor_iff.mp hbc))

/-- Of two directories only one lies above the other. -/
theorem isAncestor_asymm (h : isAncestor a b = true) : isAncestor b a = false := by
  rw [← Bool.not_eq_true]
  intro hback
  have hself := isAncestor_trans h hback
  rw [isAncestor_self] at hself
  cases hself

/-- One of two directories lies above the other, or they are the same. Nothing is said about a
note that is in no directory. -/
def AreRelated (own other : Text) : Prop :=
  own ≠ [] ∧ (other = own ∨ isAncestor own other = true ∨ isAncestor other own = true)

end Path

namespace Candidate

variable {s : Snapshot} {source target own other : Text} {note : Note} {c : Candidate}
  {reason? : Note → Option (Reason × Float)}

/-! ## Going through the records -/

theorem mem_byRecord_iff : c ∈ byRecord s source note reason? ↔
    ∃ other, s.files.find? c.target = some other ∧
      accepts source note.links c.target (some other.title) = true ∧
      reason? other = some (c.reason, c.weight) := by
  simp only [byRecord, List.mem_filterMap, Option.ite_none_right_eq_some, Option.map_eq_some_iff,
    KeyMap.find?_eq_some_iff]
  constructor
  · rintro ⟨⟨target, other⟩, hmem, haccepts, r, hreason, rfl⟩
    exact ⟨other, hmem, haccepts, hreason⟩
  · rintro ⟨other, hmem, haccepts, hreason⟩
    exact ⟨(c.target, other), hmem, haccepts, _, hreason, rfl⟩

/-- Every record is looked at once, in the order of the paths. -/
theorem ascending_byRecord :
    ((byRecord s source note reason?).map Candidate.target).Pairwise (· < ·) := by
  rw [List.pairwise_map]
  refine List.Pairwise.filterMap _ ?_ s.files.ascending
  rintro ⟨path, record⟩ ⟨path', record'⟩ hlt x hx y hy
  simp only [Option.ite_none_right_eq_some, Option.map_eq_some_iff] at hx hy
  obtain ⟨-, _, -, rfl⟩ := hx
  obtain ⟨-, _, -, rfl⟩ := hy
  exact hlt

/-! ## What directories say -/

theorem isSome_directoryReason? :
    (directoryReason? own other).isSome = true ↔ Path.AreRelated own other := by
  rw [directoryReason?_eq, sharedDirectory?, Path.AreRelated, Path.isAncestor_iff,
    Path.isAncestor_iff]
  have hown : Path.IsProperlyAbove other own → own ≠ [] := by
    rintro h rfl
    exact Path.not_isProperlyAbove_nil h
  split
  next hsame => exact iff_of_true rfl ⟨hsame.2, .inl hsame.1⟩
  next hsame =>
    split
    next habove =>
      refine iff_of_true rfl ⟨?_, .inr habove⟩
      exact habove.elim (fun h => h.1) hown
    next habove =>
      refine iff_of_false Bool.false_ne_true ?_
      rintro ⟨hne, heq | h⟩
      · exact hsame ⟨heq, hne⟩
      · exact habove h

theorem kind_of_directoryReason? {reason : Reason} {weight : Float}
    (h : directoryReason? own other = some (reason, weight)) :
    reason.kind = if other = own then .sameDirectory else .relatedDirectory := by
  rw [directoryReason?] at h
  split at h
  next => cases h
  next =>
    split at h
    next hsame =>
      cases h
      exact (if_pos hsame).symm
    next hsame =>
      split at h
      next =>
        cases h
        exact (if_neg hsame).symm
      next => cases h

/-- A directory lies above another one exactly if its segments are the first ones of the other,
which has more of them, and it is neither empty nor the root of the vault. This is a strict order.
By their directories exactly the related notes are proposed, each of them once, and the reason is
that of the same directory where it is the same. -/
theorem directories_compare_by_segments :
    (∀ a dir : Text, Path.isAncestor a dir = true ↔
      a ≠ [] ∧ a ≠ ['.'] ∧
        Path.segments a <+: Path.segments dir ∧ Path.segments a ≠ Path.segments dir) ∧
    (∀ a : Text, Path.isAncestor a a = false) ∧
    (∀ a b c : Text, Path.isAncestor a b = true → Path.isAncestor b c = true →
      Path.isAncestor a c = true) ∧
    (∀ a b : Text, Path.isAncestor a b = true → Path.isAncestor b a = false) ∧
    ∀ (s : Snapshot) (source : Text) (note : Note),
      ((byDirectory s source note).map Candidate.target).Nodup ∧
      (∀ target, (∃ c ∈ byDirectory s source note, c.target = target) ↔
        ∃ other, s.files.find? target = some other ∧
          accepts source note.links target (some other.title) = true ∧
          Path.AreRelated note.directory other.directory) ∧
      ∀ c ∈ byDirectory s source note, ∃ other, s.files.find? c.target = some other ∧
        c.reason.kind =
          if other.directory = note.directory then .sameDirectory else .relatedDirectory := by
  refine ⟨fun _ _ => Path.isAncestor_iff_segments, Path.isAncestor_self,
    fun _ _ _ => Path.isAncestor_trans, fun _ _ => Path.isAncestor_asymm, ?_⟩
  intro s source note
  refine ⟨ascending_byRecord.imp LawfulKey.ne_of_lt, ?_, ?_⟩
  · intro target
    constructor
    · rintro ⟨c, hc, rfl⟩
      obtain ⟨other, hfind, haccepts, hreason⟩ := mem_byRecord_iff.mp hc
      exact ⟨other, hfind, haccepts, isSome_directoryReason?.mp (by rw [hreason]; rfl)⟩
    · rintro ⟨other, hfind, haccepts, hrelated⟩
      obtain ⟨r, hreason⟩ := Option.isSome_iff_exists.mp (isSome_directoryReason?.mpr hrelated)
      exact ⟨⟨target, r.1, r.2⟩, mem_byRecord_iff.mpr ⟨other, hfind, haccepts, hreason⟩, rfl⟩
  · intro c hc
    obtain ⟨other, hfind, -, hreason⟩ := mem_byRecord_iff.mp hc
    exact ⟨other, hfind, kind_of_directoryReason? hreason⟩

/-- Notes in directories of which the names begin alike. -/
def alikeDirectories : Snapshot :=
  let inDirectory (dir : String) : Note := { Note.empty with directory := dir.toList }
  .ofNotes (KeyMap.ofList [("1".toList, inDirectory "p/"), ("2".toList, inDirectory "p//q"),
    ("3".toList, inDirectory "p"), ("4".toList, inDirectory "p/"), ("5".toList, inDirectory "p-q"),
    ("6".toList, inDirectory "/p/"), ("7".toList, inDirectory ".")])

/-- A slash at the end of a directory makes one segment more, which is empty. So the directory
lies below the one without the slash, and above those that go on with another slash. -/
theorem related_to_directory_with_slash :
    let note : Note := { Note.empty with directory := "p/".toList }
    (Path.isAncestor "p".toList "p/".toList = true ∧
        Path.isAncestor "p/".toList "p//q".toList = true) ∧
      Path.isAncestor "p".toList "p//q".toList = true ∧
      Path.isAncestor "p//q".toList "p/".toList = false ∧
      Path.isAncestor "p".toList "p-q".toList = false ∧
      (byDirectory alikeDirectories "1".toList note).map (fun c => (c.target, c.reason.kind)) =
        [("2".toList, .relatedDirectory), ("3".toList, .relatedDirectory),
          ("4".toList, .sameDirectory)] ∧
      ∃ c ∈ byDirectory alikeDirectories "1".toList note, c.target = "2".toList := by
  intro note
  obtain ⟨hsegments, -, htrans, hasymm, hproposed⟩ := directories_compare_by_segments
  have hup : Path.isAncestor "p".toList "p/".toList = true :=
    (hsegments _ _).mpr (by decide)
  have hdown : Path.isAncestor "p/".toList "p//q".toList = true :=
    (hsegments _ _).mpr (by decide)
  obtain ⟨-, htargets, -⟩ := hproposed alikeDirectories "1".toList note
  refine ⟨⟨hup, hdown⟩, htrans _ _ _ hup hdown, hasymm _ _ hdown, ?_, by decide +kernel, ?_⟩
  · rw [← Bool.not_eq_true, hsegments]
    decide
  · refine (htargets _).mpr ⟨{ Note.empty with directory := "p//q".toList }, ?_, ?_, ?_, ?_⟩
    · decide +kernel
    · decide +kernel
    · decide
    · exact .inr (.inl hdown)

end Candidate

end NoteLinks
