/-
# Files that are written

A path that a file has been written to leads to that file. Nothing else is changed, the directories
stay what they are, and nothing is gone. So every path leads where it did before, and one that led
nowhere leads nowhere but to the new file.
-/
import NoteLinks.Proofs.Tree.Following

namespace NoteLinks

namespace Path

/-- A path that does not end in a slash ends in a segment. -/
theorem getLast?_segments {path : Text} (hne : path ≠ []) (hslash : path.getLast? ≠ some '/')
    {above : List Text} {last : Text} (h : segments path = above ++ [last]) : last ≠ [] := by
  rintro rfl
  have hjoin : Text.join ['/'] (segments path) = path := Text.join_splitOn '/' path
  rw [h] at hjoin
  cases above with
  | nil => exact hne hjoin.symm
  | cons first above =>
      rw [Text.join_append (List.cons_ne_nil _ _) (List.cons_ne_nil _ _)] at hjoin
      exact hslash (by rw [← hjoin, Text.join]; exact List.getLast?_concat)

end Path

namespace Tree

variable {t t' : Tree} {here place p q : Place} {path other : Text} {bytes : ByteArray}

/-- The tree has these bytes in the file at a place, and is otherwise as it was. -/
structure Written (t t' : Tree) (place : Place) (bytes : ByteArray) : Prop where
  find?_eq : ∀ p, t'.find? p = if p = place then some (.file bytes) else t.find? p
  free : t.find? place ≠ some .directory

namespace Written

variable (h : Written t t' place bytes)

include h

theorem find?_self : t'.find? place = some (.file bytes) := by
  rw [h.find?_eq, if_pos rfl]

theorem find?_of_ne (hne : p ≠ place) : t'.find? p = t.find? p := by
  rw [h.find?_eq, if_neg hne]

/-- The directories stay what they are. -/
theorem isDirectory_eq (p : Place) : t'.isDirectory p = t.isDirectory p := by
  rw [isDirectory, isDirectory, h.find?_eq]
  split
  next heq =>
    subst heq
    simp [h.free]
  next => rfl

theorem isSome (hsome : (t.find? p).isSome) : (t'.find? p).isSome := by
  rw [h.find?_eq]
  split
  next => rfl
  next => exact hsome

/-- A path leads where it did. -/
theorem locate (hlocate : t.locate here other = .ok q) : t'.locate here other = .ok q := by
  rw [Tree.locate] at hlocate ⊢
  split at hlocate
  next => cases hlocate
  next hne =>
    rw [if_neg hne]
    exact follow_mono (fun p hp => (h.isDirectory_eq p).trans hp) (fun _ => h.isSome) hlocate

end Written

theorem written_of_writeAt {dir : Place} {name : Text} (h : t.writeAt dir name bytes = .ok t') :
    Written t t' (dir ++ [name]) bytes ∧ t.isDirectory dir = true ∧ isName name = true := by
  rw [writeAt] at h
  split at h
  next hroom =>
    cases h
    exact ⟨⟨find?_put, hroom.2.2⟩, decide_eq_true hroom.1, hroom.2.1⟩
  next => split at h <;> cases h

/-- A file is written under the last segment of its path, in the directory that the others lead
to. -/
theorem exists_writeAt (h : t.write here path bytes = .ok t') :
    ∃ above name dir, path ≠ [] ∧ Path.segments path = above ++ [name] ∧
      t.follow (start here path) above = .ok dir ∧ t.writeAt dir name bytes = .ok t' := by
  rw [write] at h
  split at h
  next => cases h
  next name above hsegments =>
    cases hdir : t.follow (start here path) above.reverse with
    | error e =>
        rw [hdir] at h
        cases h
    | ok dir =>
        simp only [hdir, bind, Except.bind] at h
        split at h
        next => cases h
        next =>
          split at h
          next => cases h
          next hslash =>
            have hne : path ≠ [] := by
              rintro rfl
              cases hsegments
            obtain ⟨before, last, hconcat⟩ := Text.exists_splitOn_eq_concat '/' path
            have hlast := Path.getLast?_segments hne (by simpa using hslash) hconcat
            rw [Path.segments, hconcat, List.reverse_concat,
              List.dropWhile_cons_of_neg (by simpa using hlast)] at hsegments
            obtain ⟨rfl, rfl⟩ := List.cons.inj hsegments
            rw [List.reverse_reverse] at hdir
            exact ⟨before, last, dir, hne, hconcat, hdir, h⟩

/-- A path leads to the file that has been written to it. -/
theorem exists_written (h : t.write here path bytes = .ok t') :
    ∃ place, Written t t' place bytes ∧ t'.locate here path = .ok place := by
  obtain ⟨above, name, dir, hne, hsegments, hdir, hwrite⟩ := exists_writeAt h
  obtain ⟨hwritten, hdirectory, hname⟩ := written_of_writeAt hwrite
  refine ⟨dir ++ [name], hwritten, ?_⟩
  have hfollow : t'.follow (start here path) above = .ok dir :=
    follow_mono (fun p hp => (hwritten.isDirectory_eq p).trans hp) (fun _ => hwritten.isSome) hdir
  have hup : name ≠ ['.', '.'] := by
    rintro rfl
    cases hname
  rw [locate, if_neg (by simpa using hne), hsegments, follow_append, hfollow]
  show t'.follow dir [name] = _
  rw [follow_cons_name ((hwritten.isDirectory_eq dir).trans hdirectory)
    (Path.isIdle_of_isName hname) hup, hwritten.find?_self]
  rfl

end Tree

end NoteLinks
