/-
# The file that a path names

A path names a file whether or not the file is there, as long as its directory is. Writing a file
makes no directories, so it does not change what paths name. It follows that whoever reads a file
under a path that names another file finds it as it was before, also if there is none.
-/
import NoteLinks.Proofs.Tree.Writing
import NoteLinks.Settings

namespace NoteLinks

namespace Tree

open NoteLinks.Path (isIdle)

variable {t t' : Tree} {here place p q : Place} {path other : Text} {segments : List Text}
  {bytes : ByteArray}

/-- The directory that segments lead to from a place. -/
def directory? (t : Tree) (place : Place) (segments : List Text) : Option Place :=
  match t.follow place segments with
  | .ok dir => if t.isDirectory dir then some dir else none
  | .error _ => none

/-- The place of the file that a path names. It is in a directory, but nothing need be there. -/
def target? (t : Tree) (here : Place) (path : Text) : Option Place :=
  match (Path.segments path).reverse.dropWhile List.isEmpty with
  | [] => none
  | name :: above => (t.directory? (start here path) above.reverse).map (· ++ [name])

theorem directory?_eq_some_iff :
    t.directory? p segments = some q ↔ t.follow p segments = .ok q ∧ t.isDirectory q = true := by
  rw [directory?]
  split
  next dir hdir =>
    rw [hdir, Option.ite_none_right_eq_some, Option.some.injEq, Except.ok.injEq, and_comm]
    exact and_congr_right fun heq => by rw [heq]
  next e he => simp [he]

theorem directory?_congr (hdir : ∀ p, t'.isDirectory p = t.isDirectory p) :
    t'.directory? p segments = t.directory? p segments := by
  ext q
  rw [directory?_eq_some_iff, directory?_eq_some_iff, hdir]
  refine and_congr_left fun hq => ⟨fun h => ?_, fun h => ?_⟩
  · exact follow_congr (fun p hp => hdir p ▸ hp) (fun _ => isSome_of_isDirectory hq) h
  · exact follow_congr (fun p hp => (hdir p).trans hp)
      (fun _ => isSome_of_isDirectory ((hdir q).trans hq)) h

theorem leads_iff : t.leads here path = true ↔ ∃ q, t.locate here path = .ok q := by
  rw [leads]
  split
  next hlocate => simp [hlocate]
  next hlocate => simp [hlocate]

/-! ## Targets -/

theorem target?_of_segments {above : List Text} {name : Text} (hname : name ≠ [])
    (h : Path.segments path = above ++ [name]) :
    t.target? here path = (t.directory? (start here path) above).map (· ++ [name]) := by
  rw [target?, h, List.reverse_concat, List.dropWhile_cons_of_neg (by simpa using hname)]
  simp only [List.reverse_reverse]

/-- What paths name depends on the directories only. -/
theorem target?_congr (hdir : ∀ p, t'.isDirectory p = t.isDirectory p) :
    t'.target? here path = t.target? here path := by
  rw [target?, target?]
  split
  next => rfl
  next => rw [directory?_congr hdir]

theorem isDirectory_dropLast (h : t.isDirectory p = true) : t.isDirectory p.dropLast = true := by
  cases p.eq_nil_or_concat with
  | inl hnil =>
      subst hnil
      exact h
  | inr hconcat =>
      obtain ⟨above, name, rfl⟩ := hconcat
      rw [List.concat_eq_append] at h ⊢
      rw [List.dropLast_concat]
      exact isDirectory_of_append h

/-- The last step to something else than a directory is a name in a directory. -/
theorem eq_concat_of_follow {last : Text} (h : t.follow p [last] = .ok q)
    (hq : t.isDirectory q = false) :
    t.isDirectory p = true ∧ last ≠ [] ∧ q = p ++ [last] := by
  cases hdirectory : t.isDirectory p with
  | false =>
      rw [follow_cons_of_not_isDirectory hdirectory] at h
      cases h
  | true =>
      refine ⟨rfl, ?_⟩
      cases hidle : isIdle last with
      | true =>
          rw [follow_cons_of_idle hdirectory hidle] at h
          obtain rfl := Except.ok.inj h
          exact absurd hq (by simp [hdirectory])
      | false =>
          by_cases hup : last = ['.', '.']
          · rw [hup, follow_cons_up hdirectory] at h
            obtain rfl := Except.ok.inj h
            exact absurd hq (by simp [isDirectory_dropLast hdirectory])
          · rw [follow_cons_name hdirectory hidle hup] at h
            split at h
            next =>
              refine ⟨?_, (Except.ok.inj h).symm⟩
              rintro rfl
              cases hidle
            next => cases h

/-- A path to something else than a directory names the place that it leads to. -/
theorem target?_of_locate (h : t.locate here path = .ok q) (hq : t.isDirectory q = false) :
    t.target? here path = some q := by
  obtain ⟨above, last, hsegments⟩ := Text.exists_splitOn_eq_concat '/' path
  rw [locate] at h
  split at h
  next => cases h
  next =>
    rw [Path.segments, hsegments] at h
    obtain ⟨dir, hdir, hlast⟩ := exists_follow_of_append h
    obtain ⟨hdirectory, hne, rfl⟩ := eq_concat_of_follow hlast hq
    rw [target?_of_segments hne hsegments, directory?_eq_some_iff.mpr ⟨hdir, hdirectory⟩]
    rfl

namespace Written

variable (h : Written t t' place bytes)

include h

theorem isDirectory_self : t'.isDirectory place = false :=
  isDirectory_eq_false_of_isFile (isFile_iff.mpr ⟨bytes, h.find?_self⟩)

theorem target?_eq : t'.target? here other = t.target? here other :=
  target?_congr h.isDirectory_eq

/-- A path that names another file than the one that is written does not lead to it. -/
theorem ne_of_locate (hother : t.target? here other ≠ some place)
    (hlocate : t'.locate here other = .ok q) : q ≠ place := by
  rintro rfl
  exact hother (h.target?_eq.symm.trans (target?_of_locate hlocate h.isDirectory_self))

/-- It leads where it did. -/
theorem locate_iff (hother : t.target? here other ≠ some place) :
    t'.locate here other = .ok q ↔ t.locate here other = .ok q := by
  refine ⟨fun hlocate => ?_, h.locate⟩
  have hne := h.ne_of_locate hother hlocate
  rw [Tree.locate] at hlocate ⊢
  split at hlocate
  next => cases hlocate
  next hpath =>
    rw [if_neg hpath]
    exact follow_congr (fun p hp => (h.isDirectory_eq p).symm.trans hp)
      (fun hsome => h.find?_of_ne hne ▸ hsome) hlocate

theorem leads_eq (hother : t.target? here other ≠ some place) :
    t'.leads here other = t.leads here other := by
  rw [Bool.eq_iff_iff, leads_iff, leads_iff]
  exact exists_congr fun q => h.locate_iff hother

/-- A file under such a path is read as it was. -/
theorem readText_eq (hother : t.target? here other ≠ some place)
    (hleads : t.leads here other = true) : t'.readText here other = t.readText here other := by
  obtain ⟨q, hq⟩ := leads_iff.mp hleads
  have hq' := h.locate hq
  rw [readText, readText, hq, hq']
  show t'.textAt q = t.textAt q
  rw [textAt, textAt, bytesAt, bytesAt, h.find?_of_ne (h.ne_of_locate hother hq')]

end Written

/-- A file is written to the place that its path names. -/
theorem exists_target?_of_write (h : t.write here path bytes = .ok t') :
    ∃ place, t.target? here path = some place ∧ Written t t' place bytes := by
  obtain ⟨place, hwritten, hlocate⟩ := exists_written h
  refine ⟨place, ?_, hwritten⟩
  rw [← hwritten.target?_eq]
  exact target?_of_locate hlocate hwritten.isDirectory_self

end Tree

/-- Settings are as they were after another file than theirs has been written. -/
theorem Settings.load_written {t t' : Tree} {here place : Place} {bytes : ByteArray}
    (h : Tree.Written t t' place bytes) {flag env vault : Option Text}
    (hother : ∀ source ∈ source? flag env vault, t.target? here source.1 ≠ some place) :
    load t' here flag env vault = load t here flag env vault := by
  rw [load, load]
  split
  next => rfl
  next path required hsource =>
    have hpath := hother _ hsource
    rw [h.leads_eq hpath]
    split
    next hleads => rw [read, read, h.readText_eq hpath hleads]
    next => rfl

end NoteLinks
