/-
# Where paths lead

A path is followed segment by segment, so its two halves can be followed one after the other.
A path without two dots only ever leads further down, and its place can be read off its
segments without looking at the tree: those that are names are appended. The tree only
decides whether there is anything at this place. For a path that ends in a name it is enough
that the place is there, because everything above a place is a directory.
-/
import NoteLinks.Proofs.Vault.Keys

namespace NoteLinks

/-- Segments that lead nowhere: empty ones and single dots. -/
def Path.isIdle (segment : Text) : Bool := segment.isEmpty || segment == ['.']

/-- The segments that are the names of something. -/
def Path.names (segments : List Text) : List Text := segments.filter fun s => !Path.isIdle s

namespace Path

variable {segment : Text} {segments before : List Text}

@[simp]
theorem names_nil : names [] = [] := rfl

theorem names_cons_of_idle (h : isIdle segment = true) :
    names (segment :: segments) = names segments := by
  simp [names, h]

theorem names_cons (h : isIdle segment = false) :
    names (segment :: segments) = segment :: names segments := by
  simp [names, h]

theorem names_append (before behind : List Text) :
    names (before ++ behind) = names before ++ names behind := List.filter_append ..

theorem isIdle_of_isName (h : isName segment = true) : isIdle segment = false := by
  simp only [isName, Bool.and_eq_true, Bool.not_eq_true', bne_iff_ne] at h
  simp [isIdle, h.1.1.1, h.1.1.2]

end Path

namespace Tree

open NoteLinks.Path (isIdle names)

variable {t t' : Tree} {place q : Place} {segment last : Text} {segments before behind : List Text}

theorem isFile_iff : t.isFile place = true ↔ ∃ bytes, t.find? place = some (.file bytes) := by
  rw [isFile]
  split
  next bytes heq => simp [heq]
  next hne => simpa using hne

theorem isFile_congr (h : t'.find? place = t.find? place) : t'.isFile place = t.isFile place := by
  rw [isFile, isFile, h]

theorem isSome_of_isDirectory (h : t.isDirectory place = true) : (t.find? place).isSome := by
  rw [of_decide_eq_true h]
  rfl

theorem isDirectory_eq_false_of_isFile (h : t.isFile place = true) :
    t.isDirectory place = false := by
  obtain ⟨bytes, hfind⟩ := isFile_iff.mp h
  rw [isDirectory, hfind]
  rfl

/-! ## One segment -/

theorem follow_cons_of_idle (hdir : t.isDirectory place = true) (h : isIdle segment = true) :
    t.follow place (segment :: segments) = t.follow place segments := by
  rw [isIdle] at h
  rw [follow, hdir, h]
  rfl

theorem follow_cons_up (hdir : t.isDirectory place = true) :
    t.follow place (['.', '.'] :: segments) = t.follow place.dropLast segments := by
  rw [follow, hdir]
  rfl

theorem follow_cons_name (hdir : t.isDirectory place = true) (h : isIdle segment = false)
    (hup : segment ≠ ['.', '.']) :
    t.follow place (segment :: segments) =
      if (t.find? (place ++ [segment])).isSome then t.follow (place ++ [segment]) segments
      else .error .notFound := by
  rw [isIdle] at h
  rw [follow, hdir, h]
  simp [hup]

theorem follow_cons_of_not_isDirectory (hdir : t.isDirectory place = false) :
    t.follow place (segment :: segments) = .error .notDirectory := by
  rw [follow, hdir]
  rfl

/-! ## Paths in two halves -/

theorem follow_append (place : Place) (before behind : List Text) :
    t.follow place (before ++ behind) =
      (t.follow place before).bind fun p => t.follow p behind := by
  induction before generalizing place with
  | nil => rfl
  | cons segment before ih =>
      rw [List.cons_append]
      cases hdir : t.isDirectory place with
      | false =>
          rw [follow_cons_of_not_isDirectory hdir, follow_cons_of_not_isDirectory hdir]
          rfl
      | true =>
          cases hidle : isIdle segment with
          | true => rw [follow_cons_of_idle hdir hidle, follow_cons_of_idle hdir hidle, ih]
          | false =>
              by_cases hup : segment = ['.', '.']
              · rw [hup, follow_cons_up hdir, follow_cons_up hdir, ih]
              · rw [follow_cons_name hdir hidle hup, follow_cons_name hdir hidle hup]
                split
                · rw [ih]
                · rfl

/-- Whoever gets to the end of a path has got to the end of its first half. -/
theorem exists_follow_of_append (h : t.follow place (before ++ behind) = .ok q) :
    ∃ p, t.follow place before = .ok p ∧ t.follow p behind = .ok q := by
  rw [follow_append] at h
  cases hbefore : t.follow place before with
  | ok p =>
      rw [hbefore] at h
      exact ⟨p, rfl, h⟩
  | error e =>
      rw [hbefore] at h
      cases h

/-! ## Paths that never lead back -/

theorem eq_of_follow (hup : ['.', '.'] ∉ segments) (h : t.follow place segments = .ok q) :
    q = place ++ names segments := by
  induction segments generalizing place with
  | nil =>
      cases h
      rw [Path.names_nil, List.append_nil]
  | cons segment segments ih =>
      rw [List.mem_cons, not_or] at hup
      cases hdir : t.isDirectory place with
      | false =>
          rw [follow_cons_of_not_isDirectory hdir] at h
          cases h
      | true =>
          cases hidle : isIdle segment with
          | true =>
              rw [follow_cons_of_idle hdir hidle] at h
              rw [Path.names_cons_of_idle hidle]
              exact ih hup.2 h
          | false =>
              rw [follow_cons_name hdir hidle (Ne.symm hup.1)] at h
              split at h
              · rw [Path.names_cons hidle, List.append_cons]
                exact ih hup.2 h
              · cases h

theorem isDirectory_of_append_cons {name : Text} {rest : Place}
    (h : (t.find? (place ++ name :: rest)).isSome) : t.isDirectory place = true := by
  rw [List.append_cons] at h
  exact decide_eq_true (t.rooted place name (isSome_of_append h))

/-- What is above a directory is a directory. -/
theorem isDirectory_of_append {rest : Place} (h : t.isDirectory (place ++ rest) = true) :
    t.isDirectory place = true := by
  cases rest with
  | nil => rwa [List.append_nil] at h
  | cons name rest =>
      exact isDirectory_of_append_cons (isSome_of_isDirectory h)

theorem follow_of_isDirectory (hup : ['.', '.'] ∉ segments)
    (h : t.isDirectory (place ++ names segments) = true) :
    t.follow place segments = .ok (place ++ names segments) := by
  induction segments generalizing place with
  | nil => rw [Path.names_nil, List.append_nil, follow]
  | cons segment segments ih =>
      rw [List.mem_cons, not_or] at hup
      have hdir := isDirectory_of_append h
      cases hidle : isIdle segment with
      | true =>
          rw [Path.names_cons_of_idle hidle] at h ⊢
          rw [follow_cons_of_idle hdir hidle]
          exact ih hup.2 h
      | false =>
          rw [Path.names_cons hidle, List.append_cons] at h ⊢
          have hsome := isSome_of_isDirectory (isDirectory_of_append h)
          rw [follow_cons_name hdir hidle (Ne.symm hup.1), if_pos hsome]
          exact ih hup.2 h

/-- A path that ends in a name leads to its place if there is something at it. -/
theorem follow_concat_eq_ok_iff (hup : ['.', '.'] ∉ before ++ [last])
    (hlast : isIdle last = false) :
    t.follow place (before ++ [last]) = .ok q ↔
      q = place ++ names before ++ [last] ∧ (t.find? q).isSome := by
  have hnames : names (before ++ [last]) = names before ++ [last] := by
    rw [Path.names_append, Path.names_cons hlast, Path.names_nil]
  rw [List.mem_append, List.mem_singleton, not_or] at hup
  constructor
  · intro h
    obtain ⟨p, hbefore, h⟩ := exists_follow_of_append h
    obtain rfl := eq_of_follow hup.1 hbefore
    cases hdir : t.isDirectory (place ++ names before) with
    | false =>
        rw [follow_cons_of_not_isDirectory hdir] at h
        cases h
    | true =>
        rw [follow_cons_name hdir hlast (Ne.symm hup.2)] at h
        split at h
        next hsome =>
          cases h
          exact ⟨rfl, hsome⟩
        next => cases h
  · rintro ⟨rfl, hsome⟩
    have hdir : t.isDirectory (place ++ names before) = true := isDirectory_of_append_cons hsome
    rw [follow_append, follow_of_isDirectory hup.1 hdir]
    show t.follow (place ++ names before) [last] = _
    rw [follow_cons_name hdir hlast (Ne.symm hup.2), if_pos hsome, follow]

/-! ## The same path in another tree -/

/-- A path leads where it did if all directories are still there, and its end is. -/
theorem follow_congr (hdir : ∀ p, t.isDirectory p = true → t'.isDirectory p = true)
    (hend : (t.find? q).isSome → (t'.find? q).isSome)
    (h : t.follow place segments = .ok q) : t'.follow place segments = .ok q := by
  induction segments generalizing place with
  | nil => exact h
  | cons segment segments ih =>
      cases hplace : t.isDirectory place with
      | false =>
          rw [follow_cons_of_not_isDirectory hplace] at h
          cases h
      | true =>
          cases hidle : isIdle segment with
          | true =>
              rw [follow_cons_of_idle hplace hidle] at h
              rw [follow_cons_of_idle (hdir _ hplace) hidle]
              exact ih h
          | false =>
              by_cases hup : segment = ['.', '.']
              · rw [hup, follow_cons_up hplace] at h
                rw [hup, follow_cons_up (hdir _ hplace)]
                exact ih h
              · rw [follow_cons_name hplace hidle hup] at h
                rw [follow_cons_name (hdir _ hplace) hidle hup]
                split at h
                next hthere =>
                  -- What is not at the end of the way is a directory.
                  have hnext : (t'.find? (place ++ [segment])).isSome := by
                    cases segments with
                    | nil =>
                        obtain rfl := Except.ok.inj h
                        exact hend hthere
                    | cons =>
                        cases hdirectory : t.isDirectory (place ++ [segment]) with
                        | true => exact isSome_of_isDirectory (hdir _ hdirectory)
                        | false =>
                            rw [follow_cons_of_not_isDirectory hdirectory] at h
                            cases h
                  rw [if_pos hnext]
                  exact ih h
                next => cases h

/-- A path leads where it did if all directories are still there and nothing is gone. -/
theorem follow_mono (hdir : ∀ p, t.isDirectory p = true → t'.isDirectory p = true)
    (hsome : ∀ p, (t.find? p).isSome → (t'.find? p).isSome)
    (h : t.follow place segments = .ok q) : t'.follow place segments = .ok q :=
  follow_congr hdir (hsome q) h

end Tree

end NoteLinks
