/-
# The files that keys name

A key names a file if it stays in the vault and leads there. Keys may be spelled in many ways,
with single dots and with more slashes than are needed, and several keys may name one file.
Which file it can be is seen from the key alone: the tree only decides whether it is there.
So the keys name the same files in two trees that have the same files.
-/
import NoteLinks.Proofs.Tree.Following
import NoteLinks.Proofs.Vault.Notes

namespace NoteLinks.Vault

variable {t t' : Tree} {v : Vault} {key : Text} {place place' : Place}

/-! ## Keys that are refused -/

/-- Two dots are the only segments that lead back. -/
theorem all_filterMap_ofSegment? {stays : Path.Component → Bool}
    (hname : ∀ n, stays (.name n) = true) (hback : stays .up = false) (segments : List Text) :
    (segments.filterMap Path.Component.ofSegment?).all stays = true ↔ ['.', '.'] ∉ segments := by
  induction segments with
  | nil => simp
  | cons segment segments ih =>
      rw [List.mem_cons, not_or, ← ih]
      cases hidle : Path.isIdle segment with
      | true =>
          have hnone : Path.Component.ofSegment? segment = none := if_pos hidle
          have hne : ['.', '.'] ≠ segment := by
            rintro rfl
            cases hidle
          rw [List.filterMap_cons_none hnone]
          exact (and_iff_right hne).symm
      | false =>
          rw [Path.isIdle] at hidle
          by_cases hup : segment = ['.', '.']
          · subst hup
            simp [Path.Component.ofSegment?, hback]
          · simp [Path.Component.ofSegment?, hidle, hup, Ne.symm hup, hname]

/-- A key stays in the vault if it is not empty, does not start from the root, and never leads
back. -/
theorem admits_iff :
    admits key = true ↔
      key ≠ [] ∧ key.head? ≠ some '/' ∧ ['.', '.'] ∉ Path.segments key := by
  rw [admits, Bool.and_eq_true, Bool.not_eq_true', List.isEmpty_eq_false_iff]
  apply and_congr_right
  intro hne
  unfold Path.components
  split
  next rest => simp
  next => simp [Path.segments, Text.splitOn, Path.Component.ofSegment?]
  next rest =>
    rw [List.all_cons, Bool.true_and, all_filterMap_ofSegment? (fun _ => rfl) rfl]
    simp
  next hroot _ _ =>
    have hhead : key.head? ≠ some '/' := by
      intro hhead
      obtain ⟨rest, hkey⟩ := List.head?_eq_some_iff.mp hhead
      exact hroot rest hkey
    rw [all_filterMap_ofSegment? (fun _ => rfl) rfl]
    exact (and_iff_right hhead).symm

/-! ## Keys that lead to a place -/

/-- Whether a key stays in the vault and leads to a place. -/
def leadsTo (t : Tree) (v : Vault) (key : Text) (place : Place) : Bool :=
  admits key && match v.locate t key with
    | .ok p => p == place
    | .error _ => false

theorem leadsTo_iff :
    v.leadsTo t key place = true ↔ admits key = true ∧ v.locate t key = .ok place := by
  rw [leadsTo, Bool.and_eq_true]
  cases v.locate t key with
  | ok p => simp
  | error e => simp

theorem leadsTo_unique (h : v.leadsTo t key place = true) (h' : v.leadsTo t key place' = true) :
    place = place' :=
  Except.ok.inj ((leadsTo_iff.mp h).2.symm.trans (leadsTo_iff.mp h').2)

/-- A key that stays in the vault ends in a name, and the names in it make up a place. -/
structure Targets (v : Vault) (key : Text) (place : Place) : Prop where
  admits : admits key = true
  ends : ∃ before last, Path.segments key = before ++ [last] ∧ Path.isIdle last = false ∧
    place = v.place ++ Path.names before ++ [last]

theorem Targets.unique (h : Targets v key place) (h' : Targets v key place') :
    place = place' := by
  obtain ⟨-, before, last, hsegments, -, rfl⟩ := h
  obtain ⟨-, before', last', hsegments', -, rfl⟩ := h'
  obtain ⟨rfl, hlast⟩ := List.append_inj' (hsegments.symm.trans hsegments') rfl
  rw [hlast]

theorem Targets.isPrefix (h : Targets v key place) : v.place <+: place := by
  obtain ⟨-, before, last, -, -, rfl⟩ := h
  rw [List.append_assoc]
  exact List.prefix_append ..

/-- A key leads to a file exactly if it can name it. -/
theorem leadsTo_iff_targets (hfile : t.isFile place = true) :
    v.leadsTo t key place = true ↔ Targets v key place := by
  have hsome : (t.find? place).isSome := by
    obtain ⟨bytes, hfind⟩ := Tree.isFile_iff.mp hfile
    rw [hfind]
    rfl
  have hdir := Tree.isDirectory_eq_false_of_isFile hfile
  obtain ⟨before, last, hsegments⟩ : ∃ before last, Path.segments key = before ++ [last] :=
    Text.exists_splitOn_eq_concat '/' key
  rw [leadsTo_iff, locate, hsegments]
  constructor
  · rintro ⟨hadmits, hfollow⟩
    have hup := (admits_iff.mp hadmits).2.2
    rw [hsegments] at hup
    cases hidle : Path.isIdle last with
    | false =>
        obtain ⟨rfl, -⟩ := (Tree.follow_concat_eq_ok_iff hup hidle).mp hfollow
        exact ⟨hadmits, before, last, hsegments, hidle, rfl⟩
    | true =>
        -- Only from a directory can one go nowhere.
        obtain ⟨p, -, hlast⟩ := Tree.exists_follow_of_append hfollow
        cases hp : t.isDirectory p with
        | false =>
            rw [Tree.follow_cons_of_not_isDirectory hp] at hlast
            cases hlast
        | true =>
            rw [Tree.follow_cons_of_idle hp hidle, Tree.follow] at hlast
            cases hlast
            rw [hp] at hdir
            cases hdir
  · rintro ⟨hadmits, before', last', hsegments', hidle, rfl⟩
    obtain ⟨rfl, hlast⟩ := List.append_inj' (hsegments.symm.trans hsegments') rfl
    obtain rfl := (List.cons.inj hlast).1
    have hup := (admits_iff.mp hadmits).2.2
    rw [hsegments] at hup
    exact ⟨hadmits, (Tree.follow_concat_eq_ok_iff hup hidle).mpr ⟨rfl, hsome⟩⟩

/-- Whether a key leads to a file does not depend on what else is in the tree. -/
theorem leadsTo_congr (hfile : t.isFile place = true) (hfile' : t'.isFile place = true) :
    v.leadsTo t' key place = v.leadsTo t key place := by
  rw [Bool.eq_iff_iff, leadsTo_iff_targets hfile, leadsTo_iff_targets hfile']

/-- There is no file where a key leads. -/
def LeadsToNoFile (t : Tree) (v : Vault) (key : Text) : Prop :=
  ∀ place, v.leadsTo t key place = true → t.isFile place = false

theorem leadsToNoFile_iff :
    v.LeadsToNoFile t key ↔ ∀ place, Targets v key place → t.isFile place = false := by
  have hfile (place : Place) :
      (v.leadsTo t key place = true → t.isFile place = false) ↔
        (Targets v key place → t.isFile place = false) := by
    cases hfile : t.isFile place with
    | false => simp
    | true => rw [leadsTo_iff_targets hfile]
  exact forall_congr' hfile

end NoteLinks.Vault
