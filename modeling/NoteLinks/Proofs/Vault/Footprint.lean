/-
# Where a run writes

A run writes to the files that it reports as changed, and to the places where their copies are
kept if copies are asked for. It writes nowhere else, whatever the keys and the options are. A
directory is never written over, and none is made. So a copy fails only where a directory is in
its way, or where its name is none.
-/
import NoteLinks.Proofs.Tree.Sibling
import NoteLinks.Proofs.Vault.Outcome

namespace NoteLinks

open Insertion (Plan)

namespace Vault

variable {t t' : Tree} {v : Vault} {o : ApplyOptions} {clock : Clock} {stamp key : Text}
  {place p : Place} {old : ByteArray} {plan : Plan} {accepted : List Suggestion}
  {l : List (Text × List Suggestion)} {m : SuggestionMap}

/-! ## Copies -/

/-- Where the copy of the file at a place is kept. -/
def copyPlace (stamp : Text) (place : Place) : Place :=
  place.dropLast ++ [backupName stamp (place.getLast?.getD [])]

/-- The path that a report gives for the copy of the file that a key leads to. -/
def copyPath (v : Vault) (stamp key : Text) (place : Place) : Text :=
  Path.sibling (Path.below v.path key) (backupName stamp (place.getLast?.getD []))

/-- A file can be put where the copy of the file at a place is kept. -/
structure HasCopyRoom (t : Tree) (stamp : Text) (place : Place) : Prop where
  stamped : '/' ∉ stamp
  free : t.isDirectory (copyPlace stamp place) = false

theorem not_mem_nameStem {c : Char} {name : Text} (h : c ∉ name) : c ∉ Path.nameStem name := by
  rw [Path.nameStem]
  split
  next stem extension hcut =>
    obtain ⟨rfl, -⟩ := Text.cutLast?_eq_some_iff.mp hcut
    split
    · exact h
    · exact fun hmem => h (List.mem_append_left _ hmem)
  next => exact h

theorem isName_backupName {name : Text} (hstamp : '/' ∉ stamp) (hname : isName name = true) :
    isName (backupName stamp name) = true := by
  have hslash : '/' ∉ backupName stamp name := by
    have hstem := not_mem_nameStem (not_mem_of_isName hname)
    simp [backupName, hstem, hstamp]
  have hlength : 4 < (backupName stamp name).length := by
    simp [backupName]
    omega
  have hshort (short : Text) (h : short.length ≤ 4) : backupName stamp name ≠ short := by
    rintro rfl
    omega
  simp only [isName, Bool.and_eq_true, Bool.not_eq_true', bne_iff_ne, List.all_eq_true,
    List.isEmpty_eq_false_iff]
  exact ⟨⟨⟨hshort _ (by decide), hshort _ (by decide)⟩, hshort _ (by decide)⟩,
    fun c hc heq => hslash (heq ▸ hc)⟩

/-- What can be said of the tree and the outcome when the file at a place is replaced. -/
inductive Replaced (t : Tree) (v : Vault) (o : ApplyOptions) (stamp key : Text) (place : Place)
    (old : ByteArray) (plan : Plan) : Tree × Outcome → Prop
  | predicted (hdry : o.dryRun = true) :
      Replaced t v o stamp key place old plan
        (t, .changed plan.links plan.mentions plan.listings none)
  | written (hdry : o.dryRun = false) (hbackup : o.backup = false) {t' : Tree}
      (hfind : ∀ p, t'.find? p =
        if p = place then some (.file (Text.encode plan.content)) else t.find? p) :
      Replaced t v o stamp key place old plan
        (t', .changed plan.links plan.mentions plan.listings none)
  | copied (hdry : o.dryRun = false) (hbackup : o.backup = true)
      (hroom : t.HasRoom place.dropLast (backupName stamp (place.getLast?.getD []))) {t' : Tree}
      (hfind : ∀ p, t'.find? p =
        if p = place then some (.file (Text.encode plan.content))
        else if p = copyPlace stamp place then some (.file old) else t.find? p) :
      Replaced t v o stamp key place old plan
        (t', .changed plan.links plan.mentions plan.listings (some (v.copyPath stamp key place)))
  | blocked (hdry : o.dryRun = false) (hbackup : o.backup = true)
      (hroom : ¬ HasCopyRoom t stamp place) (e : DiskError) :
      Replaced t v o stamp key place old plan (t, .failed (.disk e))

/-- Beside a file there is room for its copy, unless a directory is in the way. -/
theorem hasRoom_copy (hfile : t.isFile place = true) (h : HasCopyRoom t stamp place) :
    t.HasRoom place.dropLast (backupName stamp (place.getLast?.getD [])) := by
  obtain ⟨bytes, hfind⟩ := Tree.isFile_iff.mp hfile
  have hne : place ≠ [] := by
    rintro rfl
    cases hfind.symm.trans t.root
  obtain ⟨dir, last, rfl⟩ : ∃ dir last, place = dir ++ [last] :=
    ⟨_, _, (List.dropLast_append_getLast hne).symm⟩
  have hsome : (t.find? (dir ++ [last])).isSome := by
    rw [hfind]
    rfl
  have hfree := h.free
  rw [copyPlace, Tree.isDirectory, decide_eq_false_iff_not] at hfree
  refine ⟨?_, ?_, hfree⟩
  · rw [List.dropLast_concat]
    exact t.rooted dir last hsome
  · rw [List.getLast?_concat]
    exact isName_backupName h.stamped (Tree.isName_of_isSome hsome last List.mem_cons_self)

theorem replaced_replace (v : Vault) (o : ApplyOptions) (stamp key : Text)
    (hfind : t.find? place = some (.file old)) (plan : Plan) :
    Replaced t v o stamp key place old plan (v.replace t o stamp key place old plan) := by
  have hfile := Tree.isFile_iff.mpr ⟨old, hfind⟩
  rw [replace]
  cases hdry : o.dryRun with
  | true => exact .predicted hdry
  | false =>
      cases hbackup : o.backup with
      | false => exact .written hdry hbackup fun p => Tree.find?_overwrite hfile p
      | true =>
          simp only [Bool.false_eq_true, if_false, if_true]
          by_cases hroom : t.HasRoom place.dropLast (backupName stamp (place.getLast?.getD []))
          · have hwrite : t.writeAt place.dropLast _ old = .ok (t.put _ _ (.file old) hroom) :=
              dif_pos hroom
            rw [hwrite]
            apply Replaced.copied hdry hbackup hroom
            intro p
            rw [Tree.find?_overwrite, Tree.find?_put, copyPlace]
            rw [Tree.isFile, Tree.find?_put]
            split <;> simp_all
          · have hblocked : ¬ HasCopyRoom t stamp place := mt (hasRoom_copy hfile) hroom
            have hwrite : ∃ e, t.writeAt place.dropLast
                (backupName stamp (place.getLast?.getD [])) old = .error e := by
              rw [Tree.writeAt, dif_neg hroom]
              split
              · exact ⟨_, rfl⟩
              · exact ⟨_, rfl⟩
            obtain ⟨e, hwrite⟩ := hwrite
            rw [hwrite]
            exact .blocked hdry hbackup hblocked e

/-! ## One key -/

/-- A place that is written when the file at another place is changed: this place itself and,
if copies are kept, that of its copy. -/
def Touches (o : ApplyOptions) (stamp : Text) (place p : Place) : Prop :=
  p = place ∨ o.backup = true ∧ p = copyPlace stamp place

/-- The file at a place has been changed, and nothing that this does not touch. -/
structure Writes (t t' : Tree) (o : ApplyOptions) (stamp : Text) (place : Place) : Prop where
  same : ∀ p, ¬ Touches o stamp place p → t'.find? p = t.find? p
  directory : ∀ p, Touches o stamp place p → t'.isDirectory p = t.isDirectory p
  isSome : ∀ p, Touches o stamp place p → (t'.find? p).isSome

theorem writes_of_find? {new : ByteArray} (hfile : t.find? place = some (.file old))
    (hfind : ∀ p, t'.find? p = if p = place then some (.file new) else t.find? p)
    (hbackup : o.backup = false) : Writes t t' o stamp place where
  same p hnot := by
    rw [Touches, not_or] at hnot
    rw [hfind, if_neg hnot.1]
  directory p htouches := by
    rw [Touches, hbackup] at htouches
    obtain rfl : p = place := by simpa using htouches
    simp [Tree.isDirectory, hfind, hfile]
  isSome p htouches := by
    rw [Touches, hbackup] at htouches
    obtain rfl : p = place := by simpa using htouches
    simp [hfind]

theorem writes_of_find?_copied {new : ByteArray} (hfile : t.find? place = some (.file old))
    (hroom : t.HasRoom place.dropLast (backupName stamp (place.getLast?.getD [])))
    (hfind : ∀ p, t'.find? p = if p = place then some (.file new)
      else if p = copyPlace stamp place then some (.file old) else t.find? p)
    (hbackup : o.backup = true) : Writes t t' o stamp place where
  same p hnot := by
    rw [Touches, not_or, not_and] at hnot
    rw [hfind, if_neg hnot.1, if_neg (hnot.2 hbackup)]
  directory p htouches := by
    have hfree : t.find? (copyPlace stamp place) ≠ some .directory := hroom.2.2
    by_cases hplace : p = place
    · simp [Tree.isDirectory, hfind, hplace, hfile]
    · obtain rfl := (htouches.resolve_left hplace).2
      simp [Tree.isDirectory, hfind, hplace, hfree]
  isSome p htouches := by
    by_cases hplace : p = place
    · simp [hfind, hplace]
    · obtain rfl := (htouches.resolve_left hplace).2
      simp [hfind, hplace]

/-- Going over a key changes the file that it leads to, which is reported, or nothing. -/
theorem update_eq_or_writes (t : Tree) (v : Vault) (o : ApplyOptions) (stamp key : Text)
    (accepted : List Suggestion) :
    (v.update t o stamp key accepted).1 = t ∨
      ∃ place links mentions listings backup, Targets v key place ∧
        (v.update t o stamp key accepted).2 = .changed links mentions listings backup ∧
        Writes t (v.update t o stamp key accepted).1 o stamp place := by
  have hstep := step_update t v o stamp key accepted
  generalize v.update t o stamp key accepted = result at hstep ⊢
  cases hstep with
  | refused => exact .inl rfl
  | missing => exact .inl rfl
  | unreadable => exact .inl rfl
  | unchanged => exact .inl rfl
  | @replaced place bytes content hleads hfind hdecode hchanged =>
      have htargets := (leadsTo_iff_targets (Tree.isFile_iff.mpr ⟨bytes, hfind⟩)).mp hleads
      have hreplaced := replaced_replace v o stamp key hfind (Plan.make o.style content accepted)
      generalize v.replace t o stamp key place bytes (Plan.make o.style content accepted) = result
        at hreplaced ⊢
      cases hreplaced with
      | predicted => exact .inl rfl
      | written _ hbackup hafter =>
          exact .inr ⟨place, _, _, _, _, htargets, rfl, writes_of_find? hfind hafter hbackup⟩
      | copied _ hbackup hroom hafter =>
          exact .inr ⟨place, _, _, _, _, htargets, rfl,
            writes_of_find?_copied hfind hroom hafter hbackup⟩
      | blocked => exact .inl rfl

/-- Going over a key changes what the change that is reported touches. -/
theorem find?_update (h : ∀ links mentions listings backup place,
    (v.update t o stamp key accepted).2 = .changed links mentions listings backup →
      Targets v key place → ¬ Touches o stamp place p) :
    (v.update t o stamp key accepted).1.find? p = t.find? p := by
  rcases update_eq_or_writes t v o stamp key accepted with
    heq | ⟨place, links, mentions, listings, backup, htargets, houtcome, hwrites⟩
  · rw [heq]
  · exact hwrites.same p (h links mentions listings backup place houtcome htargets)

/-- Going over a key leaves the directories as they are. -/
theorem isDirectory_update (t : Tree) (v : Vault) (o : ApplyOptions) (stamp key : Text)
    (accepted : List Suggestion) (p : Place) :
    (v.update t o stamp key accepted).1.isDirectory p = t.isDirectory p := by
  rcases update_eq_or_writes t v o stamp key accepted with
    heq | ⟨place, -, -, -, -, -, -, hwrites⟩
  · rw [heq]
  · by_cases htouches : Touches o stamp place p
    · exact hwrites.directory p htouches
    · rw [Tree.isDirectory, hwrites.same p htouches, Tree.isDirectory]

/-- Going over a key removes nothing. -/
theorem isSome_update (t : Tree) (v : Vault) (o : ApplyOptions) (stamp key : Text)
    (accepted : List Suggestion) (h : (t.find? p).isSome) :
    ((v.update t o stamp key accepted).1.find? p).isSome := by
  rcases update_eq_or_writes t v o stamp key accepted with
    heq | ⟨place, -, -, -, -, -, -, hwrites⟩
  · rwa [heq]
  · by_cases htouches : Touches o stamp place p
    · exact hwrites.isSome p htouches
    · rwa [hwrites.same p htouches]

/-! ## One key after another -/

/-- A run changes what the changes that it reports touch. -/
theorem find?_updateAll (h : ∀ key links mentions listings backup place,
    (key, .changed links mentions listings backup) ∈ (v.updateAll t o clock l).2 →
      Targets v key place → ¬ Touches o (clock.stamp key) place p) :
    (v.updateAll t o clock l).1.find? p = t.find? p := by
  induction l generalizing t with
  | nil => rfl
  | cons e rest ih =>
      obtain ⟨key, suggestions⟩ := e
      cases hempty : (accepted o suggestions).isEmpty with
      | true =>
          rw [updateAll_cons_of_isEmpty hempty] at h ⊢
          exact ih h
      | false =>
          rw [updateAll_cons hempty] at h ⊢
          rw [ih fun key links mentions listings backup place hmem =>
            h key links mentions listings backup place (List.mem_cons_of_mem _ hmem)]
          apply find?_update
          intro links mentions listings backup place heq
          exact h key links mentions listings backup place (heq ▸ List.mem_cons_self)

theorem isDirectory_updateAll (t : Tree) (v : Vault) (o : ApplyOptions) (clock : Clock)
    (l : List (Text × List Suggestion)) (p : Place) :
    (v.updateAll t o clock l).1.isDirectory p = t.isDirectory p := by
  induction l generalizing t with
  | nil => rfl
  | cons e rest ih =>
      obtain ⟨key, suggestions⟩ := e
      cases hempty : (accepted o suggestions).isEmpty with
      | true => rw [updateAll_cons_of_isEmpty hempty, ih]
      | false => rw [updateAll_cons hempty, ih, isDirectory_update]

theorem isSome_updateAll (t : Tree) (v : Vault) (o : ApplyOptions) (clock : Clock)
    (l : List (Text × List Suggestion)) (h : (t.find? p).isSome) :
    ((v.updateAll t o clock l).1.find? p).isSome := by
  induction l generalizing t with
  | nil => exact h
  | cons e rest ih =>
      obtain ⟨key, suggestions⟩ := e
      cases hempty : (accepted o suggestions).isEmpty with
      | true =>
          rw [updateAll_cons_of_isEmpty hempty]
          exact ih t h
      | false =>
          rw [updateAll_cons hempty]
          exact ih _ (isSome_update t v o (clock.stamp key) key (accepted o suggestions) h)

/-- A path leads where it did. -/
theorem locate_updateAll (t : Tree) (v : Vault) (o : ApplyOptions) (clock : Clock)
    (l : List (Text × List Suggestion)) {here : Place} {path : Text}
    (h : t.locate here path = .ok place) :
    (v.updateAll t o clock l).1.locate here path = .ok place := by
  have hne := Tree.ne_nil_of_locate h
  rw [Tree.locate_of_ne_nil hne] at h ⊢
  apply Tree.follow_mono _ _ h
  · intro p hdir
    rw [isDirectory_updateAll, hdir]
  · intro p hsome
    exact isSome_updateAll t v o clock l hsome

end Vault

end NoteLinks
