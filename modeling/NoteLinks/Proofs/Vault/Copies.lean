/-
# Dry runs and copies

A run sees the notes as the keys in front have left them, and a dry run sees them all as they
were at first. For keys of different notes this makes no difference: going over one of them
touches only its note and the copy of its note, so the others are as they were when it is their
turn, and there is still room for their copies. What a dry run reports is therefore what a run
reports, apart from the paths of the copies, and every copy keeps the bytes that the note had
in front of the run.
-/
import NoteLinks.Proofs.Vault.Applied
import NoteLinks.Proofs.Vault.NoteKeys

namespace NoteLinks

open Insertion (Plan)

/-! ## Reports without copies -/

/-- The outcome without the path of the copy. -/
def Outcome.withoutCopy : Outcome → Outcome
  | .changed links mentions listings _ => .changed links mentions listings none
  | outcome => outcome

theorem Outcome.withoutCopy_eq_changed_iff {x : Outcome} {links mentions listings : Nat} :
    x.withoutCopy = .changed links mentions listings none ↔
      ∃ backup, x = .changed links mentions listings backup := by
  cases x <;> simp [withoutCopy]

theorem Outcome.withoutCopy_eq_unchanged_iff {x : Outcome} :
    x.withoutCopy = .unchanged ↔ x = .unchanged := by
  cases x <;> simp [withoutCopy]

namespace Report

/-- The report without the paths of the copies. -/
def withoutCopies (r : Report) : Report :=
  { r with changes := r.changes.map fun change => { change with backup := none } }

theorem withoutCopies_record (r : Report) (key : Text) (x : Outcome) :
    (r.record key x).withoutCopies = r.withoutCopies.record key x.withoutCopy := by
  cases x with
  | changed links mentions listings backup =>
      simp [record, withoutCopies, Outcome.withoutCopy]
  | unchanged => rfl
  | missing => rfl
  | failed e => rfl

theorem withoutCopies_recordAll (r : Report) (outcomes : List (Text × Outcome)) :
    (r.recordAll outcomes).withoutCopies =
      r.withoutCopies.recordAll (outcomes.map fun e => (e.1, e.2.withoutCopy)) := by
  induction outcomes generalizing r with
  | nil => rfl
  | cons e outcomes ih => exact (ih _).trans (by rw [withoutCopies_record]; rfl)

/-- What is recorded does not depend on whether the run is a dry one. -/
theorem dryRun_recordAll (r : Report) (dryRun : Bool) (outcomes : List (Text × Outcome)) :
    { r.recordAll outcomes with dryRun } = { r with dryRun }.recordAll outcomes := by
  induction outcomes generalizing r with
  | nil => rfl
  | cons e outcomes ih =>
      have hrecord : { r.record e.1 e.2 with dryRun } = { r with dryRun }.record e.1 e.2 := by
        cases e.2 <;> rfl
      exact (ih _).trans (by rw [hrecord]; rfl)

end Report

namespace Vault

variable {t t' t'' : Tree} {v : Vault} {o : ApplyOptions} {clock : Clock} {key : Text}
  {place : Place} {old : ByteArray} {content : Text} {suggestions accepted' : List Suggestion}
  {keys : List Text} {l : List (Text × List Suggestion)} {m : SuggestionMap}

/-! ## Trees in which a key means the same -/

/-- At the place that a key names, both trees have the same. -/
def Agree (v : Vault) (key : Text) (t t' : Tree) : Prop :=
  ∀ place, Targets v key place → t'.find? place = t.find? place

theorem Agree.leadsTo (h : Agree v key t t') (hfile : t'.isFile place = true)
    (hleads : v.leadsTo t' key place = true) : v.leadsTo t key place = true := by
  have htargets := (leadsTo_iff_targets hfile).mp hleads
  have hfile' : t.isFile place = true := Tree.isFile_congr (h place htargets) ▸ hfile
  exact (leadsTo_iff_targets hfile').mpr htargets

theorem Agree.symm (h : Agree v key t t') : Agree v key t' t :=
  fun place htargets => (h place htargets).symm

theorem Agree.leadsToNoFile (h : Agree v key t t') (hnone : v.LeadsToNoFile t' key) :
    v.LeadsToNoFile t key := by
  rw [leadsToNoFile_iff] at hnone ⊢
  intro place htargets
  rw [← Tree.isFile_congr (h place htargets)]
  exact hnone place htargets

theorem Agree.find? (h : Agree v key t t') {bytes : ByteArray}
    (hfind : t'.find? place = some (.file bytes)) (hleads : v.leadsTo t' key place = true) :
    t.find? place = some (.file bytes) := by
  rw [← hfind]
  exact (h place ((leadsTo_iff_targets (Tree.isFile_iff.mpr ⟨bytes, hfind⟩)).mp hleads)).symm

/-! ## What becomes of a key, foreseen in the first tree -/

/-- What becomes of a key in view of a tree, as long as nothing is written. -/
def foreseen (t : Tree) (v : Vault) (o : ApplyOptions) (key : Text)
    (accepted : List Suggestion) : Outcome :=
  (v.update t { o with dryRun := true, backup := false } [] key accepted).2

theorem foreseen_eq {result : Tree × Outcome}
    (h : Step t v { o with dryRun := true, backup := false } [] key accepted' result) :
    v.foreseen t o key accepted' = result.2 := congrArg Prod.snd h.update_eq

/-- The copies of the files that keys lead to can be made, if any are to be made. -/
def HasRoomForCopies (t : Tree) (v : Vault) (o : ApplyOptions) (clock : Clock)
    (keys : List Text) : Prop :=
  o.dryRun = false → o.backup = true → ∀ key ∈ keys, ∀ place, v.leadsTo t key place = true →
    t.isFile place = true → HasCopyRoom t (clock.stamp key) place

/-- What becomes of a key is what is foreseen in a tree that has the same where the key leads. -/
theorem withoutCopy_update (hagree : Agree v key t t')
    (hroom : HasRoomForCopies t' v o clock [key]) (accepted : List Suggestion) :
    (v.update t' o (clock.stamp key) key accepted).2.withoutCopy = v.foreseen t o key accepted := by
  have hstep := step_update t' v o (clock.stamp key) key accepted
  generalize v.update t' o (clock.stamp key) key accepted = result at hstep ⊢
  cases hstep with
  | refused hadmits =>
      rw [foreseen_eq (.refused hadmits)]
      rfl
  | missing hadmits hnone =>
      rw [foreseen_eq (.missing hadmits (hagree.leadsToNoFile hnone))]
      rfl
  | @unreadable place bytes hleads hfind hdecode =>
      have hleads' := hagree.leadsTo (Tree.isFile_iff.mpr ⟨bytes, hfind⟩) hleads
      rw [foreseen_eq (.unreadable hleads' (hagree.find? hfind hleads) hdecode)]
      rfl
  | @unchanged place content hleads htext hsame =>
      obtain ⟨bytes, hfind, hdecode⟩ := htext
      have hleads' := hagree.leadsTo (Tree.isFile_iff.mpr ⟨bytes, hfind⟩) hleads
      have htext' : t.HasText place content := ⟨bytes, hagree.find? hfind hleads, hdecode⟩
      rw [foreseen_eq (.unchanged hleads' htext' hsame)]
      rfl
  | @replaced place bytes content hleads hfind hdecode hchanged =>
      have hfile := Tree.isFile_iff.mpr ⟨bytes, hfind⟩
      have hleads' := hagree.leadsTo hfile hleads
      rw [foreseen_eq (.replaced hleads' (hagree.find? hfind hleads) hdecode hchanged)]
      have hreplaced := replaced_replace v o (clock.stamp key) key hfind
        (Plan.make o.style content accepted)
      generalize v.replace t' o (clock.stamp key) key place bytes
        (Plan.make o.style content accepted) = result at hreplaced ⊢
      cases hreplaced with
      | predicted => rfl
      | written => rfl
      | copied => rfl
      | blocked hdry hbackup hblocked =>
          exact absurd (hroom hdry hbackup key List.mem_cons_self place hleads hfile) hblocked

/-! ## Keys that do not get into each other's way -/

theorem HasRoomForCopies.of_agree (h : HasRoomForCopies t v o clock keys)
    (hmem : key ∈ keys) (hagree : Agree v key t t')
    (hdir : ∀ p, t'.isDirectory p = t.isDirectory p) :
    HasRoomForCopies t' v o clock [key] := by
  intro hdry hbackup key' hkey' place hleads hfile
  obtain rfl := List.mem_singleton.mp hkey'
  have htargets := (leadsTo_iff_targets hfile).mp hleads
  have hfile' : t.isFile place = true := Tree.isFile_congr (hagree place htargets) ▸ hfile
  have hroom := h hdry hbackup key' hmem place (hagree.leadsTo hfile hleads) hfile'
  exact ⟨hroom.stamped, by rw [hdir, hroom.free]⟩

/-- Going over keys leaves what none of them touches. -/
theorem find?_updateAll_of_others {p : Place} (hl : ∀ e ∈ l, e.1 ∈ keys)
    (hnot : key ∉ l.map Prod.fst) (hp : ∀ other ∈ keys, key ≠ other → ∀ place',
      Targets v other place' → ¬ Touches o (clock.stamp other) place' p) (t : Tree) :
    (v.updateAll t o clock l).1.find? p = t.find? p := by
  apply find?_updateAll
  intro other links mentions listings backup place' houtcome
  obtain ⟨suggestions, hasked⟩ := exists_asked_of_mem_updateAll houtcome
  have hother := (List.mem_filter.mp hasked).1
  apply hp other (hl _ hother)
  rintro rfl
  exact hnot (List.mem_map_of_mem hother)

/-- Going over other keys leaves the note of a key as it is. -/
theorem agree_updateAll (h : AreNoteKeys v keys) (hmem : key ∈ keys)
    (hl : ∀ e ∈ l, e.1 ∈ keys) (hnot : key ∉ l.map Prod.fst) (t : Tree) (o : ApplyOptions)
    (clock : Clock) : Agree v key t (v.updateAll t o clock l).1 := by
  intro place htargets
  apply find?_updateAll_of_others hl hnot
  intro other hother hne place'
  exact h.not_touches hmem hother hne htargets

/-- Going over other keys leaves the copy of the note of a key as it is. -/
theorem find?_copyPlace_updateAll (h : AreNoteKeys v keys) (hmem : key ∈ keys)
    (hl : ∀ e ∈ l, e.1 ∈ keys) (hnot : key ∉ l.map Prod.fst) (htargets : Targets v key place)
    (t : Tree) (o : ApplyOptions) (clock : Clock) :
    (v.updateAll t o clock l).1.find? (copyPlace (clock.stamp key) place) =
      t.find? (copyPlace (clock.stamp key) place) := by
  apply find?_updateAll_of_others hl hnot
  intro other hother hne place' htargets'
  exact h.not_touches_copyPlace hmem hother hne htargets htargets' (clock.length_stamp other key)

theorem Agree.trans (h : Agree v key t t') (h' : Agree v key t' t'') : Agree v key t t'' :=
  fun place htargets => (h' place htargets).trans (h place htargets)

/-- What becomes of the keys is what is foreseen in the first tree. -/
theorem map_withoutCopy_updateAll (h : AreNoteKeys v keys)
    (hroom : HasRoomForCopies t v o clock keys) (hl : ∀ e ∈ l, e.1 ∈ keys)
    (hnodup : (l.map Prod.fst).Nodup) (hasked : ∀ e ∈ l, (accepted o e.2).isEmpty = false)
    (hagree : ∀ e ∈ l, Agree v e.1 t t') (hdir : ∀ p, t'.isDirectory p = t.isDirectory p) :
    (v.updateAll t' o clock l).2.map (fun e => (e.1, e.2.withoutCopy)) =
      l.map fun e => (e.1, v.foreseen t o e.1 (accepted o e.2)) := by
  induction l generalizing t' with
  | nil => rfl
  | cons e rest ih =>
      obtain ⟨key, suggestions⟩ := e
      obtain ⟨hkey, hrest⟩ := List.forall_mem_cons.mp hl
      obtain ⟨hfirst, hothers⟩ := List.forall_mem_cons.mp hagree
      obtain ⟨haccepted, hasked⟩ := List.forall_mem_cons.mp hasked
      rw [List.map_cons, List.nodup_cons] at hnodup
      have hagree₁ : ∀ e ∈ rest, Agree v e.1 t
          (v.update t' o (clock.stamp key) key (accepted o suggestions)).1 := by
        intro e he
        apply (hothers e he).trans
        have hother : ∀ x ∈ [(key, suggestions)], x.1 ∈ keys := by simpa using hkey
        have hne : e.1 ∉ [(key, suggestions)].map Prod.fst := by
          rw [List.map_singleton, List.mem_singleton]
          intro heq
          exact hnodup.1 (heq ▸ List.mem_map_of_mem he)
        have hstep := agree_updateAll h (hrest e he) hother hne t' o clock
        rwa [updateAll_cons haccepted] at hstep
      have hdir₁ (p : Place) :
          (v.update t' o (clock.stamp key) key (accepted o suggestions)).1.isDirectory p =
            t.isDirectory p := by
        rw [isDirectory_update, hdir]
      rw [updateAll_cons haccepted, List.map_cons, List.map_cons,
        withoutCopy_update hfirst (hroom.of_agree hkey hfirst hdir),
        ih hrest hnodup.2 hasked hagree₁ hdir₁]

/-- A note that is to be changed gets its new text, and its copy gets the bytes that it had. -/
theorem changed_update (hdry : o.dryRun = false) (hroom : HasRoomForCopies t v o clock [key])
    (hleads : v.leadsTo t key place = true) (hfind : t.find? place = some (.file old))
    (hdecode : Text.decode? old = some content) {accepted : List Suggestion}
    (hchanged : (Plan.make o.style content accepted).content ≠ content) :
    (v.update t o (clock.stamp key) key accepted).1.find? place =
        some (.file (Text.encode (Plan.make o.style content accepted).content)) ∧
      (o.backup = true →
        (copyPlace (clock.stamp key) place ≠ place →
          (v.update t o (clock.stamp key) key accepted).1.find?
            (copyPlace (clock.stamp key) place) = some (.file old)) ∧
        ∃ links mentions listings, (v.update t o (clock.stamp key) key accepted).2 =
          .changed links mentions listings (some (v.copyPath (clock.stamp key) key place))) := by
  rw [(Step.replaced hleads hfind hdecode hchanged).update_eq]
  have hreplaced := replaced_replace v o (clock.stamp key) key hfind
    (Plan.make o.style content accepted)
  generalize v.replace t o (clock.stamp key) key place old
    (Plan.make o.style content accepted) = result at hreplaced ⊢
  cases hreplaced with
  | predicted hdry' => cases hdry.symm.trans hdry'
  | written _ hbackup hafter =>
      refine ⟨by rw [hafter, if_pos rfl], ?_⟩
      intro hbackup'
      cases hbackup.symm.trans hbackup'
  | copied _ hbackup _ hafter =>
      refine ⟨by rw [hafter, if_pos rfl], fun _ => ⟨?_, _, _, _, rfl⟩⟩
      intro hne
      rw [hafter, if_neg hne, if_pos rfl]
  | blocked _ hbackup hblocked =>
      exact absurd (hroom hdry hbackup key List.mem_cons_self place hleads
        (Tree.isFile_iff.mpr ⟨old, hfind⟩)) hblocked

/-- A note that is to be changed has its new text in the end, and its copy has the bytes that it
had at first. -/
theorem changed_updateAll (h : AreNoteKeys v keys) (hdry : o.dryRun = false)
    (hroom : HasRoomForCopies t v o clock keys) (hl : ∀ e ∈ l, e.1 ∈ keys)
    (hnodup : (l.map Prod.fst).Nodup) (hmem : (key, suggestions) ∈ l)
    (haccepted : (accepted o suggestions).isEmpty = false)
    (hleads : v.leadsTo t key place = true) (hfind : t.find? place = some (.file old))
    (hdecode : Text.decode? old = some content)
    (hchanged : (Plan.make o.style content (accepted o suggestions)).content ≠ content) :
    (v.updateAll t o clock l).1.find? place = some (.file
        (Text.encode (Plan.make o.style content (accepted o suggestions)).content)) ∧
      (o.backup = true →
        (v.updateAll t o clock l).1.find? (copyPlace (clock.stamp key) place) = some (.file old) ∧
          ∃ links mentions listings, (key, .changed links mentions listings
              (some (v.copyPath (clock.stamp key) key place))) ∈ (v.updateAll t o clock l).2) := by
  obtain ⟨before, behind, rfl⟩ := List.append_of_mem hmem
  rw [List.forall_mem_append, List.forall_mem_cons] at hl
  obtain ⟨hbefore, hkey, hbehind⟩ := hl
  obtain ⟨hfront, hback⟩ : key ∉ before.map Prod.fst ∧ key ∉ behind.map Prod.fst := by
    rw [List.map_append, List.map_cons, List.nodup_middle, List.nodup_cons, List.mem_append,
      not_or] at hnodup
    exact hnodup.1
  have htargets := (leadsTo_iff_targets (Tree.isFile_iff.mpr ⟨old, hfind⟩)).mp hleads
  -- When it is the note's turn, it is as it was at first.
  have hagree := agree_updateAll h hkey hbefore hfront t o clock
  have hroom₁ := hroom.of_agree hkey hagree (isDirectory_updateAll t v o clock before)
  rw [updateAll_append, updateAll_cons haccepted]
  generalize (v.updateAll t o clock before).1 = t₁ at hagree hroom₁ ⊢
  have hfind₁ : t₁.find? place = some (.file old) := by rw [hagree place htargets, hfind]
  have hleads₁ := hagree.symm.leadsTo (Tree.isFile_iff.mpr ⟨old, hfind⟩) hleads
  obtain ⟨htext, hcopy⟩ := changed_update hdry hroom₁ hleads₁ hfind₁ hdecode hchanged
  have hne : copyPlace (clock.stamp key) place ≠ place := by
    intro heq
    apply not_namesNote_copyPlace (clock.stamp key) place
    rw [heq]
    exact (h.note key hkey).namesNote htargets
  constructor
  · rw [agree_updateAll h hkey hbehind hback _ o clock place htargets, htext]
  · intro hbackup
    obtain ⟨hold, links, mentions, listings, houtcome⟩ := hcopy hbackup
    refine ⟨?_, links, mentions, listings, ?_⟩
    · rw [find?_copyPlace_updateAll h hkey hbehind hback htargets, hold hne]
    · rw [houtcome]
      exact List.mem_append_right _ List.mem_cons_self

/-! ## Dry runs -/

theorem update_dry (hdry : o.dryRun = true) (t : Tree) (v : Vault) (stamp key : Text)
    (accepted : List Suggestion) :
    (v.update t o stamp key accepted).1 = t ∧
      (v.update t o stamp key accepted).2.withoutCopy = (v.update t o stamp key accepted).2 := by
  have hstep := step_update t v o stamp key accepted
  generalize v.update t o stamp key accepted = result at hstep ⊢
  cases hstep with
  | refused => exact ⟨rfl, rfl⟩
  | missing => exact ⟨rfl, rfl⟩
  | unreadable => exact ⟨rfl, rfl⟩
  | unchanged => exact ⟨rfl, rfl⟩
  | replaced =>
      rw [replace, hdry]
      exact ⟨rfl, rfl⟩

/-- A dry run leaves the tree as it is, and there are no copies in its report. -/
theorem updateAll_dry (hdry : o.dryRun = true) (t : Tree) (v : Vault) (clock : Clock)
    (l : List (Text × List Suggestion)) :
    (v.updateAll t o clock l).1 = t ∧
      (v.updateAll t o clock l).2.map (fun e => (e.1, e.2.withoutCopy)) =
        (v.updateAll t o clock l).2 := by
  induction l generalizing t with
  | nil => exact ⟨rfl, rfl⟩
  | cons e rest ih =>
      obtain ⟨key, suggestions⟩ := e
      cases hempty : (accepted o suggestions).isEmpty with
      | true =>
          rw [updateAll_cons_of_isEmpty hempty]
          exact ih t
      | false =>
          obtain ⟨htree, houtcome⟩ :=
            update_dry hdry t v (clock.stamp key) key (accepted o suggestions)
          obtain ⟨ihtree, ihoutcomes⟩ := ih t
          rw [updateAll_cons hempty, htree, List.map_cons, houtcome, ihoutcomes]
          exact ⟨ihtree, rfl⟩

end Vault

/-- The same options for a dry run. -/
def ApplyOptions.dry (o : ApplyOptions) (backup : Bool) : ApplyOptions :=
  { o with dryRun := true, backup }

/-- The same options for a run that writes. -/
def ApplyOptions.real (o : ApplyOptions) (backup : Bool) : ApplyOptions :=
  { o with dryRun := false, backup }

namespace Vault

section Runs

variable {t : Tree} {v : Vault} {o : ApplyOptions} {clock clock' : Clock} {key : Text}
  {m : SuggestionMap} {links mentions listings : Nat} {backup : Option Text}

/-- What becomes of the keys, apart from copies, is foreseen in the first tree. -/
theorem map_withoutCopy_outcomes (h : AreNoteKeys v m.keys)
    (hroom : HasRoomForCopies t v o clock m.keys) :
    (v.outcomes t o clock m).map (fun e => (e.1, e.2.withoutCopy)) =
      (asked o m.entries).map fun e => (e.1, v.foreseen t o e.1 (accepted o e.2)) := by
  rw [outcomes, ← updateAll_asked]
  apply map_withoutCopy_updateAll h hroom _ (nodup_keys_asked m)
  · exact fun e he => accepted_isEmpty_of_mem_asked he
  · exact fun _ _ _ _ => rfl
  · exact fun _ => rfl
  · exact fun e he => List.mem_map_of_mem (List.mem_filter.mp he).1

/-- A note that is reported as changed is to be changed in view of the first tree. -/
theorem exists_of_changed (h : AreNoteKeys v m.keys) (hroom : HasRoomForCopies t v o clock m.keys)
    (hmem : (key, .changed links mentions listings backup) ∈ v.outcomes t o clock m) :
    ∃ suggestions place old content, (key, suggestions) ∈ asked o m.entries ∧
      Targets v key place ∧ v.leadsTo t key place = true ∧ t.find? place = some (.file old) ∧
      Text.decode? old = some content ∧
      (Plan.make o.style content (accepted o suggestions)).content ≠ content := by
  have hforeseen : (key, .changed links mentions listings none) ∈
      (v.outcomes t o clock m).map fun e => (e.1, e.2.withoutCopy) := List.mem_map_of_mem hmem
  rw [map_withoutCopy_outcomes h hroom] at hforeseen
  obtain ⟨⟨key', suggestions⟩, hasked, heq⟩ := List.mem_map.mp hforeseen
  obtain ⟨rfl, houtcome⟩ := Prod.mk.inj heq
  have hstep := step_update t v { o with dryRun := true, backup := false } [] key'
    (accepted o suggestions)
  rw [foreseen] at houtcome
  generalize v.update t { o with dryRun := true, backup := false } [] key'
    (accepted o suggestions) = result at hstep houtcome
  cases hstep with
  | refused => cases houtcome
  | missing => cases houtcome
  | unreadable => cases houtcome
  | unchanged => cases houtcome
  | @replaced place old content hleads hfind hdecode hchanged =>
      have htargets := (leadsTo_iff_targets (Tree.isFile_iff.mpr ⟨old, hfind⟩)).mp hleads
      exact ⟨suggestions, place, old, content, hasked, htargets, hleads, hfind, hdecode, hchanged⟩

theorem hasRoom_without_copies (clock : Clock) :
    HasRoomForCopies t v (o.real false) clock m.keys := by
  intro _ hbackup
  cases hbackup

/-- Both kinds of runs change the same notes. -/
theorem exists_copied_of_changed (h : AreNoteKeys v m.keys)
    (hroom : HasRoomForCopies t v (o.real true) clock m.keys)
    (hmem : (key, .changed links mentions listings backup) ∈
      v.outcomes t (o.real false) clock' m) :
    ∃ backup', (key, .changed links mentions listings backup') ∈
      v.outcomes t (o.real true) clock m := by
  have hforeseen : (key, .changed links mentions listings none) ∈
      (v.outcomes t (o.real false) clock' m).map fun e => (e.1, e.2.withoutCopy) :=
    List.mem_map_of_mem hmem
  rw [map_withoutCopy_outcomes h (hasRoom_without_copies clock')] at hforeseen
  have hcopied : (key, .changed links mentions listings none) ∈
      (v.outcomes t (o.real true) clock m).map fun e => (e.1, e.2.withoutCopy) := by
    rw [map_withoutCopy_outcomes h hroom]
    exact hforeseen
  obtain ⟨⟨key', x⟩, hmem', heq⟩ := List.mem_map.mp hcopied
  obtain ⟨rfl, houtcome⟩ := Prod.mk.inj heq
  obtain ⟨backup', rfl⟩ := Outcome.withoutCopy_eq_changed_iff.mp houtcome
  exact ⟨backup', hmem'⟩

/-- With copies and without, a run leaves the same of a note that it changes. -/
theorem find?_real_of_changed (h : AreNoteKeys v m.keys)
    (hroom : HasRoomForCopies t v (o.real true) clock m.keys) {p : Place}
    (hmem : (key, .changed links mentions listings backup) ∈ v.outcomes t (o.real true) clock m)
    (hkey : Targets v key p) (clock' : Clock) :
    (v.apply t (o.real true) clock m).1.find? p =
      (v.apply t (o.real false) clock' m).1.find? p := by
  obtain ⟨suggestions, place, old, content, hasked, htargets, hleads, hfind, hdecode, hchanged⟩ :=
    exists_of_changed h hroom hmem
  obtain rfl := htargets.unique hkey
  have hentries : ∀ e ∈ m.entries, e.1 ∈ m.keys := fun e he => List.mem_map_of_mem he
  have hentry := (List.mem_filter.mp hasked).1
  have haccepted := accepted_isEmpty_of_mem_asked hasked
  have hcopied := changed_updateAll h rfl hroom hentries m.nodup_keys hentry haccepted hleads
    hfind hdecode hchanged
  have hwritten := changed_updateAll h rfl (hasRoom_without_copies clock') hentries
    m.nodup_keys hentry haccepted hleads hfind hdecode hchanged
  rw [fst_apply, fst_apply]
  exact hcopied.1.trans hwritten.1.symm

/-- With copies and without, a run leaves the same except where the copies are. -/
theorem find?_real (h : AreNoteKeys v m.keys)
    (hroom : HasRoomForCopies t v (o.real true) clock m.keys) (clock' : Clock) {p : Place}
    (hp : ∀ change ∈ (v.apply t (o.real true) clock m).2.changes, ∀ place,
      v.leadsTo t change.key place = true → p ≠ copyPlace (clock.stamp change.key) place) :
    (v.apply t (o.real true) clock m).1.find? p =
      (v.apply t (o.real false) clock' m).1.find? p := by
  by_cases hnote : ∃ key links mentions listings backup,
      (key, .changed links mentions listings backup) ∈ v.outcomes t (o.real true) clock m ∧
        Targets v key p
  · obtain ⟨key, links, mentions, listings, backup, hmem, hkey⟩ := hnote
    exact find?_real_of_changed h hroom hmem hkey clock'
  -- Neither run writes to any other place.
  · have hcopied : (v.apply t (o.real true) clock m).1.find? p = t.find? p := by
      rw [fst_apply]
      apply find?_updateAll
      intro key links mentions listings backup place hmem hkey htouches
      rcases htouches with rfl | ⟨-, rfl⟩
      · exact hnote ⟨key, links, mentions, listings, backup, hmem, hkey⟩
      · obtain ⟨_, _, _, _, _, htargets, hleads, -⟩ := exists_of_changed h hroom hmem
        obtain rfl := htargets.unique hkey
        exact hp ⟨key, links, mentions, listings, backup⟩ (tells_apply.mem_changes_iff.mpr hmem) _
          hleads rfl
    have hwritten : (v.apply t (o.real false) clock' m).1.find? p = t.find? p := by
      rw [fst_apply]
      apply find?_updateAll
      intro key links mentions listings backup place hmem hkey htouches
      rcases htouches with rfl | ⟨hbackup, -⟩
      · obtain ⟨backup', hmem'⟩ := exists_copied_of_changed h hroom hmem
        exact hnote ⟨key, links, mentions, listings, backup', hmem', hkey⟩
      · cases hbackup
    rw [hcopied, hwritten]

/-- Every change has a copy beside the note, with the bytes that the note had at first. -/
theorem copy_of_change {here : Place} (hvault : find t here v.path = .ok v)
    (h : AreNoteKeys v m.keys) (hroom : HasRoomForCopies t v (o.real true) clock m.keys)
    {change : Report.Change} (hmem : change ∈ (v.apply t (o.real true) clock m).2.changes) :
    let stamp := clock.stamp change.key
    ∃ place old path, v.leadsTo t change.key place = true ∧
      t.find? place = some (.file old) ∧ change.backup = some path ∧
      Path.fileName path = Path.stem change.key ++ '.' :: stamp ++ ".bak".toList ∧
      (v.apply t (o.real true) clock m).1.locate here path = .ok (copyPlace stamp place) ∧
      (v.apply t (o.real true) clock m).1.find? (copyPlace stamp place) = some (.file old) := by
  intro stamp
  have houtcome := tells_apply.mem_changes_iff.mp hmem
  obtain ⟨suggestions, place, old, content, hasked, htargets, hleads, hfind, hdecode, hchanged⟩ :=
    exists_of_changed h hroom houtcome
  have hentries : ∀ e ∈ m.entries, e.1 ∈ m.keys := fun e he => List.mem_map_of_mem he
  have hentry := (List.mem_filter.mp hasked).1
  obtain ⟨hnew, hcopy⟩ := changed_updateAll h rfl hroom hentries m.nodup_keys hentry
    (accepted_isEmpty_of_mem_asked hasked) hleads hfind hdecode hchanged
  obtain ⟨hold, links, mentions, listings, hreported⟩ := hcopy rfl
  have hbackup : change.backup = some (v.copyPath stamp change.key place) := by
    injection Report.outcome_unique (nodup_outcomes t v (o.real true) clock m) houtcome hreported
  have hfile := Tree.isFile_iff.mpr ⟨old, hfind⟩
  have hstamp := (hroom rfl rfl change.key (hentries _ hentry) place hleads hfile).stamped
  obtain ⟨-, hlocate⟩ := locate_of_find hvault
  rw [fst_apply]
  refine ⟨place, old, _, hleads, hfind, hbackup, ?_, ?_, hold⟩
  · obtain ⟨dir, rfl⟩ := htargets.eq_concat
    have hsome : (t.find? (dir ++ [Path.fileName change.key])).isSome := by
      rw [hfind]
      rfl
    exact fileName_copyPath (Tree.ne_nil_of_locate hlocate) htargets
      (Tree.isName_of_isSome hsome _ List.mem_cons_self) hstamp
  · have hfile' : (v.updateAll t (o.real true) clock m.entries).1.isFile place = true :=
      Tree.isFile_iff.mpr ⟨_, hnew⟩
    apply locate_copyPath (locate_updateAll t v (o.real true) clock m.entries hlocate) hfile' _
      hstamp
    · rw [hold]
      rfl
    · rw [leadsTo_congr hfile hfile', hleads]

/-- A dry run reports what a real run reports, apart from the paths of the copies. -/
theorem report_dry (h : AreNoteKeys v m.keys) (backup backup' : Bool)
    (hroom : HasRoomForCopies t v (o.real backup') clock m.keys) (clock' : Clock) :
    (v.apply t (o.dry backup) clock' m).2 =
      { (v.apply t (o.real backup') clock m).2.withoutCopies with dryRun := true } := by
  have hdryroom : HasRoomForCopies t v (o.dry backup) clock' m.keys := by
    intro hdry
    cases hdry
  have hself : (v.outcomes t (o.dry backup) clock' m).map (fun e => (e.1, e.2.withoutCopy)) =
      v.outcomes t (o.dry backup) clock' m := (updateAll_dry rfl t v clock' m.entries).2
  have houtcomes : v.outcomes t (o.dry backup) clock' m =
      (v.outcomes t (o.real backup') clock m).map fun e => (e.1, e.2.withoutCopy) := by
    rw [← hself, map_withoutCopy_outcomes h hdryroom, map_withoutCopy_outcomes h hroom]
    rfl
  rw [snd_apply, snd_apply, Report.withoutCopies_recordAll, Report.dryRun_recordAll, ← houtcomes]
  rfl

/-- For keys of different notes, a dry run leaves the tree as it is and reports what the real
run on this tree reports, apart from the paths of the copies. With copies, the real run leaves
the notes as it does without, and all else that is no copy; each change that it reports has a
copy beside the note, under the name of the note with the stamp of its time, and the copy has
the bytes that the note had in front of the run. No run needs to know the clock of another. -/
theorem dry_run_tells_run (t : Tree) (here : Place) (v : Vault) (o : ApplyOptions)
    (clock clock' : Clock) (m : SuggestionMap) (hvault : find t here v.path = .ok v)
    (hkeys : AreNoteKeys v m.keys) :
    (∀ backup, (v.apply t (o.dry backup) clock' m).1 = t) ∧
      (∀ backup backup', HasRoomForCopies t v (o.real backup') clock m.keys →
        (v.apply t (o.dry backup) clock' m).2 =
          { (v.apply t (o.real backup') clock m).2.withoutCopies with dryRun := true }) ∧
      (HasRoomForCopies t v (o.real true) clock m.keys →
        (∀ p, NamesNote p → (v.apply t (o.real true) clock m).1.find? p =
          (v.apply t (o.real false) clock' m).1.find? p) ∧
        (∀ p, (∀ change ∈ (v.apply t (o.real true) clock m).2.changes, ∀ place,
            v.leadsTo t change.key place = true → p ≠ copyPlace (clock.stamp change.key) place) →
          (v.apply t (o.real true) clock m).1.find? p =
            (v.apply t (o.real false) clock' m).1.find? p) ∧
        ∀ change ∈ (v.apply t (o.real true) clock m).2.changes,
          let stamp := clock.stamp change.key
          ∃ place old path, v.leadsTo t change.key place = true ∧
            t.find? place = some (.file old) ∧ change.backup = some path ∧
            Path.fileName path = Path.stem change.key ++ '.' :: stamp ++ ".bak".toList ∧
            (v.apply t (o.real true) clock m).1.locate here path = .ok (copyPlace stamp place) ∧
            (v.apply t (o.real true) clock m).1.find? (copyPlace stamp place) =
              some (.file old)) := by
  refine ⟨?_, fun backup backup' hroom => report_dry hkeys backup backup' hroom clock', ?_⟩
  · intro backup
    rw [fst_apply]
    exact (updateAll_dry rfl t v clock' m.entries).1
  · intro hroom
    refine ⟨?_, fun p => find?_real hkeys hroom clock',
      fun change => copy_of_change hvault hkeys hroom⟩
    intro p hnote
    apply find?_real hkeys hroom clock'
    rintro change - place - rfl
    exact not_namesNote_copyPlace (clock.stamp change.key) place hnote

end Runs

/-- A vault with two notes. -/
def vaultOfTwo : Tree :=
  vaultBesideFile.put ["v".toList] "b.md".toList (.file (Text.encode "Other\n".toList))
    (by decide +kernel)

/-- Suggestions for both notes. -/
def suggestionsForBoth : SuggestionMap :=
  KeyMap.ofList [("a.md".toList, [Insertion.suggestionOf "b.md".toList "B".toList []]),
    ("b.md".toList, [Insertion.suggestionOf "a.md".toList "A".toList []])]

/-- A clock that shows the next second when the copy of the second note is made. -/
def tickingClock : Clock where
  stamp key := "20240101_12000".toList ++ [if key = "a.md".toList then '0' else '1']
  length_stamp _ _ := by rw [List.length_append, List.length_append, List.length_singleton]; rfl

/-- A real run does to the two notes what a dry run tells, and keeps copies of both. -/
theorem copies_of_two_notes :
    let v : Vault := ⟨"v".toList, ["v".toList]⟩
    let o : ApplyOptions := { floor := .low }
    let clock := tickingClock
    let keys := KeyMap.keys suggestionsForBoth
    (find vaultOfTwo [] v.path = .ok v ∧ AreNoteKeys v keys ∧
        HasRoomForCopies vaultOfTwo v (o.real true) clock keys) ∧
      (v.apply vaultOfTwo (o.dry true) (.still []) suggestionsForBoth).1 = vaultOfTwo ∧
      (v.apply vaultOfTwo (o.dry true) (.still []) suggestionsForBoth).2 =
        { (v.apply vaultOfTwo (o.real true) clock suggestionsForBoth).2.withoutCopies with
          dryRun := true } ∧
      (v.apply vaultOfTwo (o.real true) clock suggestionsForBoth).1.find?
        ["v".toList, "a.20240101_120000.bak".toList] =
          some (.file (Text.encode "Body\n".toList)) ∧
      (v.apply vaultOfTwo (o.real true) clock suggestionsForBoth).1.find?
        ["v".toList, "b.20240101_120001.bak".toList] =
          some (.file (Text.encode "Other\n".toList)) := by
  intro v o clock keys
  have hkeys (key : Text) (hmem : key ∈ keys) : ∃ names, IsNotePlace [] names ∧
      (∀ name ∈ names, isName name = true) ∧ keyOf names = key ∧
        HasCopyRoom vaultOfTwo (clock.stamp key) (v.place ++ names) := by
    have heq : keys = ["a.md".toList, "b.md".toList] := by decide
    rw [heq, List.mem_cons, List.mem_singleton] at hmem
    rcases hmem with rfl | rfl
    · exact ⟨["a.md".toList], ⟨by decide, _, rfl, by decide⟩, by decide, rfl,
        ⟨by decide, by decide +kernel⟩⟩
    · exact ⟨["b.md".toList], ⟨by decide, _, rfl, by decide⟩, by decide, rfl,
        ⟨by decide, by decide +kernel⟩⟩
  have hnotes : AreNoteKeys v keys := by
    apply areNoteKeys_of_notes
    intro key hmem
    obtain ⟨names, hplace, hnames, hkey, -⟩ := hkeys key hmem
    exact ⟨names, hplace, hnames, hkey⟩
  have hroom : HasRoomForCopies vaultOfTwo v (o.real true) clock keys := by
    intro _ _ key hmem place hleads hfile
    obtain ⟨names, hplace, hnames, rfl, hfree⟩ := hkeys key hmem
    have htargets := (leadsTo_iff_targets hfile).mp hleads
    rwa [← (targets_keyOf v hplace.ne_nil hnames).unique htargets]
  have hvault : find vaultOfTwo [] v.path = .ok v := by rfl
  obtain ⟨htree, hreport, hcopies⟩ :=
    dry_run_tells_run vaultOfTwo [] v o clock (.still []) suggestionsForBoth hvault hnotes
  have hcopy (change : Report.Change) (place : Place)
      (hchange : change ∈ (v.apply vaultOfTwo (o.real true) clock suggestionsForBoth).2.changes)
      (hplace : v.leadsTo vaultOfTwo change.key place = true) :
      (v.apply vaultOfTwo (o.real true) clock suggestionsForBoth).1.find?
        (copyPlace (clock.stamp change.key) place) = vaultOfTwo.find? place := by
    obtain ⟨place', old, path, hleads, hfind, -, -, -, hcopy⟩ := (hcopies hroom).2.2 _ hchange
    obtain rfl := leadsTo_unique hplace hleads
    rw [hcopy, hfind]
  refine ⟨⟨hvault, hnotes, hroom⟩, htree true, hreport true true hroom, ?_, ?_⟩
  · exact hcopy ⟨"a.md".toList, 1, 0, 1, some "v/a.20240101_120000.bak".toList⟩
      ["v".toList, "a.md".toList] (by decide +kernel) (by decide +kernel)
  · exact hcopy ⟨"b.md".toList, 1, 0, 1, some "v/b.20240101_120001.bak".toList⟩
      ["v".toList, "b.md".toList] (by decide +kernel) (by decide +kernel)

end Vault

end NoteLinks
