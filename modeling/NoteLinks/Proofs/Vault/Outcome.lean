/-
# What becomes of a key

Going over the suggestions for a key ends in one of five ways: the key is refused, it leads to
no file, the file is no text, nothing is to be inserted, or the file is replaced. A run goes
over the keys with accepted suggestions one after another, so what becomes of a key is what
becomes of it in the tree that the keys in front of it have left. Every such key has one
outcome.
-/
import NoteLinks.Proofs.Vault.Naming
import NoteLinks.Proofs.Vault.Update

namespace NoteLinks

open Insertion (Plan)

namespace Vault

variable {t : Tree} {v : Vault} {o : ApplyOptions} {clock : Clock} {stamp key : Text}
  {suggestions : List Suggestion} {l rest : List (Text × List Suggestion)}

/-! ## One key -/

/-- The ways in which going over the accepted suggestions for a key can end. -/
inductive Step (t : Tree) (v : Vault) (o : ApplyOptions) (stamp key : Text)
    (accepted : List Suggestion) : Tree × Outcome → Prop
  | refused (h : admits key = false) :
      Step t v o stamp key accepted (t, .failed (.outsideVault key))
  | missing (hadmits : admits key = true) (hnone : v.LeadsToNoFile t key) :
      Step t v o stamp key accepted (t, .missing)
  | unreadable {place : Place} {bytes : ByteArray} (hleads : v.leadsTo t key place = true)
      (hfind : t.find? place = some (.file bytes)) (hdecode : Text.decode? bytes = none) :
      Step t v o stamp key accepted (t, .failed (.disk .notText))
  | unchanged {place : Place} {content : Text} (hleads : v.leadsTo t key place = true)
      (htext : t.HasText place content)
      (hsame : (Plan.make o.style content accepted).content = content) :
      Step t v o stamp key accepted (t, .unchanged)
  | replaced {place : Place} {bytes : ByteArray} {content : Text}
      (hleads : v.leadsTo t key place = true) (hfind : t.find? place = some (.file bytes))
      (hdecode : Text.decode? bytes = some content)
      (hchanged : (Plan.make o.style content accepted).content ≠ content) :
      Step t v o stamp key accepted
        (v.replace t o stamp key place bytes (Plan.make o.style content accepted))

theorem leadsToNoFile_of_locate
    (h : ∀ place, v.locate t key = .ok place → t.isFile place = false) : v.LeadsToNoFile t key :=
  fun place hleads => h place (leadsTo_iff.mp hleads).2

theorem step_update (t : Tree) (v : Vault) (o : ApplyOptions) (stamp key : Text)
    (accepted : List Suggestion) :
    Step t v o stamp key accepted (v.update t o stamp key accepted) := by
  rw [update]
  cases hadmits : admits key with
  | false => exact .refused hadmits
  | true =>
      simp only [Bool.not_true, Bool.false_eq_true, if_false]
      split
      next e hlocate =>
        apply Step.missing hadmits
        apply leadsToNoFile_of_locate
        intro place hplace
        rw [hlocate] at hplace
        cases hplace
      next place hlocate =>
        have hleads : v.leadsTo t key place = true := leadsTo_iff.mpr ⟨hadmits, hlocate⟩
        split
        next bytes hfind =>
          split
          next content hdecode =>
            split
            next hsame => exact .unchanged hleads ⟨bytes, hfind, hdecode⟩ hsame
            next hchanged => exact .replaced hleads hfind hdecode hchanged
          next hdecode => exact .unreadable hleads hfind hdecode
        next hnofile =>
          apply Step.missing hadmits
          apply leadsToNoFile_of_locate
          intro place' hplace
          obtain rfl : place = place' := by simpa using hlocate.symm.trans hplace
          cases hfile : t.isFile place with
          | false => rfl
          | true =>
              obtain ⟨bytes, hfind⟩ := Tree.isFile_iff.mp hfile
              exact absurd hfind (hnofile bytes)

/-- A step can end in one way only. -/
theorem Step.update_eq {accepted : List Suggestion} {result : Tree × Outcome}
    (h : Step t v o stamp key accepted result) : v.update t o stamp key accepted = result := by
  cases h with
  | refused hadmits => simp [update, hadmits]
  | missing hadmits hnone =>
      rw [update, hadmits]
      cases hlocate : v.locate t key with
      | error e => rfl
      | ok place =>
          have hfile := hnone place (leadsTo_iff.mpr ⟨hadmits, hlocate⟩)
          cases hfind : t.find? place with
          | none => simp [hfind]
          | some e =>
              cases e with
              | directory => simp [hfind]
              | file bytes =>
                  rw [Tree.isFile_iff.mpr ⟨bytes, hfind⟩] at hfile
                  cases hfile
  | unreadable hleads hfind hdecode =>
      simp [update, (leadsTo_iff.mp hleads).1, (leadsTo_iff.mp hleads).2, hfind, hdecode]
  | unchanged hleads htext hsame =>
      obtain ⟨bytes, hfind, hdecode⟩ := htext
      simp [update, (leadsTo_iff.mp hleads).1, (leadsTo_iff.mp hleads).2, hfind, hdecode, hsame]
  | replaced hleads hfind hdecode hchanged =>
      simp [update, (leadsTo_iff.mp hleads).1, (leadsTo_iff.mp hleads).2, hfind, hdecode, hchanged]

/-! ## One key after another -/

/-- The entries with suggestions that are accepted. -/
def asked (o : ApplyOptions) (l : List (Text × List Suggestion)) :
    List (Text × List Suggestion) :=
  l.filter fun e => !(accepted o e.2).isEmpty

theorem updateAll_cons_of_isEmpty (h : (accepted o suggestions).isEmpty = true) :
    v.updateAll t o clock ((key, suggestions) :: rest) = v.updateAll t o clock rest :=
  if_pos h

theorem updateAll_cons (h : (accepted o suggestions).isEmpty = false) :
    v.updateAll t o clock ((key, suggestions) :: rest) =
      ((v.updateAll (v.update t o (clock.stamp key) key (accepted o suggestions)).1 o clock rest).1,
        (key, (v.update t o (clock.stamp key) key (accepted o suggestions)).2) ::
          (v.updateAll (v.update t o (clock.stamp key) key (accepted o suggestions)).1
            o clock rest).2) :=
  if_neg (Bool.eq_false_iff.mp h)

/-- Keys without accepted suggestions are passed over. -/
theorem updateAll_asked (t : Tree) (v : Vault) (o : ApplyOptions) (clock : Clock)
    (l : List (Text × List Suggestion)) :
    v.updateAll t o clock (asked o l) = v.updateAll t o clock l := by
  induction l generalizing t with
  | nil => rfl
  | cons e rest ih =>
      obtain ⟨key, suggestions⟩ := e
      cases hempty : (accepted o suggestions).isEmpty with
      | true =>
          have hskip : asked o ((key, suggestions) :: rest) = asked o rest := by
            simp [asked, hempty]
          rw [hskip, updateAll_cons_of_isEmpty hempty, ih]
      | false =>
          have hkeep : asked o ((key, suggestions) :: rest) =
              (key, suggestions) :: asked o rest := by
            simp [asked, hempty]
          rw [hkeep, updateAll_cons hempty, updateAll_cons hempty, ih]

/-- Every key with accepted suggestions has one outcome, in their order. -/
theorem map_fst_updateAll (t : Tree) (v : Vault) (o : ApplyOptions) (clock : Clock)
    (l : List (Text × List Suggestion)) :
    (v.updateAll t o clock l).2.map Prod.fst = (asked o l).map Prod.fst := by
  induction l generalizing t with
  | nil => rfl
  | cons e rest ih =>
      obtain ⟨key, suggestions⟩ := e
      cases hempty : (accepted o suggestions).isEmpty with
      | true => simpa [asked, hempty, updateAll_cons_of_isEmpty hempty] using ih t
      | false =>
          simpa [asked, hempty, updateAll_cons hempty] using
            ih (v.update t o (clock.stamp key) key (accepted o suggestions)).1

theorem exists_asked_of_mem_updateAll {x : Outcome}
    (h : (key, x) ∈ (v.updateAll t o clock l).2) :
    ∃ suggestions, (key, suggestions) ∈ asked o l := by
  have hkey : key ∈ (asked o l).map Prod.fst := by
    rw [← map_fst_updateAll t v o clock l]
    exact List.mem_map_of_mem h
  obtain ⟨⟨key', suggestions⟩, hasked, rfl⟩ := List.mem_map.mp hkey
  exact ⟨suggestions, hasked⟩

theorem accepted_isEmpty_of_mem_asked (h : (key, suggestions) ∈ asked o l) :
    (accepted o suggestions).isEmpty = false := by
  simpa using (List.mem_filter.mp h).2

/-- Entries are gone over in the tree that the ones in front have left. -/
theorem updateAll_append (t : Tree) (v : Vault) (o : ApplyOptions) (clock : Clock)
    (before behind : List (Text × List Suggestion)) :
    v.updateAll t o clock (before ++ behind) =
      ((v.updateAll (v.updateAll t o clock before).1 o clock behind).1,
        (v.updateAll t o clock before).2 ++
          (v.updateAll (v.updateAll t o clock before).1 o clock behind).2) := by
  induction before generalizing t with
  | nil => rfl
  | cons e before ih =>
      obtain ⟨first, others⟩ := e
      rw [List.cons_append]
      cases hempty : (accepted o others).isEmpty with
      | true => rw [updateAll_cons_of_isEmpty hempty, updateAll_cons_of_isEmpty hempty, ih]
      | false => rw [updateAll_cons hempty, updateAll_cons hempty, ih, List.cons_append]

/-- The outcome of a key is what becomes of it in the tree that the keys in front of it have
left. -/
theorem mem_updateAll (t : Tree) {before behind : List (Text × List Suggestion)}
    (h : (accepted o suggestions).isEmpty = false) :
    (key, (v.update (v.updateAll t o clock before).1 o (clock.stamp key) key
        (accepted o suggestions)).2) ∈
      (v.updateAll t o clock (before ++ (key, suggestions) :: behind)).2 := by
  rw [updateAll_append, updateAll_cons h]
  exact List.mem_append_right _ List.mem_cons_self

end Vault

end NoteLinks
