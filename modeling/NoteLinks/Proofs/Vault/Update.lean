/-
# What applying suggestions does to a vault

Going over the suggestions of one note changes the file of this note and nothing else. The
suggestions of a map are for different notes, so it does not matter that they are applied one
after another: in the end every note has the text that is planned for it from the text it had,
and there are the same notes as before.
-/
import NoteLinks.Proofs.Vault.Notes
import NoteLinks.Proofs.Vault.Report

namespace NoteLinks

open Insertion (Plan)

/-- The file at a place has been given a text, and nothing else has changed. -/
theorem Tree.hasText_overwrite {t : Tree} {place : Place} {content : Text}
    (h : t.HasText place content) (new : Text) :
    (t.overwrite place (Text.encode new)).HasText place new ∧
      ∀ p, p ≠ place → (t.overwrite place (Text.encode new)).find? p = t.find? p := by
  obtain ⟨bytes, hfind, -⟩ := h
  have hfile : t.isFile place = true := by rw [isFile, hfind]
  refine ⟨⟨_, ?_, Text.decode?_encode new⟩, ?_⟩
  · rw [find?_overwrite hfile, if_pos rfl]
  · intro p hp
    rw [find?_overwrite hfile, if_neg hp]

namespace Vault

variable {t : Tree} {v : Vault} {o : ApplyOptions} {content : Text} {names : Place}
  {excluded : List Text}

/-- One note gets the text that is planned for it. -/
theorem hasText_update (stamp : Text) (hdry : o.dryRun = false) (hbackup : o.backup = false)
    (hne : names ≠ []) (h : t.HasText (v.place ++ names) content) (accepted : List Suggestion) :
    (v.update t o stamp (keyOf names) accepted).1.HasText (v.place ++ names)
        (Plan.make o.style content accepted).content ∧
      ∀ p, p ≠ v.place ++ names →
        (v.update t o stamp (keyOf names) accepted).1.find? p = t.find? p := by
  have hadmits := admits_keyOf hne (Tree.isName_of_isSome h.isSome)
  have hlocate := locate_keyOf hne h.isSome
  have hoverwrite := Tree.hasText_overwrite h (Plan.make o.style content accepted).content
  obtain ⟨bytes, hfind, hdecode⟩ := h
  simp only [update, hadmits, hlocate, hfind, hdecode, Bool.not_true, Bool.false_eq_true, if_false]
  split
  next hsame => exact ⟨⟨bytes, hfind, by rw [hsame, hdecode]⟩, fun _ _ => rfl⟩
  next =>
    simp only [replace, hdry, hbackup, Bool.false_eq_true, if_false]
    exact hoverwrite

/-- The suggestions that are accepted for a note. -/
def accepted (o : ApplyOptions) (suggestions : List Suggestion) : List Suggestion :=
  suggestions.filter fun s => s.confidence.atLeast o.floor

/-- Nothing is below the lowest floor. -/
theorem accepted_of_low (h : o.floor = .low) (suggestions : List Suggestion) :
    accepted o suggestions = suggestions := by
  refine List.filter_eq_self.mpr fun s _ => ?_
  rw [h]
  exact decide_eq_true (Nat.zero_le s.confidence.rank)

theorem exists_updateAll_cons (clock : Clock) (hdry : o.dryRun = false)
    (hbackup : o.backup = false) (hne : names ≠ []) (h : t.HasText (v.place ++ names) content)
    (suggestions : List Suggestion) (rest : List (Text × List Suggestion)) :
    ∃ t₁, (v.updateAll t o clock ((keyOf names, suggestions) :: rest)).1 =
        (v.updateAll t₁ o clock rest).1 ∧
      t₁.HasText (v.place ++ names)
        (Plan.make o.style content (accepted o suggestions)).content ∧
      ∀ p, p ≠ v.place ++ names → t₁.find? p = t.find? p := by
  rw [updateAll]
  change ∃ t₁, (if (accepted o suggestions).isEmpty then _ else _ : Tree × _).1 = _ ∧ _
  split
  next hempty =>
    rw [List.isEmpty_iff.mp hempty]
    exact ⟨t, rfl, h, fun _ _ => rfl⟩
  next =>
    obtain ⟨htext, hother⟩ :=
      hasText_update (clock.stamp (keyOf names)) hdry hbackup hne h (accepted o suggestions)
    exact ⟨_, rfl, htext, hother⟩

/-- Every note gets the text that is planned for it, and nothing else changes. -/
theorem hasText_updateAll (clock : Clock) (hdry : o.dryRun = false) (hbackup : o.backup = false)
    {l : List (Text × List Suggestion)} (hkeys : (l.map Prod.fst).Nodup)
    (hnotes : ∀ e ∈ l, ∃ names content, names ≠ [] ∧ keyOf names = e.1 ∧
      t.HasText (v.place ++ names) content) :
    (∀ names content suggestions, (keyOf names, suggestions) ∈ l → names ≠ [] →
        t.HasText (v.place ++ names) content →
        (v.updateAll t o clock l).1.HasText (v.place ++ names)
          (Plan.make o.style content (accepted o suggestions)).content) ∧
      ∀ p, (∀ names, keyOf names ∈ l.map Prod.fst → p ≠ v.place ++ names) →
        (v.updateAll t o clock l).1.find? p = t.find? p := by
  induction l generalizing t with
  | nil => exact ⟨fun _ _ _ hmem => (List.not_mem_nil hmem).elim, fun _ _ => rfl⟩
  | cons e rest ih =>
      obtain ⟨key, suggestions⟩ := e
      rw [List.map_cons, List.nodup_cons] at hkeys
      obtain ⟨hfirst, hothers⟩ := List.forall_mem_cons.mp hnotes
      obtain ⟨names₁, content₁, hne₁, rfl, htext₁⟩ := hfirst
      obtain ⟨t₁, hrest, hplanned, hother⟩ :=
        exists_updateAll_cons clock hdry hbackup hne₁ htext₁ suggestions rest
      -- The other notes of the map are still as they were.
      have hplace {names : Place} (hmem : keyOf names ∈ rest.map Prod.fst) :
          v.place ++ names ≠ v.place ++ names₁ := by
        intro heq
        obtain rfl := List.append_cancel_left heq
        exact hkeys.1 hmem
      have hnotes₁ : ∀ e ∈ rest, ∃ names content, names ≠ [] ∧ keyOf names = e.1 ∧
          t₁.HasText (v.place ++ names) content := by
        intro e he
        obtain ⟨names, content, hne, hkey, htext⟩ := hothers e he
        have hmem : keyOf names ∈ rest.map Prod.fst := hkey ▸ List.mem_map_of_mem he
        exact ⟨names, content, hne, hkey, htext.of_find?_eq (hother _ (hplace hmem))⟩
      obtain ⟨ihtext, ihother⟩ := ih hkeys.2 hnotes₁
      rw [hrest]
      refine ⟨?_, ?_⟩
      · intro names content more hmem hne htext
        rcases List.mem_cons.mp hmem with heq | hmem
        · obtain ⟨hkey, rfl⟩ := Prod.mk.inj heq
          obtain rfl := keyOf_injective hne hne₁ (Tree.isName_of_isSome htext.isSome)
            (Tree.isName_of_isSome htext₁.isSome) hkey
          obtain rfl := htext.unique htext₁
          exact hplanned.of_find?_eq (ihother _ fun _ hmem heq => hplace hmem heq.symm)
        · have hkey : keyOf names ∈ rest.map Prod.fst := List.mem_map_of_mem hmem
          exact ihtext names content more hmem hne (htext.of_find?_eq (hother _ (hplace hkey)))
      · intro p hp
        rw [ihother p fun names hmem => hp names (List.mem_cons_of_mem _ hmem),
          hother p (hp names₁ List.mem_cons_self)]

section Apply

variable (clock : Clock) {m : SuggestionMap}

/-- Every note of the vault gets the text that is planned for it, and nothing else changes. -/
theorem hasText_apply (hdry : o.dryRun = false) (hbackup : o.backup = false)
    (hnotes : ∀ key ∈ m.keys, ∃ names content, keyOf names = key ∧
      HasNote t v excluded names content) :
    (∀ names content, HasNote t v excluded names content →
        (v.apply t o clock m).1.HasText (v.place ++ names)
          (Plan.make o.style content (accepted o ((m.find? (keyOf names)).getD []))).content) ∧
      ∀ p, (∀ names, keyOf names ∈ m.keys → p ≠ v.place ++ names) →
        (v.apply t o clock m).1.find? p = t.find? p := by
  have htree : (v.apply t o clock m).1 = (v.updateAll t o clock m.entries).1 := fst_apply
  obtain ⟨hplanned, hother⟩ := hasText_updateAll (t := t) (v := v) clock hdry hbackup
    m.nodup_keys (by
      intro e he
      obtain ⟨names, content, hkey, hnote⟩ := hnotes e.1 (List.mem_map_of_mem he)
      exact ⟨names, content, hnote.place.ne_nil, hkey, hnote.text⟩)
  rw [← htree] at hplanned hother
  refine ⟨?_, hother⟩
  intro names content hnote
  cases hfind : m.find? (keyOf names) with
  | some suggestions =>
      exact hplanned names content suggestions (KeyMap.find?_eq_some_iff.mp hfind)
        hnote.place.ne_nil hnote.text
  | none =>
      refine hnote.text.of_find?_eq (hother _ ?_)
      rintro names' hmem heq
      obtain rfl := List.append_cancel_left heq
      have hkey := KeyMap.mem_keys_iff.mp hmem
      rw [hfind] at hkey
      cases hkey

/-- A file that is a note afterwards was one before. -/
theorem find?_apply_cases (hdry : o.dryRun = false) (hbackup : o.backup = false)
    (hnotes : ∀ key ∈ m.keys, ∃ names content, keyOf names = key ∧
      HasNote t v excluded names content)
    (hplace : IsNotePlace excluded names)
    (hsome : ((v.apply t o clock m).1.find? (v.place ++ names)).isSome) :
    (∃ content, HasNote t v excluded names content) ∨
      (v.apply t o clock m).1.find? (v.place ++ names) = t.find? (v.place ++ names) := by
  by_cases hmem : keyOf names ∈ m.keys
  · obtain ⟨names', content, hkey, hnote⟩ := hnotes _ hmem
    obtain rfl := keyOf_injective hplace.ne_nil hnote.place.ne_nil (Tree.isName_of_isSome hsome)
      (Tree.isName_of_isSome hnote.text.isSome) hkey.symm
    exact .inl ⟨content, hnote⟩
  · refine .inr ((hasText_apply clock hdry hbackup hnotes).2 _ ?_)
    rintro names' hmem' heq
    obtain rfl := List.append_cancel_left heq
    exact hmem hmem'

/-- After suggestions have been applied there are the same notes, each with the text that is
planned for it. -/
theorem hasNote_apply_iff (hdry : o.dryRun = false) (hbackup : o.backup = false)
    (hnotes : ∀ key ∈ m.keys, ∃ names content, keyOf names = key ∧
      HasNote t v excluded names content) :
    HasNote (v.apply t o clock m).1 v excluded names content ↔
      ∃ old, HasNote t v excluded names old ∧
        content = (Plan.make o.style old
          (accepted o ((m.find? (keyOf names)).getD []))).content := by
  have hafter := (hasText_apply clock hdry hbackup hnotes).1
  constructor
  · rintro ⟨hplace, htext⟩
    have hold : ∃ old, HasNote t v excluded names old := by
      rcases find?_apply_cases clock hdry hbackup hnotes hplace htext.isSome with hold | hsame
      · exact hold
      · exact ⟨content, hplace, htext.of_find?_eq hsame.symm⟩
    obtain ⟨old, hnote⟩ := hold
    exact ⟨old, hnote, htext.unique (hafter names old hnote)⟩
  · rintro ⟨old, hnote, rfl⟩
    exact ⟨hnote.place, hafter names old hnote⟩

/-- All notes are texts still. -/
theorem isReadable_apply (hdry : o.dryRun = false) (hbackup : o.backup = false)
    (hnotes : ∀ key ∈ m.keys, ∃ names content, keyOf names = key ∧
      HasNote t v excluded names content)
    (hreadable : v.IsReadable t excluded) :
    v.IsReadable (v.apply t o clock m).1 excluded := by
  intro names bytes hmem
  obtain ⟨hplace, hfind⟩ := mem_notes_iff.mp hmem
  rcases find?_apply_cases clock hdry hbackup hnotes hplace (by rw [hfind]; rfl) with
    ⟨old, hnote⟩ | hsame
  · obtain ⟨bytes', hfind', hdecode⟩ :=
      (hasText_apply clock hdry hbackup hnotes).1 names old hnote
    obtain rfl : bytes = bytes' := by simpa using hfind.symm.trans hfind'
    rw [hdecode]
    rfl
  · rw [hsame] at hfind
    exact hreadable names bytes (mem_notes_iff.mpr ⟨hplace, hfind⟩)

end Apply

end Vault

end NoteLinks
