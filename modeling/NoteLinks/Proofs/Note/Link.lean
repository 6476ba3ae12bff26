/-
# The parts of a link

What the functions that read a part of a link say about the text in front of
them: which text they take, and what they leave.
-/
import NoteLinks.Note.Link
import NoteLinks.Proofs.Text.Cutting

namespace NoteLinks.Link

/-- A label stands in brackets, is not empty and has no closing bracket. -/
theorem dropLabel?_eq_some_iff {t rest : Text} :
    dropLabel? t = some rest ↔
      ∃ label, label ≠ [] ∧ ']' ∉ label ∧ t = '[' :: label ++ ']' :: rest := by
  constructor
  · intro h
    unfold dropLabel? at h
    split at h
    next t =>
      split at h
      next c label after htake hdrop =>
        obtain rfl := Option.some.inj h
        have hlabel := Text.not_mem_takeWhile_ne ']' t
        rw [htake] at hlabel
        obtain ⟨-, ht⟩ := Text.dropWhile_ne_eq_cons_iff.mp hdrop
        rw [htake] at ht
        exact ⟨c :: label, by simp, hlabel, congrArg ('[' :: ·) ht⟩
      next => cases h
    next => cases h
  · rintro ⟨label, hne, hlabel, rfl⟩
    rw [List.cons_append, dropLabel?, Text.takeWhile_ne_append hlabel,
      Text.dropWhile_ne_append hlabel]
    cases label with
    | nil => exact absurd rfl hne
    | cons c label => rfl

theorem dropLabel?_cons_of_ne {c : Char} (hc : c ≠ '[') (t : Text) :
    dropLabel? (c :: t) = none := by
  unfold dropLabel?
  split
  next heq => exact absurd (List.cons.inj heq).1 hc
  next => rfl

/-- Nothing, or an alias with the bar in front of it. -/
inductive IsAlias : Text → Prop
  | none : IsAlias []
  | named (name : Text) (hne : name ≠ []) (hclosed : ']' ∉ name) : IsAlias ('|' :: name)

theorem IsAlias.not_mem {added : Text} (h : IsAlias added) : ']' ∉ added := by
  cases h with
  | none => exact List.not_mem_nil
  | named name _ hclosed => exact List.not_mem_cons_of_ne_of_not_mem (by decide) hclosed

/-- Behind an alias, or nothing, a closing bracket follows. -/
theorem dropAlias_append {added : Text} (h : IsAlias added) (rest : Text) :
    dropAlias (added ++ ']' :: rest) = ']' :: rest := by
  cases h with
  | none => rfl
  | named name hne hclosed =>
      obtain ⟨c, name, rfl⟩ := List.exists_cons_of_ne_nil hne
      have htake := Text.takeWhile_ne_append hclosed rest
      have hdrop := Text.dropWhile_ne_append hclosed rest
      unfold dropAlias
      simp only [List.cons_append] at htake hdrop ⊢
      rw [htake, hdrop]

/-- Behind what may be an alias there are two closing brackets. -/
theorem startsWith_dropAlias_iff {t : Text} :
    Text.startsWith [']', ']'] (dropAlias t) = true ↔
      ∃ added rest, IsAlias added ∧ t = added ++ ']' :: ']' :: rest := by
  rw [Text.startsWith_iff]
  constructor
  · rintro ⟨rest, hrest⟩
    unfold dropAlias at hrest
    split at hrest
    next t =>
      split at hrest
      next => exact ⟨[], rest, .none, hrest.symm⟩
      next c name htake =>
        obtain ⟨-, ht⟩ := Text.dropWhile_ne_eq_cons_iff.mp hrest.symm
        have hname := Text.not_mem_takeWhile_ne ']' t
        rw [htake] at ht hname
        exact ⟨'|' :: c :: name, rest, .named _ (by simp) hname, by rw [ht]; rfl⟩
    next => exact ⟨[], rest, .none, hrest.symm⟩
  · rintro ⟨added, rest, hadded, rfl⟩
    exact ⟨rest, (dropAlias_append hadded (']' :: rest)).symm⟩

/-! ## Links from their parts -/

/-- A wikilink means its target, whatever alias is added to it. -/
theorem recogniseWiki_append {target added : Text} (hne : target ≠ [])
    (htarget : ∀ c ∈ target, c ≠ ']' ∧ c ≠ '|') (hadded : IsAlias added) (rest : Text) :
    recogniseWiki ('[' :: '[' :: (target ++ (added ++ ']' :: ']' :: rest))) =
      some ⟨target, target.length + added.length + 4⟩ := by
  have hclear : ∀ c ∈ target, (c != ']' && c != '|') = true := by
    simpa only [Bool.and_eq_true, bne_iff_ne] using htarget
  have hstop : (added ++ ']' :: ']' :: rest).takeWhile (fun c => c != ']' && c != '|') = [] ∧
      (added ++ ']' :: ']' :: rest).dropWhile (fun c => c != ']' && c != '|') =
        added ++ ']' :: ']' :: rest := by
    cases hadded with
    | none => exact ⟨rfl, rfl⟩
    | named => exact ⟨rfl, rfl⟩
  obtain ⟨c, target, rfl⟩ := List.exists_cons_of_ne_nil hne
  have htake : (c :: target ++ (added ++ ']' :: ']' :: rest)).takeWhile
      (fun c => c != ']' && c != '|') = c :: target := by
    rw [List.takeWhile_append_of_pos hclear, hstop.1, List.append_nil]
  have hdrop : (c :: target ++ (added ++ ']' :: ']' :: rest)).dropWhile
      (fun c => c != ']' && c != '|') = added ++ ']' :: ']' :: rest := by
    rw [List.dropWhile_append_of_pos hclear, hstop.2]
  rw [recogniseWiki]
  simp only [htake, hdrop, dropAlias_append hadded, Option.some.injEq, Match.mk.injEq, true_and,
    List.length_append, List.length_cons]
  omega

/-- The path of a note has the extension of notes, and something in front of it. -/
def IsNotePath (t : Text) : Prop := ∃ stem, stem ≠ [] ∧ t = stem ++ ['.', 'm', 'd']

instance (t : Text) : Decidable (IsNotePath t) :=
  decidable_of_iff (∃ stem ∈ Text.dropSuffix? ['.', 'm', 'd'] t, stem ≠ [])
    ⟨fun ⟨stem, hstem, hne⟩ => ⟨stem, hne, Text.dropSuffix?_eq_some_iff.mp hstem⟩,
      fun ⟨stem, hne, hstem⟩ => ⟨stem, Text.dropSuffix?_eq_some_iff.mpr hstem, hne⟩⟩

/-- A label with something in parentheses behind it is a link if that is the path of a note. -/
theorem recogniseMarkdown_append {label target : Text} (hne : label ≠ []) (hlabel : ']' ∉ label)
    (htarget : ')' ∉ target) (rest : Text) :
    recogniseMarkdown ('[' :: label ++ ']' :: '(' :: (target ++ ')' :: rest)) =
      if IsNotePath target then some ⟨target, label.length + target.length + 4⟩ else none := by
  have hdrop : dropLabel? ('[' :: label ++ ']' :: '(' :: (target ++ ')' :: rest)) =
      some ('(' :: (target ++ ')' :: rest)) := dropLabel?_eq_some_iff.mpr ⟨label, hne, hlabel, rfl⟩
  have hlength : ('[' :: label ++ ']' :: '(' :: (target ++ ')' :: rest)).length - rest.length =
      label.length + target.length + 4 := by
    simp only [List.length_append, List.length_cons]
    omega
  by_cases hpath : IsNotePath target
  · obtain ⟨stem, hstem, hext⟩ := id hpath
    obtain ⟨c, stem, rfl⟩ := List.exists_cons_of_ne_nil hstem
    have hsuffix := Text.dropSuffix?_eq_some_iff.mpr hext
    rw [recogniseMarkdown, hdrop, if_pos hpath]
    simp only [Text.takeWhile_ne_append htarget, Text.dropWhile_ne_append htarget, hsuffix, hlength]
  · rw [recogniseMarkdown, hdrop, if_neg hpath]
    simp only [Text.takeWhile_ne_append htarget, Text.dropWhile_ne_append htarget]
    split
    next hsuffix _ =>
      exact absurd ⟨_, List.cons_ne_nil _ _, Text.dropSuffix?_eq_some_iff.mp hsuffix⟩ hpath
    next => rfl

end NoteLinks.Link
